import ViewCompiler.Proofs.Levels

/-!
# The Views That a Query Reads

Which views a compiled query reads, level by level.

A compiled query is a tree of selects, of which every other one reads a view:
the rows of a level come from a view, and the select around them from these
rows. `Select.selects` lists the selects of a tree, an outer one before those
inside it, so the views of a tree come in the order of the request's levels.

The flag that a level needs the authorized view is set while its fields and
its clauses are made, the flag that a level below needs one travels upwards
beside it, and the two must not be confused. `compileQuery_views` says that
they are not: every level reads the view that its own fields call for, and the
query as a whole needs authorization exactly if some level does.

## Main definitions

* `Select.selects`: The selects of a tree, itself included.
* `Select.views`: The views that a tree reads.

## Theorems

* `Predicate.selects_eq_nil`: A predicate holds the selects of its columns.
* `Select.views_assembleLevel`: The views of a level and of those below it.
* `compileQuery_views`: The views of a query are those of its levels.
-/

namespace ViewCompiler

open Json Sql Schema

namespace Sql

/-! ### The selects of a tree -/

mutual
/-- The selects in a column. -/
def Column.selects : Column → List Select
  | .physical _ _ => []
  | .param _ => []
  | .rowToJson _ => []
  | .jsonAgg c => c.selects
  | .subSelect s => s.selects
  | .array c _ => c.selects
  | .null => []
/-- The selects in the columns of a list. -/
def Column.selectsOfList : List Column → List Select
  | [] => []
  | c :: cs => c.selects ++ Column.selectsOfList cs
/-- The selects in a predicate. -/
def Predicate.selects : Predicate → List Select
  | .always => []
  | .never => []
  | .compare _ l r => l.selects ++ r.selects
  | .isIn c es => c.selects ++ Column.selectsOfList es
  | .isNull c => c.selects
  | .isNotNull c => c.selects
  | .and l r => l.selects ++ r.selects
/-- The selects in a column of a select. -/
def SelectItem.selects : SelectItem → List Select
  | ⟨c, _⟩ => c.selects
/-- The selects in the columns of a select. -/
def SelectItem.selectsOfList : List SelectItem → List Select
  | [] => []
  | i :: is => i.selects ++ SelectItem.selectsOfList is
/-- The selects in a source. -/
def Source.selects : Source → List Select
  | .view _ _ => []
  | .subSelect s _ => s.selects
/-- The selects in an optional source. -/
def Source.selectsOfOption : Option Source → List Select
  | none => []
  | some s => s.selects
/-- The selects in a sort column. -/
def OrderTerm.selects : OrderTerm → List Select
  | ⟨c, _⟩ => c.selects
/-- The selects in the columns of a sort. -/
def OrderTerm.selectsOfList : List OrderTerm → List Select
  | [] => []
  | t :: ts => t.selects ++ OrderTerm.selectsOfList ts
/-- The selects in an optional sort. -/
def OrderTerm.selectsOfOption : Option (List OrderTerm) → List Select
  | none => []
  | some ts => OrderTerm.selectsOfList ts
/-- The selects of a tree, an outer one before those inside it. -/
def Select.selects : Select → List Select
  | ⟨columns, source, predicate, orderBy, limit, offset⟩ =>
      ⟨columns, source, predicate, orderBy, limit, offset⟩ ::
        (SelectItem.selectsOfList columns ++ Source.selectsOfOption source ++ predicate.selects ++
          OrderTerm.selectsOfOption orderBy)
end

/-- The view that a select itself reads. -/
def Select.view? (s : Select) : Option ViewName :=
  match s.source with
  | some (.view v _) => some v
  | _ => none

/-- The views that a tree reads, those of an outer select first. -/
def Select.views (s : Select) : List ViewName :=
  s.selects.filterMap Select.view?

theorem Column.selectsOfList_eq_nil (cs : List Column) (h : ∀ c ∈ cs, c.selects = []) :
    Column.selectsOfList cs = [] := by
  induction cs with
  | nil => rfl
  | cons c rest ih =>
      rw [Column.selectsOfList, h c List.mem_cons_self,
        ih fun c' hc' => h c' (List.mem_cons_of_mem c hc')]
      rfl

/-- A predicate holds no select if none of its columns does. -/
theorem Predicate.selects_eq_nil (p : Predicate) (h : ∀ c ∈ p.columns, c.selects = []) :
    p.selects = [] := by
  match p with
  | .always => rfl
  | .never => rfl
  | .compare _ l r =>
      rw [Predicate.selects, h l List.mem_cons_self,
        h r (List.mem_cons_of_mem l List.mem_cons_self)]
      rfl
  | .isIn c es =>
      rw [Predicate.selects, h c List.mem_cons_self,
        Column.selectsOfList_eq_nil es fun c' hc' => h c' (List.mem_cons_of_mem c hc')]
      rfl
  | .isNull c => exact h c List.mem_cons_self
  | .isNotNull c => exact h c List.mem_cons_self
  | .and l r =>
      rw [Predicate.selects, Predicate.selects_eq_nil l fun c hc => h c (List.mem_append_left _ hc),
        Predicate.selects_eq_nil r fun c hc => h c (List.mem_append_right _ hc)]
      rfl

theorem OrderTerm.selectsOfList_eq_nil (ts : List OrderTerm) (h : ∀ t ∈ ts, t.column.selects = []) :
    OrderTerm.selectsOfList ts = [] := by
  induction ts with
  | nil => rfl
  | cons t rest ih =>
      rcases t with ⟨column, direction⟩
      rw [OrderTerm.selectsOfList, OrderTerm.selects, h ⟨column, direction⟩ List.mem_cons_self,
        ih fun t ht => h t (List.mem_cons_of_mem _ ht)]
      rfl

end Sql

/-! ### Clauses hold no select -/

theorem Level.column_selects (level : Level) (name : String) (g : Guarded Column)
    (h : level.column name = .ok g) : g.value.selects = [] := by
  rcases (level.column_eq_ok_iff name g).mp h with ⟨_, _, _, _, _, hvalue⟩
  rw [hvalue, Column.selects]

theorem matchPredicate_selects (constraint : Option Constraint) (typeName : String)
    (entity : Entity) (aliasName : String) (p : Predicate)
    (h : matchPredicate constraint typeName entity aliasName = .ok p) :
    ∀ c ∈ p.columns, c.selects = [] := by
  have hchild : ∀ (child : ChildColumn) (column : Column),
      child.toColumn typeName entity aliasName = .ok column → column.selects = [] := by
    intro child column hcolumn
    rw [child.toColumn_eq_ok typeName entity aliasName column hcolumn, Column.selects]
  intro c hc
  cases constraint with
  | none =>
      simp only [matchPredicate, Except.ok.injEq] at h
      rw [← h] at hc
      exact absurd hc List.not_mem_nil
  | some constraint =>
      cases constraint with
      | equals child operand =>
          simp only [matchPredicate, Constraint.predicate, bind_eq_ok_iff, pure, Except.pure,
            Except.ok.injEq] at h
          rcases h with ⟨column, hcolumn, rfl⟩
          cases operand with
          | column tableAlias name =>
              simp only [Operand.toColumn, Predicate.equal, Predicate.columns, List.mem_cons,
                List.not_mem_nil, or_false] at hc
              rcases hc with rfl | rfl
              · exact hchild child _ hcolumn
              · rw [Column.selects]
          | value v =>
              rcases Predicate.mem_columns_equal column v c (Or.inl hc) with rfl | ⟨text, rfl⟩
              · exact hchild child _ hcolumn
              · rw [Column.selects]
      | elementOf tableAlias arrayColumn child elementType =>
          simp only [matchPredicate, Constraint.predicate, bind_eq_ok_iff, pure, Except.pure,
            Except.ok.injEq] at h
          rcases h with ⟨column, hcolumn, rfl⟩
          simp only [Predicate.columns, List.mem_cons, List.not_mem_nil, or_false] at hc
          rcases hc with rfl | rfl
          · rw [Column.selects]
          · rw [Column.selects]
            exact hchild child column hcolumn

/-- The conditions of a level hold no select: all that is compared are columns
    of the level, columns of the level above, and bound texts. -/
theorem conj_columns_selects (level : Level) (args : List (String × Value))
    (constraint : Option Constraint) (clauses : Guarded Clauses) (matching : Predicate)
    (hclauses : level.clauses args = .ok clauses)
    (hmatching : matchPredicate constraint level.typeName level.entity level.aliasName =
      .ok matching) :
    ∀ c ∈ (matching.conj clauses.value.predicate).columns, c.selects = [] := by
  intro c hc
  rcases Predicate.mem_columns_conj _ _ c hc with hleft | hright
  · exact matchPredicate_selects _ _ _ _ matching hmatching c hleft
  · rcases (level.clauses_asked args clauses hclauses).predicate with ⟨g, hg, hvalue⟩
    rw [hvalue] at hright
    rcases level.filter_columns _ g hg c hright with ⟨name, _, g', hg', rfl⟩ | ⟨text, rfl⟩
    · exact level.column_selects name g' hg'
    · rw [Column.selects]

theorem conj_selects_eq_nil (level : Level) (args : List (String × Value))
    (constraint : Option Constraint) (clauses : Guarded Clauses) (matching : Predicate)
    (hclauses : level.clauses args = .ok clauses)
    (hmatching : matchPredicate constraint level.typeName level.entity level.aliasName =
      .ok matching) : (matching.conj clauses.value.predicate).selects = [] :=
  Predicate.selects_eq_nil _
    (conj_columns_selects level args constraint clauses matching hclauses hmatching)

theorem orderBy_columns_selects (level : Level) (args : List (String × Value))
    (clauses : Guarded Clauses) (hclauses : level.clauses args = .ok clauses) :
    ∀ term ∈ clauses.value.orderBy.getD [], term.column.selects = [] := by
  rcases (level.clauses_asked args clauses hclauses).orderBy with ⟨g, hg, hvalue⟩
  rw [hvalue]
  intro term hterm
  cases hterms : g.value with
  | none =>
      rw [hterms] at hterm
      exact absurd hterm List.not_mem_nil
  | some terms =>
      rw [hterms] at hterm
      rcases level.sort_columns _ g hg terms hterms term hterm with ⟨name, _, c, hc, heq⟩
      rw [heq]
      exact level.column_selects name c hc

theorem orderBy_selects_eq_nil (level : Level) (args : List (String × Value))
    (clauses : Guarded Clauses) (hclauses : level.clauses args = .ok clauses) :
    OrderTerm.selectsOfOption clauses.value.orderBy = [] := by
  have hcolumns := orderBy_columns_selects level args clauses hclauses
  cases horder : clauses.value.orderBy with
  | none => rfl
  | some terms =>
      rw [horder] at hcolumns
      exact OrderTerm.selectsOfList_eq_nil terms hcolumns

/-! ### The views of a level -/

/-- A level reads its view, and besides only what its columns read. -/
theorem Sql.Select.views_assembleLevel (schema : Schema) (fetch : Fetch) (level : Level)
    (next : Nat) (fields : List (String × QueryNode)) (args : List (String × Value))
    (constraint : Option Constraint) (selected : ResolvedFields) (clauses : Guarded Clauses)
    (matching : Predicate) (hselected : resolveFields schema level next fields = .ok selected)
    (hclauses : level.clauses args = .ok clauses)
    (hmatching : matchPredicate constraint level.typeName level.entity level.aliasName =
      .ok matching) :
    (assembleLevel schema fetch level selected clauses matching).select.views =
      (RequestLevel.selecting level.entity fields args).view schema ::
        (SelectItem.selectsOfList selected.columns).filterMap Select.view? := by
  have hsource := (assembleLevel_view schema fetch level next fields args selected clauses matching
    hselected hclauses).1
  have hpredicate := conj_selects_eq_nil level args constraint clauses matching hclauses hmatching
  have horder := orderBy_selects_eq_nil level args clauses hclauses
  unfold Select.views
  generalize hs : (assembleLevel schema fetch level selected clauses matching).select = s
    at hsource ⊢
  have hview : s.view? = some ((RequestLevel.selecting level.entity fields args).view schema) := by
    rw [Select.view?, hsource]
  -- Neither the conditions nor the sort hold a select.
  have hselects : s.selects = s :: SelectItem.selectsOfList selected.columns := by
    rw [← hs]
    simp only [assembleLevel, Select.selects, Source.selectsOfOption, Source.selects, hpredicate,
      horder, List.append_nil]
  rw [hselects, List.filterMap_cons, hview]

/-- The JSON around the rows of a level reads nothing but these rows. -/
theorem levelColumn_views (fetch : Fetch) (aliasName : String) (rows : Select)
    (resultKey : String) :
    (levelColumn fetch aliasName rows resultKey).selects.filterMap Select.view? = rows.views := by
  have hselects : ∀ column : Column, column.selects = [] →
      (Select.ofSource [⟨column, none⟩] (.subSelect rows aliasName)).selects =
        Select.ofSource [⟨column, none⟩] (.subSelect rows aliasName) :: rows.selects := by
    intro column hcolumn
    simp only [Select.ofSource, Select.selects, SelectItem.selectsOfList, SelectItem.selects,
      hcolumn, Source.selectsOfOption, Source.selects, Predicate.selects,
      OrderTerm.selectsOfOption, List.nil_append, List.append_nil]
  rw [levelColumn, SelectItem.selects, Column.selects]
  cases fetch with
  | row =>
      have hcolumn : (Column.rowToJson aliasName).selects = [] := by rw [Column.selects]
      simp only [asJson, hselects _ hcolumn, List.filterMap_cons]
      rfl
  | aggregation =>
      have hcolumn : (Column.jsonAgg (.rowToJson aliasName)).selects = [] := by
        rw [Column.selects, Column.selects]
      simp only [asJson, hselects _ hcolumn, List.filterMap_cons]
      rfl

/-- A query reads what its outermost level reads. -/
theorem Sql.Select.views_expression (item : SelectItem) :
    (Select.expression [item]).views = item.selects.filterMap Select.view? := by
  simp only [Select.views, Select.expression, Select.selects, SelectItem.selectsOfList,
    Source.selectsOfOption, Predicate.selects, OrderTerm.selectsOfOption, List.append_nil,
    List.filterMap_cons]
  rfl

/-- Every level of a request reads the view it has to, and the flag that goes
    upwards says whether one of them is an authorized view. By induction over
    the request; the levels below come from the relations among the fields. -/
theorem resolve_views (schema : Schema) :
    (∀ (node : QueryNode) (authenticated : Bool) (fetch : Fetch) (position : Position)
      (constraint : Option Constraint) (next : Nat) (r : Resolved),
      resolveLevel schema authenticated fetch position constraint next node = .ok r →
        r.select.views = (node.levels schema).map (RequestLevel.view schema) ∧
          (r.authRequired = true ↔ ∃ level ∈ node.levels schema, level.UsesRestricted)) ∧
    ∀ (fields : List (String × QueryNode)) (level : Level) (next : Nat) (r : ResolvedFields),
      resolveFields schema level next fields = .ok r →
        (SelectItem.selectsOfList r.columns).filterMap Select.view? =
            (QueryNode.levelsBelow schema level.entity fields).map (RequestLevel.view schema) ∧
          (r.authBelow = true ↔
            ∃ below ∈ QueryNode.levelsBelow schema level.entity fields, below.UsesRestricted) := by
  refine QueryNode.induction ?_ ?_ ?_ ?_
  · intro name aliasName args authenticated fetch position constraint next r h
    simp only [resolveLevel, reduceCtorEq] at h
  · intro name aliasName typeName fields more args ih authenticated fetch position constraint next
      r h
    rcases resolveLevel_eq_ok schema authenticated fetch position constraint next name aliasName
      typeName fields more args r h with
      ⟨entity, selected, clauses, matching, hentity, hselected, hclauses, hmatching, rfl⟩
    -- The level itself comes first, and those below it are its fields' levels.
    rcases ih _ _ selected hselected with ⟨hviews, hauth⟩
    have hlevels : QueryNode.levels schema ⟨name, aliasName, (typeName, fields) :: more, args⟩ =
        RequestLevel.selecting entity fields args ::
          QueryNode.levelsBelow schema entity fields := by
      rw [QueryNode.levels, hentity]
    rw [hlevels]
    constructor
    · rw [Select.views_assembleLevel schema fetch _ _ fields args constraint selected clauses
        matching hselected hclauses hmatching, hviews, List.map_cons]
    · rw [(assembleLevel_view schema fetch _ _ fields args selected clauses matching hselected
        hclauses).2, hauth]
      simp only [List.mem_cons, exists_eq_or_imp]
  · intro level next r h
    simp only [resolveFields, Except.ok.injEq] at h
    rw [← h]
    simp [SelectItem.selectsOfList, QueryNode.levelsBelow]
  · intro key node rest ihnode ihrest level next r h
    rcases resolveFields_cons_eq_ok schema level next key node rest r h with
      ⟨field, hfield, ⟨hrel, others, hothers, rfl⟩ |
        ⟨use, fetch, constraint, below, others, hrel, _, hbelow, hothers, rfl⟩⟩
    -- A field that stands for no relation adds no level.
    · rcases ihrest level next others hothers with ⟨hviews, hauth⟩
      have hlevels : QueryNode.levelsBelow schema level.entity ((key, node) :: rest) =
          QueryNode.levelsBelow schema level.entity rest := by
        rw [QueryNode.levelsBelow, ((level.field_eq_ok_iff node.name field).mp hfield).1]
        simp only [Option.bind_some, hrel, Option.isSome_none, Bool.false_eq_true, if_false,
          List.nil_append]
      rw [hlevels]
      exact ⟨hviews, hauth⟩
    -- A relation adds the levels of its node before those of the other fields.
    · rcases ihnode _ _ _ _ _ below hbelow with ⟨hviewsNode, hauthNode⟩
      rcases ihrest level below.next others hothers with ⟨hviews, hauth⟩
      have hlevels : QueryNode.levelsBelow schema level.entity ((key, node) :: rest) =
          node.levels schema ++ QueryNode.levelsBelow schema level.entity rest := by
        rw [QueryNode.levelsBelow, ((level.field_eq_ok_iff node.name field).mp hfield).1]
        simp only [Option.bind_some, hrel, Option.isSome_some, if_true]
      rw [hlevels]
      constructor
      · simp only [ResolvedFields.addLevel, SelectItem.selectsOfList, List.filterMap_append,
          levelColumn_views, hviewsNode, hviews, List.map_append]
      · simp only [ResolvedFields.addLevel, Bool.or_eq_true, hauthNode, hauth, List.mem_append,
          or_and_right, exists_or]

/-- The choice of views. Each level of a compiled query reads the authorized
    view of its entity if it uses a restricted field itself, and the public
    one otherwise, whatever the levels around it do. The query needs
    authorization exactly if some level uses a restricted field, so its answer
    is for everyone exactly if all levels make do with their public views.
    Where the two views of an entity have different names, that can be told
    from the statement. -/
theorem compileQuery_views (schema : Schema) (minDepth : Nat) (authenticated : Bool)
    (constraint : Option Constraint) (node : QueryNode) (c : CompiledQuery)
    (h : schema.compileQuery minDepth authenticated constraint node = .ok c) :
    c.statement.views = (node.levels schema).map (RequestLevel.view schema) ∧
      (c.authRequired = true ↔ ∃ level ∈ node.levels schema, level.UsesRestricted) ∧
      (c.cachePolicy = .everyone ↔ ∀ level ∈ node.levels schema, ¬ level.UsesRestricted) ∧
      ((∀ level ∈ node.levels schema, level.entity.authViewName ≠ level.entity.publicViewName) →
        (c.cachePolicy = .everyone ↔
          c.statement.views = (node.levels schema).map (RequestLevel.publicView schema))) := by
  simp only [Schema.compileQuery, bind_eq_ok_iff, pure, Except.pure, Except.ok.injEq] at h
  rcases h with ⟨r, hr, rfl⟩
  rcases (resolve_views schema).1 node authenticated .aggregation .top constraint 0 r hr with
    ⟨hviews, hauth⟩
  have hstatement : (Select.expression
      [levelColumn .aggregation (localAlias 0) r.select node.resultKey]).views =
        (node.levels schema).map (RequestLevel.view schema) := by
    rw [Select.views_expression, levelColumn_views, hviews]
  have hnone : r.authRequired = false ↔ ∀ level ∈ node.levels schema, ¬ level.UsesRestricted := by
    rw [← Bool.not_eq_true, hauth]
    exact ⟨fun h level hlevel huses => h ⟨level, hlevel, huses⟩,
      fun h ⟨level, hlevel, huses⟩ => h level hlevel huses⟩
  have hpolicy : CachePolicy.ofQuery r.authRequired = .everyone ↔
      ∀ level ∈ node.levels schema, ¬ level.UsesRestricted := by
    rw [← hnone]
    cases r.authRequired <;> simp [CachePolicy.ofQuery]
  refine ⟨hstatement, hauth, hpolicy, fun hnames => hpolicy.trans ?_⟩
  rw [hstatement, List.map_inj_left]
  constructor
  · intro h level hlevel
    rw [RequestLevel.view, if_neg (h level hlevel)]
  -- The authorized view would have to have the name of the public one.
  · intro hpublic level hlevel huses
    have hview := hpublic level hlevel
    rw [RequestLevel.view, if_pos huses] at hview
    exact hnames level hlevel (congrArg ViewName.name hview)

/-- Of the blog, only the level whose filter looks at addresses reads an
    authorized view. The users inside of it, as authors, do not. -/
theorem compileQuery_views_blog :
    ∃ c, Blog.schema.compileQuery 3 true none Blog.request = .ok c ∧
      c.statement.views =
        [⟨"views", "user_auth"⟩, ⟨"archive", "post_public"⟩, ⟨"views", "user_public"⟩] ∧
      (c.authRequired = true ↔
        ∃ level ∈ Blog.request.levels Blog.schema, level.UsesRestricted) ∧
      (c.cachePolicy = .everyone ↔ c.statement.views =
        (Blog.request.levels Blog.schema).map (RequestLevel.publicView Blog.schema)) := by
  have hcompiles : ∃ c, Blog.schema.compileQuery 3 true none Blog.request = .ok c := ⟨_, rfl⟩
  rcases hcompiles with ⟨c, hc⟩
  rcases compileQuery_views Blog.schema 3 true none Blog.request c hc with
    ⟨hviews, hauth, _, hpublic⟩
  exact ⟨c, hc, hviews.trans (by decide), hauth, hpublic (by decide)⟩

end ViewCompiler
