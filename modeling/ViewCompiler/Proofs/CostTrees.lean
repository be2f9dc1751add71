import ViewCompiler.Proofs.Depth

/-!
# What a Cost Tree Shows

That the cost tree of a query is a picture of its statement.

Resolving a request builds two trees at once. The statement nests a level as a column
of the level above, under the name of its result. The cost tree nests it as a child
under the same name, but there a name can be had only once, so siblings of one name
leave one child. Where the relations of each level have different names nothing is
lost, and the two trees have the same shape.

`CostTree.Mirrors` says what that means, level by level and along the request: a node of
the cost tree belongs to the rows of a level. It is of the kind in which these rows are
turned into JSON, it has the table of the entity whose view they come from, and it has
the bound that they are written with. Its children belong to the columns that hold
nested levels, which are the relations among the fields, one by one and in their order.
Plain fields have no child.

The relation leaves nothing open. The rows of a level have one mirror
(`mirrors_unique`), so the cost tree could as well be read off the statement.

## Main definitions

* `Sql.Select.BoundedBy`: The bound that a query is written with.
* `CostTree.Mirrors`, `CostTree.MirrorsBelow`: A cost tree and the rows of a level.
* `CostTree.size`: The number of nodes of a cost tree.

## Theorems

* `Sql.Select.boundedBy_iff`: A query is written with its own bound.
* `mirrors_unique`: The rows of a level have one mirror.
* `mirrors_size`: A mirror has a node for each level.
* `resolve_mirrors`: The cost tree of a level mirrors its rows.
* `compileQuery_cost`: The cost tree of a query mirrors its statement.
-/

namespace ViewCompiler

open Json Sql Schema

/-! ### Bounds -/

namespace Sql

/-- A query is written with the clause that bounds its rows by a parameter for the
    given number, or without such a clause if there is no number. -/
def Select.BoundedBy (s : Select) (limit : Option Int) : Prop :=
  s.pieces true = ({ s with limit := none, offset := none } : Select).pieces true ++
    clausePieces (limit.map limitPieces) ++ clausePieces (s.offset.map offsetPieces)

theorem clausePieces_limit_injective (limit limit' : Option Int)
    (h : clausePieces (limit.map limitPieces) = clausePieces (limit'.map limitPieces)) :
    limit = limit' := by
  cases limit <;> cases limit' <;> simp_all [clausePieces, limitPieces]

/-- The page is the last that is written of a query. -/
theorem Select.pieces_page (qualified : Bool) (s : Select) :
    s.pieces qualified = ({ s with limit := none, offset := none } : Select).pieces qualified ++
      clausePieces (s.limit.map limitPieces) ++ clausePieces (s.offset.map offsetPieces) := by
  rcases s with ⟨columns, source, predicate, orderBy, limit, offset⟩
  rw [Select.pieces_eq, Select.pieces_eq]
  simp only [Option.map_none, clausePieces, List.append_nil, List.cons_append, List.append_assoc]

/-- A query is written with its own bound and with no other. -/
theorem Select.boundedBy_iff (s : Select) (limit : Option Int) :
    s.BoundedBy limit ↔ s.limit = limit := by
  constructor
  · intro h
    rw [Select.BoundedBy, s.pieces_page, List.append_left_inj, List.append_right_inj] at h
    exact clausePieces_limit_injective s.limit limit h
  · rintro rfl
    exact s.pieces_page true

end Sql

/-! ### Mirrors -/

mutual
/-- A node of a cost tree that shows the rows of a node's level, which are fetched in
    the given way. -/
inductive CostTree.Mirrors (schema : Schema) : QueryNode → Fetch → Select → CostTree → Prop where
  | level (name : String) (aliasName : Option String) (typeName : String) (entity : Entity)
      (fields : List (String × QueryNode)) (more : List (String × List (String × QueryNode)))
      (args : List (String × Value)) (fetch : Fetch) (rows : Select) (rowsAlias : String)
      (tree : CostTree) (hentity : schema.entity? typeName = some entity)
      (hsource : rows.source =
        some (.view ((RequestLevel.selecting entity fields args).view schema) rowsAlias))
      (hfetch : tree.fetch = fetch)
      (htable : (⟨tree.tableSchemaName, tree.tableName⟩ : TableName) = entity.table)
      (hlimit : rows.BoundedBy tree.limit)
      (hbelow : CostTree.MirrorsBelow schema entity fields rows.columns tree.children) :
      CostTree.Mirrors schema ⟨name, aliasName, (typeName, fields) :: more, args⟩ fetch rows tree
/-- Children of a node of a cost tree that show the columns of a level, as far as these
    hold nested levels. -/
inductive CostTree.MirrorsBelow (schema : Schema) : Entity → List (String × QueryNode) →
    List SelectItem → List (String × CostTree) → Prop where
  | nil (entity : Entity) : CostTree.MirrorsBelow schema entity [] [] []
  | plain (entity : Entity) (key : String) (node : QueryNode) (rest : List (String × QueryNode))
      (column : Column) (columns : List SelectItem) (children : List (String × CostTree))
      (hrelation : entity.isRelation node.name = false) (hcolumn : column.selects = [])
      (hrest : CostTree.MirrorsBelow schema entity rest columns children) :
      CostTree.MirrorsBelow schema entity ((key, node) :: rest)
        (⟨column, some node.resultKey⟩ :: columns) children
  | related (entity : Entity) (key : String) (node : QueryNode)
      (rest : List (String × QueryNode)) (fetch : Fetch) (jsonAlias : String) (rows : Select)
      (tree : CostTree) (columns : List SelectItem) (children : List (String × CostTree))
      (hrelation : entity.isRelation node.name = true)
      (hnode : CostTree.Mirrors schema node fetch rows tree)
      (hrest : CostTree.MirrorsBelow schema entity rest columns children) :
      CostTree.MirrorsBelow schema entity ((key, node) :: rest)
        (levelColumn fetch jsonAlias rows node.resultKey :: columns)
        ((node.resultKey, tree) :: children)
end

/-- Children that show the columns of a level, seen from its first field. -/
theorem CostTree.mirrorsBelow_cons (schema : Schema) (entity : Entity) (key : String)
    (node : QueryNode) (rest : List (String × QueryNode)) (columns : List SelectItem)
    (children : List (String × CostTree))
    (h : CostTree.MirrorsBelow schema entity ((key, node) :: rest) columns children) :
    (entity.isRelation node.name = false ∧
        ∃ column others, columns = ⟨column, some node.resultKey⟩ :: others ∧
          CostTree.MirrorsBelow schema entity rest others children) ∨
      (entity.isRelation node.name = true ∧
        ∃ fetch jsonAlias rows tree others more,
          columns = levelColumn fetch jsonAlias rows node.resultKey :: others ∧
          children = (node.resultKey, tree) :: more ∧
          CostTree.Mirrors schema node fetch rows tree ∧
          CostTree.MirrorsBelow schema entity rest others more) := by
  cases h with
  | plain _ _ _ _ column others _ hrelation _ hrest =>
      exact Or.inl ⟨hrelation, column, others, rfl, hrest⟩
  | related _ _ _ _ fetch jsonAlias rows tree others more hrelation hnode hrest =>
      exact Or.inr ⟨hrelation, fetch, jsonAlias, rows, tree, others, more, rfl, rfl, hnode, hrest⟩

/-- The column of a level tells how its rows are fetched, and what they are. -/
theorem levelColumn_injective (fetch fetch' : Fetch) (aliasName aliasName' : String)
    (rows rows' : Select) (key key' : String)
    (h : levelColumn fetch aliasName rows key = levelColumn fetch' aliasName' rows' key') :
    fetch = fetch' ∧ rows = rows' := by
  cases fetch <;> cases fetch' <;>
    simp_all [levelColumn, asJson, Select.ofSource]

/-- The rows of a level have one mirror. By induction over the request; the first
    column settles what the first child has to be. -/
theorem mirrors_unique (schema : Schema) :
    (∀ (node : QueryNode) (fetch : Fetch) (rows : Select) (tree tree' : CostTree),
      CostTree.Mirrors schema node fetch rows tree →
      CostTree.Mirrors schema node fetch rows tree' → tree = tree') ∧
    ∀ (fields : List (String × QueryNode)) (entity : Entity) (columns : List SelectItem)
      (children children' : List (String × CostTree)),
      CostTree.MirrorsBelow schema entity fields columns children →
      CostTree.MirrorsBelow schema entity fields columns children' → children = children' := by
  refine QueryNode.induction ?_ ?_ ?_ ?_
  · intro name aliasName args fetch rows tree tree' h
    cases h
  · intro name aliasName typeName fields more args ih fetch rows tree tree' h h'
    rcases tree with ⟨ofFetch, tableName, tableSchemaName, limit, children⟩
    rcases tree' with ⟨ofFetch', tableName', tableSchemaName', limit', children'⟩
    cases h with
    | level _ _ _ entity _ _ _ _ _ _ _ hentity _ hfetch htable hlimit hbelow =>
        cases h' with
        | level _ _ _ entity' _ _ _ _ _ _ _ hentity' _ hfetch' htable' hlimit' hbelow' =>
            obtain rfl : entity = entity' := Option.some.inj (hentity.symm.trans hentity')
            have htables := TableName.mk.inj (htable.trans htable'.symm)
            have hlimits := ((rows.boundedBy_iff limit).mp hlimit).symm.trans
              ((rows.boundedBy_iff limit').mp hlimit')
            have hchildren := ih entity rows.columns children children' hbelow hbelow'
            simp only [CostTree.mk.injEq]
            exact ⟨hfetch.trans hfetch'.symm, htables.2, htables.1, hlimits, hchildren⟩
  · intro entity columns children children' h h'
    cases h
    cases h'
    rfl
  · intro key node rest ihnode ihrest entity columns children children' h h'
    rcases CostTree.mirrorsBelow_cons schema entity key node rest columns children h with
      ⟨hplain, column, others, rfl, hrest⟩ |
        ⟨hrelation, fetch, jsonAlias, rows, tree, others, more, rfl, rfl, hnode, hrest⟩
    -- Whether the first field is a relation is up to the entity, so both agree on it.
    · rcases CostTree.mirrorsBelow_cons schema entity key node rest _ children' h' with
        ⟨_, column', others', hcolumns, hrest'⟩ | ⟨hrelation, _⟩
      · rw [(List.cons.inj hcolumns).2] at hrest
        exact ihrest entity others' children children' hrest hrest'
      · rw [hplain] at hrelation
        exact absurd hrelation Bool.false_ne_true
    · rcases CostTree.mirrorsBelow_cons schema entity key node rest _ children' h' with
        ⟨hplain, _⟩ |
          ⟨_, fetch', jsonAlias', rows', tree', others', more', hcolumns, rfl, hnode', hrest'⟩
      · rw [hplain] at hrelation
        exact absurd hrelation Bool.false_ne_true
      · rcases List.cons.inj hcolumns with ⟨hcolumn, hothers⟩
        obtain ⟨rfl, rfl⟩ := levelColumn_injective _ _ _ _ _ _ _ _ hcolumn
        rw [hothers] at hrest
        rw [ihnode fetch rows tree tree' hnode hnode',
          ihrest entity others' more more' hrest hrest']

/-! ### The number of nodes -/

namespace CostTree

mutual
/-- The number of nodes of a cost tree. -/
def size : CostTree → Nat
  | ⟨_, _, _, _, children⟩ => 1 + sizeOfList children
/-- The number of nodes of several trees. -/
def sizeOfList : List (String × CostTree) → Nat
  | [] => 0
  | (_, tree) :: rest => tree.size + sizeOfList rest
end

end CostTree

/-- A mirror has a node for each level of the request. -/
theorem mirrors_size (schema : Schema) :
    (∀ (node : QueryNode) (fetch : Fetch) (rows : Select) (tree : CostTree),
      CostTree.Mirrors schema node fetch rows tree → tree.size = (node.levels schema).length) ∧
    ∀ (fields : List (String × QueryNode)) (entity : Entity) (columns : List SelectItem)
      (children : List (String × CostTree)),
      CostTree.MirrorsBelow schema entity fields columns children →
        CostTree.sizeOfList children =
          (QueryNode.levelsBelow schema entity fields).length := by
  refine QueryNode.induction ?_ ?_ ?_ ?_
  · intro name aliasName args fetch rows tree h
    cases h
  · intro name aliasName typeName fields more args ih fetch rows tree h
    rcases tree with ⟨ofFetch, tableName, tableSchemaName, limit, children⟩
    cases h with
    | level _ _ _ entity _ _ _ _ _ _ _ hentity _ _ _ _ hbelow =>
        rw [CostTree.size, ih entity rows.columns children hbelow, QueryNode.levels, hentity]
        exact Nat.add_comm 1 _
  · intro entity columns children h
    cases h
    rw [CostTree.sizeOfList, QueryNode.levelsBelow]
    rfl
  · intro key node rest ihnode ihrest entity columns children h
    rw [QueryNode.levelsBelow, List.length_append]
    rcases CostTree.mirrorsBelow_cons schema entity key node rest columns children h with
      ⟨hplain, column, others, rfl, hrest⟩ |
        ⟨hrelation, fetch, jsonAlias, rows, tree, others, more, rfl, rfl, hnode, hrest⟩
    · rw [Entity.isRelation] at hplain
      rw [hplain, if_neg Bool.false_ne_true, ihrest entity others children hrest, List.length_nil,
        Nat.zero_add]
    · rw [Entity.isRelation] at hrelation
      rw [hrelation, if_pos rfl, CostTree.sizeOfList, ihnode fetch rows tree hnode,
        ihrest entity others more hrest]

/-! ### The cost tree of a query -/

/-- The cost tree of a level mirrors its rows, if no result name repeats among the
    relations of a level. By induction over the request; the children of a cost tree
    are the list of writes that they come from, as none of these is overwritten. -/
theorem resolve_mirrors (schema : Schema) :
    (∀ (node : QueryNode) (authenticated : Bool) (fetch : Fetch) (position : Position)
      (constraint : Option Constraint) (next : Nat) (r : Resolved),
      resolveLevel schema authenticated fetch position constraint next node = .ok r →
      node.distinctKeys schema = true → CostTree.Mirrors schema node fetch r.select r.cost) ∧
    ∀ (fields : List (String × QueryNode)) (level : Level) (next : Nat) (r : ResolvedFields),
      resolveFields schema level next fields = .ok r →
      QueryNode.distinctKeysBelow schema level.entity fields = true →
        CostTree.MirrorsBelow schema level.entity fields r.columns r.children := by
  refine QueryNode.induction ?_ ?_ ?_ ?_
  · intro name aliasName args authenticated fetch position constraint next r h
    simp only [resolveLevel, reduceCtorEq] at h
  · intro name aliasName typeName fields more args ih authenticated fetch position constraint next
      r h hdistinct
    rcases resolveLevel_eq_ok schema authenticated fetch position constraint next name aliasName
      typeName fields more args r h with
      ⟨entity, selected, clauses, matching, hentity, hselected, hclauses, _, rfl⟩
    rw [QueryNode.distinctKeys, hentity, Bool.and_eq_true, decide_eq_true_eq] at hdistinct
    rcases hdistinct with ⟨hnodup, hbelow⟩
    -- Different names are written to different places, and all children are kept.
    have hkept : Entries.ofList selected.children = selected.children := by
      rw [← ((resolve_depth schema).2 fields _ _ selected hselected).2.1] at hnodup
      exact Entries.ofList_of_nodup selected.children hnodup
    have hsource := (assembleLevel_view schema fetch _ _ fields args selected clauses matching
      hselected hclauses).1
    refine .level name aliasName typeName entity fields more args fetch _ _ _ hentity hsource rfl
      rfl ((Select.boundedBy_iff _ _).mpr rfl) ?_
    simp only [assembleLevel, hkept]
    exact ih _ _ selected hselected hbelow
  · intro level next r h _
    simp only [resolveFields, Except.ok.injEq] at h
    rw [← h]
    exact .nil level.entity
  · intro key node rest ihnode ihrest level next r h hdistinct
    rw [QueryNode.distinctKeysBelow, Bool.and_eq_true, Bool.or_eq_true, Bool.not_eq_true']
      at hdistinct
    rcases resolveFields_cons_eq_ok schema level next key node rest r h with
      ⟨field, hfield, ⟨hrel, others, hothers, rfl⟩ |
        ⟨use, fetch, constraint, below, others, hrel, _, hbelow, hothers, rfl⟩⟩
    · have hplain : level.entity.isRelation node.name = false := by
        rw [level.isRelation_of_field node.name field hfield, hrel, Option.isSome_none]
      exact .plain level.entity key node rest _ _ _ hplain (by rw [Column.selects])
        (ihrest level next others hothers hdistinct.2)
    · have hrelation : level.entity.isRelation node.name = true := by
        rw [level.isRelation_of_field node.name field hfield, hrel, Option.isSome_some]
      have hnode := hdistinct.1.resolve_left (by rw [hrelation]; decide)
      exact .related level.entity key node rest fetch (localAlias next) below.select below.cost _ _
        hrelation (ihnode _ _ _ _ _ below hbelow hnode)
        (ihrest level below.next others hothers hdistinct.2)

/-- The cost tree of a compiled query mirrors its statement, if no result name repeats
    among the relations of a level. The statement is the array of the rows of the
    outermost level, and from there on each node of the cost tree belongs to one level:
    it has the way in which the rows are fetched, the table of the entity and the bound
    that the rows are written with, and a child for each relation that is selected, in
    order and by the name of its result. No other tree does that, and there are as many
    nodes as there are views that the statement reads. -/
theorem compileQuery_cost (schema : Schema) (minDepth : Nat) (authenticated : Bool)
    (constraint : Option Constraint) (node : QueryNode) (c : CompiledQuery)
    (h : schema.compileQuery minDepth authenticated constraint node = .ok c)
    (hdistinct : node.distinctKeys schema = true) :
    ∃ rows, c.statement = Select.expression
        [levelColumn .aggregation (localAlias 0) rows node.resultKey] ∧
      CostTree.Mirrors schema node .aggregation rows c.cost ∧
      (∀ tree, CostTree.Mirrors schema node .aggregation rows tree → tree = c.cost) ∧
      c.cost.size = c.statement.views.length := by
  simp only [Schema.compileQuery, bind_eq_ok_iff, pure, Except.pure, Except.ok.injEq] at h
  rcases h with ⟨r, hr, rfl⟩
  have hmirrors := (resolve_mirrors schema).1 node authenticated .aggregation .top constraint 0 r
    hr hdistinct
  refine ⟨r.select, rfl, hmirrors, fun tree htree => ?_, ?_⟩
  · exact (mirrors_unique schema).1 node .aggregation r.select tree r.cost htree hmirrors
  · have hviews := ((resolve_views schema).1 node authenticated .aggregation .top constraint 0 r
      hr).1
    rw [(mirrors_size schema).1 node .aggregation r.select r.cost hmirrors,
      Select.views_expression, levelColumn_views, hviews, List.length_map]

/-- The cost tree of the blog's request: the users, of whom there are at most ten, the
    posts of each, and the one author of each post. -/
theorem compileQuery_cost_blog :
    Blog.request.distinctKeys Blog.schema = true ∧
      ∃ c rows, Blog.schema.compileQuery 3 true none Blog.request = .ok c ∧
        c.cost = ⟨.aggregation, "user", "app", some 10,
          [("posts", ⟨.aggregation, "post", "app", none,
            [("author", ⟨.row, "user", "app", none, []⟩)]⟩)]⟩ ∧
        c.statement = Select.expression
          [levelColumn .aggregation (localAlias 0) rows "users"] ∧
        CostTree.Mirrors Blog.schema Blog.request .aggregation rows c.cost ∧
        rows.BoundedBy (some 10) ∧ c.cost.size = c.statement.views.length := by
  have hcompiles : ∃ c, Blog.schema.compileQuery 3 true none Blog.request = .ok c ∧
      c.cost = ⟨.aggregation, "user", "app", some 10,
        [("posts", ⟨.aggregation, "post", "app", none,
          [("author", ⟨.row, "user", "app", none, []⟩)]⟩)]⟩ := ⟨_, rfl, rfl⟩
  have hdistinct : Blog.request.distinctKeys Blog.schema = true := by decide
  rcases hcompiles with ⟨c, hc, hcost⟩
  rcases compileQuery_cost Blog.schema 3 true none Blog.request c hc hdistinct with
    ⟨rows, hstatement, hmirrors, _, hsize⟩
  refine ⟨hdistinct, c, rows, hc, hcost, hstatement, hmirrors, ?_, hsize⟩
  rw [hcost] at hmirrors
  cases hmirrors with
  | level _ _ _ _ _ _ _ _ _ _ _ _ _ _ _ hlimit _ => exact hlimit

end ViewCompiler
