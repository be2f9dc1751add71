import ViewCompiler.Proofs.Parameters
import ViewCompiler.Proofs.Views
import ViewCompiler.Sql.Equality

/-!
# Where Relations Lead

Which entity a relation field leads to, and how its rows are matched.

Two sources have a say in a relation. The schema says how rows are linked: the
relation of a field has an own and a foreign side, and with their columns they
give the condition on the nested rows. The request says which rows these are:
the node below the field names a type, and that type is the entity whose view is
read. The two are not compared. All that is asked of the entity is that it has
the column by which its rows are matched, and every entity has an identifier.

So the table of the foreign side is not necessarily the one that is read
(`compileQuery_relations_elsewhere`). What is guaranteed is that the request is
followed, and that the condition is the one that the sides call for between a
nested row and the row around it. The row around it is that of the select in
whose columns the nested one stands, and the condition names it by the alias
under which that select reads its view.

## Main definitions

* `RelationUse`: A relation field of a request, with the node below it.
* `QueryNode.relationUses`: The relation fields of a request, at all levels.
* `RelationUse.sides?`, `RelationUse.target?`: The sides of the relation, and the
  entity that the node names.
* `RelationUse.link?`: The condition that the sides call for.
* `RelationUse.HeldBy`, `RelationUse.MatchedIn`, `RelationUse.FollowedBy`: A select that
  reads the rows of a relation, inside of the one whose rows have the relation field.
* `Select.viewSelects`: The selects of a tree that read a view.

## Theorems

* `matchedIn_resolveLevel`: A nested level reads the rows of its relation.
* `resolve_relations`: So do all the levels below a level.
* `compileQuery_relations`: So do all the nested levels of a query.
-/

namespace ViewCompiler

open Json Sql Schema

/-! ### The relations of a request -/

namespace Sql

/-- The selects of a tree that read a view. -/
def Select.viewSelects (s : Select) : List Select :=
  s.selects.filter fun t => t.view?.isSome

end Sql

/-- A relation field of a request: the entity it is a field of, the column that
    the field is stored in, the use it makes of a relation, and the node below
    it. -/
structure RelationUse where
  owner : Entity
  nativeColumnName : Option String
  use : FieldLink
  node : QueryNode

mutual
/-- The relation fields of a request, a field before those below it. -/
def QueryNode.relationUses (schema : Schema) : QueryNode → List RelationUse
  | .mk _ _ [] _ => []
  | .mk _ _ ((typeName, fields) :: _) _ =>
      match schema.entity? typeName with
      | none => []
      | some entity => QueryNode.relationUsesBelow schema entity fields
/-- The relation fields among the fields of an entity, and below them. -/
def QueryNode.relationUsesBelow (schema : Schema) (entity : Entity) :
    List (String × QueryNode) → List RelationUse
  | [] => []
  | (_, node) :: rest =>
      (match entity.field? node.name with
        | some ⟨column, some use⟩ => ⟨entity, column, use, node⟩ :: node.relationUses schema
        | _ => []) ++
      QueryNode.relationUsesBelow schema entity rest
end

namespace RelationUse

/-- The two sides of the relation, seen from the field. -/
def sides? (schema : Schema) (u : RelationUse) : Option Endpoints :=
  (schema.relation? u.use.relationName).bind fun relation =>
    relation.endpoints? u.use.ownerTable u.use.isListType u.nativeColumnName

/-- The entity of the type that the node below selects fields of. -/
def target? (schema : Schema) (u : RelationUse) : Option Entity :=
  u.node.selection?.bind fun selection =>
    if selection.2.isEmpty then none else schema.entity? selection.1

/-- The condition that the sides put on the rows of the target, which are read
    under the alias `inner` inside of a row under the alias `outer`. A row stores
    the key of the other, an array of keys, or is stored by the other, which then
    has to have the column. -/
def link? (u : RelationUse) (sides : Endpoints) (target : Entity) (outer inner : String) :
    Option Predicate :=
  match sides.own.cardinality, sides.foreign.cardinality with
  | .one, _ => (sides.own.columnName <|> u.nativeColumnName).map fun key =>
      .compare .eq (.physical inner target.idColumnName) (.physical outer key)
  | .many, .many => (sides.own.columnName <|> u.nativeColumnName).map fun array =>
      .compare .contains (.physical outer array)
        (.array (.physical inner target.idColumnName) sides.own.arrayElementType)
  | .many, .one => sides.foreign.columnName.bind fun key =>
      if hasColumn target key then
        some (.compare .eq (.physical inner key) (.physical outer u.owner.idColumnName))
      else none

/-- Whether a relation can be followed: its sides are known, the node names an
    entity, and the entity has the column by which its rows are matched. -/
def Followable (schema : Schema) (u : RelationUse) : Prop :=
  ∃ sides target, u.sides? schema = some sides ∧ u.target? schema = some target ∧
    ∀ outer inner, (u.link? sides target outer inner).isSome = true

/-- The select `around` reads the rows that the field belongs to, under the alias
    `outer`, and one of its columns holds the select `s`, under the name of the
    field's result. -/
def HeldBy (schema : Schema) (u : RelationUse) (around : Select) (outer : String) (s : Select) :
    Prop :=
  ∃ restricted fetch wrapper,
    around.source =
      some (.view ⟨schema.entityViewSchema u.owner, u.owner.viewName restricted⟩ outer) ∧
    levelColumn fetch wrapper s u.node.resultKey ∈ around.columns

/-- A select that reads the rows of a relation, inside of a row under the alias
    `outer`: from a view of the entity that the node names, and under an alias of
    its own. Its condition is the one that the sides call for between its rows
    and the row around them, joined with the filter of the node. -/
def MatchedIn (schema : Schema) (u : RelationUse) (outer : String) (s : Select) : Prop :=
  ∃ (sides : Endpoints) (level : Level) (link filter : Predicate) (restricted : Bool),
    u.sides? schema = some sides ∧ u.target? schema = some level.entity ∧
    level.aliasName ≠ outer ∧
    u.link? sides level.entity outer level.aliasName = some link ∧
    level.FilteredBy u.node.args filter ∧
    s.source = some (.view
      ⟨schema.entityViewSchema level.entity, level.entity.viewName restricted⟩ level.aliasName) ∧
    s.predicate = link.conj filter

/-- A select of a statement that reads the rows of a relation. It is held by the
    select of the rows that the field belongs to, and its rows are matched with
    the row around them. -/
def FollowedBy (schema : Schema) (statement : Select) (u : RelationUse) (s : Select) : Prop :=
  ∃ around ∈ statement.viewSelects, ∃ outer,
    u.HeldBy schema around outer s ∧ u.MatchedIn schema outer s

end RelationUse

/-! ### One relation -/

/-- A link and the predicate that its constraint becomes are what the sides call
    for. -/
theorem link?_of_link (schema : Schema) (level : Level) (node : QueryNode) (field : Field)
    (use : FieldLink) (fetch : Fetch) (constraint : Constraint) (typeName : String)
    (target : Entity) (inner : String) (matching : Predicate)
    (hlink : schema.link level node.name field use = .ok (fetch, constraint))
    (hmatching : constraint.predicate typeName target inner = .ok matching) :
    ∃ sides,
      RelationUse.sides? schema ⟨level.entity, field.nativeColumnName, use, node⟩ = some sides ∧
      RelationUse.link? ⟨level.entity, field.nativeColumnName, use, node⟩ sides target
        level.aliasName inner = some matching := by
  rcases schema.link_eq_ok level node.name field use fetch constraint hlink with
    ⟨relation, sides, hrelation, hsides, hcases⟩
  refine ⟨sides, ?_, ?_⟩
  · simp only [RelationUse.sides?, hrelation, Option.bind_some, hsides]
  rcases hcases with ⟨hown, key, hkey, _, rfl⟩ | ⟨hown, hforeign, array, harray, _, rfl⟩ |
    ⟨hown, hforeign, key, hkey, _, rfl⟩
  · simp only [Constraint.predicate, ChildColumn.toColumn, bind, Except.bind, pure, Except.pure,
      Except.ok.injEq] at hmatching
    simp only [RelationUse.link?, hown, hkey, Option.map_some, ← hmatching, Operand.toColumn,
      Predicate.equal]
  · simp only [Constraint.predicate, ChildColumn.toColumn, bind, Except.bind, pure, Except.pure,
      Except.ok.injEq] at hmatching
    simp only [RelationUse.link?, hown, hforeign, harray, Option.map_some, ← hmatching]
  -- Only here the rows are matched by a column that not every entity has.
  · cases hcolumn : hasColumn target key with
    | false =>
        simp only [Constraint.predicate, ChildColumn.toColumn, hcolumn, Bool.false_eq_true,
          if_false, bind, Except.bind, reduceCtorEq] at hmatching
    | true =>
        simp only [Constraint.predicate, ChildColumn.toColumn, hcolumn, if_true, bind, Except.bind,
          pure, Except.pure, Except.ok.injEq] at hmatching
        simp only [RelationUse.link?, hown, hforeign, hkey, Option.bind_some, hcolumn, if_true,
          ← hmatching, Operand.toColumn, Predicate.equal]

/-- A level without fields is refused. -/
theorem Schema.levelEntity_nil (schema : Schema) (position : Position) (fetch : Fetch)
    (constraint : Option Constraint) (typeName : String) (entity : Entity) :
    schema.levelEntity position fetch constraint typeName [] ≠ .ok entity := by
  unfold Schema.levelEntity
  cases schema.entity? typeName with
  | none => simp only [ne_eq, reduceCtorEq, not_false_eq_true]
  | some e =>
      simp only [List.isEmpty_nil, if_true]
      split <;> simp only [ne_eq, reduceCtorEq, not_false_eq_true]

/-- A nested level reads the rows of its relation, inside of the level that has
    the field. The alias of that level was given out before. -/
theorem matchedIn_resolveLevel (schema : Schema) (level : Level) (node : QueryNode)
    (field : Field) (use : FieldLink) (fetch : Fetch) (constraint : Constraint) (next : Nat)
    (below : Resolved) (halias : ∃ m < next, level.aliasName = localAlias m)
    (hlink : schema.link level node.name field use = .ok (fetch, constraint))
    (hbelow : resolveLevel schema level.authenticated fetch .nested (some constraint) next node =
      .ok below) :
    RelationUse.MatchedIn schema ⟨level.entity, field.nativeColumnName, use, node⟩
      level.aliasName below.select := by
  rcases node with ⟨name, aliasName, types, args⟩
  cases types with
  | nil => simp only [resolveLevel, reduceCtorEq] at hbelow
  | cons selection more =>
      rcases selection with ⟨typeName, fields⟩
      have hfields : fields ≠ [] := by
        rintro rfl
        rw [resolveLevel_typed, bind_eq_ok_iff] at hbelow
        rcases hbelow with ⟨entity, hentity, _⟩
        exact schema.levelEntity_nil _ _ _ _ entity hentity
      rcases resolveLevel_eq_ok schema level.authenticated fetch .nested (some constraint) next name
        aliasName typeName fields more args below hbelow with
        ⟨target, selected, clauses, matching, htarget, _, hclauses, hmatching, rfl⟩
      rcases link?_of_link schema level ⟨name, aliasName, (typeName, fields) :: more, args⟩ field
        use fetch constraint typeName target _ matching hlink hmatching with
        ⟨sides, hsides, hlinked⟩
      refine ⟨sides, ⟨typeName, target, localAlias (next + 1), level.authenticated⟩, matching,
        clauses.value.predicate, _, hsides, ?_, ?_, hlinked,
        Level.clauses_filteredBy _ args clauses hclauses, rfl, rfl⟩
      · simp only [RelationUse.target?, QueryNode.selection?, List.head?_cons, Option.bind_some,
          List.isEmpty_iff, if_neg hfields, htarget]
      · rcases halias with ⟨m, hm, hname⟩
        intro hsame
        have := localAlias_injective _ _ (hsame.trans hname)
        omega

/-! ### All relations -/

/-- A level reads its view, and besides only its columns read views. -/
theorem Sql.Select.viewSelects_assembleLevel (schema : Schema) (fetch : Fetch) (level : Level)
    (args : List (String × Value)) (constraint : Option Constraint) (selected : ResolvedFields)
    (clauses : Guarded Clauses) (matching : Predicate) (hclauses : level.clauses args = .ok clauses)
    (hmatching : matchPredicate constraint level.typeName level.entity level.aliasName =
      .ok matching) :
    (assembleLevel schema fetch level selected clauses matching).select.viewSelects =
      (assembleLevel schema fetch level selected clauses matching).select ::
        (SelectItem.selectsOfList selected.columns).filter fun t => t.view?.isSome := by
  have hpredicate := conj_selects_eq_nil level args constraint clauses matching hclauses hmatching
  have horder := orderBy_selects_eq_nil level args clauses hclauses
  simp only [assembleLevel, Select.viewSelects, Select.selects, Source.selectsOfOption,
    Source.selects, hpredicate, horder, List.append_nil]
  exact List.filter_cons_of_pos rfl

/-- The JSON around the rows of a level reads no view itself. -/
theorem levelColumn_viewSelects (fetch : Fetch) (aliasName : String) (rows : Select)
    (resultKey : String) :
    ((levelColumn fetch aliasName rows resultKey).selects.filter fun t => t.view?.isSome) =
      rows.viewSelects := by
  cases fetch <;>
    (simp only [levelColumn, SelectItem.selects, Column.selects, asJson, Select.ofSource,
      Select.selects, SelectItem.selectsOfList, Source.selectsOfOption, Source.selects,
      Predicate.selects, OrderTerm.selectsOfOption, List.nil_append, List.append_nil,
      Select.viewSelects]
     exact List.filter_cons_of_neg Bool.false_ne_true)

/-- Every level below a level reads the rows of its relation. By induction over
    the request: the selects that read views come in the order of the relation
    fields that they belong to. The select that holds a level is an earlier one,
    and it is complete only when all its fields are resolved, so the claim about
    fields is one about any select that has their columns. -/
theorem resolve_relations (schema : Schema) (statement : Select) :
    (∀ (node : QueryNode) (authenticated : Bool) (fetch : Fetch) (position : Position)
      (constraint : Option Constraint) (next : Nat) (r : Resolved),
      resolveLevel schema authenticated fetch position constraint next node = .ok r →
      r.select.viewSelects ⊆ statement.viewSelects →
        ∃ below, r.select.viewSelects = r.select :: below ∧
          List.Forall₂ (RelationUse.FollowedBy schema statement) (node.relationUses schema)
            below) ∧
    ∀ (fields : List (String × QueryNode)) (level : Level) (next : Nat) (r : ResolvedFields)
      (around : Select) (restricted : Bool),
      resolveFields schema level next fields = .ok r →
      (∃ m < next, level.aliasName = localAlias m) →
      around ∈ statement.viewSelects →
      around.source = some (.view
        ⟨schema.entityViewSchema level.entity, level.entity.viewName restricted⟩
        level.aliasName) →
      r.columns ⊆ around.columns →
      ((SelectItem.selectsOfList r.columns).filter fun t => t.view?.isSome) ⊆
        statement.viewSelects →
        List.Forall₂ (RelationUse.FollowedBy schema statement)
          (QueryNode.relationUsesBelow schema level.entity fields)
          ((SelectItem.selectsOfList r.columns).filter fun t => t.view?.isSome) := by
  refine QueryNode.induction ?_ ?_ ?_ ?_
  · intro name aliasName args authenticated fetch position constraint next r h
    simp only [resolveLevel, reduceCtorEq] at h
  · intro name aliasName typeName fields more args ih authenticated fetch position constraint next
      r h hselects
    rcases resolveLevel_eq_ok schema authenticated fetch position constraint next name aliasName
      typeName fields more args r h with
      ⟨entity, selected, clauses, matching, hentity, hselected, hclauses, hmatching, rfl⟩
    have hview := Select.viewSelects_assembleLevel schema fetch _ args constraint selected clauses
      matching hclauses hmatching
    rw [hview, List.cons_subset] at hselects
    refine ⟨_, hview, ?_⟩
    rw [QueryNode.relationUses, hentity]
    exact ih _ _ selected _ _ hselected ⟨next + 1, by omega, rfl⟩ hselects.1 rfl
      (List.Subset.refl _) hselects.2
  · intro level next r around restricted h _ _ _ _ _
    simp only [resolveFields, Except.ok.injEq] at h
    rw [← h, QueryNode.relationUsesBelow]
    exact List.Forall₂.nil
  · intro key node rest ihnode ihrest level next r around restricted h halias haround hsource
      hcolumns hselects
    rcases resolveFields_cons_eq_ok schema level next key node rest r h with
      ⟨field, hfield, ⟨hrel, others, hothers, rfl⟩ |
        ⟨use, fetch, constraint, below, others, hrel, hlink, hbelow, hothers, rfl⟩⟩
    -- A field that stands for no relation is followed by no select.
    · have hentity := ((level.field_eq_ok_iff node.name field).mp hfield).1
      rcases hvalue : field.value with ⟨column, relation⟩
      rw [hvalue] at hrel hentity
      simp only at hrel
      subst hrel
      rw [QueryNode.relationUsesBelow, hentity]
      exact ihrest level next others around restricted hothers halias haround hsource
        (List.cons_subset.mp hcolumns).2 hselects
    -- A relation is followed by the level below it, which comes before the
    -- levels further down and before those of the other fields.
    · have hentity := ((level.field_eq_ok_iff node.name field).mp hfield).1
      have hmatched := matchedIn_resolveLevel schema level node field.value use fetch constraint
        next below halias hlink hbelow
      rcases hvalue : field.value with ⟨column, relation⟩
      rw [hvalue] at hrel hentity hmatched
      simp only at hrel
      subst hrel
      simp only [ResolvedFields.addLevel, SelectItem.selectsOfList, List.filter_append,
        levelColumn_viewSelects, List.append_subset] at hselects
      rcases ihnode _ _ _ _ _ below hbelow hselects.1 with ⟨inner, hinner, hnode⟩
      have halias' : ∃ m < below.next, level.aliasName = localAlias m := by
        rcases halias with ⟨m, hm, hname⟩
        exact ⟨m, Nat.lt_of_lt_of_le hm ((resolve_next schema).1 node _ _ _ _ _ below hbelow),
          hname⟩
      have hcolumn := List.cons_subset.mp hcolumns
      rw [QueryNode.relationUsesBelow, hentity]
      simp only [ResolvedFields.addLevel, SelectItem.selectsOfList, List.filter_append,
        levelColumn_viewSelects, hinner]
      exact List.rel_append
        (List.Forall₂.cons
          ⟨around, haround, level.aliasName, ⟨restricted, fetch, _, hsource, hcolumn.1⟩, hmatched⟩
          hnode)
        (ihrest level below.next others around restricted hothers halias' haround hsource
          hcolumn.2 hselects.2)

/-- Whether there is a condition does not depend on the aliases in it. -/
theorem RelationUse.link?_isSome (u : RelationUse) (sides : Endpoints) (target : Entity)
    (outer inner outer' inner' : String) :
    (u.link? sides target outer inner).isSome = (u.link? sides target outer' inner').isSome := by
  unfold RelationUse.link?
  split
  · rw [Option.isSome_map, Option.isSome_map]
  · rw [Option.isSome_map, Option.isSome_map]
  · cases sides.foreign.columnName with
    | none => rfl
    | some key =>
        simp only [Option.bind_some]
        split <;> rfl

theorem RelationUse.FollowedBy.followable {schema : Schema} {statement : Select}
    {u : RelationUse} {s : Select} (h : u.FollowedBy schema statement s) :
    u.Followable schema := by
  rcases h with ⟨_, _, outer, _, sides, level, link, _, _, hsides, htarget, _, hlink, _⟩
  refine ⟨sides, level.entity, hsides, htarget, fun outer' inner' => ?_⟩
  rw [u.link?_isSome sides level.entity outer' inner' outer level.aliasName, hlink]
  rfl

/-- The nested levels of a compiled query, in the order of the relation fields
    that they belong to. -/
theorem compileQuery_followed (schema : Schema) (minDepth : Nat) (authenticated : Bool)
    (constraint : Option Constraint) (node : QueryNode) (c : CompiledQuery)
    (h : schema.compileQuery minDepth authenticated constraint node = .ok c) :
    List.Forall₂ (RelationUse.FollowedBy schema c.statement) (node.relationUses schema)
      c.statement.viewSelects.tail := by
  simp only [Schema.compileQuery, bind_eq_ok_iff, pure, Except.pure, Except.ok.injEq] at h
  rcases h with ⟨r, hr, rfl⟩
  have hstatement : (Select.expression
      [levelColumn .aggregation (localAlias 0) r.select node.resultKey]).viewSelects =
        r.select.viewSelects := by
    rw [← levelColumn_viewSelects .aggregation (localAlias 0) r.select node.resultKey]
    simp only [Select.viewSelects, Select.expression, Select.selects, SelectItem.selectsOfList,
      Source.selectsOfOption, Predicate.selects, OrderTerm.selectsOfOption, List.append_nil]
    exact List.filter_cons_of_neg Bool.false_ne_true
  rcases (resolve_relations schema (Select.expression
    [levelColumn .aggregation (localAlias 0) r.select node.resultKey])).1 node authenticated
      .aggregation .top constraint 0 r hr (by rw [hstatement]; exact List.Subset.refl _) with
    ⟨below, hbelow, hfollowed⟩
  simp only [hstatement, hbelow, List.tail_cons]
  exact hfollowed

/-- Where relations lead. In a compiled query there is one nested select for every
    relation field of the request, at all levels, and it stands in a column of the
    rows that the field belongs to. It reads a view of the entity that the node
    below the field names. Its rows are matched with the row around them as the
    sides of the relation call for, and besides only filtered as the node asks. A
    query is refused if one of its relations cannot be followed, because the
    relation or its sides are not known, the node names no entity, or rows are to
    be matched by a column that the entity does not have. -/
theorem compileQuery_relations (schema : Schema) (minDepth : Nat) (authenticated : Bool)
    (constraint : Option Constraint) (node : QueryNode) :
    (∀ c, schema.compileQuery minDepth authenticated constraint node = .ok c →
      List.Forall₂ (RelationUse.FollowedBy schema c.statement) (node.relationUses schema)
        c.statement.viewSelects.tail) ∧
    ((∃ u ∈ node.relationUses schema, ¬ u.Followable schema) →
      ∃ failure, schema.compileQuery minDepth authenticated constraint node = .error failure) := by
  have hfollowed := compileQuery_followed schema minDepth authenticated constraint node
  refine ⟨hfollowed, ?_⟩
  rintro ⟨u, hu, hnot⟩
  cases hc : schema.compileQuery minDepth authenticated constraint node with
  | error failure => exact ⟨failure, rfl⟩
  | ok c =>
      rcases List.forall₂_iff_get.mp (hfollowed c hc) with ⟨hlength, hget⟩
      rcases List.mem_iff_get.mp hu with ⟨i, rfl⟩
      exact absurd (hget i.1 i.2 (hlength ▸ i.2)).followable hnot

namespace Blog

/-- Users as the posts of users. -/
def misplaced : QueryNode where
  name := "users"
  aliasName := none
  fieldsByTypeName := [("User", [
    ("posts", ⟨"posts", none, [("User", [leaf "name"])], []⟩)])]
  args := []

/-- Posts as the authors of posts. -/
def elsewhere : QueryNode where
  name := "posts"
  aliasName := none
  fieldsByTypeName := [("Post", [
    ("author", ⟨"author", none, [("Post", [leaf "title"])], []⟩)])]
  args := []

end Blog

/-- Both relations of the blog's request are followed, from the users to their
    posts and from there to the authors, each matched with the level before.
    Users cannot be read as posts, because they have no column for an author. -/
theorem compileQuery_relations_blog :
    (∃ c, Blog.schema.compileQuery 3 true none Blog.request = .ok c ∧
      (Blog.request.relationUses Blog.schema).map (RelationUse.target? Blog.schema) =
        [some Blog.post, some Blog.user] ∧
      c.statement.viewSelects.tail.map (fun s => s.predicate) =
        [.compare .eq (.physical "_local_3_" "author_id") (.physical "_local_1_" "id"),
          .compare .eq (.physical "_local_5_" "id") (.physical "_local_3_" "author_id")] ∧
      List.Forall₂ (RelationUse.FollowedBy Blog.schema c.statement)
        (Blog.request.relationUses Blog.schema) c.statement.viewSelects.tail) ∧
    (∃ u ∈ Blog.misplaced.relationUses Blog.schema, ¬ u.Followable Blog.schema) ∧
    ∃ failure, Blog.schema.compileQuery 3 true none Blog.misplaced = .error failure := by
  have hcompiles : ∃ c, Blog.schema.compileQuery 3 true none Blog.request = .ok c := ⟨_, rfl⟩
  have hlinks : ((Blog.schema.compileQuery 3 true none Blog.request).toOption.map fun c =>
      c.statement.viewSelects.tail.map fun s => s.predicate) = some
        [.compare .eq (.physical "_local_3_" "author_id") (.physical "_local_1_" "id"),
          .compare .eq (.physical "_local_5_" "id") (.physical "_local_3_" "author_id")] := by
    decide +kernel
  have hnot : ∃ u ∈ Blog.misplaced.relationUses Blog.schema, ¬ u.Followable Blog.schema := by
    refine ⟨_, List.mem_cons_self, ?_⟩
    rintro ⟨sides, target, hsides, htarget, hlink⟩
    obtain rfl := Option.some.inj hsides
    obtain rfl := Option.some.inj htarget
    exact absurd (hlink "" "") (by decide)
  rcases hcompiles with ⟨c, hc⟩
  rw [hc] at hlinks
  exact ⟨⟨c, hc, rfl, Option.some.inj hlinks,
    (compileQuery_relations Blog.schema 3 true none Blog.request).1 c hc⟩, hnot,
    (compileQuery_relations Blog.schema 3 true none Blog.misplaced).2 hnot⟩

/-- Posts can be read as authors. The foreign side of the relation is on the table
    of users, but what is read is the table of posts. -/
theorem compileQuery_relations_elsewhere :
    ∃ c, Blog.schema.compileQuery 4 false none Blog.elsewhere = .ok c ∧
      ∃ u ∈ Blog.elsewhere.relationUses Blog.schema, ∃ sides target,
        u.sides? Blog.schema = some sides ∧ u.target? Blog.schema = some target ∧
        target.table = ⟨"app", "post"⟩ ∧
        (⟨sides.foreign.schemaName, sides.foreign.tableName⟩ : TableName) = ⟨"app", "user"⟩ ∧
        target.table ≠ ⟨sides.foreign.schemaName, sides.foreign.tableName⟩ := by
  have hcompiles : ∃ c, Blog.schema.compileQuery 4 false none Blog.elsewhere = .ok c := ⟨_, rfl⟩
  rcases hcompiles with ⟨c, hc⟩
  exact ⟨c, hc, _, List.mem_cons_self, _, _, rfl, rfl, rfl, rfl, by decide⟩

end ViewCompiler
