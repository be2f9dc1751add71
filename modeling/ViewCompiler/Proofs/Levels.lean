import ViewCompiler.Proofs.Clauses

/-!
# Levels of a Request

A request seen as the levels it asks for.

A level is an entity, the names of the fields that are selected of it, and the
arguments of its node. That is all a level knows: neither what its relations
lead to nor where it was reached from is part of it. What the level uses and
which of the two views it therefore needs are functions of these three alone.

## Main definitions

* `RequestLevel`: An entity, selected names and arguments.
* `RequestLevel.usedFields`: The fields that a level refers to.
* `RequestLevel.UsesRestricted`: Whether one of them is restricted.
* `RequestLevel.view`: The view that a level has to read.
* `QueryNode.levels`: The levels of a request, the outer before the inner.
* `Blog.schema`, `Blog.request`: A schema and a request to try things on.

## Theorems

* `resolveFields_restricted`: The flag of the selected fields.
* `assembleLevel_view`: A compiled level reads the view that it has to.
-/

namespace ViewCompiler

open Json Sql Schema

/-- A level of a request: an entity, the names of the fields that are selected
    of it, and the arguments. -/
structure RequestLevel where
  entity : Entity
  fieldNames : List String
  args : List (String × Value)

namespace RequestLevel

/-- The level of an entity of which the given nodes are selected. -/
def selecting (entity : Entity) (fields : List (String × QueryNode))
    (args : List (String × Value)) : RequestLevel :=
  ⟨entity, fields.map fun field => field.2.name, args⟩

/-- The fields that a level refers to: those it selects, those it sorts by and
    those its filter has a condition on. -/
def usedFields (level : RequestLevel) : List String :=
  level.fieldNames ++ level.args.flatMap argumentFields

/-- A level uses a restricted field if one of those it refers to is stored in
    a column and is not among the public ones. -/
def UsesRestricted (level : RequestLevel) : Prop :=
  ∃ name ∈ level.usedFields, ∃ field, level.entity.field? name = some field ∧
    field.nativeColumnName.isSome = true ∧ name ∉ level.entity.publicFieldNames

theorem any_restricts_iff (level : RequestLevel) :
    level.usedFields.any level.entity.restricts = true ↔ level.UsesRestricted := by
  simp only [UsesRestricted, List.any_eq_true, Entity.restricts, Option.any_eq_true,
    Entity.requiresAuthorization, Entity.isPublic, Bool.and_eq_true, Bool.not_eq_true',
    List.contains_eq_mem, decide_eq_false_iff_not]

instance (level : RequestLevel) : Decidable level.UsesRestricted :=
  decidable_of_iff _ level.any_restricts_iff

/-- The public view of a level's entity. -/
def publicView (schema : Schema) (level : RequestLevel) : ViewName :=
  ⟨schema.entityViewSchema level.entity, level.entity.publicViewName⟩

/-- The authorized view of a level's entity. -/
def authorizedView (schema : Schema) (level : RequestLevel) : ViewName :=
  ⟨schema.entityViewSchema level.entity, level.entity.authViewName⟩

/-- The view that a level has to read. -/
def view (schema : Schema) (level : RequestLevel) : ViewName :=
  if level.UsesRestricted then level.authorizedView schema else level.publicView schema

end RequestLevel

mutual
/-- The levels of a request, the outer before the inner. -/
def QueryNode.levels (schema : Schema) : QueryNode → List RequestLevel
  | .mk _ _ [] _ => []
  | .mk _ _ ((typeName, fields) :: _) args =>
      match schema.entity? typeName with
      | none => []
      | some entity =>
          RequestLevel.selecting entity fields args :: QueryNode.levelsBelow schema entity fields
/-- The levels that the relations among the fields of an entity lead to. -/
def QueryNode.levelsBelow (schema : Schema) (entity : Entity) :
    List (String × QueryNode) → List RequestLevel
  | [] => []
  | (_, node) :: rest =>
      (if ((entity.field? node.name).bind Field.relation).isSome then node.levels schema else []) ++
        QueryNode.levelsBelow schema entity rest
end

theorem resolveFields_restricted (schema : Schema) (level : Level)
    (fields : List (String × QueryNode)) (next : Nat) (r : ResolvedFields)
    (h : resolveFields schema level next fields = .ok r) :
    r.restricted = (fields.map fun field => field.2.name).any level.entity.restricts := by
  induction fields generalizing next r with
  | nil =>
      simp only [resolveFields, Except.ok.injEq] at h
      rw [← h]
      rfl
  | cons entry rest ih =>
      rcases resolveFields_cons_eq_ok schema level next entry.1 entry.2 rest r h with
        ⟨field, hfield, ⟨_, others, hothers, rfl⟩ |
          ⟨_, fetch, _, below, others, _, _, _, hothers, rfl⟩⟩
      · rw [List.map_cons, List.any_cons, ← ih next others hothers,
          ← level.field_restricted _ field hfield]
        rfl
      · rw [List.map_cons, List.any_cons, ← ih below.next others hothers,
          ← level.field_restricted _ field hfield]
        rfl

/-- The view that is chosen for a level is the one that it has to read. -/
theorem assembleLevel_view (schema : Schema) (fetch : Fetch) (level : Level) (next : Nat)
    (fields : List (String × QueryNode)) (args : List (String × Value))
    (selected : ResolvedFields) (clauses : Guarded Clauses) (matching : Predicate)
    (hselected : resolveFields schema level next fields = .ok selected)
    (hclauses : level.clauses args = .ok clauses) :
    (assembleLevel schema fetch level selected clauses matching).select.source =
        some (.view ((RequestLevel.selecting level.entity fields args).view schema)
          level.aliasName) ∧
      ((assembleLevel schema fetch level selected clauses matching).authRequired = true ↔
        (RequestLevel.selecting level.entity fields args).UsesRestricted ∨
          selected.authBelow = true) := by
  -- The flag of the level joins that of its fields and that of its clauses, as
  -- the fields it uses join those it selects and those of its arguments.
  have hrestricted : (selected.restricted || clauses.restricted) = true ↔
      (RequestLevel.selecting level.entity fields args).UsesRestricted := by
    rw [resolveFields_restricted schema level fields next selected hselected,
      level.clauses_restricted args clauses hclauses, ← List.any_append]
    exact (RequestLevel.selecting level.entity fields args).any_restricts_iff
  constructor
  · by_cases huses : (RequestLevel.selecting level.entity fields args).UsesRestricted
    · rw [RequestLevel.view, if_pos huses]
      simp only [assembleLevel, hrestricted.mpr huses, Entity.viewName, if_true]
      rfl
    · have hfalse := Bool.eq_false_iff.mpr (mt hrestricted.mp huses)
      rw [RequestLevel.view, if_neg huses]
      simp only [assembleLevel, hfalse, Entity.viewName, Bool.false_eq_true, if_false]
      rfl
  · rw [← hrestricted, ← Bool.or_eq_true]
    rfl

/-! ### A blog

A small schema and a request against it, for the theorems that want one. Users
write posts, and the address of a user is in the authorized view only. The
request asks for the users with an address, for the posts of each, and for the
author of each post. -/

namespace Blog

/-- A field that is stored in the column of its own name. -/
def stored (name : String) : String × Field := (name, ⟨some name, none⟩)

/-- Users: everyone may see a name, but not an address. -/
def user : Entity where
  tableSchemaName := "app"
  tableName := "user"
  viewSchemaName := none
  publicViewName := "user_public"
  authViewName := "user_auth"
  idColumnName := "id"
  fields := [stored "id", stored "name", stored "email",
    ("posts", ⟨none, some ⟨"authorship", true, ⟨"app", "user"⟩⟩⟩)]
  publicFieldNames := ["id", "name", "posts"]
  disallowGenericRootLevelAggregation := false

/-- Posts: everyone may see all of a post. Their views are kept apart from the others. -/
def post : Entity where
  tableSchemaName := "app"
  tableName := "post"
  viewSchemaName := some "archive"
  publicViewName := "post_public"
  authViewName := "post_auth"
  idColumnName := "id"
  fields := [stored "id", stored "title",
    ("author", ⟨some "author_id", some ⟨"authorship", false, ⟨"app", "post"⟩⟩⟩)]
  publicFieldNames := ["id", "title", "author"]
  disallowGenericRootLevelAggregation := false

/-- Users and posts, of which each post stores its author. -/
def schema : Schema where
  viewSchemaName := "views"
  entities := [("User", user), ("Post", post)]
  relations := [("authorship", {
    name := "authorship"
    first := ⟨"app", "post", .one, some "author_id", some ⟨"app", "user", "id"⟩, "uuid"⟩
    second := ⟨"app", "user", .many, none, none, "uuid"⟩ })]
  mutations := []

/-- A node that selects nothing further. -/
def leaf (name : String) : String × QueryNode := (name, ⟨name, none, [], []⟩)

/-- The users with an address, their posts, and the authors of these. -/
def request : QueryNode where
  name := "users"
  aliasName := none
  fieldsByTypeName := [("User", [leaf "name",
    ("posts", ⟨"posts", none, [("Post", [leaf "title",
      ("author", ⟨"author", none, [("User", [leaf "name"])], []⟩)])], []⟩)])]
  args := [("where", .object [("email", .object [("neq", .null)])]), ("limit", .int 10)]

end Blog

end ViewCompiler
