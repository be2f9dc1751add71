import ViewCompiler.Proofs.Levels

/-!
# The Order of Sides

Whether it matters which side of a relation is written first.

A relation has two sides, and a field takes one of them as its own. It is found by
its table, or by its cardinality, or by its column, and none of these asks which
side comes first. Only where all three fail to tell the sides apart is the first
one taken. Such a field is *tied*: both sides are on its table and have the same
cardinality, and its column is that of both or of neither. A field that is stored
in no column has the column of neither side, even if the sides store nothing.

A tied field sees the other side if the sides change places, unless they are the
same, and no other field does (`Relation.endpoints?_swap_iff`).

Compiling looks at relations in one place only, where a field is linked to the
rows below it. Two schemas that link all their fields alike are therefore alike in
everything that is compiled against them (`compileQuery_of_linksAlike`), and that
is the case if the relations that change their order are tied for no field.

## Main definitions

* `Relation.swap`: A relation with its sides in the other order.
* `Schema.swapSides`: A schema with some of its relations swapped.
* `Relation.Tied`: A field that cannot tell the two sides apart.
* `Schema.Untied`: A schema none of whose fields is tied by a swapped relation.
* `Schema.LinksAlike`: Two schemas that link all fields alike.

## Theorems

* `Relation.endpoints?_swap_iff`: Which fields see the same sides after a swap.
* `Schema.link_swapSides`: A field that is not tied is linked as before.
* `resolve_of_linksAlike`, `compileQuery_of_linksAlike`: Schemas that link all
  fields alike compile all requests alike.
* `compileQuery_swapSides`: The order of sides does not matter.
-/

namespace ViewCompiler

open Json Sql Schema

namespace Schema

/-! ### One relation -/

/-- Whether a field's column is the one that a side stores its link in. -/
def Side.StoredIn (s : Side) (column : Option String) : Prop :=
  column.isSome = true ∧ s.columnName = column

instance (s : Side) (column : Option String) : Decidable (s.StoredIn column) :=
  inferInstanceAs (Decidable (_ ∧ _))

theorem Side.holds_iff (s : Side) (column : Option String) :
    s.holds column = true ↔ s.StoredIn column := by
  simp only [Side.holds, Side.StoredIn, Bool.and_eq_true, beq_iff_eq]

namespace Relation

/-- A relation with its sides in the other order. -/
def swap (r : Relation) : Relation := ⟨r.name, r.second, r.first⟩

/-- A field with the given table and column is tied if nothing tells the two sides
    apart: both are on its table, they have the same cardinality, and the column is
    that of both or of neither. -/
def Tied (r : Relation) (owner : TableName) (column : Option String) : Prop :=
  r.first.isOn owner = true ∧ r.second.isOn owner = true ∧
    r.first.cardinality = r.second.cardinality ∧
    (r.first.StoredIn column ↔ r.second.StoredIn column)

instance (r : Relation) (owner : TableName) (column : Option String) :
    Decidable (r.Tied owner column) :=
  inferInstanceAs (Decidable (_ ∧ _ ∧ _ ∧ _))

/-- A tied field takes the first side as its own, whichever that is. -/
theorem endpoints?_of_tied (r : Relation) (owner : TableName) (isList : Bool)
    (column : Option String) (h : r.Tied owner column) :
    r.endpoints? owner isList column = some ⟨r.first, r.second⟩ := by
  rcases h with ⟨hfirst, hsecond, hkind, hstored⟩
  have hown : (r.first.holds column || !r.second.holds column) = true := by
    rw [← Side.holds_iff, ← Side.holds_iff, ← Bool.eq_iff_iff] at hstored
    rw [hstored, Bool.or_not_self]
  simp only [endpoints?, ownIsFirst?, hfirst, hsecond, hkind, ne_eq, not_true_eq_false, if_false,
    hown, Option.map_some, if_true]

theorem tied_swap_iff (r : Relation) (owner : TableName) (column : Option String) :
    r.swap.Tied owner column ↔ r.Tied owner column := by
  unfold Tied swap
  constructor
  · rintro ⟨hfirst, hsecond, hkind, hstored⟩
    exact ⟨hsecond, hfirst, hkind.symm, hstored.symm⟩
  · rintro ⟨hfirst, hsecond, hkind, hstored⟩
    exact ⟨hsecond, hfirst, hkind.symm, hstored.symm⟩

/-- Whatever tells the sides of a field apart does so in either order. -/
theorem endpoints?_swap (r : Relation) (owner : TableName) (isList : Bool)
    (column : Option String) (h : ¬ r.Tied owner column) :
    r.swap.endpoints? owner isList column = r.endpoints? owner isList column := by
  unfold endpoints? ownIsFirst? swap
  cases hfirst : r.first.isOn owner <;> cases hsecond : r.second.isOn owner
  · rfl
  · rfl
  · rfl
  -- Both sides are on the table. The cardinality decides, or else the column, and
  -- what is true of one side is then false of the other.
  · by_cases hkind : r.first.cardinality = r.second.cardinality
    · have hother : r.second.holds column = !r.first.holds column := by
        rw [Bool.eq_not]
        intro heq
        rw [Bool.eq_iff_iff, Side.holds_iff, Side.holds_iff] at heq
        exact h ⟨hfirst, hsecond, hkind, heq.symm⟩
      simp only [hkind, ne_eq, not_true_eq_false, if_false, hother]
      cases r.first.holds column <;> rfl
    · have hother : ∀ kind : Cardinality,
          (r.second.cardinality == kind) = !(r.first.cardinality == kind) := by
        intro kind
        revert hkind
        cases r.first.cardinality <;> cases r.second.cardinality <;> cases kind <;> decide
      simp only [ne_eq, hkind, Ne.symm hkind, not_false_eq_true, if_true, hother]
      cases r.first.cardinality == _ <;> rfl

/-- The fields that see the same sides after a swap: those that are not tied, and
    all if the sides are the same. -/
theorem endpoints?_swap_iff (r : Relation) (owner : TableName) (isList : Bool)
    (column : Option String) :
    r.swap.endpoints? owner isList column = r.endpoints? owner isList column ↔
      ¬ r.Tied owner column ∨ r.first = r.second := by
  by_cases htied : r.Tied owner column
  · rw [r.endpoints?_of_tied owner isList column htied,
      r.swap.endpoints?_of_tied owner isList column ((r.tied_swap_iff owner column).mpr htied)]
    simp only [swap, Option.some.injEq, Endpoints.mk.injEq, htied, not_true_eq_false, false_or]
    exact ⟨fun h => h.2, fun h => ⟨h.symm, h⟩⟩
  · exact ⟨fun _ => Or.inl htied, fun _ => r.endpoints?_swap owner isList column htied⟩

end Relation

/-! ### All relations of a schema -/

/-- A schema in which the sides of the relations with the given names have changed
    places. -/
def swapSides (swapped : String → Bool) (schema : Schema) : Schema :=
  { schema with
    relations := schema.relations.map fun entry =>
      (entry.1, if swapped entry.1 then entry.2.swap else entry.2) }

/-- No field that uses a swapped relation is tied by it. -/
def Untied (swapped : String → Bool) (schema : Schema) : Prop :=
  ∀ entity ∈ schema.entities, ∀ field ∈ entity.2.fields, ∀ use ∈ field.2.relation,
    swapped use.relationName = true → ∀ relation ∈ schema.relation? use.relationName,
      ¬ relation.Tied use.ownerTable field.2.nativeColumnName

instance (swapped : String → Bool) (schema : Schema) : Decidable (schema.Untied swapped) :=
  inferInstanceAs (Decidable (∀ entity ∈ schema.entities, ∀ field ∈ entity.2.fields,
    ∀ use ∈ field.2.relation, swapped use.relationName = true →
      ∀ relation ∈ schema.relation? use.relationName,
        ¬ relation.Tied use.ownerTable field.2.nativeColumnName))

theorem relation?_swapSides (swapped : String → Bool) (schema : Schema) (name : String) :
    (schema.swapSides swapped).relation? name =
      (schema.relation? name).map fun r => if swapped name then r.swap else r := by
  unfold relation? swapSides
  induction schema.relations with
  | nil => rfl
  | cons entry rest ih =>
      rcases entry with ⟨key, r⟩
      rw [List.map_cons, Entries.get?, Entries.get?]
      by_cases hkey : key = name
      · rw [if_pos hkey, if_pos hkey, hkey]
        rfl
      · rw [if_neg hkey, if_neg hkey]
        exact ih

/-- A field of an untied schema sees the same sides before and after. -/
theorem endpoints?_swapSides (swapped : String → Bool) (schema : Schema)
    (huntied : schema.Untied swapped) (typeName : String) (entity : Entity) (fieldName : String)
    (field : Field) (use : FieldLink) (relation : Relation)
    (hentity : schema.entity? typeName = some entity)
    (hfield : entity.field? fieldName = some field) (huse : field.relation = some use)
    (hrelation : schema.relation? use.relationName = some relation) :
    (if swapped use.relationName then relation.swap else relation).endpoints? use.ownerTable
        use.isListType field.nativeColumnName =
      relation.endpoints? use.ownerTable use.isListType field.nativeColumnName := by
  cases hswapped : swapped use.relationName with
  | false => rfl
  | true =>
      have htied := huntied (typeName, entity) (schema.entities.mem_of_get? typeName entity hentity)
        (fieldName, field) (entity.fields.mem_of_get? fieldName field hfield) use huse hswapped
        relation hrelation
      exact relation.endpoints?_swap _ _ _ htied

/-! ### Schemas that link alike -/

/-- Two schemas that differ, if at all, in relations, and that link every field of
    an entity in the same way or fail to do so for the same reason. -/
structure LinksAlike (schema schema' : Schema) : Prop where
  viewSchemaName : schema'.viewSchemaName = schema.viewSchemaName
  entities : schema'.entities = schema.entities
  link : ∀ (level : Level) (fieldName : String) (field : Field) (use : FieldLink),
    schema.entity? level.typeName = some level.entity →
    level.entity.field? fieldName = some field → field.relation = some use →
      schema'.link level fieldName field use = schema.link level fieldName field use

/-- A field of an untied schema is linked as before. -/
theorem link_swapSides (swapped : String → Bool) (schema : Schema)
    (huntied : schema.Untied swapped) (level : Level) (fieldName : String) (field : Field)
    (use : FieldLink) (hentity : schema.entity? level.typeName = some level.entity)
    (hfield : level.entity.field? fieldName = some field) (huse : field.relation = some use) :
    (schema.swapSides swapped).link level fieldName field use =
      schema.link level fieldName field use := by
  unfold link
  rw [schema.relation?_swapSides swapped]
  cases hrelation : schema.relation? use.relationName with
  | none => rfl
  | some relation =>
      have hsides := schema.endpoints?_swapSides swapped huntied level.typeName level.entity
        fieldName field use relation hentity hfield huse hrelation
      -- The messages name the relation, and a swapped relation keeps its name.
      have hname : (if swapped use.relationName then relation.swap else relation).name =
          relation.name := by
        cases swapped use.relationName <;> rfl
      simp only [Option.map_some, hsides, hname]

theorem linksAlike_swapSides (swapped : String → Bool) (schema : Schema)
    (huntied : schema.Untied swapped) : schema.LinksAlike (schema.swapSides swapped) where
  viewSchemaName := rfl
  entities := rfl
  link := schema.link_swapSides swapped huntied

namespace LinksAlike

variable {schema schema' : Schema} (h : schema.LinksAlike schema')

include h

theorem levelEntity_eq (position : Position) (fetch : Fetch) (constraint : Option Constraint)
    (typeName : String) (fields : List (String × QueryNode)) :
    schema'.levelEntity position fetch constraint typeName fields =
      schema.levelEntity position fetch constraint typeName fields := by
  unfold levelEntity entity?
  rw [h.entities]

theorem assembleLevel_eq : assembleLevel schema' = assembleLevel schema := by
  funext fetch level selected clauses matching
  unfold assembleLevel entityViewSchema
  rw [h.viewSchemaName]

end LinksAlike

end Schema

/-! ### Compiling -/

/-- Levels are resolved alike against schemas that link alike. By induction over the
    request; a list of fields is only ever resolved for an entity of the schema, so
    its links are among those that are known to be alike. -/
theorem resolve_of_linksAlike (schema schema' : Schema) (h : schema.LinksAlike schema') :
    (∀ (node : QueryNode) (authenticated : Bool) (fetch : Fetch) (position : Position)
      (constraint : Option Constraint) (next : Nat),
      resolveLevel schema' authenticated fetch position constraint next node =
        resolveLevel schema authenticated fetch position constraint next node) ∧
    ∀ (fields : List (String × QueryNode)) (level : Level) (next : Nat),
      schema.entity? level.typeName = some level.entity →
        resolveFields schema' level next fields = resolveFields schema level next fields := by
  refine QueryNode.induction ?_ ?_ ?_ ?_
  · intro name aliasName args authenticated fetch position constraint next
    rw [resolveLevel, resolveLevel]
  · intro name aliasName typeName fields more args ih authenticated fetch position constraint next
    rw [resolveLevel_typed, resolveLevel_typed, h.levelEntity_eq]
    cases hentity : schema.levelEntity position fetch constraint typeName fields with
    | error e => rfl
    | ok entity =>
        have hknown := schema.levelEntity_eq_ok position fetch constraint typeName fields entity
          hentity
        have hfields := ih ⟨typeName, entity, localAlias (next + 1), authenticated⟩ (next + 2) hknown
        simp only [bind, Except.bind, hfields, h.assembleLevel_eq]
  · intro level next _
    rw [resolveFields, resolveFields]
  · intro key node rest ihnode ihrest level next hentity
    rw [resolveFields_cons, resolveFields_cons]
    cases hfield : level.field node.name with
    | error e => rfl
    | ok field =>
        have hknown := ((level.field_eq_ok_iff node.name field).mp hfield).1
        simp only [bind, Except.bind]
        cases huse : field.value.relation with
        | none => simp only [ihrest level next hentity]
        | some use =>
            simp only [h.link level node.name field.value use hentity hknown huse, ihnode]
            -- What is linked is the same, and so is what follows.
            cases schema.link level node.name field.value use with
            | error e => rfl
            | ok linked =>
                simp only [ihrest level _ hentity]

theorem compileQuery_of_linksAlike (schema schema' : Schema) (h : schema.LinksAlike schema')
    (minDepth : Nat) (authenticated : Bool) (constraint : Option Constraint) (node : QueryNode) :
    schema'.compileQuery minDepth authenticated constraint node =
      schema.compileQuery minDepth authenticated constraint node := by
  unfold Schema.compileQuery
  rw [(resolve_of_linksAlike schema schema' h).1]

/-- The order of the two sides of a relation does not matter. If the sides of some
    relations change places, and none of these relations ties a field, every field
    that uses one sees the same own and the same foreign side as before, and every
    request has the same outcome, be it a failure or a query. -/
theorem compileQuery_swapSides (schema : Schema) (swapped : String → Bool)
    (huntied : schema.Untied swapped) :
    (∀ (typeName : String) (entity : Entity) (fieldName : String) (field : Field)
      (use : FieldLink) (relation : Relation),
      schema.entity? typeName = some entity → entity.field? fieldName = some field →
      field.relation = some use → schema.relation? use.relationName = some relation →
        ∃ relation', (schema.swapSides swapped).relation? use.relationName = some relation' ∧
          relation'.endpoints? use.ownerTable use.isListType field.nativeColumnName =
            relation.endpoints? use.ownerTable use.isListType field.nativeColumnName) ∧
    ∀ (minDepth : Nat) (authenticated : Bool) (constraint : Option Constraint) (node : QueryNode),
      (schema.swapSides swapped).compileQuery minDepth authenticated constraint node =
        schema.compileQuery minDepth authenticated constraint node := by
  constructor
  · intro typeName entity fieldName field use relation hentity hfield huse hrelation
    refine ⟨_, ?_, schema.endpoints?_swapSides swapped huntied typeName entity fieldName field use
      relation hentity hfield huse hrelation⟩
    rw [schema.relation?_swapSides swapped, hrelation, Option.map_some]
  · exact compileQuery_of_linksAlike schema _ (schema.linksAlike_swapSides swapped huntied)

/-! ### A staff

People of one table who are related to each other in two ways: each may have a
manager, and so may be the manager of many, and each lists friends. -/

namespace Staff

/-- A field that uses a relation of people. -/
def related (name : String) (column : Option String) (relationName : String) (isList : Bool) :
    String × Field :=
  (name, ⟨column, some ⟨relationName, isList, ⟨"app", "person"⟩⟩⟩)

/-- People: two fields for either end of either relation. -/
def person : Entity where
  tableSchemaName := "app"
  tableName := "person"
  viewSchemaName := none
  publicViewName := "person_public"
  authViewName := "person_auth"
  idColumnName := "id"
  fields := [Blog.stored "id", Blog.stored "name",
    related "manager" (some "manager_id") "management" false,
    related "reports" none "management" true,
    related "friends" (some "friend_ids") "friendship" true,
    related "friendOf" (some "friend_of_ids") "friendship" true]
  publicFieldNames := ["id", "name", "manager", "reports", "friends", "friendOf"]
  disallowGenericRootLevelAggregation := false

/-- A side on the table of people. -/
def side (cardinality : Cardinality) (column : Option String) : Side :=
  ⟨"app", "person", cardinality, column, none, "uuid"⟩

def schema : Schema where
  viewSchemaName := "views"
  entities := [("Person", person)]
  relations := [
    ("management", ⟨"management", side .many none, side .one (some "manager_id")⟩),
    ("friendship",
      ⟨"friendship", side .many (some "friend_ids"), side .many (some "friend_of_ids")⟩)]
  mutations := []

/-- The people, with whoever is related to them. -/
def request : QueryNode where
  name := "people"
  aliasName := none
  fieldsByTypeName := [("Person", ["manager", "reports", "friends", "friendOf"].map fun name =>
    (name, ⟨name, none, [("Person", [Blog.leaf "name"])], []⟩))]
  args := []

end Staff

/-- On a table that is related to itself, the cardinality tells the sides of one
    relation apart and the column those of the other, so both may be swapped. -/
theorem compileQuery_swapSides_staff :
    Staff.schema.Untied (fun _ => true) ∧
      Staff.schema.swapSides (fun _ => true) ≠ Staff.schema ∧
      ∃ c, Staff.schema.compileQuery 3 false none Staff.request = .ok c ∧
        (Staff.schema.swapSides fun _ => true).compileQuery 3 false none Staff.request = .ok c := by
  have huntied : Staff.schema.Untied (fun _ => true) := by decide
  have hcompiles : ∃ c, Staff.schema.compileQuery 3 false none Staff.request = .ok c := ⟨_, rfl⟩
  rcases hcompiles with ⟨c, hc⟩
  refine ⟨huntied, by decide, c, hc, ?_⟩
  rw [(compileQuery_swapSides Staff.schema (fun _ => true) huntied).2, hc]

/-- A field of people that is stored in no column is tied between friends, and sees
    whichever side is written first. -/
example : Staff.schema.relations.map (fun entry =>
    decide (entry.2.swap.endpoints? ⟨"app", "person"⟩ true none =
      entry.2.endpoints? ⟨"app", "person"⟩ true none)) = [true, false] := by decide

end ViewCompiler
