import ViewCompiler.Proofs.Parameters
import ViewCompiler.Proofs.SideOrder
import ViewCompiler.Proofs.Visits

/-!
# The Two Directions of a Relation

A relation of one to many, followed from either end.

The rows of one table each belong to one row of the other, whose identifier they store. A
field at the one end leads up to the row that is belonged to, and a field at the other end
leads down to the rows that belong. The two are linked in different ways. On the way up the
stored column is that of the own side, or else the one that the field itself is stored in;
on the way down it is that of the foreign side, and has to be a column of the entity. Both
times it is the column of the same side. A link down is found only if that side names a
column, and then this column comes before the field's own on the way up.

Which side a field stands on is settled by its table, or by how many rows it asks for if
the relation links a table to itself. `OneToMany` has a relation with two fields of which
this is known, and `Selected` a level of a compiled request at which such a field is
selected, however deep it lies.

## Main definitions

* `Schema.RelationField`, `Schema.OneToMany`: Fields at the ends of a relation.
* `Schema.RelationField.Selected`: A level of a compiled request that selects a field.
* `Schema.RelationField.Selected.Holds`, `Schema.RelationField.Selected.MatchedBy`: How
  the rows of the field stand in the select of the level.

## Theorems

* `Relation.endpoints?_of_own`: The side that a field stands on.
* `Schema.OneToMany.child_link`, `Schema.OneToMany.parent_link`: The link in either
  direction.
* `Schema.RelationField.Selected.holds`: What a compiled level has for a relation field.
* `compileQuery_inverseLinks`: The two directions match the same rows.
-/

namespace ViewCompiler

open Json Sql Schema

/-! ### Sides -/

namespace Schema

/-- Sides of different cardinality are told apart by the table of a field, and by its
    multiplicity where both are on that table. -/
theorem Relation.endpoints?_of_own (r : Relation) (own foreign : Side)
    (hsides : r.first = own ∧ r.second = foreign ∨ r.first = foreign ∧ r.second = own)
    (hkinds : own.cardinality ≠ foreign.cardinality) (owner : TableName) (isList : Bool)
    (column : Option String) (hown : own.isOn owner = true)
    (hboth : foreign.isOn owner = true →
      own.cardinality = if isList then Cardinality.many else Cardinality.one) :
    r.endpoints? owner isList column = some ⟨own, foreign⟩ := by
  unfold endpoints? ownIsFirst?
  cases hforeign : foreign.isOn owner with
  | false =>
      rcases hsides with ⟨rfl, rfl⟩ | ⟨rfl, rfl⟩
      · simp only [hown, hforeign, Option.map_some, if_true]
      · simp only [hown, hforeign, Option.map_some, Bool.false_eq_true, if_false]
  -- Both sides are on the table, and one of them has the cardinality of the field.
  | true =>
      have hmultiplicity := hboth hforeign
      rcases hsides with ⟨rfl, rfl⟩ | ⟨rfl, rfl⟩
      · simp only [hown, hforeign, ne_eq, hkinds, not_false_eq_true, if_true, ← hmultiplicity,
          beq_self_eq_true, Option.map_some]
      · have hother : (r.first.cardinality == r.second.cardinality) = false :=
          beq_eq_false_iff_ne.mpr hkinds.symm
        simp only [hown, hforeign, ne_eq, hkinds.symm, not_false_eq_true, if_true, ← hmultiplicity,
          hother, Option.map_some, Bool.false_eq_true, if_false]

/-! ### Both ends of a relation -/

/-- A field of an entity that uses a relation. -/
structure RelationField (schema : Schema) where
  typeName : String
  entity : Entity
  name : String
  field : Field
  use : FieldLink
  entity_eq : schema.entity? typeName = some entity
  field_eq : entity.field? name = some field
  use_eq : field.relation = some use

/-- A relation of one to many with a field at either end: `child` leads from a row to the
    one that it belongs to, and `parent` from a row to those that belong to it. On a table
    that is related to itself, it shows in the fields which is which. -/
structure OneToMany (schema : Schema) where
  relation : Relation
  one : Side
  many : Side
  sides : relation.first = one ∧ relation.second = many ∨
    relation.first = many ∧ relation.second = one
  one_cardinality : one.cardinality = .one
  many_cardinality : many.cardinality = .many
  child : RelationField schema
  parent : RelationField schema
  child_relation : schema.relation? child.use.relationName = some relation
  parent_relation : schema.relation? parent.use.relationName = some relation
  child_table : one.isOn child.use.ownerTable = true
  parent_table : many.isOn parent.use.ownerTable = true
  apart : child.use.ownerTable = parent.use.ownerTable →
    child.use.isListType = false ∧ parent.use.isListType = true

namespace OneToMany

variable {schema : Schema} (ends : schema.OneToMany)

theorem kinds : ends.one.cardinality ≠ ends.many.cardinality := by
  rw [ends.one_cardinality, ends.many_cardinality]
  exact nofun

theorem child_endpoints (column : Option String) :
    ends.relation.endpoints? ends.child.use.ownerTable ends.child.use.isListType column =
      some ⟨ends.one, ends.many⟩ := by
  refine ends.relation.endpoints?_of_own ends.one ends.many ends.sides ends.kinds _ _ column
    ends.child_table fun hmany => ?_
  -- The other side is on the table of the other field, so both fields have one table.
  have htables := (ends.many.isOn_iff _).mp hmany
  rw [← (ends.many.isOn_iff _).mp ends.parent_table] at htables
  rw [(ends.apart htables).1, ends.one_cardinality]
  rfl

theorem parent_endpoints (column : Option String) :
    ends.relation.endpoints? ends.parent.use.ownerTable ends.parent.use.isListType column =
      some ⟨ends.many, ends.one⟩ := by
  refine ends.relation.endpoints?_of_own ends.many ends.one ends.sides.symm ends.kinds.symm _ _
    column ends.parent_table fun hone => ?_
  have htables := (ends.one.isOn_iff _).mp hone
  rw [← (ends.one.isOn_iff _).mp ends.child_table] at htables
  rw [(ends.apart htables.symm).2, ends.many_cardinality]
  rfl

/-- The way up: one row, whose identifier the own row stores. -/
theorem child_link (level : Level) (fetch : Fetch) (constraint : Constraint)
    (h : schema.link level ends.child.name ends.child.field ends.child.use =
      .ok (fetch, constraint)) :
    ∃ key, (ends.one.columnName <|> ends.child.field.nativeColumnName) = some key ∧
      fetch = .row ∧ constraint = .equals .primaryKey (.column level.aliasName key) := by
  rcases schema.link_eq_ok level _ _ _ fetch constraint h with
    ⟨relation, sides, hrelation, hsides, hways⟩
  rw [ends.child_relation, Option.some.injEq] at hrelation
  subst hrelation
  rw [ends.child_endpoints, Option.some.injEq] at hsides
  subst hsides
  rcases hways with ⟨_, hkey⟩ | ⟨hmany, _⟩ | ⟨hmany, _⟩
  · exact hkey
  · exact absurd (ends.one_cardinality.symm.trans hmany) nofun
  · exact absurd (ends.one_cardinality.symm.trans hmany) nofun

/-- The way down: all rows that store the identifier of the own row. -/
theorem parent_link (level : Level) (fetch : Fetch) (constraint : Constraint)
    (h : schema.link level ends.parent.name ends.parent.field ends.parent.use =
      .ok (fetch, constraint)) :
    ∃ key, ends.one.columnName = some key ∧ fetch = .aggregation ∧
      constraint = .equals (.named key) (.column level.aliasName level.entity.idColumnName) := by
  rcases schema.link_eq_ok level _ _ _ fetch constraint h with
    ⟨relation, sides, hrelation, hsides, hways⟩
  rw [ends.parent_relation, Option.some.injEq] at hrelation
  subst hrelation
  rw [ends.parent_endpoints, Option.some.injEq] at hsides
  subst hsides
  rcases hways with ⟨hone, _⟩ | ⟨_, hmany, _⟩ | ⟨_, _, hkey⟩
  · exact absurd (ends.many_cardinality.symm.trans hone) nofun
  · exact absurd (ends.one_cardinality.symm.trans hmany) nofun
  · exact hkey

end OneToMany

end Schema

/-! ### Selected fields -/

/-- The aliases of a level are given out before those of the levels inside of it. -/
theorem Visit.next_of_descends {schema : Schema} {authenticated : Bool} {v w : Visit}
    {context : String} (hstep : v.Descends schema authenticated context w) :
    v.next + 2 ≤ w.next := by
  cases hstep with
  | relation level child number fetch constraint hcomes hleads =>
      rcases hcomes with ⟨before, _, _, others, _, hbefore, rfl⟩
      exact (resolve_next schema).2 before _ _ others hbefore

namespace Schema.RelationField

variable {schema : Schema}

/-- A compiled request, and a level of it at which a relation field is selected with rows
    of the type `target`. The level lies at the end of some way down from the outermost
    one. -/
structure Selected (field : RelationField schema) (target : String) where
  minDepth : Nat
  authenticated : Bool
  constraint : Option Constraint
  node : QueryNode
  compiled : CompiledQuery
  compiles : schema.compileQuery minDepth authenticated constraint node = .ok compiled
  contexts : List String
  visit : Visit
  way : (Visit.outermost constraint node).Reaches schema authenticated contexts visit
  level : Level
  fields : List (String × QueryNode)
  opens : visit.Opens schema authenticated level fields
  level_type : level.typeName = field.typeName
  key : String
  child : QueryNode
  child_mem : (key, child) ∈ fields
  child_name : child.name = field.name
  below : List (String × QueryNode)
  child_type : child.selection? = some (target, below)

namespace Selected

variable {field : RelationField schema} {target : String}

/-- The field is a column of its level, and the column has the rows of a view of an entity
    under an alias, in the given shape. Of these rows those are taken that satisfy
    `matching` and the filter that the node of the field asks for. -/
def Holds (s : field.Selected target) (entity : Entity) (fetch : Fetch) (aliasName : String)
    (matching : Predicate) : Prop :=
  ∃ select rows wrapper filter restricted restricted',
    select ∈ s.compiled.statement.selects ∧
    select.source = some (.view ⟨schema.entityViewSchema field.entity,
      field.entity.viewName restricted⟩ s.level.aliasName) ∧
    levelColumn fetch wrapper rows s.child.resultKey ∈ select.columns ∧
    rows.source = some (.view ⟨schema.entityViewSchema entity, entity.viewName restricted'⟩
      aliasName) ∧
    Level.FilteredBy ⟨target, entity, aliasName, s.authenticated⟩ s.child.args filter ∧
    rows.predicate = matching.conj filter

/-- The rows of the field are matched with the row of its level in the given way, which
    takes the alias of the level and that of the rows. The two are different. -/
def MatchedBy (s : field.Selected target) (entity : Entity) (fetch : Fetch)
    (link : String → String → Predicate) : Prop :=
  ∃ aliasName, s.level.aliasName ≠ aliasName ∧
    s.Holds entity fetch aliasName (link s.level.aliasName aliasName)

theorem level_entity (s : field.Selected target) : s.level.entity = field.entity := by
  have hentity := schema.levelEntity_eq_ok _ _ _ _ _ _ s.opens.entity
  rw [s.level_type, field.entity_eq, Option.some.injEq] at hentity
  exact hentity.symm

/-- A relation field of a compiled request has a link, and the predicate of the link
    stands in the select of its rows. -/
theorem holds (s : field.Selected target) (entity : Entity)
    (hentity : schema.entity? target = some entity) :
    ∃ fetch constraint aliasName matching,
      schema.link s.level field.name field.field field.use = .ok (fetch, constraint) ∧
      constraint.predicate target entity aliasName = .ok matching ∧
      s.level.aliasName ≠ aliasName ∧ s.Holds entity fetch aliasName matching := by
  rcases compileQuery_reaches s.compiles s.way with ⟨r, hr, hmem⟩
  have hfield : s.level.entity.field? s.child.name = some field.field := by
    rw [s.level_entity, s.child_name, field.field_eq]
  rcases Visit.descends_of_mem hr s.opens s.child_mem hfield field.use_eq with
    ⟨fetch, constraint, number, hlink, hstep⟩
  rcases Visit.resolve_descends hr hstep with ⟨rows, hrows, hcolumn⟩
  rcases Visit.resolve_eq_ok hr with ⟨level, fields, selected, clauses, _, hopens, _, _, _, rfl⟩
  rcases hopens.unique s.opens with ⟨rfl, rfl⟩
  rcases Visit.resolve_eq_ok hrows with
    ⟨below, _, selected', clauses', matching, hbelow, _, hclauses', hmatching, rfl⟩
  -- The rows are of the type that the child names.
  have htype : below.typeName = target := by
    have hselection := hbelow.selection
    rw [s.child_type, Option.some.injEq, Prod.mk.injEq] at hselection
    exact hselection.1.symm
  have hbelowEntity : below.entity = entity := by
    have hfound := schema.levelEntity_eq_ok _ _ _ _ _ _ hbelow.entity
    rw [htype, hentity, Option.some.injEq] at hfound
    exact hfound.symm
  have hlevel : below = ⟨target, entity, below.aliasName, s.authenticated⟩ :=
    calc below = ⟨below.typeName, below.entity, below.aliasName, below.authenticated⟩ := rfl
      _ = _ := by rw [htype, hbelowEntity, hbelow.authenticated]
  have hfiltered := below.clauses_filteredBy _ clauses' hclauses'
  rw [hlevel] at hfiltered
  rw [s.child_name] at hlink
  rw [htype, hbelowEntity] at hmatching
  refine ⟨fetch, constraint, below.aliasName, matching, hlink, hmatching, ?_, ?_⟩
  · rw [s.opens.aliasName, hbelow.aliasName]
    intro hsame
    have hlater := Visit.next_of_descends hstep
    have hnumbers := localAlias_injective _ _ hsame
    omega
  · refine ⟨_, _, _, _, selected.restricted || clauses.restricted,
      selected'.restricted || clauses'.restricted, hmem, ?_, hcolumn, ?_, hfiltered, rfl⟩
    · rw [← s.level_entity]
      rfl
    · rw [← hbelowEntity]
      rfl

end Selected

end Schema.RelationField

/-- The two directions of a relation match the same rows. Of a relation of one to many that
    is followed up at a level of a compiled request and down at a level of another, or of the
    same, there is one column in which a row stores what it belongs to. On the way up a
    single row is fetched, that whose identifier is equal to the column. On the way down the
    rows are fetched as a list, those whose column is equal to the identifier. As long as
    equality is symmetric, the two conditions have the same value for the same two rows. -/
theorem compileQuery_inverseLinks (schema : Schema) (ends : schema.OneToMany)
    (up : ends.child.Selected ends.parent.typeName)
    (down : ends.parent.Selected ends.child.typeName) :
    ∃ column, ends.one.columnName = some column ∧
      let upLink := fun own other : String => Predicate.compare .eq
        (.physical other ends.parent.entity.idColumnName) (.physical own column)
      let downLink := fun own other : String => Predicate.compare .eq
        (.physical other column) (.physical own ends.parent.entity.idColumnName)
      up.MatchedBy ends.parent.entity .row upLink ∧
      down.MatchedBy ends.child.entity .aggregation downLink ∧
      ∀ {V : Type} (engine : Engine V) (db : Database V),
        (∀ x y, engine.compare .eq x y = engine.compare .eq y x) →
        ∀ (own other own' other' : String), own ≠ other → own' ≠ other' →
        ∀ (child parent : Row V) (scope scope' : Scope V),
          (upLink own other).eval engine db ((other, parent) :: (own, child) :: scope) =
            (downLink own' other').eval engine db
              ((other', child) :: (own', parent) :: scope') := by
  rcases up.holds ends.parent.entity ends.parent.entity_eq with
    ⟨fetch, constraint, other, matching, hlink, hmatching, hne, hholds⟩
  rcases down.holds ends.child.entity ends.child.entity_eq with
    ⟨fetch', constraint', other', matching', hlink', hmatching', hne', hholds'⟩
  rcases ends.child_link up.level fetch constraint hlink with ⟨key, hkey, rfl, rfl⟩
  rcases ends.parent_link down.level fetch' constraint' hlink' with ⟨column, hcolumn, rfl, rfl⟩
  -- The side names the column, so the way up need not ask the field for it.
  have hsame : key = column := by
    rw [hcolumn] at hkey
    exact (Option.some.inj hkey).symm
  subst hsame
  simp only [Constraint.predicate, bind_eq_ok_iff, pure, Except.pure, Except.ok.injEq] at hmatching
  rcases hmatching with ⟨_, hup, rfl⟩
  simp only [Constraint.predicate, bind_eq_ok_iff, pure, Except.pure, Except.ok.injEq] at hmatching'
  rcases hmatching' with ⟨_, hdown, rfl⟩
  rw [ChildColumn.toColumn_eq_ok _ _ _ _ _ hup] at hholds
  rw [ChildColumn.toColumn_eq_ok _ _ _ _ _ hdown, down.level_entity] at hholds'
  refine ⟨key, hcolumn, ⟨other, hne, hholds⟩, ⟨other', hne', hholds'⟩, ?_⟩
  intro V engine db hsymm own other own' other' hne hne' child parent scope scope'
  simp only [Predicate.eval, Column.eval_physical_head,
    Column.eval_physical_next engine db _ _ _ hne.symm,
    Column.eval_physical_next engine db _ _ _ hne'.symm]
  exact hsymm _ _

namespace Staff

/-- The people, with whoever else reports to their managers. -/
def colleagues : QueryNode where
  name := "people"
  aliasName := none
  fieldsByTypeName := [("Person", [("manager", ⟨"manager", none, [("Person", [
    ("reports", ⟨"reports", none, [("Person", [Blog.leaf "name"])], []⟩)])], []⟩)])]
  args := []

/-- A relation field of people. -/
def personField (name : String) (field : Field) (use : FieldLink)
    (hfield : person.field? name = some field) (huse : field.relation = some use) :
    schema.RelationField :=
  ⟨"Person", person, name, field, use, rfl, hfield, huse⟩

/-- Managers and reports, on one table. -/
def management : schema.OneToMany where
  relation := ⟨"management", side .many none, side .one (some "manager_id")⟩
  one := side .one (some "manager_id")
  many := side .many none
  sides := Or.inr ⟨rfl, rfl⟩
  one_cardinality := rfl
  many_cardinality := rfl
  child := personField "manager" _ _ rfl rfl
  parent := personField "reports" _ _ rfl rfl
  child_relation := rfl
  parent_relation := rfl
  child_table := rfl
  parent_table := rfl
  apart := fun _ => ⟨rfl, rfl⟩

end Staff

/-- Managers at the outermost level of a request, and reports one level down. The way up
    finds the manager by the column that the way down looks at. -/
theorem compileQuery_inverseLinks_staff :
    ∃ (up : Staff.management.child.Selected "Person")
      (down : Staff.management.parent.Selected "Person"),
      up.node = Staff.colleagues ∧ up.contexts = [] ∧
      down.node = Staff.colleagues ∧ down.contexts = ["while resolving 'Person.manager'"] ∧
      up.MatchedBy Staff.person .row (fun own other =>
        .compare .eq (.physical other "id") (.physical own "manager_id")) ∧
      down.MatchedBy Staff.person .aggregation (fun own other =>
        .compare .eq (.physical other "manager_id") (.physical own "id")) := by
  have hcompiles : ∃ c, Staff.schema.compileQuery 3 false none Staff.colleagues = .ok c := ⟨_, rfl⟩
  rcases hcompiles with ⟨c, hc⟩
  let outer : Level := ⟨"Person", Staff.person, localAlias 1, false⟩
  let inner : Level := ⟨"Person", Staff.person, localAlias 3, false⟩
  let manager : QueryNode := ⟨"manager", none, [("Person", [
    ("reports", ⟨"reports", none, [("Person", [Blog.leaf "name"])], []⟩)])], []⟩
  let nested : Visit :=
    ⟨manager, .row, .nested, some (.equals .primaryKey (.column (localAlias 1) "manager_id")), 2⟩
  have hopens : (Visit.outermost none Staff.colleagues).Opens Staff.schema false outer
      [("manager", manager)] := ⟨rfl, rfl, rfl, rfl⟩
  have hstep : (Visit.outermost none Staff.colleagues).Descends Staff.schema false
      "while resolving 'Person.manager'" nested :=
    .relation _ outer manager 2 _ _ ⟨[], "manager", [], ⟨[], [], false, false, 2⟩, hopens, rfl, rfl⟩
      ⟨_, _, rfl, rfl, rfl⟩
  let up : Staff.management.child.Selected "Person" :=
    ⟨3, false, none, Staff.colleagues, c, hc, [], _, .refl _, outer, _, hopens, rfl, "manager", _,
      List.mem_cons_self, rfl, _, rfl⟩
  let down : Staff.management.parent.Selected "Person" :=
    ⟨3, false, none, Staff.colleagues, c, hc, _, nested, .step _ _ _ _ _ hstep (.refl _), inner, _,
      ⟨rfl, rfl, rfl, rfl⟩, rfl, "reports", _, List.mem_cons_self, rfl, _, rfl⟩
  rcases compileQuery_inverseLinks Staff.schema Staff.management up down with
    ⟨column, hcolumn, hup, hdown, _⟩
  rw [← Option.some.inj hcolumn] at hup hdown
  exact ⟨up, down, rfl, rfl, rfl, rfl, hup, hdown⟩

end ViewCompiler
