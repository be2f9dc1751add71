import Mathlib.Data.List.Nodup
import Mathlib.Data.Option.Basic
import ViewCompiler.Proofs.Responses

/-!
# What an Input Assigns

From the names in an input to the columns of a statement.

An input is keyed by the names of fields, a statement by columns, and the metadata
lead from the one to the other. That no name occurs twice in an input is given. That
no column occurs twice in a statement is another matter: it depends on whether two
of the names are stored in one column, and nothing in the metadata rules that out. A
relation and the plain field of its key may share a column.

The identifier is affected most. It has one name in the input and one column in the
statement, and the name is found by a search for a field of that column. The search
passes over relations, stops at the first field it finds, and takes the name of the
column itself if it finds none. So a second field may write the identifier column
behind the back of the identifier (`compileMutation_columns_shared`), and the name
of the identifier may be that of a field which is stored somewhere else
(`compileMutation_createdId_elsewhere`).

All of this goes away where the columns are kept apart (`Entity.ColumnsApart`): no two
fields are stored in one column, and the identifier column is that of a plain field.
Then the identifier is the one name for its column.

## Main definitions

* `Sql.Statement.columns`: The columns that a statement writes.
* `Sql.Insert.assignments`: The columns of a new row with their values.
* `Entity.writtenBy`: What a mutation writes of its input.
* `Entity.ColumnsApart`: Every column is that of one field.
* `Entity.FilledBy`: A new row that consists of what an input says.

## Theorems

* `Entity.Writes.columns_eq`, `Entity.Writes.mem_iff`: The columns of an input.
* `Entity.ColumnsApart.eq_idFieldName`: The identifier alone writes its column.
* `MutationTarget.statement_writes`: What a statement writes.
* `compileMutation_columns`: When columns repeat, and when the identifier is set.
* `compileMutation_createdId`: The identifier of a new row.
-/

namespace ViewCompiler

open Json Sql Schema

/-! ### Columns of statements -/

/-- The columns that a statement writes, in order. -/
def Sql.Statement.columns : Statement → List String
  | .insert statement => statement.columns
  | .update statement => statement.assignments.map Prod.fst
  | .delete _ => []

/-- The columns of a new row, each with its value. -/
def Sql.Insert.assignments (insert : Insert) : List (String × Column) :=
  insert.columns.zip insert.values

namespace Schema.Entity

variable (entity : Entity)

/-- What a mutation writes of its input: a new row gets all of it, a row that is
    changed gets all but the identifier, and for a row that is removed there is
    nothing to write. -/
def writtenBy (input : Entries Value) : MutationKind → Entries Value
  | .create => input
  | .update => entity.besidesId input
  | .delete => []
  | .unsupported => []

theorem writtenBy_sublist (input : Entries Value) (kind : MutationKind) :
    (entity.writtenBy input kind).Sublist input := by
  cases kind with
  | create => exact List.Sublist.refl input
  | update => exact List.filter_sublist
  | delete => exact List.nil_sublist input
  | unsupported => exact List.nil_sublist input

section Writes

variable {entity} {input : Entries Value} {written : List (String × Param)}

theorem Writes.columns_eq (h : entity.Writes input written) :
    (written.map Prod.fst).map some = input.map fun entry => entity.column? entry.1 := by
  induction h with
  | nil => rfl
  | cons hentry _ ih => rw [List.map_cons, List.map_cons, List.map_cons, ih, hentry.1]

/-- Columns repeat if two entries are stored in one column. -/
theorem Writes.nodup_iff (h : entity.Writes input written) :
    (written.map Prod.fst).Nodup ↔
      input.Pairwise fun a b => entity.column? a.1 ≠ entity.column? b.1 := by
  rw [← List.nodup_map_iff (Option.some_injective String), h.columns_eq]
  exact List.pairwise_map

theorem Writes.mem_columns_iff (h : entity.Writes input written) (column : String) :
    column ∈ written.map Prod.fst ↔ ∃ entry ∈ input, entity.column? entry.1 = some column := by
  rw [← List.mem_map_of_injective (Option.some_injective String), h.columns_eq, List.mem_map]

/-- What is written is what the entries say, each for its column. -/
theorem Writes.mem_iff (h : entity.Writes input written) (column : String) (p : Param) :
    (column, p) ∈ written ↔ ∃ entry ∈ input, entity.column? entry.1 = some column ∧
      p = .text (boundText? entry.2) := by
  induction h with
  | nil => simp only [List.not_mem_nil, false_and, exists_false]
  | @cons entry w _ _ hentry _ ih =>
      rw [List.mem_cons, ih, List.exists_mem_cons_iff, hentry.1, ← hentry.2]
      rcases w with ⟨stored, q⟩
      simp only [Prod.mk.injEq, Option.some.injEq, eq_comm]

end Writes

/-! ### Columns kept apart -/

/-- An entity in which every column is that of one field. No two fields are stored in
    one column, and the identifier column is that of a field which stands for no
    relation. -/
structure ColumnsApart : Prop where
  named : (Entries.keys entity.fields).Nodup
  apart : ∀ f ∈ entity.fields, ∀ g ∈ entity.fields, f.2.nativeColumnName.isSome = true →
    f.2.nativeColumnName = g.2.nativeColumnName → f.1 = g.1
  identified : ∃ f ∈ entity.fields, entity.StoresId f.2

variable {entity}

theorem exists_of_column? {name column : String} (h : entity.column? name = some column) :
    ∃ field, (name, field) ∈ entity.fields ∧ field.nativeColumnName = some column := by
  rcases Option.bind_eq_some_iff.mp h with ⟨field, hfield, hcolumn⟩
  exact ⟨field, entity.fields.mem_of_get? name field hfield, hcolumn⟩

theorem ColumnsApart.name_unique (h : entity.ColumnsApart) {name other column : String}
    (hname : entity.column? name = some column) (hother : entity.column? other = some column) :
    name = other := by
  rcases exists_of_column? hname with ⟨field, hmem, hcolumn⟩
  rcases exists_of_column? hother with ⟨field', hmem', hcolumn'⟩
  exact h.apart _ hmem _ hmem' (Option.isSome_of_eq_some hcolumn) (hcolumn.trans hcolumn'.symm)

/-- The name of the identifier is that of a field in the identifier column. -/
theorem ColumnsApart.column?_idFieldName (h : entity.ColumnsApart) :
    entity.column? (idFieldName entity) = some entity.idColumnName := by
  rcases (entity.isIdField_iff (idFieldName entity)).mpr rfl with
    ⟨before, field, after, hfields, hstores, _⟩ | ⟨_, hnone⟩
  · have hmem : (idFieldName entity, field) ∈ entity.fields := by
      rw [hfields]
      exact List.mem_append_right _ List.mem_cons_self
    have hfield : entity.field? (idFieldName entity) = some field :=
      entity.fields.get?_of_mem h.named _ _ hmem
    rw [column?, hfield, Option.bind_some, hstores.2]
  -- The name of the column is never taken, as there is a field to be found.
  · rcases h.identified with ⟨f, hf, hstores⟩
    exact absurd hstores (hnone f hf)

/-- Nothing but the identifier is stored in the identifier column. -/
theorem ColumnsApart.eq_idFieldName (h : entity.ColumnsApart) {name : String}
    (hname : entity.column? name = some entity.idColumnName) : name = idFieldName entity :=
  h.name_unique hname h.column?_idFieldName

/-- Different names are stored in different columns. -/
theorem ColumnsApart.pairwise (h : entity.ColumnsApart) (input : Entries Value)
    (hnames : (Entries.keys input).Nodup)
    (hstored : ∀ entry ∈ input, (entity.column? entry.1).isSome = true) :
    input.Pairwise fun a b => entity.column? a.1 ≠ entity.column? b.1 := by
  refine (List.pairwise_map.mp hnames).imp_of_mem fun {a b} ha _ hne hsame => ?_
  rcases Option.isSome_iff_exists.mp (hstored a ha) with ⟨column, hcolumn⟩
  exact hne (h.name_unique hcolumn (hsame ▸ hcolumn))

end Schema.Entity

/-! ### Statements and what they write -/

/-- A statement writes what the input says that is to be written. -/
theorem MutationTarget.statement_writes (target : MutationTarget) (input : Entries Value)
    (kind : MutationKind) (s : Statement) (h : target.statement input kind = .ok s) :
    ∃ written, target.entity.Writes (target.entity.writtenBy input kind) written ∧
      s.columns = written.map Prod.fst := by
  cases kind with
  | create =>
      rcases (map_eq_ok_iff _ _ _).mp h with ⟨insert, hinsert, rfl⟩
      rcases (target.create_eq_ok_iff input insert).mp hinsert with ⟨_, written, hwrites, rfl⟩
      exact ⟨written, hwrites, rfl⟩
  | update =>
      rcases (map_eq_ok_iff _ _ _).mp h with ⟨update, hupdate, rfl⟩
      rcases (target.update_eq_ok_iff input update).mp hupdate with
        ⟨_, _, _, written, hwrites, rfl⟩
      refine ⟨written, hwrites, ?_⟩
      rw [Statement.columns, List.map_map]
      rfl
  | delete =>
      rcases (map_eq_ok_iff _ _ _).mp h with ⟨delete, _, rfl⟩
      exact ⟨[], .nil, rfl⟩
  | unsupported => simp only [MutationTarget.statement, reduceCtorEq] at h

section Compiled

variable (schema : Schema) (request : MutationRequest) (mutation : Mutation) (entity : Entity)

/-- What a compiled mutation consists of. -/
theorem Schema.compileMutation_eq_ok (hmutation : schema.mutation? request.name = some mutation)
    (hentity : schema.entity? mutation.typeName = some entity) (cm : CompiledMutation)
    (h : schema.compileMutation request = .ok cm) :
    (schema.targetOf request.name mutation entity).statement request.input mutation.kind =
        .ok cm.statement ∧
      cm.affectedEntityId = inputId? entity request.input ∧
      cm.entityTypeName = mutation.typeName := by
  rw [schema.compileMutation_known request mutation entity hmutation hentity, map_eq_ok_iff] at h
  rcases h with ⟨s, hs, rfl⟩
  exact ⟨hs, rfl, rfl⟩

/-- The columns that a mutation writes are those of the names in its input, one for
    each, without the identifier of a row that is changed. So columns repeat if two
    of the names are stored in one column, and the identifier column is set if a name
    other than that of the identifier is stored in it. Where columns are kept apart,
    neither happens. -/
theorem compileMutation_columns (hmutation : schema.mutation? request.name = some mutation)
    (hentity : schema.entity? mutation.typeName = some entity) (cm : CompiledMutation)
    (h : schema.compileMutation request = .ok cm) :
    let said := entity.writtenBy request.input mutation.kind
    cm.statement.columns.map some = said.map (fun entry => entity.column? entry.1) ∧
      (cm.statement.columns.Nodup ↔
        said.Pairwise fun a b => entity.column? a.1 ≠ entity.column? b.1) ∧
      (mutation.kind = .update →
        (entity.idColumnName ∈ cm.statement.columns ↔
          ∃ entry ∈ request.input, entry.1 ≠ idFieldName entity ∧
            entity.column? entry.1 = some entity.idColumnName)) ∧
      (entity.ColumnsApart → (Entries.keys request.input).Nodup →
        cm.statement.columns.Nodup ∧
          (mutation.kind = .update → entity.idColumnName ∉ cm.statement.columns)) := by
  intro said
  rcases schema.compileMutation_eq_ok request mutation entity hmutation hentity cm h with
    ⟨hstatement, _, _⟩
  rcases MutationTarget.statement_writes _ request.input mutation.kind cm.statement hstatement with
    ⟨written, hwrites, hcolumns⟩
  have hsaid : entity.Writes said written := hwrites
  have hset : mutation.kind = .update → (entity.idColumnName ∈ cm.statement.columns ↔
      ∃ entry ∈ request.input, entry.1 ≠ idFieldName entity ∧
        entity.column? entry.1 = some entity.idColumnName) := by
    intro hkind
    have hothers : said = entity.besidesId request.input := by
      simp only [said, hkind, Entity.writtenBy]
    rw [hcolumns, hsaid.mem_columns_iff, hothers]
    simp only [entity.mem_besidesId_iff, and_assoc]
  refine ⟨by rw [hcolumns, hsaid.columns_eq], by rw [hcolumns, hsaid.nodup_iff], hset, ?_⟩
  intro hapart hnames
  constructor
  · rw [hcolumns, hsaid.nodup_iff]
    refine hapart.pairwise said ?_ ((entity.exists_writes_iff said).mp ⟨written, hsaid⟩)
    -- What is written is part of the input, so its names are different as well.
    exact hnames.sublist ((entity.writtenBy_sublist request.input mutation.kind).map Prod.fst)
  · intro hkind hmem
    rcases (hset hkind).mp hmem with ⟨entry, _, hne, hcolumn⟩
    exact hne (hapart.eq_idFieldName hcolumn)

end Compiled

namespace Blog

theorem user_columnsApart : user.ColumnsApart where
  named := by decide
  apart := by decide
  identified := ⟨stored "id", List.mem_cons_self, rfl, rfl⟩

end Blog

/-- Of the blog's users the columns are apart. The change of a name sets the columns
    of what the input says, and not that of the identifier. -/
theorem compileMutation_columns_rename :
    Blog.user.ColumnsApart ∧ (Entries.keys Blog.rename.input).Nodup ∧
      ∃ cm, Blog.editable.compileMutation Blog.rename = .ok cm ∧
        cm.statement.columns = ["name", "email"] ∧ cm.statement.columns.Nodup ∧
        Blog.user.idColumnName ∉ cm.statement.columns := by
  have hnames : (Entries.keys Blog.rename.input).Nodup := by decide
  have hcompiles : ∃ cm, Blog.editable.compileMutation Blog.rename = .ok cm ∧
      cm.statement.columns = ["name", "email"] := ⟨_, rfl, rfl⟩
  rcases hcompiles with ⟨cm, hcm, hcolumns⟩
  rcases compileMutation_columns Blog.editable Blog.rename
    ⟨.update, "User", some "w\"rite", "user"⟩ Blog.user rfl rfl cm hcm with ⟨_, _, _, hapart⟩
  rcases hapart Blog.user_columnsApart hnames with ⟨hnodup, hid⟩
  exact ⟨Blog.user_columnsApart, hnames, cm, hcm, hcolumns, hnodup, hid rfl⟩

namespace Blog

/-- Profiles: each is identified by the user it belongs to, and the key that it
    stores for this relation is its identifier. -/
def profile : Entity where
  tableSchemaName := "app"
  tableName := "profile"
  viewSchemaName := none
  publicViewName := "profile_public"
  authViewName := "profile_auth"
  idColumnName := "user_id"
  fields := [("id", ⟨some "user_id", none⟩),
    ("user", ⟨some "user_id", some ⟨"ownership", false, ⟨"app", "profile"⟩⟩⟩), stored "bio"]
  publicFieldNames := ["id", "user", "bio"]
  disallowGenericRootLevelAggregation := false

/-- Members: what everyone knows as their identifier is not the one of their
    table. -/
def member : Entity where
  tableSchemaName := "app"
  tableName := "member"
  viewSchemaName := none
  publicViewName := "member_public"
  authViewName := "member_auth"
  idColumnName := "id"
  fields := [("id", ⟨some "uuid", none⟩), stored "name"]
  publicFieldNames := ["id", "name"]
  disallowGenericRootLevelAggregation := false

/-- The blog with profiles and members. -/
def community : Schema :=
  { schema with
    entities := schema.entities ++ [("Profile", profile), ("Member", member)]
    relations := schema.relations ++ [("ownership", {
      name := "ownership"
      first := ⟨"app", "profile", .one, some "user_id", some ⟨"app", "user", "id"⟩, "uuid"⟩
      second := ⟨"app", "user", .many, none, none, "uuid"⟩ })]
    mutations := [("createProfile", ⟨.create, "Profile", none, "profile_write"⟩),
      ("updateProfile", ⟨.update, "Profile", none, "profile_write"⟩),
      ("createMember", ⟨.create, "Member", none, "member_write"⟩)] }

end Blog

/-- Where two names share the identifier column, a change sets the identifier, and a
    new row has a column twice. -/
theorem compileMutation_columns_shared :
    (∃ cm, Blog.community.compileMutation ⟨"updateProfile",
        [("id", .string "1"), ("user", .string "2"), ("bio", .string "x")]⟩ = .ok cm ∧
      Blog.profile.idColumnName ∈ cm.statement.columns) ∧
    ∃ cm, Blog.community.compileMutation ⟨"createProfile",
        [("id", .string "1"), ("user", .string "2")]⟩ = .ok cm ∧
      ¬ cm.statement.columns.Nodup := by
  have hupdate : ∃ cm, Blog.community.compileMutation ⟨"updateProfile",
        [("id", .string "1"), ("user", .string "2"), ("bio", .string "x")]⟩ = .ok cm ∧
      cm.statement.columns = ["user_id", "bio"] := ⟨_, rfl, rfl⟩
  have hcreate : ∃ cm, Blog.community.compileMutation ⟨"createProfile",
        [("id", .string "1"), ("user", .string "2")]⟩ = .ok cm ∧
      cm.statement.columns = ["user_id", "user_id"] := ⟨_, rfl, rfl⟩
  rcases hupdate with ⟨cm, hcm, hcolumns⟩
  rcases hcreate with ⟨cm', hcm', hcolumns'⟩
  refine ⟨⟨cm, hcm, ?_⟩, cm', hcm', ?_⟩
  · rw [hcolumns]
    exact List.mem_cons_self
  · rw [hcolumns']
    decide

/-! ### The identifier of a new row -/

theorem boundText?_eq_none_iff (v : Value) : boundText? v = none ↔ v = .null := by
  cases v <;> simp [boundText?]

/-- The constraint on an identifier compares the identifier column with its text. -/
theorem Constraint.onId_predicate (v : Value) (text : String) (h : boundText? v = some text)
    (typeName : String) (entity : Entity) (aliasName : String) :
    (Constraint.onId v).predicate typeName entity aliasName =
      .ok (.compare .eq (.physical aliasName entity.idColumnName)
        (.param (.text (some text)))) := by
  have hliteral : literal v = .param (.text (some text)) := by
    rw [literal, h]
  simp only [Constraint.onId, Constraint.predicate, ChildColumn.toColumn, Operand.toColumn,
    hliteral]
  rfl

namespace Schema.Entity

/-- A new row that consists of what an input says: the values of the input, each in
    the column of its name. -/
structure FilledBy (entity : Entity) (input : Entries Value) (insert : Insert) : Prop where
  columns : ∀ column, column ∈ insert.columns ↔
    ∃ entry ∈ input, entity.column? entry.1 = some column
  assignments : ∀ column value, (column, value) ∈ insert.assignments ↔
    ∃ entry ∈ input, entity.column? entry.1 = some column ∧ value = stored entry.2

variable {entity : Entity} {input : Entries Value} {insert : Insert}

theorem Writes.filledBy (view : ViewName) {written : List (String × Param)}
    (h : entity.Writes input written) :
    entity.FilledBy input ⟨view, written.map Prod.fst, written.map fun w => .param w.2⟩ := by
  refine ⟨h.mem_columns_iff, fun column value => ?_⟩
  have hassignments : Insert.assignments ⟨view, written.map Prod.fst,
      written.map fun w => .param w.2⟩ = written.map fun w => (w.1, .param w.2) :=
    List.zip_map'
  rw [hassignments, List.mem_map]
  constructor
  · rintro ⟨w, hw, heq⟩
    rcases (h.mem_iff w.1 w.2).mp hw with ⟨entry, hentry, hcolumn, hparam⟩
    rw [Prod.mk.injEq] at heq
    exact ⟨entry, hentry, heq.1 ▸ hcolumn, by rw [← heq.2, hparam, stored]⟩
  · rintro ⟨entry, hentry, hcolumn, rfl⟩
    exact ⟨_, (h.mem_iff column _).mpr ⟨entry, hentry, hcolumn, rfl⟩, rfl⟩

/-- Where columns are kept apart, the identifier that is found in an input is what the
    input has for the identifier column. -/
theorem ColumnsApart.inputId?_eq_some_iff (h : entity.ColumnsApart)
    (hnames : (Entries.keys input).Nodup) (v : Value) :
    inputId? entity input = some v ↔
      v ≠ .null ∧ ∃ name, (name, v) ∈ input ∧ entity.column? name = some entity.idColumnName := by
  rw [entity.inputId?_eq_some_iff]
  constructor
  · rintro ⟨hgiven, hv⟩
    exact ⟨hv, _, input.mem_of_get? _ v hgiven, h.column?_idFieldName⟩
  · rintro ⟨hv, name, hmem, hcolumn⟩
    rw [h.eq_idFieldName hcolumn] at hmem
    exact ⟨input.get?_of_mem hnames _ v hmem, hv⟩

/-- The identifier of a new row has the text that the identifier column gets. -/
theorem FilledBy.identifier_iff (h : entity.FilledBy input insert) (hapart : entity.ColumnsApart)
    (hnames : (Entries.keys input).Nodup) (text : String) :
    (entity.idColumnName, .param (.text (some text))) ∈ insert.assignments ↔
      ∃ v, inputId? entity input = some v ∧ boundText? v = some text := by
  rw [h.assignments]
  simp only [stored, Column.param.injEq, Param.text.injEq, hapart.inputId?_eq_some_iff hnames]
  constructor
  · rintro ⟨entry, hentry, hcolumn, hbound⟩
    refine ⟨entry.2, ⟨?_, entry.1, hentry, hcolumn⟩, hbound.symm⟩
    rw [ne_eq, ← boundText?_eq_none_iff, ← hbound]
    exact Option.some_ne_none text
  · rintro ⟨v, ⟨_, name, hmem, hcolumn⟩, hbound⟩
    exact ⟨(name, v), hmem, hcolumn, hbound.symm⟩

/-- It has none if the column is not named, or gets `NULL`. -/
theorem FilledBy.no_identifier_iff (h : entity.FilledBy input insert)
    (hapart : entity.ColumnsApart) (hnames : (Entries.keys input).Nodup) :
    inputId? entity input = none ↔
      entity.idColumnName ∉ insert.columns ∨
        (entity.idColumnName, .param (.text none)) ∈ insert.assignments := by
  constructor
  · intro hnone
    by_cases hmem : entity.idColumnName ∈ insert.columns
    · rcases (h.columns _).mp hmem with ⟨entry, hentry, hcolumn⟩
      -- A value other than `null` would be the identifier.
      have hnull : entry.2 = .null := by
        by_contra hv
        have hsome := (hapart.inputId?_eq_some_iff hnames entry.2).mpr
          ⟨hv, entry.1, hentry, hcolumn⟩
        rw [hnone] at hsome
        simp only [reduceCtorEq] at hsome
      exact Or.inr ((h.assignments _ _).mpr ⟨entry, hentry, hcolumn, by rw [hnull]; rfl⟩)
    · exact Or.inl hmem
  · intro hor
    rw [Option.eq_none_iff_forall_ne_some]
    intro v hsome
    rcases (entity.inputId?_eq_some_iff input v).mp hsome with ⟨hgiven, hv⟩
    have hgivenMem := input.mem_of_get? _ v hgiven
    rcases hor with hmissing | hassigned
    · exact hmissing ((h.columns _).mpr ⟨_, hgivenMem, hapart.column?_idFieldName⟩)
    -- Only the identifier is stored in the column, and it occurs once in the input.
    · rcases (h.assignments _ _).mp hassigned with ⟨entry, hentry, hcolumn, hstored⟩
      have hentryGiven := input.get?_of_mem hnames entry.1 entry.2 hentry
      rw [hapart.eq_idFieldName hcolumn, hgiven] at hentryGiven
      have hbound : none = boundText? entry.2 := Param.text.inj (Column.param.inj hstored)
      rw [← Option.some.inj hentryGiven] at hbound
      exact hv ((boundText?_eq_none_iff v).mp hbound.symm)

end Schema.Entity

/-- The identifier of a new row is what the input gives under the name of the
    identifier, unless that is `null`, and the row consists of what the input says.
    Where columns are kept apart, the two fit together: the identifier is the value
    that the identifier column gets, and the response compares that column with the
    very parameter. There is none if the row does not name the column or has `NULL`
    in it. -/
theorem compileMutation_createdId (schema : Schema) (request : MutationRequest)
    (mutation : Mutation) (entity : Entity)
    (hmutation : schema.mutation? request.name = some mutation)
    (hentity : schema.entity? mutation.typeName = some entity) (hkind : mutation.kind = .create)
    (cm : CompiledMutation) (h : schema.compileMutation request = .ok cm) :
    ∃ insert, cm.statement = .insert insert ∧ entity.FilledBy request.input insert ∧
      (∀ v, cm.affectedEntityId = some v ↔
        request.input.get? (idFieldName entity) = some v ∧ v ≠ .null) ∧
      (entity.ColumnsApart → (Entries.keys request.input).Nodup →
        (∀ v, cm.affectedEntityId = some v ↔
          v ≠ .null ∧ ∃ name, (name, v) ∈ request.input ∧
            entity.column? name = some entity.idColumnName) ∧
        (∀ text, (entity.idColumnName, .param (.text (some text))) ∈ insert.assignments ↔
          ∃ v, cm.affectedEntityId = some v ∧ boundText? v = some text) ∧
        (cm.affectedEntityId = none ↔
          entity.idColumnName ∉ insert.columns ∨
            (entity.idColumnName, .param (.text none)) ∈ insert.assignments) ∧
        ∀ constraint, cm.responseMatch = some constraint →
          ∃ text, (entity.idColumnName, .param (.text (some text))) ∈ insert.assignments ∧
            ∀ aliasName, constraint.predicate cm.entityTypeName entity aliasName =
              .ok (.compare .eq (.physical aliasName entity.idColumnName)
                (.param (.text (some text))))) := by
  rcases schema.compileMutation_eq_ok request mutation entity hmutation hentity cm h with
    ⟨hstatement, haffected, _⟩
  rw [hkind] at hstatement
  rcases (map_eq_ok_iff _ _ _).mp hstatement with ⟨insert, hinsert, hcm⟩
  rcases (MutationTarget.create_eq_ok_iff _ request.input insert).mp hinsert with
    ⟨_, written, hwrites, rfl⟩
  have hfilled := Entity.Writes.filledBy (schema.targetOf request.name mutation entity).view hwrites
  refine ⟨_, hcm.symm, hfilled, ?_, fun hapart hnames => ?_⟩
  · rw [haffected]
    exact entity.inputId?_eq_some_iff request.input
  · have htext := hfilled.identifier_iff hapart hnames
    have hnone := hfilled.no_identifier_iff hapart hnames
    have hsome := hapart.inputId?_eq_some_iff hnames
    simp only [CompiledMutation.responseMatch, haffected]
    refine ⟨hsome, htext, hnone, ?_⟩
    intro constraint hmatch
    rcases Option.map_eq_some_iff.mp hmatch with ⟨v, hv, rfl⟩
    rcases (entity.inputId?_eq_some_iff request.input v).mp hv with ⟨_, hnotNull⟩
    rcases Option.ne_none_iff_exists'.mp (mt (boundText?_eq_none_iff v).mp hnotNull) with
      ⟨text, hbound⟩
    exact ⟨text, (htext text).mpr ⟨v, hv, hbound⟩,
      Constraint.onId_predicate v text hbound _ entity⟩

/-- A new user of the blog is the one with the identifier that is inserted. -/
theorem compileMutation_createdId_user :
    Blog.user.ColumnsApart ∧
      ∃ cm insert, Blog.editable.compileMutation
          ⟨"createUser", [("name", .string "Ann"), ("id", .int 7)]⟩ = .ok cm ∧
        cm.statement = .insert insert ∧ cm.affectedEntityId = some (.int 7) ∧
        ("id", .param (.text (some "7"))) ∈ insert.assignments := by
  have hcompiles : ∃ cm, Blog.editable.compileMutation
      ⟨"createUser", [("name", .string "Ann"), ("id", .int 7)]⟩ = .ok cm := ⟨_, rfl⟩
  rcases hcompiles with ⟨cm, hcm⟩
  rcases compileMutation_createdId Blog.editable _ ⟨.create, "User", none, "user_write"⟩ Blog.user
    rfl rfl rfl cm hcm with ⟨insert, hinsert, _, _, hapart⟩
  rcases hapart Blog.user_columnsApart (by decide) with ⟨hsome, htext, _, _⟩
  have hid : cm.affectedEntityId = some (.int 7) := (hsome (.int 7)).mpr
    ⟨Value.noConfusion, "id", List.mem_cons_of_mem _ List.mem_cons_self, rfl⟩
  have hbound : boundText? (.int 7) = some "7" := by decide
  exact ⟨Blog.user_columnsApart, cm, insert, hcm, hinsert, hid,
    (htext "7").mpr ⟨.int 7, hid, hbound⟩⟩

/-- What a member is known by is stored elsewhere, and is taken for the identifier
    all the same. A profile gets its identifier from the user, and nothing is
    reported. -/
theorem compileMutation_createdId_elsewhere :
    (∃ cm insert, Blog.community.compileMutation
        ⟨"createMember", [("id", .string "u-1"), ("name", .string "Ann")]⟩ = .ok cm ∧
      cm.statement = .insert insert ∧ cm.affectedEntityId = some (.string "u-1") ∧
      Blog.member.idColumnName ∉ insert.columns) ∧
    ∃ cm insert, Blog.community.compileMutation
        ⟨"createProfile", [("user", .string "2")]⟩ = .ok cm ∧
      cm.statement = .insert insert ∧ cm.affectedEntityId = none ∧
      (Blog.profile.idColumnName, .param (.text (some "2"))) ∈ insert.assignments := by
  have hmember : ∃ cm insert, Blog.community.compileMutation
        ⟨"createMember", [("id", .string "u-1"), ("name", .string "Ann")]⟩ = .ok cm ∧
      cm.statement = .insert insert ∧ cm.affectedEntityId = some (.string "u-1") ∧
      insert.columns = ["uuid", "name"] := ⟨_, _, rfl, rfl, rfl, rfl⟩
  rcases hmember with ⟨cm, insert, hcm, hinsert, hid, hcolumns⟩
  refine ⟨⟨cm, insert, hcm, hinsert, hid, ?_⟩, _, _, rfl, rfl, rfl, List.mem_cons_self⟩
  rw [hcolumns]
  decide

end ViewCompiler
