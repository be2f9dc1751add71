import ViewCompiler.Proofs.Assignments

/-!
# The Names in an Input

Which names of an input a mutation looks at.

An input is meant to name fields that are stored in columns. Whether a name is one of
these is asked where its column is needed, and that depends on the mutation. A new row
needs the columns of all names. A change needs those of all names but one: the
identifier is compared and not set, so it is looked up by its name and compared by the
column that the metadata give for it. A removal needs the identifier and nothing
else, and never comes across the other names (`compileMutation_inputNames_unknown`).

A name without a column is noticed when its entry is written, so the failure names one
of them (`MutationTarget.mapM_assignment_fails`). Only the identifier of a change comes
before that, and is missed before any other name is looked at.

## Main definitions

* `Entity.Settable`: A name that an input may use.

## Theorems

* `MutationTarget.mapM_assignment_fails`: Entries of which one cannot be written.
* `MutationTarget.statement_fails`: A mutation with such an entry.
* `MutationTarget.statement_delete_congr`: A removal looks at the identifier only.
* `Schema.compileMutation_fails`: The failure of a mutation with such an entry.
* `compileMutation_inputNames`: Which names of an input are looked at.
-/

namespace ViewCompiler

open Json Sql Schema

/-- A name that an input may use: that of a field which is stored in a column. -/
def Schema.Entity.Settable (entity : Entity) (name : String) : Prop :=
  ∃ field, entity.field? name = some field ∧ field.nativeColumnName.isSome = true

theorem Schema.Entity.settable_iff (entity : Entity) (name : String) :
    entity.Settable name ↔ (entity.column? name).isSome = true := by
  rw [Entity.Settable, Entity.column?]
  cases entity.field? name with
  | none => simp only [reduceCtorEq, false_and, exists_false, Option.bind_none, Option.isSome_none,
      Bool.false_eq_true]
  | some field => simp only [Option.some.injEq, exists_eq_left', Option.bind_some]

namespace MutationTarget

variable (target : MutationTarget)

theorem assignment_of_not_settable (entry : String × Value)
    (h : ¬ target.entity.Settable entry.1) :
    target.assignment entry =
      .error (.fieldNotSettable target.typeName entry.1 target.mutationName) := by
  have hnone : (target.entity.field? entry.1).bind Field.nativeColumnName = none := by
    rw [target.entity.settable_iff, Bool.not_eq_true, Option.isSome_eq_false_iff,
      Option.isNone_iff_eq_none] at h
    exact h
  rw [MutationTarget.assignment, MutationTarget.inputColumn, hnone]
  rfl

/-- Entries cannot be written if one of them cannot, and the failure names one. -/
theorem mapM_assignment_fails (entries : Entries Value)
    (h : ∃ entry ∈ entries, ¬ target.entity.Settable entry.1) :
    ∃ bad ∈ entries, ¬ target.entity.Settable bad.1 ∧ entries.mapM target.assignment =
      .error (.fieldNotSettable target.typeName bad.1 target.mutationName) := by
  induction entries with
  | nil =>
      rcases h with ⟨entry, hentry, _⟩
      exact absurd hentry List.not_mem_nil
  | cons entry rest ih =>
      rw [List.mapM_cons]
      by_cases hentry : target.entity.Settable entry.1
      · rcases Option.isSome_iff_exists.mp ((target.entity.settable_iff entry.1).mp hentry) with
          ⟨column, hcolumn⟩
        have hok := (target.assignment_eq_ok_iff entry (column, ViewCompiler.stored entry.2)).mpr
          ⟨hcolumn, rfl⟩
        -- The first entry can be written, so the one that cannot is among the rest.
        have hrest := ((List.exists_mem_cons_iff _ _ _).mp h).resolve_left (not_not_intro hentry)
        rcases ih hrest with ⟨bad, hbad, hname, hfails⟩
        refine ⟨bad, List.mem_cons_of_mem entry hbad, hname, ?_⟩
        rw [hok, hfails]
        rfl
      · refine ⟨entry, List.mem_cons_self, hentry, ?_⟩
        rw [target.assignment_of_not_settable entry hentry]
        rfl

/-- A name that cannot be set makes a mutation fail, if it is to be written. Only a
    missing identifier is noticed before that. -/
theorem statement_fails (input : Entries Value) (kind : MutationKind)
    (h : ∃ entry ∈ target.entity.writtenBy input kind, ¬ target.entity.Settable entry.1) :
    (kind = .update ∧ target.statement input kind =
        .error (.noIdentifier target.mutationName (idFieldName target.entity))) ∨
      ∃ bad ∈ input, ¬ target.entity.Settable bad.1 ∧ target.statement input kind =
        .error (.fieldNotSettable target.typeName bad.1 target.mutationName) := by
  rcases target.mapM_assignment_fails _ h with ⟨bad, hbad, hname, hfails⟩
  have hmem : bad ∈ input := (target.entity.writtenBy_sublist input kind).subset hbad
  cases kind with
  | create =>
      cases input with
      | nil => exact absurd hmem List.not_mem_nil
      | cons entry rest =>
          refine Or.inr ⟨bad, hmem, hname, ?_⟩
          have hcreate : target.create (entry :: rest) =
              ((entry :: rest).mapM target.assignment >>= fun assignments =>
                .ok ⟨target.view, assignments.map Prod.fst, assignments.map Prod.snd⟩) := rfl
          rw [Entity.writtenBy] at hfails
          rw [statement, hcreate, hfails]
          rfl
  | update =>
      -- The identifier is asked for first, and without it no entry is looked at.
      cases hid : inputId? target.entity input with
      | none =>
          refine Or.inl ⟨rfl, ?_⟩
          rw [statement, MutationTarget.update, MutationTarget.requiredId, hid]
          rfl
      | some id =>
          refine Or.inr ⟨bad, hmem, hname, ?_⟩
          rw [Entity.writtenBy, Entity.besidesId] at hfails
          rw [statement, MutationTarget.update, MutationTarget.requiredId, hid]
          simp only [hfails, bind, Except.bind, Except.map]
  | delete => exact absurd hbad List.not_mem_nil
  | unsupported => exact absurd hbad List.not_mem_nil

/-- A removal looks at nothing but the identifier. -/
theorem statement_delete_congr (input others : Entries Value)
    (h : inputId? target.entity others = inputId? target.entity input) :
    target.statement others .delete = target.statement input .delete := by
  simp only [statement, MutationTarget.delete, MutationTarget.requiredId, h]

end MutationTarget

section Known

variable (schema : Schema) (request : MutationRequest) (mutation : Mutation) (entity : Entity)

/-- A mutation with a name that cannot be set fails, unless it does not look at the
    name. -/
theorem Schema.compileMutation_fails (hmutation : schema.mutation? request.name = some mutation)
    (hentity : schema.entity? mutation.typeName = some entity) (entry : String × Value)
    (hentry : entry ∈ request.input) (hname : ¬ entity.Settable entry.1)
    (hkind : mutation.kind = .create ∨ mutation.kind = .update ∧ entry.1 ≠ idFieldName entity) :
    (mutation.kind = .update ∧ schema.compileMutation request =
        .error (.noIdentifier request.name (idFieldName entity))) ∨
      ∃ bad ∈ request.input, ¬ entity.Settable bad.1 ∧ schema.compileMutation request =
        .error (.fieldNotSettable mutation.typeName bad.1 request.name) := by
  have hknown := schema.compileMutation_known request mutation entity hmutation hentity
  have hwritten : entry ∈ entity.writtenBy request.input mutation.kind := by
    rcases hkind with hcreate | ⟨hupdate, hne⟩
    · rw [hcreate]
      exact hentry
    · rw [hupdate]
      exact (entity.mem_besidesId_iff request.input entry).mpr ⟨hentry, hne⟩
  rcases (schema.targetOf request.name mutation entity).statement_fails request.input
    mutation.kind ⟨entry, hwritten, hname⟩ with ⟨hupdate, hmissing⟩ | ⟨bad, hbad, hbadName, hnamed⟩
  · exact Or.inl ⟨hupdate, by rw [hknown, hmissing]; rfl⟩
  · exact Or.inr ⟨bad, hbad, hbadName, by rw [hknown, hnamed]; rfl⟩

/-- Which names of an input are looked at. A new row is refused if one of them is not
    that of a field with a column, and so is a change, except that the name of the
    identifier is not asked for a column. The failure names such a field, unless the
    identifier of a change is missing. A removal looks at the identifier only, and
    whatever else the input says makes no difference to it. -/
theorem compileMutation_inputNames (hmutation : schema.mutation? request.name = some mutation)
    (hentity : schema.entity? mutation.typeName = some entity) :
    (∀ cm, schema.compileMutation request = .ok cm → ∀ entry ∈ request.input,
      mutation.kind = .create ∨ mutation.kind = .update ∧ entry.1 ≠ idFieldName entity →
        entity.Settable entry.1) ∧
    (∀ entry ∈ request.input, ¬ entity.Settable entry.1 →
      mutation.kind = .create ∨ mutation.kind = .update ∧ entry.1 ≠ idFieldName entity →
        (mutation.kind = .update ∧ schema.compileMutation request =
            .error (.noIdentifier request.name (idFieldName entity))) ∨
          ∃ bad ∈ request.input, ¬ entity.Settable bad.1 ∧ schema.compileMutation request =
            .error (.fieldNotSettable mutation.typeName bad.1 request.name)) ∧
    (mutation.kind = .delete → ∀ others : Entries Value,
      others.get? (idFieldName entity) = request.input.get? (idFieldName entity) →
        schema.compileMutation ⟨request.name, others⟩ = schema.compileMutation request) := by
  have hfails := schema.compileMutation_fails request mutation entity hmutation hentity
  refine ⟨?_, hfails, ?_⟩
  -- A mutation that compiles has not failed, so no name of it is one of those.
  · intro cm hcm entry hentry hkind
    by_contra hname
    rcases hfails entry hentry hname hkind with ⟨_, herror⟩ | ⟨_, _, _, herror⟩
    · rw [hcm] at herror
      simp only [reduceCtorEq] at herror
    · rw [hcm] at herror
      simp only [reduceCtorEq] at herror
  · intro hdelete others hothers
    have hid : inputId? entity others = inputId? entity request.input := by
      rw [inputId?, inputId?, hothers]
    have hsame := (schema.targetOf request.name mutation entity).statement_delete_congr
      request.input others hid
    rw [schema.compileMutation_known request mutation entity hmutation hentity,
      schema.compileMutation_known ⟨request.name, others⟩ mutation entity hmutation hentity,
      hdelete, hid, hsame]

end Known

/-- The change of a user names fields with columns. An unknown name makes it fail,
    but makes no difference to the removal of a user. -/
theorem compileMutation_inputNames_user :
    (∃ cm, Blog.editable.compileMutation Blog.rename = .ok cm) ∧
      Blog.user.Settable "name" ∧ ¬ Blog.user.Settable "nosuch" ∧
      Blog.editable.compileMutation ⟨"createUser", [("nosuch", .string "x")]⟩ =
        .error (.fieldNotSettable "User" "nosuch" "createUser") ∧
      Blog.editable.compileMutation ⟨"deleteUser", [("id", .int 7), ("nosuch", .string "x")]⟩ =
        Blog.editable.compileMutation ⟨"deleteUser", [("id", .int 7)]⟩ := by
  have hcompiles : ∃ cm, Blog.editable.compileMutation Blog.rename = .ok cm := ⟨_, rfl⟩
  have hunknown : ¬ Blog.user.Settable "nosuch" := by
    rw [Blog.user.settable_iff]
    decide
  rcases hcompiles with ⟨cm, hcm⟩
  refine ⟨⟨cm, hcm⟩, ?_, hunknown, ?_, ?_⟩
  · have hnames := (compileMutation_inputNames Blog.editable Blog.rename
      ⟨.update, "User", some "w\"rite", "user"⟩ Blog.user rfl rfl).1 cm hcm
    exact hnames _ List.mem_cons_self (Or.inr ⟨rfl, by decide⟩)
  · rcases (compileMutation_inputNames Blog.editable ⟨"createUser", [("nosuch", .string "x")]⟩
      ⟨.create, "User", none, "user_write"⟩ Blog.user rfl rfl).2.1 _ List.mem_cons_self hunknown
      (Or.inl rfl) with ⟨hupdate, _⟩ | ⟨bad, hbad, _, herror⟩
    · exact absurd hupdate (by decide)
    · rw [herror, List.mem_singleton.mp hbad]
  · have hidField : idFieldName Blog.user = "id" := by decide
    refine (compileMutation_inputNames Blog.editable ⟨"deleteUser", [("id", .int 7)]⟩
      ⟨.delete, "User", none, "user_write"⟩ Blog.user rfl rfl).2.2 rfl _ ?_
    rw [hidField]
    rfl

/-- A removal is compiled although its input has a name that no field has. -/
theorem compileMutation_inputNames_unknown :
    ∃ cm, Blog.editable.compileMutation
        ⟨"deleteUser", [("id", .int 7), ("nosuch", .string "x")]⟩ = .ok cm ∧
      ¬ Blog.user.Settable "nosuch" := by
  refine ⟨_, rfl, ?_⟩
  rw [Blog.user.settable_iff]
  decide

end ViewCompiler
