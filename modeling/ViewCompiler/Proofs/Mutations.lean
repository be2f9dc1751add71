import ViewCompiler.Mutation.Compile
import ViewCompiler.Proofs.Acceptance
import ViewCompiler.Proofs.Rendering

/-!
# What Mutations Become

The statement that a mutation is compiled to, as a text, and when there is one.

A mutation is one of three statements, and each has a text that depends on the
columns it names and on nothing else. `insertText`, `updateText` and `deleteText`
spell these texts out, with names in quotes and placeholders counted from one.
That they are what is rendered is a matter of counting: the names of columns are
written without using up a placeholder, and each value uses up one
(`textOf_separated`).

Which columns are named is decided by the input. Its keys are fields of the
entity, and a key without a column is refused. One key stands apart, that of the
identifier. A statement that changes or removes a row is restricted to the row of
that identifier, so an input that does not give one, or gives `null`, is refused
before there is a statement. There is no statement without a condition.

## Main definitions

* `Sql.nameText`, `Sql.placeText`: Names and placeholders as text.
* `Sql.insertText`, `Sql.updateText`, `Sql.deleteText`: The three statements.
* `Entity.column?`: The column that a field is written to.
* `Entity.IsIdField`: The name under which an input gives the identifier.
* `Entity.Writes`: What an input is written as.
* `MutationTarget.statement`: The statement of a mutation of any kind.

## Theorems

* `Sql.textOf_separated`: The text of portions that use up placeholders.
* `Sql.Insert.render_eq`, `Sql.Update.render_eq`, `Sql.Delete.render_eq`: The texts
  are the rendered ones.
* `Entity.isIdField_iff`: The identifier goes by one name only.
* `MutationTarget.create_eq_ok_iff`, `MutationTarget.update_eq_ok_iff`,
  `MutationTarget.delete_eq_ok_iff`: What the three statements consist of.
* `Schema.compileMutation_known`: The stages of compiling a mutation.
* `compileMutation_exact`: The statement of a mutation, and when there is one.
-/

namespace ViewCompiler

open Json Sql Schema

/-! ### Texts of statements -/

namespace Sql

/-- A name between double quotes, with every double quote in it written twice. -/
def nameText (s : String) : String :=
  "\"" ++ String.ofList (s.toList.flatMap fun c => if c = '"' then ['"', '"'] else [c]) ++ "\""

/-- The placeholder of a number. -/
def placeText (n : Nat) : String := "$" ++ Nat.repr n

/-- A view by its full name. -/
def ViewName.text (view : ViewName) : String :=
  nameText view.schemaName ++ "." ++ nameText view.name

/-- The statement that adds a row. -/
def insertText (view : ViewName) (columns : List String) : String :=
  "INSERT INTO " ++ view.text ++ " (" ++ ", ".intercalate (columns.map nameText) ++ ") VALUES (" ++
    ", ".intercalate ((List.range columns.length).map fun i => placeText (i + 1)) ++ ")"

/-- The statement that changes the row of an identifier. -/
def updateText (view : ViewName) (columns : List String) (idColumn : String) : String :=
  "UPDATE " ++ view.text ++ " SET " ++
    ", ".intercalate
      (columns.mapIdx fun i column => nameText column ++ " = " ++ placeText (i + 1)) ++
    " WHERE " ++ nameText idColumn ++ " = " ++ placeText (columns.length + 1)

/-- The statement that removes the row of an identifier. -/
def deleteText (view : ViewName) (idColumn : String) : String :=
  "DELETE FROM " ++ view.text ++ " WHERE " ++ nameText idColumn ++ " = " ++ placeText 1

theorem doubleQuotes_eq_flatMap (content : List Char) :
    doubleQuotes content = content.flatMap fun c => if c = '"' then ['"', '"'] else [c] := by
  induction content with
  | nil => rfl
  | cons c rest ih =>
      rw [doubleQuotes, List.flatMap_cons, ih]
      by_cases hc : c = '"'
      · rw [if_pos hc, if_pos hc]
        rfl
      · rw [if_neg hc, if_neg hc]
        rfl

theorem quoteName_eq_nameText (s : String) : quoteName s = nameText s := by
  rw [quoteName, nameText, doubleQuotes_eq_flatMap, ← String.toList_inj]
  simp

theorem placeholder_eq_placeText (n : Nat) : placeholder n = placeText n := by
  rw [placeholder, placeText, ← String.toList_inj]
  simp [Nat.repr]

/-- The text of pieces that come after `n` parameters. -/
def textOf (n : Nat) (pieces : List Piece) : String := String.ofList (written n pieces)

theorem textOf_nil (n : Nat) : textOf n [] = "" := rfl

theorem textOf_text (n : Nat) (s : String) (rest : List Piece) :
    textOf n (.text s :: rest) = s ++ textOf n rest := by
  rw [textOf, written, String.ofList_append, String.ofList_toList]
  rfl

theorem textOf_name (n : Nat) (s : String) (rest : List Piece) :
    textOf n (.name s :: rest) = nameText s ++ textOf n rest := by
  rw [textOf, written, String.ofList_append, String.ofList_toList, quoteName_eq_nameText]
  rfl

theorem textOf_bind (n : Nat) (p : Param) (rest : List Piece) :
    textOf n (.bind p :: rest) = placeText (n + 1) ++ textOf (n + 1) rest := by
  rw [textOf, written, String.ofList_append, String.ofList_toList, placeholder_eq_placeText]
  rfl

theorem textOf_append (n : Nat) (ps qs : List Piece) :
    textOf n (ps ++ qs) = textOf n ps ++ textOf (n + (paramsOf ps).length) qs := by
  rw [textOf, written_append, String.ofList_append]
  rfl

theorem textOf_view (n : Nat) (view : ViewName) (rest : List Piece) :
    textOf n (view.pieces ++ rest) = view.text ++ textOf n rest := by
  simp only [ViewName.pieces, List.cons_append, List.nil_append, textOf_name, textOf_text,
    ViewName.text, String.append_assoc]

/-- Portions that use up `k` placeholders each: the `i`-th is written after `k * i`
    parameters more. -/
theorem textOf_separated {α : Type} (separator : String) (k : Nat) (pieces : α → List Piece)
    (text : Nat → α → String) (hparams : ∀ a, (paramsOf (pieces a)).length = k)
    (htext : ∀ n a, textOf n (pieces a) = text n a) (items : List α) (n : Nat) :
    textOf n (separated separator (items.map pieces)) =
      separator.intercalate (items.mapIdx fun i a => text (n + k * i) a) := by
  induction items generalizing n with
  | nil => rfl
  | cons a rest ih =>
      cases rest with
      | nil =>
          rw [List.map_singleton, separated, htext, List.mapIdx_cons, List.mapIdx_nil,
            String.intercalate_singleton, Nat.mul_zero, Nat.add_zero]
      | cons b more =>
          -- The rest is counted from where the first portion stops.
          have hshift : ∀ i, n + k + k * i = n + k * (i + 1) := by
            intro i
            rw [Nat.mul_add, Nat.mul_one]
            omega
          have hrest := ih (n + k)
          simp only [hshift] at hrest
          rw [List.map_cons, List.map_cons, separated, textOf_append, htext, hparams, textOf_text,
            ← List.map_cons, hrest, List.mapIdx_cons, List.mapIdx_cons, List.mapIdx_cons,
            String.intercalate_cons_cons]
          simp only [Nat.mul_zero, Nat.add_zero, String.append_assoc, Nat.zero_add]

/-! ### Rendered statements -/

theorem Statement.render_eq (s : Statement) :
    s.render.sql = textOf 0 s.pieces ∧ s.render.params = paramsOf s.pieces := by
  rw [Statement.render, Draft.ofPieces_eq]
  exact ⟨rfl, rfl⟩

theorem paramsOf_view (view : ViewName) (rest : List Piece) :
    paramsOf (view.pieces ++ rest) = paramsOf rest := by
  simp only [ViewName.pieces, List.cons_append, List.nil_append, paramsOf_name, paramsOf_text]

/-- Names use up no placeholder. -/
theorem separated_names (columns : List String) :
    paramsOf (separated ", " (columns.map fun c => [.name c])) = [] ∧
      ∀ n, textOf n (separated ", " (columns.map fun c => [.name c])) =
        ", ".intercalate (columns.map nameText) := by
  constructor
  · rw [paramsOf_separated, List.flatMap_map, List.flatMap_eq_nil_iff]
    exact fun column _ => rfl
  · intro n
    have hname : ∀ (n : Nat) (c : String), textOf n [.name c] = nameText c := by
      intro n c
      rw [textOf_name, textOf_nil, String.append_empty]
    rw [textOf_separated ", " 0 (fun c => [.name c]) (fun _ c => nameText c) (fun _ => rfl) hname]
    congr 1
    exact List.ext_getElem (by simp only [List.length_mapIdx, List.length_map]) fun i _ _ => by
      simp only [List.getElem_mapIdx, List.getElem_map]

/-- Portions with one parameter each bind these, and are numbered one by one. -/
theorem separated_binds {α : Type} (items : List α) (pieces : α → List Piece) (param : α → Param)
    (text : Nat → α → String) (hparams : ∀ a, paramsOf (pieces a) = [param a])
    (htext : ∀ n a, textOf n (pieces a) = text (n + 1) a) :
    paramsOf (separated ", " (items.map pieces)) = items.map param ∧
      textOf 0 (separated ", " (items.map pieces)) =
        ", ".intercalate (items.mapIdx fun i a => text (i + 1) a) := by
  constructor
  · rw [paramsOf_separated, List.flatMap_map, List.map_eq_flatMap]
    simp only [hparams]
  · rw [textOf_separated ", " 1 pieces (fun n a => text (n + 1) a)
      (fun a => congrArg List.length (hparams a)) htext]
    simp only [Nat.zero_add, Nat.one_mul]

/-- A statement that adds a row writes the names of the columns, then a placeholder
    for each value. -/
theorem Insert.render_eq (view : ViewName) (written : List (String × Param)) :
    let insert : Insert := ⟨view, written.map Prod.fst, written.map fun w => .param w.2⟩
    (Statement.insert insert).render.sql = insertText view (written.map Prod.fst) ∧
      (Statement.insert insert).render.params = written.map Prod.snd := by
  intro insert
  have hportions : Column.portions false insert.values = written.map fun w => [.bind w.2] := by
    rw [Column.portions_eq_map, List.map_map]
    exact List.map_congr_left fun w _ => by rw [Function.comp_apply, Column.pieces]
  have hplace : ∀ (n : Nat) (w : String × Param), textOf n [.bind w.2] = placeText (n + 1) := by
    intro n w
    rw [textOf_bind, textOf_nil, String.append_empty]
  rcases separated_names insert.columns with ⟨hnameParams, hnames⟩
  rcases separated_binds written (fun w => [.bind w.2]) Prod.snd (fun n _ => placeText n)
    (fun _ => rfl) hplace with ⟨hvalueParams, hvalues⟩
  -- There are as many placeholders as columns.
  have hplaces : (written.mapIdx fun i _ => placeText (i + 1)) =
      (List.range (written.map Prod.fst).length).map fun i => placeText (i + 1) :=
    List.ext_getElem (by simp only [List.length_mapIdx, List.length_map, List.length_range])
      fun i _ _ => by simp only [List.getElem_mapIdx, List.getElem_map, List.getElem_range]
  rcases Statement.render_eq (.insert insert) with ⟨hsql, hparams⟩
  rw [hsql, hparams, Statement.pieces, Insert.pieces, hportions]
  constructor
  · rw [textOf_text, textOf_view, textOf_text, textOf_append, hnames, hnameParams, textOf_text,
      textOf_append, List.length_nil, Nat.add_zero, hvalues, textOf_text, textOf_nil, hplaces]
    unfold insertText
    simp only [String.append_assoc, String.append_empty, insert]
  · rw [paramsOf_text, paramsOf_view, paramsOf_text, paramsOf_append, hnameParams, paramsOf_text,
      paramsOf_append, hvalueParams]
    simp only [List.nil_append, paramsOf_text, paramsOf_nil, List.append_nil]

/-- A condition on the identifier is written without the alias of a source. -/
theorem wherePieces_identifier (view idColumn : String) (p : Param) :
    let predicate : Predicate := .compare .eq (.physical view idColumn) (.param p)
    wherePieces predicate.isAlways (predicate.pieces false) =
      [.text " WHERE ", .name idColumn, .text " = ", .bind p] := by
  intro predicate
  simp only [predicate, Predicate.isAlways, wherePieces, Bool.false_eq_true, if_false,
    Predicate.pieces, Column.pieces, physicalPieces, List.cons_append, List.nil_append]
  rfl

/-- A statement that changes a row writes each column with its placeholder, and the
    identifier gets the last one. -/
theorem Update.render_eq (view : ViewName) (written : List (String × Param)) (idColumn : String)
    (p : Param) :
    let update : Update := ⟨view, written.map fun w => (w.1, .param w.2),
      .compare .eq (.physical view.name idColumn) (.param p)⟩
    (Statement.update update).render.sql = updateText view (written.map Prod.fst) idColumn ∧
      (Statement.update update).render.params = written.map Prod.snd ++ [p] := by
  intro update
  have hportions : (update.assignments.map fun a =>
      (.name a.1 :: .text " = " :: a.2.pieces false : List Piece)) =
        written.map fun w => [.name w.1, .text " = ", .bind w.2] := by
    rw [List.map_map]
    exact List.map_congr_left fun w _ => by rw [Function.comp_apply, Column.pieces]
  have hassign : ∀ (n : Nat) (w : String × Param), textOf n [.name w.1, .text " = ", .bind w.2] =
      nameText w.1 ++ " = " ++ placeText (n + 1) := by
    intro n w
    rw [textOf_name, textOf_text, textOf_bind, textOf_nil, String.append_empty, String.append_assoc]
  rcases separated_binds written (fun w => [.name w.1, .text " = ", .bind w.2]) Prod.snd
    (fun n w => nameText w.1 ++ " = " ++ placeText n) (fun _ => rfl) hassign with
    ⟨hsetParams, hset⟩
  have hcolumns : (written.mapIdx fun i w => nameText w.1 ++ " = " ++ placeText (i + 1)) =
      (written.map Prod.fst).mapIdx fun i column => nameText column ++ " = " ++ placeText (i + 1) :=
    List.ext_getElem (by simp only [List.length_mapIdx, List.length_map]) fun i _ _ => by
      simp only [List.getElem_mapIdx, List.getElem_map]
  rcases Statement.render_eq (.update update) with ⟨hsql, hparams⟩
  rw [hsql, hparams, Statement.pieces, Update.pieces, hportions, wherePieces_identifier]
  constructor
  · rw [textOf_text, textOf_view, textOf_text, textOf_append, hset, hsetParams, textOf_text,
      textOf_name, textOf_text, textOf_bind, textOf_nil, hcolumns]
    unfold updateText
    rw [List.length_map, List.length_map, Nat.zero_add]
    simp only [String.append_assoc, String.append_empty, update]
  · rw [paramsOf_text, paramsOf_view, paramsOf_text, paramsOf_append, hsetParams]
    rfl

/-- A statement that removes a row has one placeholder. -/
theorem Delete.render_eq (view : ViewName) (idColumn : String) (p : Param) :
    let delete : Delete := ⟨view, .compare .eq (.physical view.name idColumn) (.param p)⟩
    (Statement.delete delete).render.sql = deleteText view idColumn ∧
      (Statement.delete delete).render.params = [p] := by
  intro delete
  rcases Statement.render_eq (.delete delete) with ⟨hsql, hparams⟩
  rw [hsql, hparams, Statement.pieces, Delete.pieces, wherePieces_identifier]
  constructor
  · rw [textOf_text, textOf_view, textOf_text, textOf_name, textOf_text, textOf_bind, textOf_nil]
    unfold deleteText
    simp only [String.append_assoc, String.append_empty, delete]
  · rw [paramsOf_text, paramsOf_view]
    rfl

end Sql

/-! ### The input -/

namespace Schema.Entity

variable (entity : Entity)

/-- The column that a field is written to. -/
def column? (fieldName : String) : Option String :=
  (entity.field? fieldName).bind Field.nativeColumnName

/-- A field that stands for no relation and is stored in the identifier column. -/
def StoresId (field : Field) : Prop :=
  field.relation = none ∧ field.nativeColumnName = some entity.idColumnName

/-- The name under which an input gives the identifier: that of the first field
    that stores it, or that of the identifier column if no field does. -/
def IsIdField (name : String) : Prop :=
  (∃ before field after, entity.fields = before ++ (name, field) :: after ∧
      entity.StoresId field ∧ ∀ other ∈ before, ¬ entity.StoresId other.2) ∨
    name = entity.idColumnName ∧ ∀ other ∈ entity.fields, ¬ entity.StoresId other.2

/-- What the entries of an input are written as, one by one: the column of the
    field, and the value as a text, which is absent for `null`. -/
def Writes (input : Entries Value) (written : List (String × Param)) : Prop :=
  List.Forall₂ (fun entry w => entity.column? entry.1 = some w.1 ∧ w.2 = .text (boundText? entry.2))
    input written

/-- What an input says besides the identifier. -/
def besidesId (input : Entries Value) : Entries Value :=
  input.filter fun entry => entry.1 != idFieldName entity

theorem mem_besidesId_iff (input : Entries Value) (entry : String × Value) :
    entry ∈ entity.besidesId input ↔ entry ∈ input ∧ entry.1 ≠ idFieldName entity := by
  rw [besidesId, List.mem_filter, bne_iff_ne]

/-- There is exactly one name for the identifier, and it is the one looked up. -/
theorem isIdField_iff (name : String) : entity.IsIdField name ↔ name = idFieldName entity := by
  let stores : String × Field → Bool := fun f =>
    f.2.relation.isNone && f.2.nativeColumnName == some entity.idColumnName
  have hstores : ∀ f, stores f = true ↔ entity.StoresId f.2 := by
    intro f
    rw [Bool.and_eq_true, beq_iff_eq, Option.isNone_iff_eq_none]
    rfl
  have hfirst : (∃ before field after, entity.fields = before ++ (name, field) :: after ∧
      entity.StoresId field ∧ ∀ other ∈ before, ¬ entity.StoresId other.2) ↔
        ∃ field, entity.fields.find? stores = some (name, field) := by
    simp only [List.find?_eq_some_iff_append, hstores, Bool.not_eq_true', ← Bool.not_eq_true]
    constructor
    · rintro ⟨before, field, after, hfields, hstored, hbefore⟩
      exact ⟨field, hstored, before, after, hfields, hbefore⟩
    · rintro ⟨field, hstored, before, after, hfields, hbefore⟩
      exact ⟨before, field, after, hfields, hstored, hbefore⟩
  have hnone : (∀ other ∈ entity.fields, ¬ entity.StoresId other.2) ↔
      entity.fields.find? stores = none := by
    simp only [List.find?_eq_none, hstores]
  have hname : idFieldName entity =
      ((entity.fields.find? stores).map Prod.fst).getD entity.idColumnName := by
    unfold idFieldName
    cases entity.fields.find? stores with
    | none => rfl
    | some found => rfl
  rw [IsIdField, hfirst, hnone, hname]
  cases entity.fields.find? stores with
  | none => simp only [reduceCtorEq, exists_false, and_true, false_or, Option.map_none,
      Option.getD_none]
  | some found =>
      rcases found with ⟨first, field⟩
      simp only [Option.some.injEq, Prod.mk.injEq, reduceCtorEq, and_false, or_false,
        exists_and_left, exists_eq', and_true, eq_comm, Option.map_some, Option.getD_some]

/-- An input can be written if every field in it has a column. -/
theorem exists_writes_iff (input : Entries Value) :
    (∃ written, entity.Writes input written) ↔
      ∀ entry ∈ input, (entity.column? entry.1).isSome = true := by
  induction input with
  | nil => exact ⟨fun _ entry hentry => absurd hentry List.not_mem_nil, fun _ => ⟨[], .nil⟩⟩
  | cons entry rest ih =>
      rw [List.forall_mem_cons, ← ih]
      constructor
      · rintro ⟨_, hwrites⟩
        rcases hwrites with _ | ⟨⟨hcolumn, _⟩, hrest⟩
        exact ⟨Option.isSome_of_eq_some hcolumn, _, hrest⟩
      · rintro ⟨hcolumn, written, hrest⟩
        rcases Option.isSome_iff_exists.mp hcolumn with ⟨column, hstored⟩
        exact ⟨(column, .text (boundText? entry.2)) :: written, .cons ⟨hstored, rfl⟩ hrest⟩

/-- The identifier is given if it is there and not `null`. -/
theorem inputId?_eq_some_iff (input : Entries Value) (id : Value) :
    inputId? entity input = some id ↔
      input.get? (idFieldName entity) = some id ∧ id ≠ .null := by
  have hnull : ∀ v : Value, (!v.isNull) = true ↔ v ≠ .null := by
    intro v
    cases v <;> simp [Value.isNull]
  rw [inputId?, Option.filter_eq_some_iff, hnull]

end Schema.Entity

/-! ### Statements of a target -/

namespace MutationTarget

variable (target : MutationTarget)

theorem assignment_eq_ok_iff (entry : String × Value) (assignment : String × Column) :
    target.assignment entry = .ok assignment ↔
      target.entity.column? entry.1 = some assignment.1 ∧ assignment.2 = stored entry.2 := by
  rcases assignment with ⟨name, column⟩
  simp only [MutationTarget.assignment, bind_eq_ok_iff, pure, Except.pure, Except.ok.injEq,
    Prod.mk.injEq]
  unfold MutationTarget.inputColumn Entity.column?
  cases (target.entity.field? entry.1).bind Field.nativeColumnName with
  | none => simp only [reduceCtorEq, false_and, exists_false]
  | some stored => simp only [Except.ok.injEq, exists_eq_left', Option.some.injEq, eq_comm]

/-- The entries of an input become assignments if they can be written. -/
theorem mapM_assignment_eq_ok_iff (input : Entries Value) (assignments : List (String × Column)) :
    input.mapM target.assignment = .ok assignments ↔
      ∃ written, target.entity.Writes input written ∧
        assignments = written.map fun w => (w.1, .param w.2) := by
  rw [mapM_eq_ok_iff]
  constructor
  · intro h
    induction h with
    | nil => exact ⟨[], .nil, rfl⟩
    | @cons entry assignment _ _ hassignment _ ih =>
        rcases ih with ⟨written, hwrites, rfl⟩
        rcases (target.assignment_eq_ok_iff entry assignment).mp hassignment with
          ⟨hcolumn, hvalue⟩
        refine ⟨(assignment.1, .text (boundText? entry.2)) :: written,
          .cons ⟨hcolumn, rfl⟩ hwrites, ?_⟩
        rw [List.map_cons, ← stored, ← hvalue]
  · rintro ⟨written, hwrites, rfl⟩
    induction hwrites with
    | nil => exact .nil
    | @cons entry w _ _ hentry _ ih =>
        refine .cons ((target.assignment_eq_ok_iff entry _).mpr ⟨hentry.1, ?_⟩) ih
        change Column.param w.2 = stored entry.2
        rw [hentry.2, stored]

/-- The identifier that an input gives is compared as a text. -/
theorem idPredicate_eq (id : Value) (hid : id ≠ .null) :
    ∃ text, boundText? id = some text ∧ target.idPredicate id =
      .compare .eq (.physical target.view.name target.entity.idColumnName)
        (.param (.text (some text))) := by
  have hnull : id.isNull = false := by
    cases id <;> first | rfl | exact absurd rfl hid
  rcases exists_boundText? id hnull with ⟨text, htext⟩
  refine ⟨text, htext, ?_⟩
  rw [MutationTarget.idPredicate, stored, htext]
  rfl

theorem requiredId_eq_ok_iff (input : Entries Value) (id : Value) :
    target.requiredId input = .ok id ↔
      input.get? (idFieldName target.entity) = some id ∧ id ≠ .null := by
  rw [← target.entity.inputId?_eq_some_iff, MutationTarget.requiredId]
  cases inputId? target.entity input with
  | none => simp only [reduceCtorEq]
  | some v => simp only [Except.ok.injEq, Option.some.injEq]

/-- A row is added if the input gives something and all of it can be written. -/
theorem create_eq_ok_iff (input : Entries Value) (insert : Insert) :
    target.create input = .ok insert ↔
      input ≠ [] ∧ ∃ written, target.entity.Writes input written ∧
        insert = ⟨target.view, written.map Prod.fst, written.map fun w => .param w.2⟩ := by
  cases input with
  | nil =>
      have hrefused : target.create [] = .error (.noInput target.mutationName) := rfl
      rw [hrefused]
      simp only [reduceCtorEq, ne_eq, not_true_eq_false, false_and]
  | cons entry rest =>
      have hcreate : target.create (entry :: rest) =
          ((entry :: rest).mapM target.assignment >>= fun assignments =>
            .ok ⟨target.view, assignments.map Prod.fst, assignments.map Prod.snd⟩) := rfl
      rw [hcreate, bind_eq_ok_iff]
      simp only [target.mapM_assignment_eq_ok_iff, Except.ok.injEq]
      constructor
      · rintro ⟨_, ⟨written, hwrites, rfl⟩, rfl⟩
        refine ⟨List.cons_ne_nil entry rest, written, hwrites, ?_⟩
        rw [List.map_map, List.map_map]
        rfl
      · rintro ⟨_, written, hwrites, rfl⟩
        refine ⟨_, ⟨written, hwrites, rfl⟩, ?_⟩
        rw [List.map_map, List.map_map]
        rfl

/-- A row is changed if the input gives its identifier and something else, and all
    of the latter can be written. -/
theorem update_eq_ok_iff (input : Entries Value) (update : Update) :
    target.update input = .ok update ↔
      ∃ id, (input.get? (idFieldName target.entity) = some id ∧ id ≠ .null) ∧
        target.entity.besidesId input ≠ [] ∧
        ∃ written, target.entity.Writes (target.entity.besidesId input) written ∧
          update =
            ⟨target.view, written.map fun w => (w.1, .param w.2), target.idPredicate id⟩ := by
  -- Nothing is assigned exactly if nothing is said.
  have hempty : ∀ written, target.entity.Writes (target.entity.besidesId input) written →
      ((written.map fun w => (w.1, Column.param w.2)).isEmpty = true ↔
        target.entity.besidesId input = []) := by
    intro written hwrites
    rw [List.isEmpty_iff_length_eq_zero, List.length_map, ← hwrites.length_eq,
      List.length_eq_zero_iff]
  have hupdate : target.update input = (target.requiredId input >>= fun id =>
      (target.entity.besidesId input).mapM target.assignment >>= fun assignments =>
        if assignments.isEmpty then .error (.noChange target.mutationName)
        else .ok ⟨target.view, assignments, target.idPredicate id⟩) := by
    rfl
  rw [hupdate, bind_eq_ok_iff]
  simp only [bind_eq_ok_iff, target.requiredId_eq_ok_iff, target.mapM_assignment_eq_ok_iff]
  constructor
  · rintro ⟨id, hid, _, ⟨written, hwrites, rfl⟩, hok⟩
    by_cases hnone : target.entity.besidesId input = []
    · rw [if_pos ((hempty written hwrites).mpr hnone)] at hok
      simp only [reduceCtorEq] at hok
    · rw [if_neg (fun h => hnone ((hempty written hwrites).mp h))] at hok
      exact ⟨id, hid, hnone, written, hwrites, (Except.ok.inj hok).symm⟩
  · rintro ⟨id, hid, hsome, written, hwrites, rfl⟩
    refine ⟨id, hid, _, ⟨written, hwrites, rfl⟩, ?_⟩
    rw [if_neg fun h => hsome ((hempty written hwrites).mp h)]

/-- A row is removed if the input gives its identifier. -/
theorem delete_eq_ok_iff (input : Entries Value) (delete : Delete) :
    target.delete input = .ok delete ↔
      ∃ id, (input.get? (idFieldName target.entity) = some id ∧ id ≠ .null) ∧
        delete = ⟨target.view, target.idPredicate id⟩ := by
  have hdelete : target.delete input = (target.requiredId input >>= fun id =>
      .ok ⟨target.view, target.idPredicate id⟩) := rfl
  rw [hdelete, bind_eq_ok_iff]
  simp only [target.requiredId_eq_ok_iff, Except.ok.injEq, eq_comm]

/-- The statement of a mutation of the given kind. -/
def statement (input : Entries Value) : MutationKind → Except Failure Statement
  | .create => (target.create input).map .insert
  | .update => (target.update input).map .update
  | .delete => (target.delete input).map .delete
  | .unsupported => .error (.unsupportedMutation target.mutationName)

theorem succeeds_create_iff (input : Entries Value) :
    Succeeds (target.statement input .create) ↔
      input ≠ [] ∧ ∀ entry ∈ input, (target.entity.column? entry.1).isSome = true := by
  rw [statement, succeeds_map_iff, ← target.entity.exists_writes_iff]
  simp only [Succeeds, target.create_eq_ok_iff]
  constructor
  · rintro ⟨_, hsome, written, hwrites, _⟩
    exact ⟨hsome, written, hwrites⟩
  · rintro ⟨hsome, written, hwrites⟩
    exact ⟨_, hsome, written, hwrites, rfl⟩

theorem succeeds_update_iff (input : Entries Value) :
    Succeeds (target.statement input .update) ↔
      (∃ id, input.get? (idFieldName target.entity) = some id ∧ id ≠ .null) ∧
        target.entity.besidesId input ≠ [] ∧
        ∀ entry ∈ target.entity.besidesId input, (target.entity.column? entry.1).isSome = true := by
  rw [statement, succeeds_map_iff, ← target.entity.exists_writes_iff]
  simp only [Succeeds, target.update_eq_ok_iff]
  constructor
  · rintro ⟨_, id, hid, hsome, written, hwrites, _⟩
    exact ⟨⟨id, hid⟩, hsome, written, hwrites⟩
  · rintro ⟨⟨id, hid⟩, hsome, written, hwrites⟩
    exact ⟨_, id, hid, hsome, written, hwrites, rfl⟩

theorem succeeds_delete_iff (input : Entries Value) :
    Succeeds (target.statement input .delete) ↔
      ∃ id, input.get? (idFieldName target.entity) = some id ∧ id ≠ .null := by
  rw [statement, succeeds_map_iff]
  simp only [Succeeds, target.delete_eq_ok_iff]
  constructor
  · rintro ⟨_, id, hid, _⟩
    exact ⟨id, hid⟩
  · rintro ⟨id, hid⟩
    exact ⟨_, id, hid, rfl⟩

theorem render_create (input : Entries Value) (s : Statement)
    (h : target.statement input .create = .ok s) :
    ∃ written, target.entity.Writes input written ∧
      s.render.sql = insertText target.view (written.map Prod.fst) ∧
      s.render.params = written.map Prod.snd := by
  rcases (map_eq_ok_iff _ _ _).mp h with ⟨insert, hinsert, rfl⟩
  rcases (target.create_eq_ok_iff input insert).mp hinsert with ⟨_, written, hwrites, rfl⟩
  exact ⟨written, hwrites, Insert.render_eq target.view written⟩

theorem render_update (input : Entries Value) (s : Statement)
    (h : target.statement input .update = .ok s) :
    ∃ id text written, input.get? (idFieldName target.entity) = some id ∧
      boundText? id = some text ∧ target.entity.Writes (target.entity.besidesId input) written ∧
      s.render.sql = updateText target.view (written.map Prod.fst) target.entity.idColumnName ∧
      s.render.params = written.map Prod.snd ++ [.text (some text)] := by
  rcases (map_eq_ok_iff _ _ _).mp h with ⟨update, hupdate, rfl⟩
  rcases (target.update_eq_ok_iff input update).mp hupdate with
    ⟨id, hid, _, written, hwrites, rfl⟩
  rcases target.idPredicate_eq id hid.2 with ⟨text, htext, hpredicate⟩
  refine ⟨id, text, written, hid.1, htext, hwrites, ?_⟩
  rw [hpredicate]
  exact Update.render_eq target.view written target.entity.idColumnName (.text (some text))

theorem render_delete (input : Entries Value) (s : Statement)
    (h : target.statement input .delete = .ok s) :
    ∃ id text, input.get? (idFieldName target.entity) = some id ∧ boundText? id = some text ∧
      s.render.sql = deleteText target.view target.entity.idColumnName ∧
      s.render.params = [.text (some text)] := by
  rcases (map_eq_ok_iff _ _ _).mp h with ⟨delete, hdelete, rfl⟩
  rcases (target.delete_eq_ok_iff input delete).mp hdelete with ⟨id, hid, rfl⟩
  rcases target.idPredicate_eq id hid.2 with ⟨text, htext, hpredicate⟩
  refine ⟨id, text, hid.1, htext, ?_⟩
  rw [hpredicate]
  exact Delete.render_eq target.view target.entity.idColumnName (.text (some text))

end MutationTarget

/-! ### Compiled mutations -/

/-- What a mutation of a known entity changes. -/
def Schema.targetOf (schema : Schema) (name : String) (mutation : Mutation) (entity : Entity) :
    MutationTarget :=
  ⟨name, mutation.typeName, entity, ⟨schema.mutationViewSchema mutation, mutation.viewName⟩⟩

section Known

variable (schema : Schema) (request : MutationRequest) (mutation : Mutation) (entity : Entity)

/-- A mutation of a known entity is compiled if it has a statement. -/
theorem Schema.compileMutation_known (hmutation : schema.mutation? request.name = some mutation)
    (hentity : schema.entity? mutation.typeName = some entity) :
    schema.compileMutation request =
      ((schema.targetOf request.name mutation entity).statement request.input mutation.kind).map
        fun s => ⟨s, inputId? entity request.input, request.name, mutation.typeName⟩ := by
  have htarget : schema.mutationTarget request.name mutation =
      .ok (schema.targetOf request.name mutation entity) := by
    rw [Schema.mutationTarget, hentity]
    rfl
  unfold Schema.compileMutation MutationTarget.statement
  rw [hmutation]
  simp only [htarget, bind, Except.bind]
  cases mutation.kind with
  | create => cases (schema.targetOf request.name mutation entity).create request.input <;> rfl
  | update => cases (schema.targetOf request.name mutation entity).update request.input <;> rfl
  | delete => cases (schema.targetOf request.name mutation entity).delete request.input <;> rfl
  | unsupported => rfl

/-- What a mutation of a known entity is compiled to: an insertion of all that the
    input says, a change of the row of an identifier to all else that the input
    says, or a removal of that row. It is refused if a field has no column, if there
    is nothing to write, or if the row is not identified. -/
theorem compileMutation_exact (hmutation : schema.mutation? request.name = some mutation)
    (hentity : schema.entity? mutation.typeName = some entity) :
    let view : ViewName := ⟨mutation.viewSchemaName.getD schema.viewSchemaName, mutation.viewName⟩
    let idField := idFieldName entity
    (∀ name, entity.IsIdField name ↔ name = idField) ∧
      (mutation.kind = .create →
        (Succeeds (schema.compileMutation request) ↔ request.input ≠ [] ∧
          ∀ entry ∈ request.input, (entity.column? entry.1).isSome = true) ∧
        ∀ c, schema.compileMutation request = .ok c →
          ∃ written, entity.Writes request.input written ∧
            c.sql = insertText view (written.map Prod.fst) ∧ c.values = written.map Prod.snd) ∧
      (mutation.kind = .update →
        (Succeeds (schema.compileMutation request) ↔
          (∃ id, request.input.get? idField = some id ∧ id ≠ .null) ∧
          (∃ entry ∈ request.input, entry.1 ≠ idField) ∧
          ∀ entry ∈ request.input, entry.1 ≠ idField → (entity.column? entry.1).isSome = true) ∧
        ∀ c, schema.compileMutation request = .ok c →
          ∃ id text written, request.input.get? idField = some id ∧ boundText? id = some text ∧
            entity.Writes (request.input.filter fun entry => entry.1 != idField) written ∧
            c.sql = updateText view (written.map Prod.fst) entity.idColumnName ∧
            c.values = written.map Prod.snd ++ [.text (some text)]) ∧
      (mutation.kind = .delete →
        (Succeeds (schema.compileMutation request) ↔
          ∃ id, request.input.get? idField = some id ∧ id ≠ .null) ∧
        ∀ c, schema.compileMutation request = .ok c →
          ∃ id text, request.input.get? idField = some id ∧ boundText? id = some text ∧
            c.sql = deleteText view entity.idColumnName ∧ c.values = [.text (some text)]) ∧
      (mutation.kind = .unsupported → ¬ Succeeds (schema.compileMutation request)) := by
  intro view idField
  let target := schema.targetOf request.name mutation entity
  have hknown := schema.compileMutation_known request mutation entity hmutation hentity
  have hsucceeds : Succeeds (schema.compileMutation request) ↔
      Succeeds (target.statement request.input mutation.kind) := by
    rw [hknown, succeeds_map_iff]
  -- Text and values of a compiled mutation are those of its statement.
  have hstatement : ∀ c, schema.compileMutation request = .ok c →
      target.statement request.input mutation.kind = .ok c.statement := by
    intro c hc
    rw [hknown, map_eq_ok_iff] at hc
    rcases hc with ⟨s, hs, rfl⟩
    exact hs
  refine ⟨entity.isIdField_iff, ?_, ?_, ?_, ?_⟩ <;> intro hkind <;>
    rw [hkind] at hsucceeds hstatement
  · exact ⟨hsucceeds.trans (target.succeeds_create_iff request.input),
      fun c hc => target.render_create request.input c.statement (hstatement c hc)⟩
  · refine ⟨(hsucceeds.trans (target.succeeds_update_iff request.input)).trans ?_,
      fun c hc => target.render_update request.input c.statement (hstatement c hc)⟩
    rw [← List.isEmpty_eq_false_iff, List.isEmpty_eq_false_iff_exists_mem]
    simp only [target, idField, Schema.targetOf, entity.mem_besidesId_iff, and_imp]
  · exact ⟨hsucceeds.trans (target.succeeds_delete_iff request.input),
      fun c hc => target.render_delete request.input c.statement (hstatement c hc)⟩
  · exact fun h => not_succeeds_error _ (hsucceeds.mp h)

end Known

namespace Blog

/-- The blog with mutations that write through a view of their own. -/
def editable : Schema :=
  { schema with mutations := [("createUser", ⟨.create, "User", none, "user_write"⟩),
      ("updateUser", ⟨.update, "User", some "w\"rite", "user"⟩),
      ("deleteUser", ⟨.delete, "User", none, "user_write"⟩)] }

/-- A new name for a user, and no address any more. -/
def rename : MutationRequest :=
  ⟨"updateUser", [("name", .string "Ann"), ("id", .int 7), ("email", .null)]⟩

end Blog

/-- The identifier may stand anywhere in the input, and `null` is written as such. -/
theorem compileMutation_exact_rename :
    Blog.editable.mutation? "updateUser" = some ⟨.update, "User", some "w\"rite", "user"⟩ ∧
      Blog.editable.entity? "User" = some Blog.user ∧
      ∃ c, Blog.editable.compileMutation Blog.rename = .ok c ∧
        c.sql = updateText ⟨"w\"rite", "user"⟩ ["name", "email"] "id" ∧
        c.values = [.text (some "Ann"), .text none, .text (some "7")] := by
  refine ⟨rfl, rfl, ?_⟩
  rcases compileMutation_exact Blog.editable Blog.rename
    ⟨.update, "User", some "w\"rite", "user"⟩ Blog.user rfl rfl with ⟨_, _, hupdate, _⟩
  rcases hupdate rfl with ⟨hsucceeds, htext⟩
  have hidField : idFieldName Blog.user = "id" := by decide
  have hgiven : Blog.rename.input.get? (idFieldName Blog.user) = some (.int 7) := by
    rw [hidField]
    rfl
  have hcolumns : ∀ entry ∈ Blog.rename.input, entry.1 ≠ idFieldName Blog.user →
      (Blog.user.column? entry.1).isSome = true := by decide
  rcases hsucceeds.mpr ⟨⟨.int 7, hgiven, Value.noConfusion⟩,
    ⟨("name", .string "Ann"), List.mem_cons_self, by decide⟩, hcolumns⟩ with ⟨c, hc⟩
  rcases htext c hc with ⟨id, text, written, hid, hbound, hwrites, hsql, hvalues⟩
  -- What is written is settled by the input, and so is the text of the identifier.
  obtain rfl := Option.some.inj (hgiven.symm.trans hid)
  have htext : text = "7" :=
    (Option.some.inj ((show boundText? (.int 7) = some "7" by decide).symm.trans hbound)).symm
  have hwritten : written = [("name", .text (some "Ann")), ("email", .text none)] := by
    change Blog.user.Writes [("name", .string "Ann"), ("email", .null)] written at hwrites
    rcases hwrites with _ | ⟨⟨hname, hann⟩, _ | ⟨⟨hemail, hnull⟩, _ | _⟩⟩
    rename_i name email
    rw [← Prod.eta name, ← Prod.eta email, hann, hnull, ← Option.some.inj hname,
      ← Option.some.inj hemail]
    rfl
  subst htext hwritten
  exact ⟨c, hc, hsql, hvalues⟩

end ViewCompiler
