import ViewCompiler.Proofs.Resolution

/-!
# Kinds of Failures

Which failures the parts of a compilation can end in.

Most parts fail for one reason only: what has to be looked up is not in the
metadata, or an argument has the wrong form. Two kinds are rarer. A field that
only the authorized view has is refused in one place (`Level.field`), and so is a
level that lists all rows of an entity (`Schema.levelEntity`). That a failure of
such a kind does not come from anywhere else takes a look at everything that can
fail. `FailsAs` goes through the ways in which parts are put together, and the
lemmas after it say of each part which causes it can have, as conditions on what
is to be shown of a failure.

`Avoids` asks for the kind of the cause only, and its lemmas are read off from
there.

## Main definitions

* `FailsAs`: An outcome whose failure, if it is one, satisfies a condition.
* `Avoids`: An outcome that is no failure of a kind.

## Theorems

* `FailsAs.bind`, `FailsAs.map`, `failsAs_mapM`, `failsAs_foldlM`: Parts that are
  put together.
* `Level.clauses_failsAs`, `Schema.link_failsAs`, `Schema.levelEntity_failsAs`: The
  stages of a level.
-/

namespace ViewCompiler

open Json Sql Schema

/-- An outcome fails as `P` says if it is no failure, or one that satisfies `P`. -/
def FailsAs {α : Type} (P : Failure → Prop) (x : Except Failure α) : Prop :=
  ∀ e, x = .error e → P e

/-- An outcome avoids a kind of failures if it is no failure of that kind. -/
def Avoids {α : Type} (kind : Failure.Kind) (x : Except Failure α) : Prop :=
  ∀ e, x = .error e → e.root.kind ≠ kind

section FailsAs

variable {α β ι : Type} {P : Failure → Prop}

theorem failsAs_ok (a : α) : FailsAs P (.ok a) := by
  intro e he
  simp only [reduceCtorEq] at he

theorem failsAs_error (e : Failure) (h : P e) : FailsAs P (.error e : Except Failure α) := by
  intro e' he'
  rw [← Except.error.inj he']
  exact h

theorem FailsAs.bind {x : Except Failure α} (h : FailsAs P x) {f : α → Except Failure β}
    (hf : ∀ a, FailsAs P (f a)) : FailsAs P (x >>= f) := by
  cases x with
  | ok a => exact hf a
  | error e => exact failsAs_error e (h e rfl)

theorem FailsAs.map {x : Except Failure α} (h : FailsAs P x) (f : α → β) :
    FailsAs P (x.map f) := by
  cases x with
  | ok a => exact failsAs_ok (f a)
  | error e => exact failsAs_error e (h e rfl)

theorem failsAs_mapM (f : ι → Except Failure α) (hf : ∀ i, FailsAs P (f i)) (is : List ι) :
    FailsAs P (is.mapM f) := by
  induction is with
  | nil => exact failsAs_ok []
  | cons i rest ih =>
      rw [List.mapM_cons]
      exact (hf i).bind fun a => ih.bind fun as => failsAs_ok (a :: as)

theorem failsAs_foldlM (f : α → ι → Except Failure α) (hf : ∀ a i, FailsAs P (f a i))
    (is : List ι) (a : α) : FailsAs P (is.foldlM f a) := by
  induction is generalizing a with
  | nil => exact failsAs_ok a
  | cons i rest ih =>
      rw [List.foldlM_cons]
      exact (hf a i).bind ih

/-! ### Arguments -/

/-- What an operand fails for lies in the request. -/
theorem scalarOperand_failsAs (hform : ∀ text, P (.validation text)) (op : Operator)
    (fieldName : String) (v : Value) : FailsAs P (scalarOperand op fieldName v) := by
  cases v with
  | null => exact failsAs_error _ (hform _)
  | array items => exact failsAs_error _ (hform _)
  | object members => exact failsAs_error _ (hform _)
  | _ => exact failsAs_ok _

theorem Operator.predicate_failsAs (hform : ∀ text, P (.validation text)) (op : Operator)
    (fieldName : String) (operand : Value) (column : Column) :
    FailsAs P (op.predicate fieldName operand column) := by
  cases op with
  | eq => exact failsAs_ok _
  | neq => exact failsAs_ok _
  | isIn =>
      simp only [Operator.predicate]
      split
      · exact (failsAs_mapM _ (scalarOperand_failsAs hform .isIn fieldName) _).map _
      · exact failsAs_error _ (hform _)
  | isNull =>
      simp only [Operator.predicate]
      split
      · exact failsAs_ok _
      · exact failsAs_ok _
      · exact failsAs_error _ (hform _)
  | _ => exact (scalarOperand_failsAs hform _ fieldName operand).map _

theorem sortTexts_failsAs (hform : ∀ text, P (.validation text)) (v : Value) :
    FailsAs P (sortTexts v) := by
  cases v with
  | null => exact failsAs_ok _
  | string text => exact failsAs_ok _
  | array items =>
      refine failsAs_mapM _ (fun item => ?_) items
      cases item with
      | string text => exact failsAs_ok _
      | _ => exact failsAs_error _ (hform _)
  | _ => exact failsAs_error _ (hform _)

theorem count_failsAs (hform : ∀ text, P (.validation text)) (argument : String) (v : Value) :
    FailsAs P (count argument v) := by
  unfold count
  split
  · exact failsAs_ok _
  · split
    · split
      · exact failsAs_ok _
      · exact failsAs_error _ (hform _)
    · exact failsAs_error _ (hform _)

namespace Level

variable (level : Level) (hschema : ∀ text, P (.schema text))
  (hdenied : ∀ typeName fieldName, P (.authorization typeName fieldName))

include hschema hdenied

/-- A field is not there, or it is refused to a caller who is not authenticated. -/
theorem field_failsAs (name : String) : FailsAs P (level.field name) := by
  unfold Level.field
  split
  · exact failsAs_error _ (hschema _)
  · simp only []
    split
    · exact failsAs_error _ (hdenied _ _)
    · exact failsAs_ok _

theorem column_failsAs (name : String) : FailsAs P (level.column name) := by
  refine (level.field_failsAs hschema hdenied name).bind fun field => ?_
  split
  · exact failsAs_ok _
  · exact failsAs_error _ (hschema _)

variable (hform : ∀ text, P (.validation text))

include hform

theorem operation_failsAs (fieldName : String) (operation : String × Value) :
    FailsAs P (level.operation fieldName operation) := by
  refine (level.column_failsAs hschema hdenied fieldName).bind fun column => ?_
  split
  · exact failsAs_error _ (hform _)
  · rename_i op _
    exact (op.predicate_failsAs hform fieldName operation.2 column.value).bind fun _ => failsAs_ok _

theorem condition_failsAs (entry : String × Value) : FailsAs P (level.condition entry) := by
  rcases entry with ⟨fieldName, v⟩
  cases v with
  | object operations =>
      have hoperation := level.operation_failsAs hschema hdenied hform fieldName
      exact (failsAs_mapM _ hoperation operations).map _
  | array items => exact failsAs_error _ (hform _)
  | _ => exact (level.column_failsAs hschema hdenied fieldName).bind fun _ => failsAs_ok _

theorem filter_failsAs (v : Value) : FailsAs P (level.filter v) := by
  cases v with
  | null => exact failsAs_ok _
  | object conditions =>
      exact (failsAs_mapM _ (level.condition_failsAs hschema hdenied hform) conditions).map _
  | _ => exact failsAs_error _ (hform _)

theorem sort_failsAs (v : Value) : FailsAs P (level.sort v) := by
  refine (sortTexts_failsAs hform v).bind fun texts => ?_
  split
  · exact failsAs_ok _
  · have hterm : ∀ text, FailsAs P (level.orderTerm text) := fun text =>
      (level.column_failsAs hschema hdenied _).bind fun _ => failsAs_ok _
    exact (failsAs_mapM _ hterm texts).bind fun _ => failsAs_ok _

theorem clauses_failsAs (args : List (String × Value)) : FailsAs P (level.clauses args) := by
  refine failsAs_foldlM _ (fun clauses arg => ?_) args _
  unfold Level.addClause
  split
  · exact (level.filter_failsAs hschema hdenied hform arg.2).bind fun _ => failsAs_ok _
  · split
    · exact (level.sort_failsAs hschema hdenied hform arg.2).bind fun _ => failsAs_ok _
    · split
      · exact (count_failsAs hform _ arg.2).bind fun _ => failsAs_ok _
      · split
        · exact (count_failsAs hform _ arg.2).bind fun _ => failsAs_ok _
        · exact failsAs_ok _

end Level

/-! ### Metadata -/

theorem matchPredicate_failsAs (hschema : ∀ text, P (.schema text)) (constraint : Option Constraint)
    (typeName : String) (entity : Entity) (aliasName : String) :
    FailsAs P (matchPredicate constraint typeName entity aliasName) := by
  have hchild : ∀ child : ChildColumn, FailsAs P (child.toColumn typeName entity aliasName) := by
    intro child
    unfold ChildColumn.toColumn
    split
    · exact failsAs_ok _
    · split
      · exact failsAs_ok _
      · exact failsAs_error _ (hschema _)
  cases constraint with
  | none => exact failsAs_ok _
  | some constraint =>
      cases constraint with
      | equals child operand => exact (hchild child).bind fun _ => failsAs_ok _
      | elementOf _ _ child _ => exact (hchild child).bind fun _ => failsAs_ok _

/-- Whatever a link fails for is a fault of the metadata. -/
theorem Schema.link_failsAs (hschema : ∀ text, P (.schema text)) (schema : Schema) (level : Level)
    (fieldName : String) (field : Field) (use : FieldLink) :
    FailsAs P (schema.link level fieldName field use) := by
  unfold Schema.link
  repeat' split
  all_goals first | exact failsAs_error _ (hschema _) | exact failsAs_ok _

/-- A policy forbids a level only if it lists all rows of an entity. -/
theorem Schema.levelEntity_failsAs (hschema : ∀ text, P (.schema text)) (schema : Schema)
    (position : Position) (fetch : Fetch) (constraint : Option Constraint)
    (hpolicy : isGenericRootAggregation position fetch constraint = true →
      ∀ text, P (.policy text))
    (typeName : String) (fields : List (String × QueryNode)) :
    FailsAs P (schema.levelEntity position fetch constraint typeName fields) := by
  unfold Schema.levelEntity
  split
  · exact failsAs_error _ (hschema _)
  · split
    · rename_i hforbidden
      rw [Bool.and_eq_true] at hforbidden
      exact failsAs_error _ (hpolicy hforbidden.1 _)
    · split
      · exact failsAs_error _ (hschema _)
      · exact failsAs_ok _

end FailsAs

/-! ### Kinds -/

section Avoids

variable {α β : Type} {kind : Failure.Kind}

theorem avoids_ok (a : α) : Avoids kind (.ok a) :=
  failsAs_ok a

theorem avoids_error (e : Failure) (h : kind ≠ e.root.kind) :
    Avoids kind (.error e : Except Failure α) :=
  failsAs_error e h.symm

theorem Avoids.bind {x : Except Failure α} (h : Avoids kind x) {f : α → Except Failure β}
    (hf : ∀ a, Avoids kind (f a)) : Avoids kind (x >>= f) :=
  FailsAs.bind h hf

theorem Avoids.map {x : Except Failure α} (h : Avoids kind x) (f : α → β) :
    Avoids kind (x.map f) :=
  FailsAs.map h f

/-- A context does not change the cause of a failure. -/
theorem Avoids.inContext {x : Except Failure α} (h : Avoids kind x) (context : String) :
    Avoids kind (x.mapError (.inContext context)) := by
  cases x with
  | ok a => exact avoids_ok a
  | error e => exact avoids_error (.inContext context e) (h e rfl).symm

theorem Operator.predicate_avoids (hform : kind ≠ .validation) (op : Operator) (fieldName : String)
    (operand : Value) (column : Column) : Avoids kind (op.predicate fieldName operand column) :=
  op.predicate_failsAs (fun _ => hform.symm) fieldName operand column

theorem sortTexts_avoids (hform : kind ≠ .validation) (v : Value) : Avoids kind (sortTexts v) :=
  sortTexts_failsAs (fun _ => hform.symm) v

theorem count_avoids (hform : kind ≠ .validation) (argument : String) (v : Value) :
    Avoids kind (count argument v) :=
  count_failsAs (fun _ => hform.symm) argument v

theorem Level.field_avoids (level : Level) (hschema : kind ≠ .schema)
    (hdenied : kind ≠ .authorization) (name : String) : Avoids kind (level.field name) :=
  level.field_failsAs (fun _ => hschema.symm) (fun _ _ => hdenied.symm) name

theorem Level.clauses_avoids (level : Level) (hschema : kind ≠ .schema)
    (hdenied : kind ≠ .authorization) (hform : kind ≠ .validation) (args : List (String × Value)) :
    Avoids kind (level.clauses args) :=
  level.clauses_failsAs (fun _ => hschema.symm) (fun _ _ => hdenied.symm) (fun _ => hform.symm) args

theorem matchPredicate_avoids (hschema : kind ≠ .schema) (constraint : Option Constraint)
    (typeName : String) (entity : Entity) (aliasName : String) :
    Avoids kind (matchPredicate constraint typeName entity aliasName) :=
  matchPredicate_failsAs (fun _ => hschema.symm) constraint typeName entity aliasName

theorem Schema.link_avoids (hschema : kind ≠ .schema) (schema : Schema) (level : Level)
    (fieldName : String) (field : Field) (use : FieldLink) :
    Avoids kind (schema.link level fieldName field use) :=
  schema.link_failsAs (fun _ => hschema.symm) level fieldName field use

theorem Schema.levelEntity_avoids (hschema : kind ≠ .schema) (schema : Schema) (position : Position)
    (fetch : Fetch) (constraint : Option Constraint)
    (hpolicy : kind = .policy → isGenericRootAggregation position fetch constraint = false)
    (typeName : String) (fields : List (String × QueryNode)) :
    Avoids kind (schema.levelEntity position fetch constraint typeName fields) := by
  refine schema.levelEntity_failsAs (fun _ => hschema.symm) position fetch constraint
    (fun hgeneric _ hkind => ?_) typeName fields
  rw [hpolicy hkind.symm] at hgeneric
  exact Bool.false_ne_true hgeneric

end Avoids

end ViewCompiler
