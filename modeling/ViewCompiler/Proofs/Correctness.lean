import ViewCompiler.Proofs.Meaning

/-!
# Compiled Queries Mean What Their Requests Mean

Evaluating a compiled query gives the answer to its request.

A compiled query refers to rows by aliases, its request does not. So the
question is whether every alias is found where it was meant. The alias of a
level is bound by the view of that level, and it is used in two places: in the
columns and clauses of the level itself, where it is the innermost one, and in
the link of a nested level, where one other alias is bound in between. That
one has a higher number, and different numbers have different aliases
(`localAlias_injective`). Hence `resolve_eval` holds in any scope whatsoever:
no reference gets further than one level up, and nothing that is bound around
a level can change what it means.

## Theorems

* `localAlias_injective`: Aliases of different numbers are different.
* `resolve_next`: Aliases are handed out in ascending order.
* `Operator.predicate_eval`, `Level.filter_eval`, `Level.sort_eval`: Clauses
  mean what their arguments mean.
* `Relation.endpoints?_eq_seenFrom`, `Schema.link_eval`: The link of a nested
  level relates its rows to the row above.
* `resolve_eval`: Levels mean what their nodes mean.
* `compileQuery_eval`: Compiled queries mean what their requests mean.
-/

namespace ViewCompiler

open Json Sql Schema

/-! ### Aliases -/

/-- Different numbers have different aliases. -/
theorem localAlias_injective (m n : Nat) (h : localAlias m = localAlias n) : m = n := by
  unfold localAlias at h
  rw [String.append_left_inj, String.append_right_inj] at h
  -- What stands around the digits is the same, so the digits are.
  have hdigits : Nat.toDigits 10 m = Nat.toDigits 10 n := by
    rw [← Nat.toList_repr, h, Nat.toList_repr]
  calc m = Nat.ofDigitChars 10 (Nat.toDigits 10 m) 0 :=
        (Nat.ofDigitChars_toDigits (by decide) (by decide)).symm
    _ = Nat.ofDigitChars 10 (Nat.toDigits 10 n) 0 := by rw [hdigits]
    _ = n := Nat.ofDigitChars_toDigits (by decide) (by decide)

/-- The counter of aliases never goes back. -/
theorem resolve_next (schema : Schema) :
    (∀ (node : QueryNode) (authenticated : Bool) (fetch : Fetch) (position : Position)
      (constraint : Option Constraint) (next : Nat) (r : Resolved),
      resolveLevel schema authenticated fetch position constraint next node = .ok r →
        next ≤ r.next) ∧
    ∀ (fields : List (String × QueryNode)) (level : Level) (next : Nat) (r : ResolvedFields),
      resolveFields schema level next fields = .ok r → next ≤ r.next := by
  refine QueryNode.induction ?_ ?_ ?_ ?_
  · intro name aliasName args authenticated fetch position constraint next r h
    simp only [resolveLevel, reduceCtorEq] at h
  · intro name aliasName typeName fields more args ih authenticated fetch position constraint next
      r h
    rcases resolveLevel_eq_ok schema authenticated fetch position constraint next name aliasName
      typeName fields more args r h with
      ⟨entity, selected, clauses, matching, _, hselected, _, _, rfl⟩
    -- The level takes two aliases, then its fields take theirs.
    have hnext := ih _ _ selected hselected
    change next ≤ selected.next
    omega
  · intro level next r h
    simp only [resolveFields, Except.ok.injEq] at h
    exact Nat.le_of_eq (congrArg ResolvedFields.next h)
  · intro key node rest ihnode ihrest level next r h
    rcases resolveFields_cons_eq_ok schema level next key node rest r h with
      ⟨field, _, ⟨_, others, hothers, rfl⟩ |
        ⟨use, fetch, constraint, below, others, _, _, hbelow, hothers, rfl⟩⟩
    · exact ihrest level next others hothers
    · have hnode := ihnode _ _ _ _ _ below hbelow
      have hrest := ihrest level below.next others hothers
      exact Nat.le_trans hnode hrest

/-- No column of a level is an aggregate. -/
theorem resolveFields_aggregates (schema : Schema) (level : Level)
    (fields : List (String × QueryNode)) (next : Nat) (r : ResolvedFields)
    (h : resolveFields schema level next fields = .ok r) :
    r.columns.any SelectItem.aggregates = false := by
  induction fields generalizing next r with
  | nil =>
      simp only [resolveFields, Except.ok.injEq] at h
      rw [← h]
      rfl
  | cons entry rest ih =>
      rcases resolveFields_cons_eq_ok schema level next entry.1 entry.2 rest r h with
        ⟨field, _, ⟨_, others, hothers, rfl⟩ |
          ⟨_, fetch, _, below, others, _, _, _, hothers, rfl⟩⟩
      · exact ih next others hothers
      · exact ih below.next others hothers

section Eval

variable {V : Type} (engine : Engine V) (db : Database V)

/-! ### Reading columns -/

/-- A column of the innermost source. -/
theorem Sql.Column.eval_physical_head (aliasName name : String) (row : Row V) (scope : Scope V) :
    (Column.physical aliasName name).eval engine db ((aliasName, row) :: scope) =
      engine.read row name := by
  simp only [Column.eval, Engine.refer, Entries.get?, if_true]

/-- A column of a source further out, past one of another alias. -/
theorem Sql.Column.eval_physical_next (inner outer name : String) (hne : inner ≠ outer)
    (innerRow outerRow : Row V) (scope : Scope V) :
    (Column.physical outer name).eval engine db ((inner, innerRow) :: (outer, outerRow) :: scope) =
      engine.read outerRow name := by
  simp only [Column.eval, Engine.refer, Entries.get?, if_neg hne, if_true]

/-- The column that a level gives out for a field reads the column of that
    field. -/
theorem Level.column_eval (level : Level) (name : String) (g : Guarded Column)
    (h : level.column name = .ok g) (row : Row V) (scope : Scope V) :
    g.value.eval engine db ((level.aliasName, row) :: scope) =
      engine.read row (level.entity.columnOf name) := by
  rcases (level.column_eq_ok_iff name g).mp h with ⟨field, columnName, hfield, _, hnative, hvalue⟩
  have hname : level.entity.columnOf name = columnName := by
    rw [Entity.columnOf, ((level.field_eq_ok_iff name _).mp hfield).1]
    simp only [Option.bind_some, hnative, Option.getD_some]
  rw [hvalue, Column.eval_physical_head, hname]

/-! ### Conditions -/

/-- The text as which a value is bound is the one that the database is to get. -/
theorem Sql.Engine.bound_eq (v : Value) :
    engine.bound v = engine.param (.text (boundText? v)) := by
  cases v <;> rfl

/-- Comparing with a literal, be it a test for `NULL` or a comparison with a
    bound text. -/
theorem Sql.Predicate.eval_equal_literal (column : Column) (v : Value) (scope : Scope V) :
    (Predicate.equal column (literal v)).eval engine db scope =
        engine.equals (column.eval engine db scope) v ∧
      (Predicate.notEqual column (literal v)).eval engine db scope =
        engine.differs (column.eval engine db scope) v := by
  unfold Engine.equals Engine.differs
  by_cases hnull : v.isNull = true
  · rw [if_pos hnull, if_pos hnull, literal, boundText?_of_isNull v hnull]
    exact ⟨by rw [Predicate.equal, Predicate.eval], by rw [Predicate.notEqual, Predicate.eval]⟩
  · rcases exists_boundText? v (Bool.eq_false_iff.mpr hnull) with ⟨text, htext⟩
    rw [if_neg hnull, if_neg hnull, literal, Engine.bound_eq, htext]
    constructor
    · simp only [Predicate.equal, Predicate.eval, Column.eval]
    · simp only [Predicate.notEqual, Predicate.eval, Column.eval]

theorem scalarOperand_eval (op : Operator) (fieldName : String) (v : Value) (column : Column)
    (h : scalarOperand op fieldName v = .ok column) (scope : Scope V) :
    column.eval engine db scope = engine.bound v := by
  rcases scalarOperand_eq_ok op fieldName v column h with ⟨text, htext, rfl⟩
  rw [Column.eval, Engine.bound_eq, htext]

theorem scalarOperands_eval (op : Operator) (fieldName : String) (vs : List Value)
    (columns : List Column) (h : vs.mapM (scalarOperand op fieldName) = .ok columns)
    (scope : Scope V) : Column.evalList engine db columns scope = vs.map engine.bound := by
  rw [mapM_eq_ok_iff] at h
  induction h with
  | nil => rw [Column.evalList, List.map_nil]
  | cons hhead _ ih =>
      rw [Column.evalList, List.map_cons, ih, scalarOperand_eval engine db op fieldName _ _ hhead]

/-- The condition of an operator holds where the operator of its name does. -/
theorem Operator.predicate_eval (op : Operator) (fieldName : String) (operand : Value)
    (column : Column) (p : Predicate) (h : op.predicate fieldName operand column = .ok p)
    (scope : Scope V) :
    p.eval engine db scope = engine.holds op.name operand (column.eval engine db scope) := by
  have hscalar : ∀ (op' : Operator) (comparison : Comparison),
      (scalarOperand op' fieldName operand).map (Predicate.compare comparison column) = .ok p →
        p.eval engine db scope =
          engine.compare comparison (column.eval engine db scope) (engine.bound operand) := by
    intro op' comparison hp
    rw [map_eq_ok_iff] at hp
    rcases hp with ⟨right, hright, rfl⟩
    rw [Predicate.eval, scalarOperand_eval engine db op' fieldName operand right hright]
  cases op with
  | eq =>
      simp only [Operator.predicate, Except.ok.injEq] at h
      rw [← h, (Predicate.eval_equal_literal engine db column operand scope).1]
      rfl
  | neq =>
      simp only [Operator.predicate, Except.ok.injEq] at h
      rw [← h, (Predicate.eval_equal_literal engine db column operand scope).2]
      rfl
  | gt => exact hscalar .gt .gt h
  | gte => exact hscalar .gte .gte h
  | lt => exact hscalar .lt .lt h
  | lte => exact hscalar .lte .lte h
  | isIn =>
      simp only [Operator.predicate] at h
      split at h
      · rename_i v vs
        rw [map_eq_ok_iff] at h
        rcases h with ⟨elements, helements, rfl⟩
        -- There is an element, so the predicate is not the one that never holds.
        have heval := scalarOperands_eval engine db .isIn fieldName (v :: vs) elements helements
          scope
        cases elements with
        | nil =>
            rw [Column.evalList, List.map_cons] at heval
            exact absurd heval (List.cons_ne_nil _ _).symm
        | cons first more =>
            change Predicate.eval engine db (.isIn column (first :: more)) scope = _
            rw [Predicate.eval, heval]
            rfl
      · simp only [reduceCtorEq] at h
  | isNull =>
      simp only [Operator.predicate] at h
      split at h
      · simp only [Except.ok.injEq] at h
        rw [← h, Predicate.eval, ← beq_true (engine.isNull _)]
        rfl
      · simp only [Except.ok.injEq] at h
        rw [← h, Predicate.eval, ← beq_false (engine.isNull _)]
        rfl
      · simp only [reduceCtorEq] at h

theorem Level.operation_eval (level : Level) (fieldName : String) (operation : String × Value)
    (g : Guarded Predicate) (h : level.operation fieldName operation = .ok g) (row : Row V)
    (scope : Scope V) :
    g.value.eval engine db ((level.aliasName, row) :: scope) =
      engine.holds operation.1 operation.2
        (engine.read row (level.entity.columnOf fieldName)) := by
  rcases level.operation_eq_ok fieldName operation g h with
    ⟨column, op, predicate, hcolumn, hop, hpredicate, rfl⟩
  rw [op.predicate_eval engine db fieldName operation.2 column.value predicate hpredicate,
    level.column_eval engine db fieldName column hcolumn, Operator.name_of_named? _ op hop]

/-- A conjunction of conditions holds if each one does. -/
theorem Guarded.all_eval {α : Type} (f : α → Except Failure (Guarded Predicate)) (p : α → Bool)
    (scope : Scope V)
    (hstep : ∀ a g, f a = .ok g → (g.value.eval engine db scope = .yes ↔ p a = true))
    (as : List α) (gs : List (Guarded Predicate)) (h : as.mapM f = .ok gs) :
    (Guarded.all gs).value.eval engine db scope = .yes ↔ as.all p = true := by
  rw [Guarded.all, Predicate.eval_all_iff, List.forall_mem_map]
  rw [mapM_eq_ok_iff] at h
  induction h with
  | nil => simp only [List.not_mem_nil, false_implies, implies_true, List.all_nil]
  | cons hhead _ ih =>
      rw [List.forall_mem_cons, List.all_cons, Bool.and_eq_true, ih, hstep _ _ hhead]

theorem Level.condition_eval (level : Level) (entry : String × Value) (g : Guarded Predicate)
    (h : level.condition entry = .ok g) (row : Row V) (scope : Scope V) :
    g.value.eval engine db ((level.aliasName, row) :: scope) = .yes ↔
      level.entity.satisfiesCondition engine row entry = true := by
  rcases entry with ⟨fieldName, v⟩
  rcases level.condition_eq_ok (fieldName, v) g h with
    ⟨operations, gs, hv, hgs, rfl⟩ | ⟨hv, column, hcolumn, rfl⟩
  · simp only at hv
    rw [hv]
    refine Guarded.all_eval engine db _ _ _ (fun operation g hg => ?_) operations gs hgs
    rw [level.operation_eval engine db fieldName operation g hg row scope, decide_eq_true_iff]
  -- Anything but an object is a value to be equal to.
  · have hmeaning : level.entity.satisfiesCondition engine row (fieldName, v) =
        decide (engine.equals (engine.read row (level.entity.columnOf fieldName)) v = .yes) := by
      cases v with
      | object operations => exact absurd rfl (hv operations)
      | _ => rfl
    rw [hmeaning, decide_eq_true_iff, (Predicate.eval_equal_literal engine db _ _ _).1,
      level.column_eval engine db fieldName column hcolumn]

/-- The filter of a level keeps the rows that satisfy it. -/
theorem Level.filter_eval (level : Level) (v : Value) (g : Guarded Predicate)
    (h : level.filter v = .ok g) (row : Row V) (scope : Scope V) :
    g.value.eval engine db ((level.aliasName, row) :: scope) = .yes ↔
      level.entity.satisfies engine v row = true := by
  rcases level.filter_eq_ok v g h with ⟨rfl, rfl⟩ | ⟨conditions, gs, rfl, hgs, rfl⟩
  · simp only [Predicate.eval, Entity.satisfies]
  · exact Guarded.all_eval engine db _ _ _ (fun entry g hg =>
      level.condition_eval engine db entry g hg row scope) conditions gs hgs

/-! ### Sorts and pages -/

theorem Level.orderTerms_eval (level : Level) (texts : List String)
    (terms : List (Guarded OrderTerm)) (h : texts.mapM level.orderTerm = .ok terms) (row : Row V)
    (scope : Scope V) :
    OrderTerm.evalList engine db (terms.map Guarded.value) ((level.aliasName, row) :: scope) =
      (texts.map orderingOf).map fun (fieldName, direction) =>
        (engine.read row (level.entity.columnOf fieldName), direction) := by
  rw [mapM_eq_ok_iff] at h
  induction h with
  | nil => rw [List.map_nil, OrderTerm.evalList, List.map_nil, List.map_nil]
  | @cons text term _ _ hterm _ ih =>
      rcases level.orderTerm_eq_ok text term hterm with ⟨column, hcolumn, rfl⟩
      rw [List.map_cons, OrderTerm.evalList, ih,
        level.column_eval engine db (orderingOf text).1 column hcolumn]
      rfl

/-- The sort of a level arranges the results by the columns of its fields. -/
theorem Level.sort_eval (level : Level) (v : Value) (g : Guarded (Option (List OrderTerm)))
    (h : level.sort v = .ok g) (rows : List (Row V)) (result : Row V → Row V) (scope : Scope V) :
    OrderTerm.arrange engine db g.value
        (rows.map fun row => ((level.aliasName, row) :: scope, result row)) =
      level.entity.arrange engine v (rows.map fun row => (row, result row)) := by
  rcases level.sort_eq_ok v g h with ⟨texts, htexts, ⟨hnil, rfl⟩ | ⟨hne, terms, hterms, rfl⟩⟩
  · rw [Entity.arrange, htexts, hnil, OrderTerm.arrange, List.map_map, List.map_nil,
      List.isEmpty_nil, if_pos rfl, List.map_map]
    rfl
  · have hempty : ¬ ((texts.map orderingOf).isEmpty = true) := by
      rw [List.isEmpty_iff, List.map_eq_nil_iff]
      exact hne
    rw [Entity.arrange, htexts, if_neg hempty, OrderTerm.arrange, List.map_map, List.map_map]
    congr 1
    refine List.map_congr_left fun row _ => ?_
    simp only [Function.comp_apply, level.orderTerms_eval engine db texts terms hterms row scope]

theorem rowCount_of_int64? (v : Value) (n : Int) (h : v.int64? = some n) : rowCount v = some n := by
  cases v with
  | number m =>
      cases m with
      | int k =>
          -- The number is in the range, and then it is the one that was read.
          simp only [Value.int64?] at h
          split at h
          · exact h
          · simp only [reduceCtorEq] at h
      | float x => simp only [Value.int64?, reduceCtorEq] at h
  | _ => simp only [Value.int64?, reduceCtorEq] at h

theorem rowCount_of_count (argument : String) (v : Value) (n : Option Int)
    (h : count argument v = .ok n) : rowCount v = n := by
  cases v with
  | null =>
      simp only [count, Except.ok.injEq] at h
      rw [← h]
      rfl
  | _ =>
      simp only [count] at h
      split at h
      · rename_i m hm
        split at h
        · rw [rowCount_of_int64? _ m hm]
          exact Except.ok.inj h
        · simp only [reduceCtorEq] at h
      · simp only [reduceCtorEq] at h

/-! ### Links -/

theorem ChildColumn.toColumn_eval (child : ChildColumn) (typeName : String) (entity : Entity)
    (aliasName : String) (column : Column)
    (h : child.toColumn typeName entity aliasName = .ok column) (row : Row V) (scope : Scope V) :
    column.eval engine db ((aliasName, row) :: scope) = engine.read row (child.nameIn entity) := by
  rw [child.toColumn_eq_ok typeName entity aliasName column h, Column.eval_physical_head]

/-- A constraint means a link between rows if its predicate says of every row
    what the link says, under any alias but the one of the source next to the
    level. -/
def Means (constraint : Option Constraint) (scope : Scope V)
    (belongs : Entity → Row V → Truth) : Prop :=
  ∀ (typeName : String) (entity : Entity) (aliasName : String) (matching : Predicate)
    (row : Row V), (∀ bound ∈ scope.head?, aliasName ≠ bound.1) →
    matchPredicate constraint typeName entity aliasName = .ok matching →
      matching.eval engine db ((aliasName, row) :: scope) = belongs entity row

/-- A value that the caller gives. -/
theorem means_belongsTo (anchor : Option (ChildColumn × Value)) (scope : Scope V) :
    Means engine db (anchor.map fun a => .equals a.1 (.value a.2)) scope
      (belongsTo engine anchor) := by
  intro typeName entity aliasName matching row _ h
  cases anchor with
  | none =>
      simp only [Option.map_none, matchPredicate, Except.ok.injEq] at h
      rw [← h, Predicate.eval, belongsTo]
  | some a =>
      simp only [Option.map_some, matchPredicate, Constraint.predicate, Operand.toColumn,
        bind_eq_ok_iff, pure, Except.pure, Except.ok.injEq] at h
      rcases h with ⟨column, hcolumn, rfl⟩
      rw [(Predicate.eval_equal_literal engine db column a.2 _).1,
        a.1.toColumn_eval engine db typeName entity aliasName column hcolumn, belongsTo]

/-- A column of the level that is equal to a column of the row above. -/
theorem means_equals_column (child : ChildColumn) (own name : String) (ownRow : Row V)
    (scope : Scope V) :
    Means engine db (some (.equals child (.column own name))) ((own, ownRow) :: scope)
      fun entity row =>
        engine.compare .eq (engine.read row (child.nameIn entity)) (engine.read ownRow name) := by
  intro typeName entity aliasName matching row hne h
  simp only [matchPredicate, Constraint.predicate, Operand.toColumn, bind_eq_ok_iff, pure,
    Except.pure, Except.ok.injEq] at h
  rcases h with ⟨column, hcolumn, rfl⟩
  rw [Predicate.equal, Predicate.eval,
    child.toColumn_eval engine db typeName entity aliasName column hcolumn,
    Column.eval_physical_next engine db aliasName own name (hne (own, ownRow) rfl)]
  intro hnull
  simp only [reduceCtorEq] at hnull

/-- A column of the level that is an element of an array in the row above. -/
theorem means_elementOf (child : ChildColumn) (own arrayColumn elementType : String)
    (ownRow : Row V) (scope : Scope V) :
    Means engine db (some (.elementOf own arrayColumn child elementType)) ((own, ownRow) :: scope)
      fun entity row =>
        engine.compare .contains (engine.read ownRow arrayColumn)
          (engine.array (engine.read row (child.nameIn entity)) elementType) := by
  intro typeName entity aliasName matching row hne h
  simp only [matchPredicate, Constraint.predicate, bind_eq_ok_iff, pure, Except.pure,
    Except.ok.injEq] at h
  rcases h with ⟨column, hcolumn, rfl⟩
  rw [Predicate.eval, Column.eval_physical_next engine db aliasName own arrayColumn
      (hne (own, ownRow) rfl), Column.eval,
    child.toColumn_eval engine db typeName entity aliasName column hcolumn]

theorem Schema.Side.isOn_iff (s : Side) (t : TableName) :
    s.isOn t = true ↔ t = ⟨s.schemaName, s.tableName⟩ := by
  rcases t with ⟨schemaName, tableName⟩
  simp only [Side.isOn, Bool.and_eq_true, beq_iff_eq, TableName.mk.injEq]
  exact ⟨fun h => ⟨h.1.symm, h.2.symm⟩, fun h => ⟨h.1.symm, h.2.symm⟩⟩

/-- The sides between which a field is linked are those that it sees. -/
theorem Schema.Relation.endpoints?_eq_seenFrom (relation : Relation) (use : FieldLink)
    (column : Option String) :
    relation.endpoints? use.ownerTable use.isListType column =
      (relation.seenFrom use column).map fun sides => ⟨sides.1, sides.2⟩ := by
  have honTable : ∀ side : Side,
      decide (use.ownerTable = ⟨side.schemaName, side.tableName⟩) = side.isOn use.ownerTable := by
    intro side
    rw [Bool.eq_iff_iff, decide_eq_true_iff, side.isOn_iff]
  unfold endpoints? ownIsFirst? seenFrom
  simp only [honTable, List.filter_cons, List.filter_nil]
  cases relation.first.isOn use.ownerTable <;> cases relation.second.isOn use.ownerTable
  · rfl
  · rfl
  · rfl
  -- Both sides are on the table. Sides of one kind are told apart by their columns,
  -- others by the multiplicity of the field.
  · by_cases hkinds : relation.first.cardinality = relation.second.cardinality
    · cases hfirst : relation.first.holds column <;> cases hsecond : relation.second.holds column
      all_goals
        simp only [Side.holds] at hfirst hsecond
        simp [hkinds, hfirst, hsecond]
    · cases hfirst : relation.first.cardinality <;> cases hsecond : relation.second.cardinality <;>
        cases use.isListType <;> simp_all

/-- The link of a relation field leads to the related rows. -/
theorem Schema.link_eval (schema : Schema) (level : Level) (fieldName : String) (field : Field)
    (use : FieldLink) (fetch : Fetch) (constraint : Constraint)
    (h : schema.link level fieldName field use = .ok (fetch, constraint)) :
    ∃ belongs, schema.related engine level.entity field use = some (fetch, belongs) ∧
      ∀ (ownRow : Row V) (scope : Scope V),
        Means engine db (some constraint) ((level.aliasName, ownRow) :: scope)
          (belongs ownRow) := by
  rcases schema.link_eq_ok level fieldName field use fetch constraint h with
    ⟨relation, sides, hrelation, hsides, hways⟩
  have hseen : relation.seenFrom use field.nativeColumnName = some (sides.own, sides.foreign) := by
    rw [relation.endpoints?_eq_seenFrom, Option.map_eq_some_iff] at hsides
    rcases hsides with ⟨_, hseen, rfl⟩
    exact hseen
  rcases hways with ⟨hown, key, hkey, rfl, rfl⟩ | ⟨hown, hforeign, array, harray, rfl, rfl⟩ |
    ⟨hown, hforeign, key, hkey, rfl, rfl⟩
  · refine ⟨_, ?_, fun ownRow scope =>
      means_equals_column engine db .primaryKey level.aliasName key ownRow scope⟩
    simp only [Schema.related, hrelation, hseen, hown, hkey, Option.bind_eq_bind, Option.bind_some,
      Option.pure_def, ChildColumn.nameIn]
  · refine ⟨_, ?_, fun ownRow scope =>
      means_elementOf engine db .primaryKey level.aliasName array _ ownRow scope⟩
    simp only [Schema.related, hrelation, hseen, hown, hforeign, harray, Option.bind_eq_bind,
      Option.bind_some, Option.pure_def, ChildColumn.nameIn]
  · refine ⟨_, ?_, fun ownRow scope =>
      means_equals_column engine db (.named key) level.aliasName _ ownRow scope⟩
    simp only [Schema.related, hrelation, hseen, hown, hforeign, hkey, Option.bind_eq_bind,
      Option.bind_some, Option.pure_def, ChildColumn.nameIn]

/-! ### Levels -/

/-- A level put together from its parts keeps, arranges and cuts the rows of
    its view as its node says, if its columns make the right result of every
    row and its constraint means the right link. -/
theorem assembleLevel_eval (schema : Schema) (fetch : Fetch) (level : Level) (next : Nat)
    (fields : List (String × QueryNode)) (args : List (String × Value))
    (constraint : Option Constraint) (selected : ResolvedFields) (clauses : Guarded Clauses)
    (matching : Predicate) (hselected : resolveFields schema level next fields = .ok selected)
    (hclauses : level.clauses args = .ok clauses)
    (hmatching : matchPredicate constraint level.typeName level.entity level.aliasName =
      .ok matching)
    (scope : Scope V) (belongs : Entity → Row V → Truth)
    (hmeans : Means engine db constraint scope belongs)
    (hscope : ∀ bound ∈ scope.head?, level.aliasName ≠ bound.1)
    (hrow : ∀ row : Row V,
      SelectItem.evalList engine db selected.columns ((level.aliasName, row) :: scope) =
        QueryNode.row engine db schema level.entity row fields) :
    (assembleLevel schema fetch level selected clauses matching).select.eval engine db scope =
      engine.page (rowCount (given args "limit")) (rowCount (given args "offset"))
        (level.entity.arrange engine (given args "orderBy")
          (((db ((RequestLevel.selecting level.entity fields args).view schema)).filter fun row =>
              belongs level.entity row = .yes &&
                level.entity.satisfies engine (given args "where") row).map
            fun row => (row, QueryNode.row engine db schema level.entity row fields))) := by
  have hview := (assembleLevel_view schema fetch level next fields args selected clauses matching
    hselected hclauses).1
  rcases level.clauses_asked args clauses hclauses with
    ⟨⟨filter, hfilter, hpredicate⟩, ⟨sort, hsort, horderBy⟩, hlimit, hoffset⟩
  -- A row is kept if it belongs here and satisfies the filter.
  have hkept : ∀ row : Row V,
      decide ((matching.conj clauses.value.predicate).eval engine db
          ((level.aliasName, row) :: scope) = .yes) =
        (decide (belongs level.entity row = .yes) &&
          level.entity.satisfies engine (given args "where") row) := by
    intro row
    rw [Bool.eq_iff_iff, decide_eq_true_iff, Bool.and_eq_true, decide_eq_true_iff,
      Predicate.eval_conj, Truth.and_eq_yes_iff, hpredicate,
      level.filter_eval engine db _ filter hfilter row scope,
      hmeans _ _ _ matching row hscope hmatching]
  rw [rowCount_of_count _ _ _ hlimit, rowCount_of_count _ _ _ hoffset,
    ← level.sort_eval engine db _ sort hsort _ _ scope, ← horderBy]
  simp only [assembleLevel, Option.some.injEq, Source.view.injEq, and_true] at hview ⊢
  rw [Select.eval_of_rows engine db _ _ _ _ _ _ _ scope
    (resolveFields_aggregates schema level fields next selected hselected), hview]
  simp only [hkept, hrow]

/-- Levels mean what their nodes mean, and the columns of a level make of every
    row what its fields ask for. By induction over the request, for every
    scope at once; all that a level asks of the scope is that the source next
    to it has another alias, which the counter of aliases provides. -/
theorem resolve_eval (schema : Schema) :
    (∀ (node : QueryNode) (authenticated : Bool) (fetch : Fetch) (position : Position)
      (constraint : Option Constraint) (next : Nat) (r : Resolved) (scope : Scope V)
      (belongs : Entity → Row V → Truth),
      resolveLevel schema authenticated fetch position constraint next node = .ok r →
      Means engine db constraint scope belongs →
      (∀ bound ∈ scope.head?, ∃ m < next, bound.1 = localAlias m) →
        r.select.eval engine db scope = node.rows engine db schema belongs) ∧
    ∀ (fields : List (String × QueryNode)) (level : Level) (next : Nat) (r : ResolvedFields)
      (row : Row V) (scope : Scope V),
      resolveFields schema level next fields = .ok r →
      (∃ m < next, level.aliasName = localAlias m) →
        SelectItem.evalList engine db r.columns ((level.aliasName, row) :: scope) =
          QueryNode.row engine db schema level.entity row fields := by
  refine QueryNode.induction ?_ ?_ ?_ ?_
  · intro name aliasName args authenticated fetch position constraint next r scope belongs h
    simp only [resolveLevel, reduceCtorEq] at h
  · intro name aliasName typeName fields more args ih authenticated fetch position constraint next
      r scope belongs h hmeans hscope
    rcases resolveLevel_eq_ok schema authenticated fetch position constraint next name aliasName
      typeName fields more args r h with
      ⟨entity, selected, clauses, matching, hentity, hselected, hclauses, hmatching, rfl⟩
    -- What is bound next to the level has a lower number.
    have hfresh : ∀ bound ∈ scope.head?, localAlias (next + 1) ≠ bound.1 := by
      intro bound hbound heq
      rcases hscope bound hbound with ⟨m, hm, hname⟩
      have := localAlias_injective (next + 1) m (heq.trans hname)
      omega
    rw [assembleLevel_eval engine db schema fetch _ _ fields args constraint selected clauses
      matching hselected hclauses hmatching scope belongs hmeans hfresh
      fun row => ih _ _ selected row scope hselected ⟨next + 1, by omega, rfl⟩]
    simp only [QueryNode.rows, hentity]
  · intro level next r row scope h _
    simp only [resolveFields, Except.ok.injEq] at h
    rw [← h, SelectItem.evalList, QueryNode.row]
  · intro key node rest ihnode ihrest level next r row scope h halias
    rcases resolveFields_cons_eq_ok schema level next key node rest r h with
      ⟨field, hfield, ⟨hrel, others, hothers, rfl⟩ |
        ⟨use, fetch, constraint, below, others, hrel, hlink, hbelow, hothers, rfl⟩⟩
    · have hentityField := ((level.field_eq_ok_iff node.name field).mp hfield).1
      have hcolumn : level.entity.columnOf node.name = field.value.columnName node.name := by
        rw [Entity.columnOf, hentityField]
        rfl
      simp only [QueryNode.row, hentityField, hrel, hcolumn, ResolvedFields.addColumn,
        SelectItem.evalList, SelectItem.outputName, Column.eval_physical_head,
        QueryNode.resultKey, ihrest level next others row scope hothers halias]
    · have hentityField := ((level.field_eq_ok_iff node.name field).mp hfield).1
      rcases schema.link_eval engine db level node.name field.value use fetch constraint hlink with
        ⟨belongs, hrelated, hmeans⟩
      -- The nested level stands next to the row that it is a field of.
      have hrows : below.select.eval engine db ((level.aliasName, row) :: scope) =
          node.rows engine db schema (belongs row) := by
        refine ihnode _ _ _ _ _ below _ _ hbelow (hmeans row scope) fun bound hbound => ?_
        simp only [List.head?_cons, Option.mem_def, Option.some.injEq] at hbound
        rw [← hbound]
        exact halias
      -- The fields after the nested level start from a higher number still.
      have halias' : ∃ m < below.next, level.aliasName = localAlias m := by
        rcases halias with ⟨m, hm, hname⟩
        have hnext := (resolve_next schema).1 node _ _ _ _ _ below hbelow
        exact ⟨m, by omega, hname⟩
      simp only [QueryNode.row, hentityField, hrel, hrelated, ResolvedFields.addLevel,
        levelColumn_eval, QueryNode.resultKey, hrows,
        ihrest level below.next others row scope hothers halias']

/-- Compiled queries mean what their requests mean. Whatever the engine does
    with values and rows, and whatever the views hold, the statement of a
    compiled query returns the answer to the request, for all callers and with
    or without a value that the outermost rows are matched with. -/
theorem compileQuery_eval (schema : Schema) (minDepth : Nat) (authenticated : Bool)
    (anchor : Option (ChildColumn × Value)) (node : QueryNode) (c : CompiledQuery)
    (h : schema.compileQuery minDepth authenticated
      (anchor.map fun a => .equals a.1 (.value a.2)) node = .ok c) :
    c.statement.eval engine db [] = node.answer engine db schema anchor := by
  simp only [Schema.compileQuery, bind_eq_ok_iff, pure, Except.pure, Except.ok.injEq] at h
  rcases h with ⟨r, hr, rfl⟩
  have hrows : r.select.eval engine db [] = node.rows engine db schema (belongsTo engine anchor) :=
    (resolve_eval engine db schema).1 node _ _ _ _ _ r [] _ hr (means_belongsTo engine db anchor [])
      fun bound hbound => absurd hbound (Option.not_mem_none bound)
  rw [Select.eval_expression engine db _ [] rfl, levelColumn_eval, hrows, SelectItem.evalList,
    QueryNode.answer, QueryNode.resultKey]

end Eval

/-- Asked for the user 1, the blog answers with two titles of hers, the last one
    first. The values of the request are compared as texts, with the numbers in
    their JSON form, and the results stand under the names that the request
    gives to them. -/
theorem compileQuery_eval_blog :
    ∃ c, Blog.schema.compileQuery 3 true
        (some (.equals .primaryKey (.value (.int 1)))) Blog.works = .ok c ∧
      c.statement.eval Blog.engine Blog.database [] =
        [[("people", .array [.object [("name", .string "Ada"),
          ("works", .array [
            .object [("title", .string "Numbers"), ("author", .object [("name", .string "Ada")])],
            .object [("title", .string "Engines"),
              ("author", .object [("name", .string "Ada")])]])]])]] := by
  have hcompiles : ∃ c, Blog.schema.compileQuery 3 true
      (some (.equals .primaryKey (.value (.int 1)))) Blog.works = .ok c := ⟨_, rfl⟩
  rcases hcompiles with ⟨c, hc⟩
  refine ⟨c, hc, ?_⟩
  rw [compileQuery_eval Blog.engine Blog.database Blog.schema 3 true
    (some (.primaryKey, .int 1)) Blog.works c hc]
  rfl

end ViewCompiler
