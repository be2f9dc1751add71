import ViewCompiler.Proofs.Places
import ViewCompiler.Proofs.Responses
import ViewCompiler.Proofs.Visits

/-!
# Conditions in Normal Form

What becomes of constants in a conjunction, and when a level is written without a
condition.

A conjunction leaves out what every row satisfies, and is nothing but what no row
satisfies as soon as one of its parts is that. So constants do not occur below other
conditions: a predicate is *normal* if it is a constant or has none. A condition of SQL has
three truth values, and leaving constants out must not change which one it has. The value of
a predicate is taken under any valuation of its comparisons, so nothing depends on how
columns are compared.

The filter of a level is put together by conjunctions alone, from comparisons that are never
constants. It is therefore the predicate that every row satisfies exactly if it compares
nothing at all, and this is the one predicate that is not written. A level whose rows are
matched always has a comparison of its own. `Settled` is the invariant that carries this
from a single operator to the whole statement: a predicate that has no constant and nothing
that cannot be compared, unless every row satisfies it.

## Main definitions

* `Predicate.Normal`, `Predicate.WellPosed`: Predicates without constants inside, and
  without comparisons that cannot be made.
* `Predicate.valueUnder`, `Truth.all`: Values of predicates and of lists.
* `Predicate.Comparing`, `Predicate.Settled`: The predicates of compiled statements.
* `Select.Unconditional`: Selects that are written without a condition.
* `FilterCompares`: Filters that compare something.

## Theorems

* `Predicate.conj_cases`: What a conjunction of two is.
* `Predicate.all_induction`, `Predicate.valueUnder_all`, `Predicate.all_eq_always_iff`: The
  conjunction of a list.
* `Operator.predicate_comparing`, `Level.filter_settled`, `matchPredicate_settled`: The
  conditions of a level.
* `resolve_settled`: The predicates of all selects.
* `compile_conditions`: All of it, for compiled queries and mutations.
-/

namespace ViewCompiler

open Json Sql Schema

namespace Sql

/-! ### Truth values -/

namespace Truth

/-- The conjunction of a list of truth values: one that is false makes it false, and
    otherwise one that is unknown makes it unknown. -/
def all (ts : List Truth) : Truth :=
  if .no ∈ ts then .no else if .unknown ∈ ts then .unknown else .yes

theorem all_cons (t : Truth) (ts : List Truth) : all (t :: ts) = t.and (all ts) := by
  unfold all
  by_cases hno : Truth.no ∈ ts <;> by_cases hunknown : Truth.unknown ∈ ts <;> cases t <;>
    simp [hno, hunknown, Truth.and]

theorem and_assoc (s t u : Truth) : (s.and t).and u = s.and (t.and u) := by
  cases s <;> cases t <;> cases u <;> rfl

end Truth

/-! ### Normal predicates -/

namespace Predicate

/-- A predicate in which no constant occurs. -/
def ConstantFree : Predicate → Prop
  | .always => False
  | .never => False
  | .and left right => left.ConstantFree ∧ right.ConstantFree
  | _ => True

/-- A predicate that is a constant, or in which none occurs. -/
def Normal (p : Predicate) : Prop :=
  p = .always ∨ p = .never ∨ p.ConstantFree

/-- The value of a predicate, if its comparisons have the given ones. -/
def valueUnder (valuation : Predicate → Truth) : Predicate → Truth
  | .always => .yes
  | .never => .no
  | .and left right => (left.valueUnder valuation).and (right.valueUnder valuation)
  | comparison => valuation comparison

/-- What a conjunction of two is: nothing, if one of them is; one of them, if every row
    satisfies the other; and otherwise both. -/
theorem conj_cases (p q : Predicate) :
    ((p = .never ∨ q = .never) ∧ p.conj q = .never) ∨ (p = .always ∧ p.conj q = q) ∨
      (q = .always ∧ p.conj q = p) ∨
      (p ≠ .never ∧ p ≠ .always ∧ q ≠ .never ∧ q ≠ .always ∧ p.conj q = .and p q) := by
  unfold Predicate.conj
  split
  · exact Or.inl ⟨Or.inl rfl, rfl⟩
  · exact Or.inl ⟨Or.inr rfl, rfl⟩
  · exact Or.inr (Or.inl ⟨rfl, rfl⟩)
  · exact Or.inr (Or.inr (Or.inl ⟨rfl, rfl⟩))
  · rename_i hpnever hpalways hqnever hqalways
    exact Or.inr (Or.inr (Or.inr ⟨hpnever, hpalways, hqnever, hqalways, rfl⟩))

theorem Normal.conj {p q : Predicate} (hp : p.Normal) (hq : q.Normal) : (p.conj q).Normal := by
  rcases conj_cases p q with ⟨_, hconj⟩ | ⟨_, hconj⟩ | ⟨_, hconj⟩ |
    ⟨hpnever, hpalways, hqnever, hqalways, hconj⟩
  · exact Or.inr (Or.inl hconj)
  · rw [hconj]
    exact hq
  · rw [hconj]
    exact hp
  -- Neither part is a constant, so both are without.
  · have hpfree := (hp.resolve_left hpalways).resolve_left hpnever
    have hqfree := (hq.resolve_left hqalways).resolve_left hqnever
    rw [hconj]
    exact Or.inr (Or.inr ⟨hpfree, hqfree⟩)

theorem valueUnder_conj (valuation : Predicate → Truth) (p q : Predicate) :
    (p.conj q).valueUnder valuation = (p.valueUnder valuation).and (q.valueUnder valuation) := by
  rcases conj_cases p q with ⟨rfl | rfl, hconj⟩ | ⟨rfl, hconj⟩ | ⟨rfl, hconj⟩ |
    ⟨_, _, _, _, hconj⟩ <;> rw [hconj, valueUnder]
  · rw [Truth.no_and]
  · rw [Truth.and_no]
  · rw [Truth.yes_and]
  · rw [Truth.and_yes]

theorem conj_eq_always_iff (p q : Predicate) :
    p.conj q = .always ↔ p = .always ∧ q = .always := by
  rcases conj_cases p q with ⟨rfl | rfl, hconj⟩ | ⟨rfl, hconj⟩ | ⟨rfl, hconj⟩ |
    ⟨_, hpalways, _, _, hconj⟩ <;> rw [hconj]
  · simp only [reduceCtorEq, false_and]
  · simp only [reduceCtorEq, and_false]
  · simp only [true_and]
  · simp only [and_true]
  · simp only [reduceCtorEq, hpalways, false_and]

/-- What a conjunction keeps, the conjunction of a list does. -/
theorem all_induction {P : Predicate → Prop} (halways : P .always)
    (hconj : ∀ p q, P p → P q → P (p.conj q)) (predicates : List Predicate)
    (h : ∀ p ∈ predicates, P p) : P (Predicate.all predicates) := by
  suffices hfold : ∀ start : Predicate, P start → P (predicates.foldl Predicate.conj start) from
    hfold _ halways
  induction predicates with
  | nil => exact fun start hstart => hstart
  | cons p rest ih =>
      intro start hstart
      exact ih (fun q hq => h q (List.mem_cons_of_mem p hq)) _
        (hconj start p hstart (h p List.mem_cons_self))

/-- A conjunction has the value of all its parts together. -/
theorem valueUnder_all (valuation : Predicate → Truth) (predicates : List Predicate) :
    (Predicate.all predicates).valueUnder valuation =
      Truth.all (predicates.map (valueUnder valuation)) := by
  suffices hfold : ∀ start : Predicate,
      (predicates.foldl Predicate.conj start).valueUnder valuation =
        (start.valueUnder valuation).and (Truth.all (predicates.map (valueUnder valuation))) by
    rw [Predicate.all, hfold, valueUnder, Truth.yes_and]
  induction predicates with
  | nil => exact fun start => (Truth.and_yes _).symm
  | cons p rest ih =>
      intro start
      rw [List.foldl_cons, ih, valueUnder_conj, List.map_cons, Truth.all_cons, Truth.and_assoc]

/-- A conjunction restricts nothing only if none of its parts does. -/
theorem all_eq_always_iff (predicates : List Predicate) :
    Predicate.all predicates = .always ↔ ∀ p ∈ predicates, p = .always := by
  suffices hfold : ∀ start : Predicate, predicates.foldl Predicate.conj start = .always ↔
      start = .always ∧ ∀ p ∈ predicates, p = .always by
    rw [Predicate.all, hfold]
    exact and_iff_right rfl
  induction predicates with
  | nil => exact fun start => ⟨fun h => ⟨h, fun p hp => absurd hp List.not_mem_nil⟩, And.left⟩
  | cons p rest ih =>
      intro start
      rw [List.foldl_cons, ih, conj_eq_always_iff, and_assoc, List.forall_mem_cons]

end Predicate

/-! ### Comparisons that can be made -/

/-- A column that is `NULL` in every row: the word itself, or a parameter without a value. -/
def Column.isMissing : Column → Bool
  | .null => true
  | .param (.text none) => true
  | _ => false

namespace Predicate

/-- A predicate whose comparisons can all be made: none is for equality or difference with
    `NULL`, and none is with the elements of an empty list. -/
def WellPosed : Predicate → Prop
  | .compare op left right =>
      op = .eq ∨ op = .neq → left.isMissing = false ∧ right.isMissing = false
  | .isIn _ elements => elements ≠ []
  | .and left right => left.WellPosed ∧ right.WellPosed
  | _ => True

/-- A conjunction of comparisons that can be made. -/
structure Comparing (p : Predicate) : Prop where
  constantFree : p.ConstantFree
  wellPosed : p.WellPosed

/-- A predicate that every row satisfies, or a conjunction of comparisons. -/
def Settled (p : Predicate) : Prop :=
  p = .always ∨ p.Comparing

theorem Comparing.ne_always {p : Predicate} (h : p.Comparing) : p ≠ .always := by
  rintro rfl
  exact h.constantFree

theorem Settled.normal {p : Predicate} (h : p.Settled) : p.Normal :=
  h.imp_right fun hcomparing => Or.inr hcomparing.constantFree

theorem Settled.wellPosed {p : Predicate} (h : p.Settled) : p.WellPosed := by
  rcases h with rfl | hcomparing
  · trivial
  · exact hcomparing.wellPosed

theorem Settled.ne_never {p : Predicate} (h : p.Settled) : p ≠ .never := by
  rintro rfl
  rcases h with halways | hcomparing
  · simp only [reduceCtorEq] at halways
  · exact hcomparing.constantFree

theorem Settled.conj {p q : Predicate} (hp : p.Settled) (hq : q.Settled) : (p.conj q).Settled := by
  rcases conj_cases p q with ⟨hnever | hnever, _⟩ | ⟨_, hconj⟩ | ⟨_, hconj⟩ |
    ⟨_, hpalways, _, hqalways, hconj⟩
  · exact absurd hnever hp.ne_never
  · exact absurd hnever hq.ne_never
  · rw [hconj]
    exact hq
  · rw [hconj]
    exact hp
  · have hpcompares := hp.resolve_left hpalways
    have hqcompares := hq.resolve_left hqalways
    rw [hconj]
    exact Or.inr ⟨⟨hpcompares.constantFree, hqcompares.constantFree⟩,
      ⟨hpcompares.wellPosed, hqcompares.wellPosed⟩⟩

theorem comparing_equal (left right : Column) (hleft : left.isMissing = false)
    (hright : right = .null ∨ right.isMissing = false) :
    (Predicate.equal left right).Comparing ∧ (Predicate.notEqual left right).Comparing := by
  rcases hright with rfl | hright
  · exact ⟨⟨trivial, trivial⟩, ⟨trivial, trivial⟩⟩
  -- Anything but the word itself is compared.
  · cases right with
    | null => simp only [Column.isMissing, Bool.true_eq_false] at hright
    | _ => exact ⟨⟨trivial, fun _ => ⟨hleft, hright⟩⟩, ⟨trivial, fun _ => ⟨hleft, hright⟩⟩⟩

end Predicate

/-! ### Conditions that are written -/

/-- A select that is written without a condition: nothing stands between its source and its
    sort. -/
def Select.Unconditional (s : Select) : Prop :=
  s.pieces true = .text "SELECT " :: (separated ", " (SelectItem.portions true s.columns) ++
    fromPieces true s.source ++ sortPieces true s.orderBy ++
    clausePieces (s.limit.map limitPieces) ++ clausePieces (s.offset.map offsetPieces))

theorem wherePieces_eq_nil_iff (p : Predicate) (condition : List Piece) :
    wherePieces p.isAlways condition = [] ↔ p = .always := by
  cases p <;> simp [wherePieces, Predicate.isAlways]

/-- The condition that is left out is the one that every row satisfies. -/
theorem Select.unconditional_iff (s : Select) : s.Unconditional ↔ s.predicate = .always := by
  rcases s with ⟨columns, source, predicate, orderBy, limit, offset⟩
  rw [Select.Unconditional, Select.pieces_eq]
  simp only [List.cons.injEq, true_and, List.append_assoc, List.append_cancel_left_eq]
  rw [List.append_left_eq_self, wherePieces_eq_nil_iff]

end Sql

/-! ### The conditions of a level -/

theorem literal_isMissing (v : Value) : literal v = .null ∨ (literal v).isMissing = false := by
  rcases literal_cases v with hnull | ⟨text, htext⟩
  · exact Or.inl hnull
  · rw [htext]
    exact Or.inr rfl

/-- Whatever the operator, it compares. -/
theorem Operator.predicate_comparing (op : Operator) (fieldName : String) (operand : Value)
    (column : Column) (hcolumn : column.isMissing = false) (p : Predicate)
    (h : op.predicate fieldName operand column = .ok p) : p.Comparing := by
  have hequal :=
    Predicate.comparing_equal column (literal operand) hcolumn (literal_isMissing operand)
  have hscalar : ∀ (op' : Operator) (comparison : Comparison),
      comparison ≠ .eq → comparison ≠ .neq →
      (scalarOperand op' fieldName operand).map (Predicate.compare comparison column) = .ok p →
        p.Comparing := by
    intro op' comparison heq hneq hp
    rcases (map_eq_ok_iff _ _ _).mp hp with ⟨right, _, rfl⟩
    exact ⟨trivial, fun hequality => absurd hequality (by simp only [heq, hneq, or_self,
      not_false_eq_true])⟩
  cases op with
  | eq =>
      rw [← Except.ok.inj h]
      exact hequal.1
  | neq =>
      rw [← Except.ok.inj h]
      exact hequal.2
  | gt => exact hscalar .gt .gt nofun nofun h
  | gte => exact hscalar .gte .gte nofun nofun h
  | lt => exact hscalar .lt .lt nofun nofun h
  | lte => exact hscalar .lte .lte nofun nofun h
  | isIn =>
      simp only [Operator.predicate] at h
      split at h
      · rename_i v vs
        rcases (map_eq_ok_iff _ _ _).mp h with ⟨elements, helements, rfl⟩
        -- There is an element for every item of the list, which is not empty.
        cases elements with
        | nil => cases (mapM_eq_ok_iff _ _ _).mp helements
        | cons first more => exact ⟨trivial, List.cons_ne_nil _ _⟩
      · simp only [reduceCtorEq] at h
  | isNull =>
      simp only [Operator.predicate] at h
      split at h <;> simp only [reduceCtorEq, Except.ok.injEq] at h <;> rw [← h]
      · exact ⟨trivial, trivial⟩
      · exact ⟨trivial, trivial⟩

/-- The conjunction of what is made of the items of a list is settled if each of them is,
    and restricts nothing exactly if none of them does. -/
theorem Guarded.all_settled {α : Type} (f : α → Except Failure (Guarded Predicate))
    (Idle : α → Prop)
    (hf : ∀ a g, f a = .ok g → g.value.Settled ∧ (g.value = .always ↔ Idle a))
    (as : List α) (gs : List (Guarded Predicate)) (h : as.mapM f = .ok gs) :
    (Guarded.all gs).value.Settled ∧ ((Guarded.all gs).value = .always ↔ ∀ a ∈ as, Idle a) := by
  constructor
  · refine Predicate.all_induction (Or.inl rfl) (fun p q => Predicate.Settled.conj) _ fun p hp => ?_
    rcases List.mem_map.mp hp with ⟨g, hg, rfl⟩
    rcases exists_of_mem_mapM f as gs h g hg with ⟨a, _, ha⟩
    exact (hf a g ha).1
  · rw [mapM_eq_ok_iff] at h
    rw [Guarded.all, Predicate.all_eq_always_iff]
    induction h with
    | nil => simp only [List.map_nil, List.not_mem_nil, false_implies, implies_true]
    | cons hag _ ih => rw [List.map_cons, List.forall_mem_cons, List.forall_mem_cons, ih,
        (hf _ _ hag).2]

/-- A filter compares something if one of its conditions has a value, or an operator. -/
def FilterCompares (v : Value) : Prop :=
  ∃ conditions, v = .object conditions ∧ ∃ entry ∈ conditions, entry.2 ≠ .object []

namespace Level

theorem column_isMissing (level : Level) (name : String) (g : Guarded Column)
    (h : level.column name = .ok g) : g.value.isMissing = false := by
  rcases (level.column_eq_ok_iff name g).mp h with ⟨_, _, _, _, _, hvalue⟩
  rw [hvalue]
  rfl

theorem operation_comparing (level : Level) (fieldName : String) (operation : String × Value)
    (g : Guarded Predicate) (h : level.operation fieldName operation = .ok g) :
    g.value.Comparing := by
  rcases level.operation_eq_ok fieldName operation g h with ⟨column, op, p, hcolumn, _, hp, rfl⟩
  exact op.predicate_comparing fieldName operation.2 column.value
    (level.column_isMissing fieldName column hcolumn) p hp

/-- A condition compares unless it is an object without operators. -/
theorem condition_settled (level : Level) (entry : String × Value) (g : Guarded Predicate)
    (h : level.condition entry = .ok g) :
    g.value.Settled ∧ (g.value = .always ↔ entry.2 = .object []) := by
  rcases level.condition_eq_ok entry g h with
    ⟨operations, gs, hobject, hgs, rfl⟩ | ⟨hvalue, column, hcolumn, rfl⟩
  · have hall := Guarded.all_settled (level.operation entry.1) (fun _ => False)
      (fun operation g hg => by
        have hcompares := level.operation_comparing entry.1 operation g hg
        exact ⟨Or.inr hcompares, iff_false_intro hcompares.ne_always⟩) operations gs hgs
    refine ⟨hall.1, hall.2.trans ?_⟩
    rw [hobject, Value.object.injEq, List.eq_nil_iff_forall_not_mem]
  · have hequal := (Predicate.comparing_equal column.value (literal entry.2)
      (level.column_isMissing entry.1 column hcolumn) (literal_isMissing entry.2)).1
    exact ⟨Or.inr hequal, iff_of_false hequal.ne_always (hvalue [])⟩

/-- A filter restricts nothing exactly if it compares nothing. -/
theorem filter_settled (level : Level) (v : Value) (g : Guarded Predicate)
    (h : level.filter v = .ok g) :
    g.value.Settled ∧ (g.value = .always ↔ ¬ FilterCompares v) := by
  rcases level.filter_eq_ok v g h with ⟨rfl, rfl⟩ | ⟨conditions, gs, rfl, hgs, rfl⟩
  · refine ⟨Or.inl rfl, iff_of_true rfl ?_⟩
    rintro ⟨conditions, hobject, _⟩
    simp only [reduceCtorEq] at hobject
  · have hall := Guarded.all_settled level.condition (fun entry => entry.2 = .object [])
      level.condition_settled conditions gs hgs
    refine ⟨hall.1, hall.2.trans ?_⟩
    unfold FilterCompares
    constructor
    · rintro hidle ⟨_, hobject, entry, hentry, hcompares⟩
      rw [← Value.object.inj hobject] at hentry
      exact hcompares (hidle entry hentry)
    · intro hnothing entry hentry
      by_contra hcompares
      exact hnothing ⟨conditions, rfl, entry, hentry, hcompares⟩

end Level

/-- A constraint always compares. -/
theorem matchPredicate_settled (constraint : Option Constraint) (typeName : String)
    (entity : Entity) (aliasName : String) (p : Predicate)
    (h : matchPredicate constraint typeName entity aliasName = .ok p) :
    p.Settled ∧ (p = .always ↔ constraint = none) := by
  cases constraint with
  | none =>
      rw [← Except.ok.inj h]
      exact ⟨Or.inl rfl, iff_of_true rfl rfl⟩
  | some c =>
      have hcompares : p.Comparing := by
        cases c with
        | equals child operand =>
            simp only [matchPredicate, Constraint.predicate, bind_eq_ok_iff, pure, Except.pure,
              Except.ok.injEq] at h
            rcases h with ⟨column, hcolumn, rfl⟩
            rw [child.toColumn_eq_ok typeName entity aliasName column hcolumn]
            refine (Predicate.comparing_equal _ _ rfl ?_).1
            cases operand with
            | column tableAlias name => exact Or.inr rfl
            | value v => exact literal_isMissing v
        | elementOf tableAlias arrayColumn child elementType =>
            simp only [matchPredicate, Constraint.predicate, bind_eq_ok_iff, pure, Except.pure,
              Except.ok.injEq] at h
            rcases h with ⟨column, _, rfl⟩
            exact ⟨trivial, fun hequality => absurd hequality (by decide)⟩
      exact ⟨Or.inr hcompares, iff_of_false hcompares.ne_always (Option.some_ne_none c)⟩

/-- The predicate of a level, put together from its constraint and its filter. -/
theorem assembleLevel_settled (schema : Schema) (fetch : Fetch) (level : Level)
    (args : List (String × Value)) (constraint : Option Constraint) (selected : ResolvedFields)
    (clauses : Guarded Clauses) (matching : Predicate) (hclauses : level.clauses args = .ok clauses)
    (hmatching : matchPredicate constraint level.typeName level.entity level.aliasName =
      .ok matching) :
    let select := (assembleLevel schema fetch level selected clauses matching).select
    select.predicate.Settled ∧
      (select.predicate = .always ↔
        constraint = none ∧ ¬ FilterCompares (given args "where")) := by
  intro select
  have hmatched := matchPredicate_settled constraint _ _ _ matching hmatching
  rcases (level.clauses_asked args clauses hclauses).predicate with ⟨g, hg, hpredicate⟩
  have hfiltered := level.filter_settled _ g hg
  rw [← hpredicate] at hfiltered
  refine ⟨hmatched.1.conj hfiltered.1, ?_⟩
  change matching.conj clauses.value.predicate = .always ↔ _
  rw [Predicate.conj_eq_always_iff, hmatched.2, hfiltered.2]

/-! ### All selects of a statement -/

/-- The select around the rows of a level adds no condition. -/
theorem levelColumn_settled (fetch : Fetch) (aliasName : String) (rows : Select)
    (resultKey : String) (hrows : ∀ s ∈ rows.selects, s.predicate.Settled) :
    ∀ s ∈ (levelColumn fetch aliasName rows resultKey).selects, s.predicate.Settled := by
  intro s hs
  rw [levelColumn, SelectItem.selects, Column.selects, asJson_selects] at hs
  rcases List.mem_cons.mp hs with rfl | hs
  · exact Or.inl rfl
  · exact hrows s hs

/-- The predicates of all selects are settled. By induction on the request, one level at a
    time. -/
theorem resolve_settled (schema : Schema) :
    (∀ (node : QueryNode) (authenticated : Bool) (fetch : Fetch) (position : Position)
        (constraint : Option Constraint) (next : Nat) (r : Resolved),
      resolveLevel schema authenticated fetch position constraint next node = .ok r →
        ∀ s ∈ r.select.selects, s.predicate.Settled) ∧
    ∀ (fields : List (String × QueryNode)) (level : Level) (next : Nat) (r : ResolvedFields),
      resolveFields schema level next fields = .ok r →
        ∀ s ∈ SelectItem.selectsOfList r.columns, s.predicate.Settled := by
  refine QueryNode.induction ?_ ?_ ?_ ?_
  · intro name aliasName args authenticated fetch position constraint next r h
    simp only [resolveLevel, reduceCtorEq] at h
  · intro name aliasName typeName fields more args ih authenticated fetch position constraint next
      r h s hs
    rcases resolveLevel_eq_ok schema authenticated fetch position constraint next name aliasName
      typeName fields more args r h with
      ⟨entity, selected, clauses, matching, _, hselected, hclauses, hmatching, rfl⟩
    rw [assembleLevel_selects schema fetch _ args constraint selected clauses matching hclauses
      hmatching] at hs
    rcases List.mem_cons.mp hs with rfl | hs
    · exact (assembleLevel_settled schema fetch _ args constraint selected clauses matching hclauses
        hmatching).1
    · exact ih _ _ selected hselected s hs
  · intro level next r h s hs
    rw [resolveFields, Except.ok.injEq] at h
    rw [← h] at hs
    exact absurd hs List.not_mem_nil
  · intro key node rest ihnode ihrest level next r h s hs
    rcases resolveFields_cons_eq_ok schema level next key node rest r h with
      ⟨field, _, ⟨_, others, hothers, rfl⟩ | ⟨use, fetch, constraint, below, others, _, _, hbelow,
        hothers, rfl⟩⟩
    · simp only [ResolvedFields.addColumn, SelectItem.selectsOfList, SelectItem.selects,
        Column.selects, List.nil_append] at hs
      exact ihrest level next others hothers s hs
    · simp only [ResolvedFields.addLevel, SelectItem.selectsOfList, List.mem_append] at hs
      rcases hs with hnode | hrest
      · exact levelColumn_settled fetch _ below.select _ (ihnode _ _ _ _ _ below hbelow) s hnode
      · exact ihrest level below.next others hothers s hrest

theorem compileQuery_settled (schema : Schema) (minDepth : Nat) (authenticated : Bool)
    (constraint : Option Constraint) (node : QueryNode) (c : CompiledQuery)
    (h : schema.compileQuery minDepth authenticated constraint node = .ok c) :
    ∀ s ∈ c.statement.selects, s.predicate.Settled := by
  simp only [Schema.compileQuery, bind_eq_ok_iff, pure, Except.pure, Except.ok.injEq] at h
  rcases h with ⟨r, hr, rfl⟩
  intro s hs
  simp only [Select.expression, Select.selects, SelectItem.selectsOfList, Source.selectsOfOption,
    Predicate.selects, OrderTerm.selectsOfOption, List.append_nil] at hs
  rcases List.mem_cons.mp hs with rfl | hs
  · exact Or.inl rfl
  · exact levelColumn_settled _ _ r.select _
      ((resolve_settled schema).1 node _ _ _ _ _ r hr) s hs

/-- The condition of a mutation compares the identifier. -/
theorem compileMutation_comparing (schema : Schema) (request : MutationRequest)
    (cm : CompiledMutation) (h : schema.compileMutation request = .ok cm) (p : Predicate)
    (hp : p ∈ cm.statement.predicate?) : p.Comparing := by
  cases hmutation : schema.mutation? request.name with
  | none =>
      unfold Schema.compileMutation at h
      rw [hmutation] at h
      simp only [throw, throwThe, MonadExceptOf.throw, reduceCtorEq] at h
  | some mutation =>
      rcases schema.entity_of_compileMutation request mutation cm hmutation h with ⟨entity, hentity⟩
      rw [schema.compileMutation_known request mutation entity hmutation hentity, map_eq_ok_iff]
        at h
      rcases h with ⟨s, hs, rfl⟩
      have hidentifies : mutation.kind = .update ∨ mutation.kind = .delete → p.Comparing := by
        intro hkind
        rcases MutationTarget.statement_identifies _ request.input mutation.kind hkind s hs with
          ⟨_, text, _, _, hpredicate, _⟩
        rw [Option.mem_def, hpredicate, Option.some.injEq] at hp
        rw [← hp]
        exact ⟨trivial, fun _ => ⟨rfl, rfl⟩⟩
      -- A statement that adds a row has no condition.
      cases hkind : mutation.kind with
      | create =>
          rw [hkind] at hs
          rcases (map_eq_ok_iff _ _ _).mp hs with ⟨insert, _, rfl⟩
          exact absurd hp (Option.not_mem_none p)
      | update => exact hidentifies (Or.inl hkind)
      | delete => exact hidentifies (Or.inr hkind)
      | unsupported =>
          rw [hkind] at hs
          simp only [MutationTarget.statement, reduceCtorEq] at hs

/-- Conditions are kept in normal form. A conjunction of normal predicates is normal, has the
    value of all its parts together whatever their comparisons yield, and restricts nothing
    only if none of its parts does. In compiled queries and mutations all conditions are
    normal, and all their comparisons can be made. A level of a query is written without a
    condition exactly if its rows are not matched with anything, and its filter compares
    nothing. -/
theorem compile_conditions :
    (∀ predicates : List Predicate,
      ((∀ p ∈ predicates, p.Normal) → (Predicate.all predicates).Normal) ∧
      (∀ valuation, (Predicate.all predicates).valueUnder valuation =
        Truth.all (predicates.map (Predicate.valueUnder valuation))) ∧
      (Predicate.all predicates = .always ↔ ∀ p ∈ predicates, p = .always)) ∧
    (∀ p q : Predicate, p.conj q = Predicate.all [p, q]) ∧
    (∀ (schema : Schema) (minDepth : Nat) (authenticated : Bool) (constraint : Option Constraint)
      (node : QueryNode) (c : CompiledQuery),
      schema.compileQuery minDepth authenticated constraint node = .ok c →
        (∀ s ∈ c.statement.selects, s.predicate.Normal ∧ s.predicate.WellPosed) ∧
        ∀ contexts v, (Visit.outermost constraint node).Reaches schema authenticated contexts v →
          ∃ level fields restricted, v.Opens schema authenticated level fields ∧
            ∃ s ∈ c.statement.selects,
              s.source = some (.view ⟨schema.entityViewSchema level.entity,
                level.entity.viewName restricted⟩ level.aliasName) ∧
              (s.Unconditional ↔
                v.constraint = none ∧ ¬ FilterCompares (given v.node.args "where"))) ∧
    ∀ (schema : Schema) (request : MutationRequest) (cm : CompiledMutation),
      schema.compileMutation request = .ok cm →
        ∀ p ∈ cm.statement.predicate?, p.Normal ∧ p.WellPosed := by
  refine ⟨fun predicates => ⟨?_, ?_, ?_⟩, ?_, ?_, ?_⟩
  · exact Predicate.all_induction (Or.inl rfl) (fun p q => Predicate.Normal.conj) predicates
  · exact fun valuation => Predicate.valueUnder_all valuation predicates
  · exact Predicate.all_eq_always_iff predicates
  · intro p q
    cases p <;> rfl
  · intro schema minDepth authenticated constraint node c hc
    constructor
    · intro s hs
      have hsettled := compileQuery_settled schema minDepth authenticated constraint node c hc s hs
      exact ⟨hsettled.normal, hsettled.wellPosed⟩
    · intro contexts v hway
      rcases compileQuery_reaches hc hway with ⟨r, hr, hmem⟩
      rcases Visit.resolve_eq_ok hr with
        ⟨level, fields, selected, clauses, matching, hopens, _, hclauses, hmatching, rfl⟩
      refine ⟨level, fields, _, hopens, _, hmem, rfl, ?_⟩
      rw [Select.unconditional_iff]
      exact (assembleLevel_settled schema v.fetch level v.node.args v.constraint selected clauses
        matching hclauses hmatching).2
  · intro schema request cm hcm p hp
    have hcomparing := compileMutation_comparing schema request cm hcm p hp
    exact ⟨Or.inr (Or.inr hcomparing.constantFree), hcomparing.wellPosed⟩

namespace Blog

/-- The posts of all users, of whose names nothing is required. -/
def idle : QueryNode where
  name := "users"
  aliasName := none
  fieldsByTypeName := [("User", [
    ("posts", ⟨"posts", none, [("Post", [leaf "title"])], []⟩)])]
  args := [("where", .object [("name", .object [])])]

end Blog

/-- A filter that compares nothing leaves the users without a condition, while their posts
    have one without any filter. -/
theorem compile_conditions_idle :
    ∃ c cm, Blog.schema.compileQuery 3 false none Blog.idle = .ok c ∧
      Blog.editable.compileMutation Blog.rename = .ok cm ∧
      (Predicate.all [.always, .isNull (.physical "u" "name"), .never]).Normal ∧
      (∀ s ∈ c.statement.selects, s.predicate.Normal ∧ s.predicate.WellPosed) ∧
      (∃ s ∈ c.statement.selects, (∃ view, s.source = some (.view view (localAlias 1))) ∧
        s.Unconditional) ∧
      (∃ s ∈ c.statement.selects, (∃ view, s.source = some (.view view (localAlias 3))) ∧
        ¬ s.Unconditional) ∧
      ∃ p ∈ cm.statement.predicate?, p.Normal ∧ p.WellPosed := by
  have hquery : ∃ c, Blog.schema.compileQuery 3 false none Blog.idle = .ok c := ⟨_, rfl⟩
  have hmutation : ∃ cm p, Blog.editable.compileMutation Blog.rename = .ok cm ∧
      p ∈ cm.statement.predicate? := ⟨_, _, rfl, rfl⟩
  rcases hquery with ⟨c, hc⟩
  rcases hmutation with ⟨cm, p, hcm, hp⟩
  rcases compile_conditions with ⟨hall, _, hqueries, hmutations⟩
  rcases hqueries Blog.schema 3 false none Blog.idle c hc with ⟨hselects, hlevels⟩
  let users : Level := ⟨"User", Blog.user, localAlias 1, false⟩
  let posts : QueryNode := ⟨"posts", none, [("Post", [Blog.leaf "title"])], []⟩
  have hopens : (Visit.outermost none Blog.idle).Opens Blog.schema false users
      [("posts", posts)] := ⟨rfl, rfl, rfl, rfl⟩
  have hstep : (Visit.outermost none Blog.idle).Descends Blog.schema false
      "while resolving 'User.posts'" ⟨posts, .aggregation, .nested,
        some (.equals (.named "author_id") (.column (localAlias 1) "id")), 2⟩ :=
    .relation _ users posts 2 _ _ ⟨[], "posts", [], ⟨[], [], false, false, 2⟩, hopens, rfl, rfl⟩
      ⟨_, _, rfl, rfl, rfl⟩
  have hidle : ¬ FilterCompares (.object [("name", .object [])]) := by
    rintro ⟨conditions, hobject, entry, hentry, hcompares⟩
    rw [← Value.object.inj hobject] at hentry
    rw [List.mem_singleton.mp hentry] at hcompares
    exact hcompares rfl
  refine ⟨c, cm, hc, hcm, (hall _).1 ?_, hselects, ?_, ?_, p, hp, hmutations _ _ cm hcm p hp⟩
  · simp only [List.forall_mem_cons, List.not_mem_nil, false_implies, implies_true, and_true]
    exact ⟨Or.inl rfl, Or.inr (Or.inr trivial), Or.inr (Or.inl rfl)⟩
  · rcases hlevels [] _ (.refl _) with ⟨level, _, _, hlevel, s, hs, hsource, hcondition⟩
    rw [hlevel.aliasName] at hsource
    exact ⟨s, hs, ⟨_, hsource⟩, hcondition.mpr ⟨rfl, hidle⟩⟩
  · rcases hlevels _ _ (.step _ _ _ _ [] hstep (.refl _)) with
      ⟨level, _, _, hlevel, s, hs, hsource, hcondition⟩
    rw [hlevel.aliasName] at hsource
    exact ⟨s, hs, ⟨_, hsource⟩, fun h => absurd (hcondition.mp h).1 (Option.some_ne_none _)⟩

end ViewCompiler
