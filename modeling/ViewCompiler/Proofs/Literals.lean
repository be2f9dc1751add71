import ViewCompiler.Proofs.Blanks
import ViewCompiler.Proofs.Levels

/-!
# Literals Stay Out of the Text

Requests that differ in their literals are compiled to the same text.

A request may give a literal in four places: as the value of a condition, as
an operand, as a page bound, and as the value that the outermost rows are
matched with. Two requests are alike if they are the same everywhere else and
if at each of these places they have literals of the same form
(`QueryNode.Alike`). Compiling two requests that are alike ends in the same
failure, or in two queries that differ in the values of their parameters only
(`compileQuery_literals`).

The proof follows the two compilations side by side. Every step of one is
matched by a step of the other, and their results are the same once they are
blanked. `Agree` says this of two outcomes, and it is carried through the ways
in which outcomes are combined.

## Main definitions

* `QueryNode.Alike`, `ConstraintAlike`: Requests and constraints that differ in
  literals only, with one relation for every part of a request.
* `Agree`: Outcomes that differ in what is left out of their results only.
* `Resolved.blank`, `ResolvedFields.blank`: The parts of a compilation without
  values.

## Theorems

* `Agree.bind`, `Agree.mapM`, `Agree.foldlM`: Outcomes that are combined.
* `Operator.predicate_agree`, `Level.clauses_agree`: The clauses of requests
  that are alike.
* `resolve_agree`: The levels of requests that are alike.
* `compileQuery_literals`: The queries of requests that are alike.
-/

namespace ViewCompiler

open Json Sql Schema

/-! ### Requests that are alike -/

/-- Whether a value is a truth value, a number or a text. -/
def Json.Value.isScalar : Value → Bool
  | .bool _ => true
  | .number _ => true
  | .string _ => true
  | _ => false

/-- Whether a value is a whole number that can bound a page. -/
def Json.Value.IsCount (v : Value) : Prop :=
  ∃ n : Int, v = .int n ∧ 0 ≤ n ∧ n ≤ 9223372036854775807

/-- Named values that are related one by one. -/
def Entrywise (R : String → Value → Value → Prop) : List (String × Value) →
    List (String × Value) → Prop :=
  List.Forall₂ fun x y => x.1 = y.1 ∧ R x.1 x.2 y.2

/-- Elements of a list: scalars may differ. -/
def ElementAlike (a b : Value) : Prop :=
  a = b ∨ a.isScalar = true ∧ b.isScalar = true

/-- Operands of an operator: what may differ depends on the operator. -/
inductive OperandAlike (operator : String) : Value → Value → Prop where
  | same (v : Value) : OperandAlike operator v v
  | equality (a b : Value) (hop : operator = "eq" ∨ operator = "neq") (ha : a.isNull = false)
      (hb : b.isNull = false) : OperandAlike operator a b
  | order (a b : Value) (hop : operator ∈ ["gt", "gte", "lt", "lte"]) (ha : a.isScalar = true)
      (hb : b.isScalar = true) : OperandAlike operator a b
  | list (as bs : List Value) (hop : operator = "in") (h : List.Forall₂ ElementAlike as bs) :
      OperandAlike operator (.array as) (.array bs)

/-- Conditions on a field: a scalar may differ, and so may operands. -/
inductive ConditionAlike : Value → Value → Prop where
  | same (v : Value) : ConditionAlike v v
  | scalar (a b : Value) (ha : a.isScalar = true) (hb : b.isScalar = true) : ConditionAlike a b
  | operators (xs ys : List (String × Value)) (h : Entrywise OperandAlike xs ys) :
      ConditionAlike (.object xs) (.object ys)

/-- Arguments of a node: the conditions of a filter and a page bound may
    differ. -/
inductive ArgumentAlike (name : String) : Value → Value → Prop where
  | same (v : Value) : ArgumentAlike name v v
  | filter (xs ys : List (String × Value)) (hname : name = "where")
      (h : Entrywise (fun _ => ConditionAlike) xs ys) :
      ArgumentAlike name (.object xs) (.object ys)
  | bound (a b : Value) (hname : name = "limit" ∨ name = "offset") (ha : a.IsCount)
      (hb : b.IsCount) : ArgumentAlike name a b

/-- Constraints: a value that the caller gives may differ. -/
inductive ConstraintAlike : Option Constraint → Option Constraint → Prop where
  | same (c : Option Constraint) : ConstraintAlike c c
  | value (child : ChildColumn) (a b : Value) (ha : a.isNull = false) (hb : b.isNull = false) :
      ConstraintAlike (some (.equals child (.value a))) (some (.equals child (.value b)))

mutual
/-- Nodes that differ in literals only, at this level or below. -/
inductive QueryNode.Alike : QueryNode → QueryNode → Prop where
  | mk (name : String) (aliasName : Option String)
      (types types' : List (String × List (String × QueryNode)))
      (args args' : List (String × Value))
      (htypes : QueryNode.TypesAlike types types') (hargs : Entrywise ArgumentAlike args args') :
      QueryNode.Alike ⟨name, aliasName, types, args⟩ ⟨name, aliasName, types', args'⟩
inductive QueryNode.TypesAlike : List (String × List (String × QueryNode)) →
    List (String × List (String × QueryNode)) → Prop where
  | nil : QueryNode.TypesAlike [] []
  | cons (typeName : String) (fields fields' : List (String × QueryNode))
      (more more' : List (String × List (String × QueryNode)))
      (hfields : QueryNode.FieldsAlike fields fields') (hmore : QueryNode.TypesAlike more more') :
      QueryNode.TypesAlike ((typeName, fields) :: more) ((typeName, fields') :: more')
inductive QueryNode.FieldsAlike : List (String × QueryNode) → List (String × QueryNode) →
    Prop where
  | nil : QueryNode.FieldsAlike [] []
  | cons (key : String) (node node' : QueryNode) (rest rest' : List (String × QueryNode))
      (hnode : QueryNode.Alike node node') (hrest : QueryNode.FieldsAlike rest rest') :
      QueryNode.FieldsAlike ((key, node) :: rest) ((key, node') :: rest')
end

/-! ### Outcomes that agree -/

/-- Two outcomes agree if they are the same failure, or results that are the
    same in what `view` shows of them. -/
def Agree {α β : Type} (view : α → β) (x y : Except Failure α) : Prop :=
  x.map view = y.map view

namespace Agree

variable {α β γ δ : Type} {view : α → β} {view' : γ → δ} {x y : Except Failure α}

theorem cases (h : Agree view x y) :
    (∃ e, x = .error e ∧ y = .error e) ∨ ∃ a b, x = .ok a ∧ y = .ok b ∧ view a = view b := by
  unfold Agree at h
  cases x with
  | error e =>
      cases y with
      | error e' => exact Or.inl ⟨e, rfl, by rw [Except.error.inj h]⟩
      | ok b => simp only [Except.map, reduceCtorEq] at h
  | ok a =>
      cases y with
      | error e => simp only [Except.map, reduceCtorEq] at h
      | ok b => exact Or.inr ⟨a, b, rfl, rfl, Except.ok.inj h⟩

theorem ok {a b : α} (h : view a = view b) : Agree view (.ok a) (.ok b) :=
  congrArg Except.ok h

theorem bind {next next' : α → Except Failure γ} (h : Agree view x y)
    (hnext : ∀ a b, view a = view b → Agree view' (next a) (next' b)) :
    Agree view' (x >>= next) (y >>= next') := by
  rcases h.cases with ⟨e, rfl, rfl⟩ | ⟨a, b, rfl, rfl, hview⟩
  · rfl
  · exact hnext a b hview

-- Both runs take this step in the very same way.
theorem bind_same (z : Except Failure α) {next next' : α → Except Failure γ}
    (hnext : ∀ a, Agree view' (next a) (next' a)) : Agree view' (z >>= next) (z >>= next') := by
  cases z with
  | error e => rfl
  | ok a => exact hnext a

theorem map {f f' : α → γ} (h : Agree view x y)
    (hf : ∀ a b, view a = view b → view' (f a) = view' (f' b)) :
    Agree view' (x.map f) (y.map f') := by
  rcases h.cases with ⟨e, rfl, rfl⟩ | ⟨a, b, rfl, rfl, hview⟩
  · rfl
  · exact Agree.ok (hf a b hview)

theorem inContext (context : String) (h : Agree view x y) :
    Agree view (x.mapError (.inContext context)) (y.mapError (.inContext context)) := by
  rcases h.cases with ⟨e, rfl, rfl⟩ | ⟨a, b, rfl, rfl, hview⟩
  · rfl
  · exact Agree.ok hview

theorem mapM {ι : Type} {R : ι → ι → Prop} {f : ι → Except Failure α} {is js : List ι}
    (hitems : List.Forall₂ R is js) (hstep : ∀ i j, R i j → Agree view (f i) (f j)) :
    Agree (List.map view) (is.mapM f) (js.mapM f) := by
  induction hitems with
  | nil => rfl
  | cons hij _ ih =>
      rw [List.mapM_cons, List.mapM_cons]
      refine (hstep _ _ hij).bind fun a b hview => ih.bind fun as bs hviews => ?_
      refine Agree.ok ?_
      rw [List.map_cons, List.map_cons, hview, hviews]

theorem foldlM {ι : Type} {R : ι → ι → Prop} {f : α → ι → Except Failure α} {is js : List ι}
    (hitems : List.Forall₂ R is js)
    (hstep : ∀ a b i j, view a = view b → R i j → Agree view (f a i) (f b j)) (a b : α)
    (hview : view a = view b) : Agree view (is.foldlM f a) (js.foldlM f b) := by
  induction hitems generalizing a b with
  | nil => exact Agree.ok hview
  | cons hij _ ih =>
      rw [List.foldlM_cons, List.foldlM_cons]
      exact (hstep a b _ _ hview hij).bind ih

end Agree

/-! ### Clauses -/

/-- A result with another value and the same flag. -/
def Guarded.map {α β : Type} (f : α → β) (g : Guarded α) : Guarded β :=
  ⟨f g.value, g.restricted⟩

/-- Clauses without their values. -/
def Clauses.blank (c : Clauses) : Clauses :=
  ⟨c.predicate.blank, OrderTerm.blankOption c.orderBy, c.limit.map fun _ => 0,
    c.offset.map fun _ => 0⟩

theorem exists_literal (v : Value) (h : v.isNull = false) :
    ∃ text, literal v = .param (.text (some text)) := by
  rcases exists_boundText? v h with ⟨text, htext⟩
  exact ⟨text, by rw [literal, htext]⟩

-- A literal other than `null` is a bound text, so comparing with it is not a
-- test for `NULL`, and blanking leaves nothing of it.
theorem equal_literal_blank (column : Column) (a b : Value) (ha : a.isNull = false)
    (hb : b.isNull = false) :
    (Predicate.equal column (literal a)).blank = (Predicate.equal column (literal b)).blank ∧
      (Predicate.notEqual column (literal a)).blank =
        (Predicate.notEqual column (literal b)).blank := by
  rcases exists_literal a ha with ⟨s, hs⟩
  rcases exists_literal b hb with ⟨t, ht⟩
  rw [hs, ht]
  constructor
  · simp only [Predicate.equal, Predicate.blank, Column.blank, Param.blank]
  · simp only [Predicate.notEqual, Predicate.blank, Column.blank, Param.blank]

theorem isNull_of_isScalar (v : Value) (h : v.isScalar = true) : v.isNull = false := by
  cases v with
  | null => simp only [Value.isScalar, Bool.false_eq_true] at h
  | _ => rfl

theorem scalarOperand_agree (op : Operator) (fieldName : String) (a b : Value)
    (h : ElementAlike a b) :
    Agree Column.blank (scalarOperand op fieldName a) (scalarOperand op fieldName b) := by
  have hscalar : ∀ v : Value, v.isScalar = true →
      scalarOperand op fieldName v = .ok (literal v) := by
    intro v hv
    cases v <;> simp only [Value.isScalar, Bool.false_eq_true] at hv <;> rfl
  rcases h with rfl | ⟨ha, hb⟩
  · rfl
  · rcases exists_literal a (isNull_of_isScalar a ha) with ⟨s, hs⟩
    rcases exists_literal b (isNull_of_isScalar b hb) with ⟨t, ht⟩
    rw [hscalar a ha, hscalar b hb, hs, ht]
    refine Agree.ok ?_
    simp only [Column.blank, Param.blank]

theorem within_blank (column : Column) (elements : List Column) :
    (Predicate.within column elements).blank =
      Predicate.within column.blank (elements.map Column.blank) := by
  have hlist : ∀ cs : List Column, Column.blankList cs = cs.map Column.blank := by
    intro cs
    induction cs with
    | nil => rw [Column.blankList, List.map_nil]
    | cons c rest ih => rw [Column.blankList, List.map_cons, ih]
  cases elements with
  | nil => simp only [Predicate.within, Predicate.blank, List.map_nil]
  | cons first more =>
      simp only [Predicate.within, Predicate.blank, hlist, List.map_cons]

theorem Operator.predicate_agree (op : Operator) (fieldName : String) (a b : Value)
    (column : Column) (h : OperandAlike op.name a b) :
    Agree Predicate.blank (op.predicate fieldName a column) (op.predicate fieldName b column) := by
  cases h with
  | same v => rfl
  | equality a b hop ha hb =>
      -- The name of the operator leaves only the two.
      have hequal := equal_literal_blank column a b ha hb
      cases op with
      | eq => exact Agree.ok hequal.1
      | neq => exact Agree.ok hequal.2
      | _ => exact absurd hop (by decide)
  | order a b hop ha hb =>
      have hcompare : ∀ (op' : Operator) (comparison : Comparison), Agree Predicate.blank
          ((scalarOperand op' fieldName a).map (Predicate.compare comparison column))
          ((scalarOperand op' fieldName b).map (Predicate.compare comparison column)) := by
        intro op' comparison
        refine (scalarOperand_agree op' fieldName a b (Or.inr ⟨ha, hb⟩)).map fun r r' hr => ?_
        rw [Predicate.blank, Predicate.blank, hr]
      cases op with
      | gt => exact hcompare .gt .gt
      | gte => exact hcompare .gte .gte
      | lt => exact hcompare .lt .lt
      | lte => exact hcompare .lte .lte
      | _ => exact absurd hop (by decide)
  | list as bs hop hitems =>
      cases op with
      | isIn =>
          cases hitems with
          | nil => rfl
          | @cons v w vs ws hvw hrest =>
              refine (Agree.mapM (List.Forall₂.cons hvw hrest)
                (scalarOperand_agree .isIn fieldName)).map fun cs cs' hcs => ?_
              rw [within_blank, within_blank, hcs]
      | _ => exact absurd hop (by decide)

namespace Level

variable (level : Level)

theorem operation_agree (fieldName : String) (x y : String × Value)
    (h : x.1 = y.1 ∧ OperandAlike x.1 x.2 y.2) :
    Agree (Guarded.map Predicate.blank) (level.operation fieldName x)
      (level.operation fieldName y) := by
  unfold Level.operation
  rw [← h.1]
  refine Agree.bind_same _ fun column => ?_
  cases hop : Operator.named? x.1 with
  | none => rfl
  | some op =>
      -- What may differ in the operand was said of the name.
      rw [← Operator.name_of_named? x.1 op hop] at h
      refine (op.predicate_agree fieldName x.2 y.2 column.value h.2).bind fun p q hpq => ?_
      refine Agree.ok ?_
      rw [Guarded.map, Guarded.map, hpq]

theorem guardedAll_blank (gs : List (Guarded Predicate)) :
    (Guarded.all gs).map Predicate.blank = Guarded.all (gs.map (Guarded.map Predicate.blank)) := by
  simp only [Guarded.all, Guarded.map, Predicate.blank_all, List.map_map, List.any_map]
  rfl

theorem condition_agree (x y : String × Value) (h : x.1 = y.1 ∧ ConditionAlike x.2 y.2) :
    Agree (Guarded.map Predicate.blank) (level.condition x) (level.condition y) := by
  rcases x with ⟨fieldName, a⟩
  rcases y with ⟨fieldName', b⟩
  rcases h with ⟨rfl, halike⟩
  simp only at halike ⊢
  cases halike with
  | same v => rfl
  | scalar a b ha hb =>
      -- A scalar is a value to be equal to.
      have hcondition : ∀ v : Value, v.isScalar = true → level.condition (fieldName, v) =
          (level.column fieldName >>= fun column =>
            .ok ⟨.equal column.value (literal v), column.restricted⟩) := by
        intro v hv
        cases v <;> simp only [Value.isScalar, Bool.false_eq_true] at hv <;> rfl
      rw [hcondition a ha, hcondition b hb]
      refine Agree.bind_same _ fun column => Agree.ok ?_
      rw [Guarded.map, Guarded.map, (equal_literal_blank column.value a b (isNull_of_isScalar a ha)
        (isNull_of_isScalar b hb)).1]
  | operators xs ys hentries =>
      refine (Agree.mapM hentries (level.operation_agree fieldName)).map fun gs gs' hgs => ?_
      rw [guardedAll_blank, guardedAll_blank, hgs]

theorem filter_agree (a b : Value) (h : ArgumentAlike "where" a b) :
    Agree (Guarded.map Predicate.blank) (level.filter a) (level.filter b) := by
  cases h with
  | same v => rfl
  | filter xs ys hname hentries =>
      refine (Agree.mapM hentries level.condition_agree).map fun gs gs' hgs => ?_
      rw [guardedAll_blank, guardedAll_blank, hgs]
  | bound a b hname => exact absurd hname (by decide)

theorem count_agree (name argument : String) (a b : Value) (hname : name ≠ "where")
    (h : ArgumentAlike name a b) :
    Agree (fun n => n.map fun _ => (0 : Int)) (count argument a) (count argument b) := by
  have hcount : ∀ v : Value, v.IsCount → ∃ n, count argument v = .ok (some n) := by
    rintro v ⟨n, rfl, hlow, hhigh⟩
    have hint : (Value.int n).int64? = some n := by
      simp only [Value.int, Value.int64?]
      rw [if_pos ⟨by omega, hhigh⟩]
    refine ⟨n, ?_⟩
    simp only [count, Value.int] at hint ⊢
    rw [hint]
    simp only [hlow, if_true]
  cases h with
  | same v => rfl
  | filter xs ys hwhere => exact absurd hwhere hname
  | bound a b _ ha hb =>
      rcases hcount a ha with ⟨m, hm⟩
      rcases hcount b hb with ⟨n, hn⟩
      rw [hm, hn]
      rfl

theorem addClause_agree (clauses clauses' : Guarded Clauses) (x y : String × Value)
    (hclauses : clauses.map Clauses.blank = clauses'.map Clauses.blank)
    (h : x.1 = y.1 ∧ ArgumentAlike x.1 x.2 y.2) :
    Agree (Guarded.map Clauses.blank) (level.addClause clauses x) (level.addClause clauses' y) := by
  rcases x with ⟨name, a⟩
  rcases y with ⟨name', b⟩
  rcases h with ⟨rfl, halike⟩
  simp only at halike
  simp only [Guarded.map, Clauses.blank, Guarded.mk.injEq, Clauses.mk.injEq] at hclauses
  rcases hclauses with ⟨⟨hpredicate, horderBy, hlimit, hoffset⟩, hrestricted⟩
  unfold Level.addClause
  by_cases hwhere : name = "where"
  · subst hwhere
    simp only [if_true]
    refine (level.filter_agree a b halike).bind fun g g' hg => Agree.ok ?_
    simp only [Guarded.map, Guarded.mk.injEq] at hg
    simp only [Guarded.map, Clauses.blank, hg.1, hg.2, horderBy, hlimit, hoffset, hrestricted]
  · simp only [if_neg hwhere]
    by_cases horder : name = "orderBy"
    · simp only [if_pos horder]
      -- There is no literal in a sort, so nothing may differ.
      have hab : a = b := by
        cases halike with
        | same v => rfl
        | filter xs ys hname => exact absurd hname hwhere
        | bound a b hname =>
            rw [horder] at hname
            exact absurd hname (by decide)
      rw [hab]
      refine Agree.bind_same _ fun g => Agree.ok ?_
      simp only [Guarded.map, Clauses.blank, hpredicate, hlimit, hoffset, hrestricted]
    · simp only [if_neg horder]
      by_cases hlim : name = "limit"
      · simp only [if_pos hlim]
        refine (count_agree name "limit" a b hwhere halike).bind fun m n hmn => Agree.ok ?_
        simp only [Guarded.map, Clauses.blank, hmn, hpredicate, horderBy, hoffset, hrestricted]
      · simp only [if_neg hlim]
        by_cases hoff : name = "offset"
        · simp only [if_pos hoff]
          refine (count_agree name "offset" a b hwhere halike).bind fun m n hmn => Agree.ok ?_
          simp only [Guarded.map, Clauses.blank, hmn, hpredicate, horderBy, hlimit, hrestricted]
        · simp only [if_neg hoff]
          refine Agree.ok ?_
          simp only [Guarded.map, Clauses.blank, hpredicate, horderBy, hlimit, hoffset, hrestricted]

theorem clauses_agree (args args' : List (String × Value))
    (h : Entrywise ArgumentAlike args args') :
    Agree (Guarded.map Clauses.blank) (level.clauses args) (level.clauses args') :=
  Agree.foldlM h (fun c c' x y hc hxy => level.addClause_agree c c' x y hc hxy) _ _ rfl

end Level

theorem matchPredicate_agree (constraint constraint' : Option Constraint) (typeName : String)
    (entity : Entity) (aliasName : String) (h : ConstraintAlike constraint constraint') :
    Agree Predicate.blank (matchPredicate constraint typeName entity aliasName)
      (matchPredicate constraint' typeName entity aliasName) := by
  cases h with
  | same c => rfl
  | value child a b ha hb =>
      exact Agree.bind_same _ fun column =>
        Agree.ok (equal_literal_blank column a b ha hb).1

/-! ### Levels -/

/-- A resolved level without its values. -/
def Resolved.blank (r : Resolved) : Resolved :=
  ⟨r.select.blank, r.cost.blank, r.authRequired, r.next⟩

/-- The columns of a level without their values. -/
def ResolvedFields.blank (r : ResolvedFields) : ResolvedFields :=
  ⟨SelectItem.blankList r.columns, CostTree.blankChildren r.children, r.restricted, r.authBelow,
    r.next⟩

theorem assembleLevel_blank (schema : Schema) (fetch : Fetch) (level : Level)
    (selected : ResolvedFields) (clauses : Guarded Clauses) (matching : Predicate) :
    (assembleLevel schema fetch level selected clauses matching).blank =
      assembleLevel schema fetch level selected.blank (clauses.map Clauses.blank)
        matching.blank := by
  simp only [assembleLevel, Resolved.blank, ResolvedFields.blank, Guarded.map, Clauses.blank,
    Select.blank, Source.blankOption, Predicate.blank_conj, CostTree.blank,
    CostTree.blankChildren_ofList]

theorem ResolvedFields.addColumn_blank (others : ResolvedFields) (level : Level) (node : QueryNode)
    (field : Guarded Field) :
    (others.addColumn level node field).blank = others.blank.addColumn level node field := by
  simp only [ResolvedFields.addColumn, ResolvedFields.blank, SelectItem.blankList, Column.blank]

theorem ResolvedFields.addLevel_blank (others : ResolvedFields) (node : QueryNode)
    (field : Guarded Field) (fetch : Fetch) (next : Nat) (below : Resolved) :
    (others.addLevel node field fetch next below).blank =
      others.blank.addLevel node field fetch next below.blank := by
  simp only [ResolvedFields.addLevel, ResolvedFields.blank, Resolved.blank, levelColumn_blank,
    CostTree.blankChildren]

-- The entity of a level is found from the name of the type alone. Besides, it
-- matters whether there is a constraint and whether there are fields.
theorem Schema.levelEntity_alike (schema : Schema) (position : Position) (fetch : Fetch)
    (constraint constraint' : Option Constraint) (typeName : String)
    (fields fields' : List (String × QueryNode))
    (hconstraint : ConstraintAlike constraint constraint')
    (hfields : QueryNode.FieldsAlike fields fields') :
    schema.levelEntity position fetch constraint typeName fields =
      schema.levelEntity position fetch constraint' typeName fields' := by
  have hnone : constraint.isNone = constraint'.isNone := by
    cases hconstraint <;> rfl
  have hempty : fields.isEmpty = fields'.isEmpty := by
    cases hfields <;> rfl
  unfold Schema.levelEntity isGenericRootAggregation
  cases schema.entity? typeName with
  | none => rfl
  | some entity => simp only [hnone, hempty]

/-- The levels of requests that are alike are the same but for their values. By
    induction over the first request, while the relation is taken apart along
    with it. -/
theorem resolve_agree (schema : Schema) :
    (∀ (node node' : QueryNode) (authenticated : Bool) (fetch : Fetch) (position : Position)
      (constraint constraint' : Option Constraint) (next : Nat), node.Alike node' →
      ConstraintAlike constraint constraint' →
        Agree Resolved.blank
          (resolveLevel schema authenticated fetch position constraint next node)
          (resolveLevel schema authenticated fetch position constraint' next node')) ∧
    ∀ (fields fields' : List (String × QueryNode)) (level : Level) (next : Nat),
      QueryNode.FieldsAlike fields fields' →
        Agree ResolvedFields.blank (resolveFields schema level next fields)
          (resolveFields schema level next fields') := by
  refine QueryNode.induction ?_ ?_ ?_ ?_
  · intro name aliasName args node' authenticated fetch position constraint constraint' next halike
      _
    rcases halike with ⟨_, _, _, types', _, args', htypes, _⟩
    cases htypes
    rfl
  · intro name aliasName typeName fields more args ih node' authenticated fetch position constraint
      constraint' next halike hconstraint
    rcases halike with ⟨_, _, _, types', _, args', htypes, hargs⟩
    rcases htypes with _ | ⟨_, _, fields', _, more', hfields, _⟩
    rw [resolveLevel_typed, resolveLevel_typed, schema.levelEntity_alike position fetch constraint
      constraint' typeName fields fields' hconstraint hfields]
    refine Agree.bind_same _ fun entity => ?_
    -- The stages of the two levels, side by side.
    refine (ih fields' _ _ hfields).bind fun selected selected' hselected => ?_
    refine (Level.clauses_agree _ args args' hargs).bind fun clauses clauses' hclauses => ?_
    refine (matchPredicate_agree constraint constraint' typeName entity _ hconstraint).map
      fun matching matching' hmatching => ?_
    rw [assembleLevel_blank, assembleLevel_blank, hselected, hclauses, hmatching]
  · intro fields' level next halike
    cases halike
    rfl
  · intro key node rest ihnode ihrest fields' level next halike
    rcases halike with _ | ⟨_, _, node', _, rest', hnode, hrest⟩
    have hname : node'.name = node.name ∧ node'.resultKey = node.resultKey := by
      cases hnode
      exact ⟨rfl, rfl⟩
    rw [resolveFields_cons, resolveFields_cons, hname.1]
    refine Agree.bind_same _ fun field => ?_
    cases field.value.relation with
    | none =>
        refine (ihrest rest' level next hrest).map fun others others' hothers => ?_
        rw [ResolvedFields.addColumn_blank, ResolvedFields.addColumn_blank, hothers]
        simp only [ResolvedFields.addColumn, hname]
    | some use =>
        refine Agree.bind_same _ fun linked => ?_
        refine ((ihnode node' _ _ _ _ _ next hnode (.same _)).inContext _).bind
          fun below below' hbelow => ?_
        -- The two nested levels have used up equally many aliases.
        have hnext : below'.next = below.next := (congrArg Resolved.next hbelow).symm
        rw [hnext]
        refine (ihrest rest' level below.next hrest).map fun others others' hothers => ?_
        rw [ResolvedFields.addLevel_blank, ResolvedFields.addLevel_blank, hothers, hbelow]
        simp only [ResolvedFields.addLevel, hname]

/-- Literals cannot influence the text. Two requests that differ in literals
    only, under constraints that do, fail in the same way or become queries
    with the same text. These need authorization alike, are of the same depth
    and of the same cost up to bounds on the number of rows, and have parameters
    of the same types in the same places. -/
theorem compileQuery_literals (schema : Schema) (minDepth : Nat) (authenticated : Bool)
    (constraint constraint' : Option Constraint) (node node' : QueryNode)
    (hconstraint : ConstraintAlike constraint constraint') (hnode : node.Alike node') :
    (∃ e, schema.compileQuery minDepth authenticated constraint node = .error e ∧
      schema.compileQuery minDepth authenticated constraint' node' = .error e) ∨
    ∃ c c', schema.compileQuery minDepth authenticated constraint node = .ok c ∧
      schema.compileQuery minDepth authenticated constraint' node' = .ok c' ∧
      c.sql = c'.sql ∧ c.authRequired = c'.authRequired ∧ c.maxDepth = c'.maxDepth ∧
      c.potentiallyHighCost = c'.potentiallyHighCost ∧ c.cost.blank = c'.cost.blank ∧
      List.Forall₂ Param.SameType c.values c'.values := by
  have hagree := (resolve_agree schema).1 node node' authenticated .aggregation .top constraint
    constraint' 0 hnode hconstraint
  have hkey : node'.resultKey = node.resultKey := by
    cases hnode
    rfl
  unfold Schema.compileQuery
  rcases hagree.cases with ⟨e, he, he'⟩ | ⟨r, r', hr, hr', hblank⟩
  · rw [he, he']
    exact Or.inl ⟨e, rfl, rfl⟩
  · rw [hr, hr', hkey]
    simp only [Resolved.blank, Resolved.mk.injEq] at hblank
    rcases hblank with ⟨hselect, hcost, hauth, _⟩
    have hdepth : r.cost.maxDepth = r'.cost.maxDepth := by
      rw [← r.cost.maxDepth_blank, ← r'.cost.maxDepth_blank, hcost]
    have hstatement : (Select.expression
        [levelColumn .aggregation (localAlias 0) r.select node.resultKey]).blank =
          (Select.expression
            [levelColumn .aggregation (localAlias 0) r'.select node.resultKey]).blank := by
      simp only [Select.expression, Select.blank, levelColumn_blank, hselect]
    rcases Select.render_of_blank_eq _ _ hstatement with ⟨hsql, hparams⟩
    refine Or.inr ⟨_, _, rfl, rfl, hsql, hauth, hdepth, ?_, hcost, hparams⟩
    simp only [hdepth]

/-- The first users of the blog who have a name. -/
def Blog.usersNamed (name : Value) (limit : Int) : QueryNode where
  name := "users"
  aliasName := none
  fieldsByTypeName := [("User", [Blog.leaf "id"])]
  args := [("where", .object [("name", name)]), ("limit", .int limit)]

/-- A name that looks like a statement stays a parameter, and so does an
    identifier that is an object. -/
theorem compileQuery_literals_blog :
    ∃ c c', Blog.schema.compileQuery 3 false (some (.onId (.string "1")))
        (Blog.usersNamed (.string "Ada") 10) = .ok c ∧
      Blog.schema.compileQuery 3 false (some (.onId (.object [("id", .null)])))
        (Blog.usersNamed (.string "'; DROP TABLE app.user; --") 9223372036854775807) = .ok c' ∧
      c.sql = c'.sql ∧ List.Forall₂ Param.SameType c.values c'.values := by
  have hargs : Entrywise ArgumentAlike (Blog.usersNamed (.string "Ada") 10).args
      (Blog.usersNamed (.string "'; DROP TABLE app.user; --") 9223372036854775807).args := by
    refine .cons ⟨rfl, .filter _ _ rfl (.cons ⟨rfl, .scalar _ _ rfl rfl⟩ .nil)⟩
      (.cons ⟨rfl, ?_⟩ .nil)
    exact .bound _ _ (Or.inl rfl) ⟨10, rfl, by decide, by decide⟩
      ⟨9223372036854775807, rfl, by decide, by decide⟩
  have hleaf : QueryNode.FieldsAlike [Blog.leaf "id"] [Blog.leaf "id"] :=
    .cons _ _ _ _ _ (.mk _ _ _ _ _ _ .nil .nil) .nil
  have halike := QueryNode.Alike.mk "users" none _ _ _ _ (.cons "User" _ _ _ _ hleaf .nil) hargs
  rcases compileQuery_literals Blog.schema 3 false _ _ _ _
    (.value .primaryKey (.string "1") (.object [("id", .null)]) rfl rfl) halike with
    ⟨e, he, _⟩ | ⟨c, c', hc, hc', hsql, _, _, _, _, hvalues⟩
  · have hok : ∃ c, Blog.schema.compileQuery 3 false (some (.onId (.string "1")))
        (Blog.usersNamed (.string "Ada") 10) = .ok c := ⟨_, rfl⟩
    rcases hok with ⟨c, hc⟩
    exact absurd (hc.symm.trans he) (by simp only [reduceCtorEq, not_false_eq_true])
  · exact ⟨c, c', hc, hc', hsql, hvalues⟩

end ViewCompiler
