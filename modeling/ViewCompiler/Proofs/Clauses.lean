import ViewCompiler.Proofs.Resolution
import ViewCompiler.Proofs.Spellings

/-!
# What Clauses Are Made Of

The clauses of a level, traced back to the arguments that asked for them.

Three things are to be known about a clause: which fields of the entity it
refers to, whether one of them is restricted, and which columns end up in it.
The fields are read off the argument itself. That they decide the flag is
`Level.clauses_restricted`, and that nothing but their columns and bound texts
is compared is `Level.filter_columns`.

Clauses are made by taking the arguments one after the other, and a later one
overwrites what an earlier one has set. `Level.clauses_asked` says what this
amounts to: every part is made from the last argument of its name.

## Main definitions

* `filterFields`, `orderings`, `argumentFields`: The fields that an argument
  refers to.
* `given`: The value that is given for an argument.
* `Level.Asked`, `Level.FilteredBy`: The clauses that arguments ask for.
* `Predicate.columns`: The columns that a predicate looks at.
* `Level.Compares`: The columns that a clause may look at.

## Theorems

* `Level.clauses_restricted`: The flag of the clauses of a level.
* `Level.filter_columns`, `Level.sort_columns`: The columns of a clause.
* `Level.clauses_asked`: What overwriting amounts to.
-/

namespace ViewCompiler

open Json Sql Schema

/-! ### The fields of an argument -/

/-- The field that a condition refers to. A condition without operators
    refers to none. -/
def conditionFields (entry : String × Value) : List String :=
  match entry.2 with
  | .object [] => []
  | _ => [entry.1]

theorem conditionFields_of_ne_object (entry : String × Value)
    (h : ∀ operations, entry.2 ≠ .object operations) : conditionFields entry = [entry.1] := by
  unfold conditionFields
  split
  · rename_i hempty
    exact absurd hempty (h [])
  · rfl

/-- The fields that a filter refers to. -/
def filterFields : Value → List String
  | .object conditions => conditions.flatMap conditionFields
  | _ => []

/-- The field and the direction that an item of a sort asks for. -/
def ordering? : Value → Option (String × Direction)
  | .string text => some ((readSpelling text).1, (readSpelling text).2.direction)
  | _ => none

/-- The fields and directions that a sort asks for. -/
def orderings : Value → List (String × Direction)
  | .array items => items.filterMap ordering?
  | v => (ordering? v).toList

/-- The fields that an argument refers to. -/
def argumentFields (arg : String × Value) : List String :=
  if arg.1 = "where" then filterFields arg.2
  else if arg.1 = "orderBy" then (orderings arg.2).map Prod.fst
  else []

/-! ### What clauses consist of -/

theorem Operator.name_of_named? (name : String) (op : Operator)
    (h : Operator.named? name = some op) : op.name = name := by
  have hfound := List.find?_some h
  exact eq_of_beq hfound

namespace Level

theorem operation_eq_ok (level : Level) (fieldName : String) (operation : String × Value)
    (g : Guarded Predicate) (h : level.operation fieldName operation = .ok g) :
    ∃ column op predicate, level.column fieldName = .ok column ∧
      Operator.named? operation.1 = some op ∧
      op.predicate fieldName operation.2 column.value = .ok predicate ∧
      g = ⟨predicate, column.restricted⟩ := by
  unfold Level.operation at h
  rw [bind_eq_ok_iff] at h
  rcases h with ⟨column, hcolumn, h⟩
  cases hop : Operator.named? operation.1 with
  | none =>
      rw [hop] at h
      simp only [throw, throwThe, MonadExceptOf.throw, reduceCtorEq] at h
  | some op =>
      rw [hop] at h
      simp only [bind_eq_ok_iff, pure, Except.pure, Except.ok.injEq] at h
      rcases h with ⟨predicate, hpredicate, hg⟩
      exact ⟨column, op, predicate, hcolumn, rfl, hpredicate, hg.symm⟩

theorem condition_eq_ok (level : Level) (entry : String × Value) (g : Guarded Predicate)
    (h : level.condition entry = .ok g) :
    (∃ operations gs, entry.2 = .object operations ∧
        operations.mapM (level.operation entry.1) = .ok gs ∧ g = Guarded.all gs) ∨
      ((∀ operations, entry.2 ≠ .object operations) ∧
        ∃ column, level.column entry.1 = .ok column ∧
          g = ⟨.equal column.value (literal entry.2), column.restricted⟩) := by
  rcases entry with ⟨fieldName, v⟩
  cases v with
  | array items => simp only [Level.condition, reduceCtorEq] at h
  | object operations =>
      simp only [Level.condition, map_eq_ok_iff] at h
      rcases h with ⟨gs, hgs, hg⟩
      exact Or.inl ⟨operations, gs, rfl, hgs, hg.symm⟩
  | _ =>
      simp only [Level.condition, bind_eq_ok_iff, pure, Except.pure, Except.ok.injEq] at h
      rcases h with ⟨column, hcolumn, hg⟩
      refine Or.inr ⟨fun operations => ?_, column, hcolumn, hg.symm⟩
      simp only [ne_eq, reduceCtorEq, not_false_eq_true]

theorem filter_eq_ok (level : Level) (v : Value) (g : Guarded Predicate)
    (h : level.filter v = .ok g) :
    (v = .null ∧ g = ⟨.always, false⟩) ∨
      ∃ conditions gs, v = .object conditions ∧ conditions.mapM level.condition = .ok gs ∧
        g = Guarded.all gs := by
  cases v with
  | null =>
      simp only [Level.filter, Except.ok.injEq] at h
      exact Or.inl ⟨rfl, h.symm⟩
  | object conditions =>
      simp only [Level.filter, map_eq_ok_iff] at h
      rcases h with ⟨gs, hgs, hg⟩
      exact Or.inr ⟨conditions, gs, rfl, hgs, hg.symm⟩
  | _ => simp only [Level.filter, reduceCtorEq] at h

theorem orderings_of_sortTexts (v : Value) (texts : List String) (h : sortTexts v = .ok texts) :
    orderings v = texts.map orderingOf := by
  have htext : ∀ text, ordering? (.string text) = some (orderingOf text) :=
    fun text => congrArg some (orderingOf_eq_readSpelling text).symm
  cases v with
  | null =>
      simp only [sortTexts, Except.ok.injEq] at h
      rw [← h]
      rfl
  | string text =>
      simp only [sortTexts, Except.ok.injEq] at h
      rw [← h]
      exact congrArg Option.toList (htext text)
  | array items =>
      -- An item that is no text would have been refused, so none is left out.
      simp only [sortTexts, mapM_eq_ok_iff] at h
      simp only [orderings]
      induction h with
      | nil => rfl
      | @cons item text _ _ hitem _ ih =>
          cases item <;> simp only [sortText, reduceCtorEq, Except.ok.injEq] at hitem
          rw [List.filterMap_cons, List.map_cons, ih, hitem, htext]
  | _ => simp only [sortTexts, reduceCtorEq] at h

/-- What a sort consists of: nothing if no field is named, otherwise one term
    for every field. -/
theorem sort_eq_ok (level : Level) (v : Value) (g : Guarded (Option (List OrderTerm)))
    (h : level.sort v = .ok g) :
    ∃ texts, orderings v = texts.map orderingOf ∧
      ((texts = [] ∧ g = ⟨none, false⟩) ∨
        (texts ≠ [] ∧ ∃ terms, texts.mapM level.orderTerm = .ok terms ∧
          g = ⟨some (terms.map Guarded.value), terms.any Guarded.restricted⟩)) := by
  unfold Level.sort at h
  rw [bind_eq_ok_iff] at h
  rcases h with ⟨texts, htexts, h⟩
  refine ⟨texts, orderings_of_sortTexts v texts htexts, ?_⟩
  cases texts with
  | nil =>
      simp only [List.isEmpty_nil, if_true, pure, Except.pure, Except.ok.injEq] at h
      exact Or.inl ⟨rfl, h.symm⟩
  | cons text more =>
      simp only [List.isEmpty_cons, Bool.false_eq_true, if_false, bind_eq_ok_iff, pure, Except.pure,
        Except.ok.injEq] at h
      rcases h with ⟨terms, hterms, hg⟩
      exact Or.inr ⟨List.cons_ne_nil _ _, terms, hterms, hg.symm⟩

theorem orderTerm_eq_ok (level : Level) (text : String) (g : Guarded OrderTerm)
    (h : level.orderTerm text = .ok g) :
    ∃ column, level.column (orderingOf text).1 = .ok column ∧
      g = ⟨⟨column.value, (orderingOf text).2⟩, column.restricted⟩ := by
  simp only [Level.orderTerm, bind_eq_ok_iff, pure, Except.pure, Except.ok.injEq] at h
  rcases h with ⟨column, hcolumn, hg⟩
  exact ⟨column, hcolumn, hg.symm⟩

/-- An argument sets one part of the clauses, which its name tells, or none. -/
theorem addClause_eq_ok (level : Level) (clauses : Guarded Clauses) (arg : String × Value)
    (c : Guarded Clauses) (h : level.addClause clauses arg = .ok c) :
    (arg.1 = "where" ∧ ∃ g, level.filter arg.2 = .ok g ∧
        c = ⟨{ clauses.value with predicate := g.value }, clauses.restricted || g.restricted⟩) ∨
      (arg.1 = "orderBy" ∧ ∃ g, level.sort arg.2 = .ok g ∧
        c = ⟨{ clauses.value with orderBy := g.value }, clauses.restricted || g.restricted⟩) ∨
      (arg.1 = "limit" ∧ ∃ n, count "limit" arg.2 = .ok n ∧
        c = ⟨{ clauses.value with limit := n }, clauses.restricted⟩) ∨
      (arg.1 = "offset" ∧ ∃ n, count "offset" arg.2 = .ok n ∧
        c = ⟨{ clauses.value with offset := n }, clauses.restricted⟩) ∨
      (arg.1 ∉ ["where", "orderBy", "limit", "offset"] ∧ c = clauses) := by
  unfold Level.addClause at h
  -- The names are tested one after the other.
  by_cases hwhere : arg.1 = "where"
  · simp only [if_pos hwhere, bind_eq_ok_iff, pure, Except.pure, Except.ok.injEq] at h
    rcases h with ⟨g, hg, hc⟩
    exact Or.inl ⟨hwhere, g, hg, hc.symm⟩
  · rw [if_neg hwhere] at h
    by_cases horder : arg.1 = "orderBy"
    · simp only [if_pos horder, bind_eq_ok_iff, pure, Except.pure, Except.ok.injEq] at h
      rcases h with ⟨g, hg, hc⟩
      exact Or.inr (Or.inl ⟨horder, g, hg, hc.symm⟩)
    · rw [if_neg horder] at h
      by_cases hlimit : arg.1 = "limit"
      · simp only [if_pos hlimit, bind_eq_ok_iff, pure, Except.pure, Except.ok.injEq] at h
        rcases h with ⟨n, hn, hc⟩
        exact Or.inr (Or.inr (Or.inl ⟨hlimit, n, hn, hc.symm⟩))
      · rw [if_neg hlimit] at h
        by_cases hoffset : arg.1 = "offset"
        · simp only [if_pos hoffset, bind_eq_ok_iff, pure, Except.pure, Except.ok.injEq] at h
          rcases h with ⟨n, hn, hc⟩
          exact Or.inr (Or.inr (Or.inr (Or.inl ⟨hoffset, n, hn, hc.symm⟩)))
        · simp only [if_neg hoffset, Except.ok.injEq] at h
          refine Or.inr (Or.inr (Or.inr (Or.inr ⟨?_, h.symm⟩)))
          simp only [List.mem_cons, hwhere, horder, hlimit, hoffset, List.not_mem_nil, or_self,
            not_false_eq_true]

end Level

/-! ### Restricted fields -/

theorem any_of_mapM {ε α β : Type} (f : α → Except ε β) (p : α → Bool) (q : β → Bool)
    (hstep : ∀ a b, f a = .ok b → q b = p a) (as : List α) (bs : List β)
    (h : as.mapM f = .ok bs) : bs.any q = as.any p := by
  rw [mapM_eq_ok_iff] at h
  induction h with
  | nil => rfl
  | cons hab _ ih => rw [List.any_cons, List.any_cons, hstep _ _ hab, ih]

namespace Level

theorem field_restricted (level : Level) (name : String) (g : Guarded Field)
    (h : level.field name = .ok g) : g.restricted = level.entity.restricts name :=
  ((level.field_eq_ok_iff name g).mp h).2.1

theorem column_restricted (level : Level) (name : String) (g : Guarded Column)
    (h : level.column name = .ok g) : g.restricted = level.entity.restricts name := by
  rcases (level.column_eq_ok_iff name g).mp h with ⟨field, columnName, hfield, _⟩
  exact level.field_restricted name _ hfield

theorem operation_restricted (level : Level) (fieldName : String) (operation : String × Value)
    (g : Guarded Predicate) (h : level.operation fieldName operation = .ok g) :
    g.restricted = level.entity.restricts fieldName := by
  rcases level.operation_eq_ok fieldName operation g h with ⟨column, _, _, hcolumn, _, _, rfl⟩
  exact level.column_restricted fieldName column hcolumn

/-- A condition refers to its field once for every operator, so not at all if
    there is none. -/
theorem condition_restricted (level : Level) (entry : String × Value) (g : Guarded Predicate)
    (h : level.condition entry = .ok g) :
    g.restricted = (conditionFields entry).any level.entity.restricts := by
  rcases entry with ⟨fieldName, v⟩
  rcases level.condition_eq_ok (fieldName, v) g h with
    ⟨operations, gs, hv, hgs, rfl⟩ | ⟨hv, column, hcolumn, rfl⟩
  -- All operators refer to the same field, so it only matters whether there are
  -- any.
  · have hany := any_of_mapM _ (fun _ => level.entity.restricts fieldName) Guarded.restricted
      (fun operation g => level.operation_restricted fieldName operation g) operations gs hgs
    simp only at hv
    simp only [Guarded.all, hany, hv]
    cases operations with
    | nil => rfl
    | cons first more =>
        cases hr : level.entity.restricts fieldName <;> simp [conditionFields, hr]
  · simp only [conditionFields_of_ne_object _ hv, List.any_cons, List.any_nil, Bool.or_false]
    exact level.column_restricted fieldName column hcolumn

theorem filter_restricted (level : Level) (v : Value) (g : Guarded Predicate)
    (h : level.filter v = .ok g) :
    g.restricted = (filterFields v).any level.entity.restricts := by
  rcases level.filter_eq_ok v g h with ⟨rfl, rfl⟩ | ⟨conditions, gs, rfl, hgs, rfl⟩
  · rfl
  · simp only [Guarded.all, filterFields, List.any_flatMap]
    exact any_of_mapM _ _ _ (fun entry g => level.condition_restricted entry g) conditions gs hgs

theorem sort_restricted (level : Level) (v : Value) (g : Guarded (Option (List OrderTerm)))
    (h : level.sort v = .ok g) :
    g.restricted = ((orderings v).map Prod.fst).any level.entity.restricts := by
  rcases level.sort_eq_ok v g h with ⟨texts, htexts, ⟨rfl, rfl⟩ | ⟨_, terms, hterms, rfl⟩⟩
  · rw [htexts]
    rfl
  · rw [htexts, List.map_map, List.any_map]
    refine any_of_mapM _ _ _ (fun text g hg => ?_) texts terms hterms
    rcases level.orderTerm_eq_ok text g hg with ⟨column, hcolumn, rfl⟩
    exact level.column_restricted _ column hcolumn

/-- One more argument adds the fields that it refers to. -/
theorem addClause_restricted (level : Level) (clauses : Guarded Clauses) (arg : String × Value)
    (c : Guarded Clauses) (h : level.addClause clauses arg = .ok c) :
    c.restricted = (clauses.restricted || (argumentFields arg).any level.entity.restricts) := by
  unfold argumentFields
  rcases level.addClause_eq_ok clauses arg c h with
    ⟨hname, g, hg, rfl⟩ | ⟨hname, g, hg, rfl⟩ | ⟨hname, _, _, rfl⟩ | ⟨hname, _, _, rfl⟩ |
      ⟨hname, rfl⟩
  · rw [if_pos hname, ← level.filter_restricted arg.2 g hg]
  · rw [hname, if_neg (by decide), if_pos rfl, ← level.sort_restricted arg.2 g hg]
  · rw [hname, if_neg (by decide), if_neg (by decide), List.any_nil, Bool.or_false]
  · rw [hname, if_neg (by decide), if_neg (by decide), List.any_nil, Bool.or_false]
  · simp only [List.mem_cons, not_or] at hname
    rw [if_neg hname.1, if_neg hname.2.1, List.any_nil, Bool.or_false]

theorem foldlM_addClause_restricted (level : Level) (args : List (String × Value))
    (clauses c : Guarded Clauses) (h : args.foldlM level.addClause clauses = .ok c) :
    c.restricted =
      (clauses.restricted || (args.flatMap argumentFields).any level.entity.restricts) := by
  induction args generalizing clauses with
  | nil =>
      simp only [List.foldlM_nil, pure, Except.pure, Except.ok.injEq] at h
      rw [h, List.flatMap_nil, List.any_nil, Bool.or_false]
  | cons arg rest ih =>
      rw [List.foldlM_cons, bind_eq_ok_iff] at h
      rcases h with ⟨mid, hmid, hrest⟩
      rw [ih mid hrest, level.addClause_restricted clauses arg mid hmid, List.flatMap_cons,
        List.any_append, Bool.or_assoc]

theorem clauses_restricted (level : Level) (args : List (String × Value)) (c : Guarded Clauses)
    (h : level.clauses args = .ok c) :
    c.restricted = (args.flatMap argumentFields).any level.entity.restricts := by
  rw [level.foldlM_addClause_restricted args _ c h, Bool.false_or]

end Level

/-! ### The columns of a clause -/

/-- The columns that a predicate looks at. -/
def Sql.Predicate.columns : Predicate → List Column
  | .always => []
  | .never => []
  | .compare _ left right => [left, right]
  | .isIn column elements => column :: elements
  | .isNull column => [column]
  | .isNotNull column => [column]
  | .and left right => left.columns ++ right.columns

theorem Sql.Predicate.mem_columns_conj (p q : Predicate) (column : Column)
    (h : column ∈ (p.conj q).columns) : column ∈ p.columns ∨ column ∈ q.columns := by
  unfold Predicate.conj at h
  split at h
  · exact Or.inl h
  · exact Or.inr h
  · exact Or.inr h
  · exact Or.inl h
  · exact List.mem_append.mp h

theorem Sql.Predicate.mem_columns_all (predicates : List Predicate) (column : Column)
    (h : column ∈ (Predicate.all predicates).columns) : ∃ p ∈ predicates, column ∈ p.columns := by
  suffices hfold : ∀ (ps : List Predicate) (start : Predicate),
      column ∈ (ps.foldl Predicate.conj start).columns →
        column ∈ start.columns ∨ ∃ p ∈ ps, column ∈ p.columns by
    rcases hfold predicates .always h with hnone | hsome
    · exact absurd hnone List.not_mem_nil
    · exact hsome
  -- The start of the fold changes with every step, so the claim is for any start.
  intro ps
  induction ps with
  | nil => exact fun start hstart => Or.inl hstart
  | cons p rest ih =>
      intro start hstart
      rcases ih (start.conj p) hstart with hconj | ⟨q, hq, hmem⟩
      · rcases Predicate.mem_columns_conj start p column hconj with hl | hr
        · exact Or.inl hl
        · exact Or.inr ⟨p, List.mem_cons_self, hr⟩
      · exact Or.inr ⟨q, List.mem_cons_of_mem p hq, hmem⟩

theorem boundText?_of_isNull (v : Value) (h : v.isNull = true) : boundText? v = none := by
  cases v <;> simp only [Value.isNull, Bool.false_eq_true] at h
  rfl

theorem exists_boundText? (v : Value) (h : v.isNull = false) :
    ∃ text, boundText? v = some text := by
  cases v <;> simp only [Value.isNull, Bool.true_eq_false] at h <;> exact ⟨_, rfl⟩

/-- A literal is the `NULL` of the language, or a bound text. -/
theorem literal_cases (v : Value) :
    literal v = .null ∨ ∃ text, literal v = .param (.text (some text)) := by
  unfold literal
  cases boundText? v with
  | none => exact Or.inl rfl
  | some text => exact Or.inr ⟨text, rfl⟩

theorem scalarOperand_eq_ok (op : Operator) (fieldName : String) (v : Value) (column : Column)
    (h : scalarOperand op fieldName v = .ok column) :
    ∃ text, boundText? v = some text ∧ column = .param (.text (some text)) := by
  cases v <;> simp only [scalarOperand, reduceCtorEq, Except.ok.injEq] at h <;>
    exact ⟨_, rfl, h.symm⟩

theorem Sql.Predicate.mem_columns_equal (left : Column) (v : Value) (column : Column)
    (h : column ∈ (Predicate.equal left (literal v)).columns ∨
      column ∈ (Predicate.notEqual left (literal v)).columns) :
    column = left ∨ ∃ text, column = .param (.text (some text)) := by
  rcases literal_cases v with hnull | ⟨text, htext⟩
  · rw [hnull] at h
    simp only [Predicate.equal, Predicate.notEqual, Predicate.columns, List.mem_singleton,
      or_self] at h
    exact Or.inl h
  · rw [htext] at h
    simp only [Predicate.equal, Predicate.notEqual, Predicate.columns, List.mem_cons,
      List.not_mem_nil, or_false, or_self] at h
    exact h.imp_right fun heq => ⟨text, heq⟩

/-- An operator looks at the column of its field, and at nothing else but
    bound texts. -/
theorem Operator.predicate_columns (op : Operator) (fieldName : String) (operand : Value)
    (left : Column) (p : Predicate) (h : op.predicate fieldName operand left = .ok p)
    (column : Column) (hmem : column ∈ p.columns) :
    column = left ∨ ∃ text, column = .param (.text (some text)) := by
  have hscalar : ∀ (op' : Operator) (comparison : Comparison),
      (scalarOperand op' fieldName operand).map (Predicate.compare comparison left) = .ok p →
        column = left ∨ ∃ text, column = .param (.text (some text)) := by
    intro op' comparison hp
    rw [map_eq_ok_iff] at hp
    rcases hp with ⟨right, hright, rfl⟩
    rcases scalarOperand_eq_ok op' fieldName operand right hright with ⟨text, _, rfl⟩
    simp only [Predicate.columns, List.mem_cons, List.not_mem_nil, or_false] at hmem
    exact hmem.imp_right fun heq => ⟨text, heq⟩
  cases op with
  | eq =>
      simp only [Operator.predicate, Except.ok.injEq] at h
      rw [← h] at hmem
      exact Predicate.mem_columns_equal left operand column (Or.inl hmem)
  | neq =>
      simp only [Operator.predicate, Except.ok.injEq] at h
      rw [← h] at hmem
      exact Predicate.mem_columns_equal left operand column (Or.inr hmem)
  | gt => exact hscalar .gt .gt h
  | gte => exact hscalar .gte .gte h
  | lt => exact hscalar .lt .lt h
  | lte => exact hscalar .lte .lte h
  | isIn =>
      simp only [Operator.predicate] at h
      split at h
      · rw [map_eq_ok_iff] at h
        rcases h with ⟨elements, helements, rfl⟩
        -- With an empty list the column of the field would not appear either.
        have hcolumns : ∀ c ∈ (Predicate.within left elements).columns,
            c = left ∨ c ∈ elements := by
          cases elements with
          | nil => exact fun c hc => absurd hc List.not_mem_nil
          | cons first more => exact fun c hc => List.mem_cons.mp hc
        rcases hcolumns column hmem with hleft | helement
        · exact Or.inl hleft
        · rcases exists_of_mem_mapM _ _ elements helements column helement with ⟨v, _, hv⟩
          rcases scalarOperand_eq_ok _ _ v column hv with ⟨text, _, htext⟩
          exact Or.inr ⟨text, htext⟩
      · simp only [reduceCtorEq] at h
  | isNull =>
      simp only [Operator.predicate] at h
      split at h <;> simp only [reduceCtorEq, Except.ok.injEq] at h <;> rw [← h] at hmem <;>
        exact Or.inl (List.mem_singleton.mp hmem)

namespace Level

/-- What a clause may look at: the columns that a level gives out for the
    named fields, and bound texts. -/
def Compares (level : Level) (names : List String) (column : Column) : Prop :=
  (∃ name ∈ names, ∃ g, level.column name = .ok g ∧ column = g.value) ∨
    ∃ text, column = .param (.text (some text))

theorem mem_columns_guardedAll (gs : List (Guarded Predicate)) (column : Column)
    (h : column ∈ (Guarded.all gs).value.columns) : ∃ g ∈ gs, column ∈ g.value.columns := by
  rcases Predicate.mem_columns_all _ column h with ⟨p, hp, hmem⟩
  rcases List.mem_map.mp hp with ⟨g, hg, rfl⟩
  exact ⟨g, hg, hmem⟩

theorem condition_columns (level : Level) (entry : String × Value) (g : Guarded Predicate)
    (h : level.condition entry = .ok g) (column : Column) (hmem : column ∈ g.value.columns) :
    level.Compares (conditionFields entry) column := by
  rcases entry with ⟨fieldName, v⟩
  rcases level.condition_eq_ok (fieldName, v) g h with
    ⟨operations, gs, hv, hgs, rfl⟩ | ⟨hv, c, hc, rfl⟩
  · rcases mem_columns_guardedAll gs column hmem with ⟨g, hg, hmem⟩
    rcases exists_of_mem_mapM _ operations gs hgs g hg with ⟨operation, hop, hoperation⟩
    rcases level.operation_eq_ok fieldName operation g hoperation with
      ⟨c, op, p, hc, _, hp, rfl⟩
    -- There is an operator, so the condition refers to its field.
    have hfields : conditionFields (fieldName, v) = [fieldName] := by
      simp only at hv
      rw [hv]
      cases operations with
      | nil => exact absurd hop List.not_mem_nil
      | cons first more => rfl
    rcases op.predicate_columns fieldName operation.2 c.value p hp column hmem with hleft | htext
    · exact Or.inl ⟨fieldName, by rw [hfields]; exact List.mem_singleton_self _, c, hc, hleft⟩
    · exact Or.inr htext
  · have hfields := conditionFields_of_ne_object (fieldName, v) hv
    rcases Predicate.mem_columns_equal c.value v column (Or.inl hmem) with hleft | htext
    · exact Or.inl ⟨fieldName, by rw [hfields]; exact List.mem_singleton_self _, c, hc, hleft⟩
    · exact Or.inr htext

/-- A filter looks at the columns of the fields that it refers to, and at
    nothing else but bound texts. -/
theorem filter_columns (level : Level) (v : Value) (g : Guarded Predicate)
    (h : level.filter v = .ok g) (column : Column) (hmem : column ∈ g.value.columns) :
    level.Compares (filterFields v) column := by
  rcases level.filter_eq_ok v g h with ⟨rfl, rfl⟩ | ⟨conditions, gs, rfl, hgs, rfl⟩
  · exact absurd hmem List.not_mem_nil
  · rcases mem_columns_guardedAll gs column hmem with ⟨g, hg, hmem⟩
    rcases exists_of_mem_mapM _ conditions gs hgs g hg with ⟨entry, hentry, hg'⟩
    refine (level.condition_columns entry g hg' column hmem).imp_left ?_
    rintro ⟨name, hname, c, hc, heq⟩
    exact ⟨name, List.mem_flatMap.mpr ⟨entry, hentry, hname⟩, c, hc, heq⟩

/-- A sort looks at the columns of the fields that it refers to. -/
theorem sort_columns (level : Level) (v : Value) (g : Guarded (Option (List OrderTerm)))
    (h : level.sort v = .ok g) (terms : List OrderTerm) (hterms : g.value = some terms)
    (term : OrderTerm) (hmem : term ∈ terms) :
    ∃ name ∈ (orderings v).map Prod.fst,
      ∃ c, level.column name = .ok c ∧ term.column = c.value := by
  rcases level.sort_eq_ok v g h with ⟨texts, htexts, ⟨_, rfl⟩ | ⟨_, gs, hgs, rfl⟩⟩
  · simp only [reduceCtorEq] at hterms
  · simp only [Option.some.injEq] at hterms
    rw [← hterms] at hmem
    rcases List.mem_map.mp hmem with ⟨g, hg, rfl⟩
    rcases exists_of_mem_mapM _ texts gs hgs g hg with ⟨text, htext, hg'⟩
    rcases level.orderTerm_eq_ok text g hg' with ⟨c, hc, rfl⟩
    refine ⟨(orderingOf text).1, ?_, c, hc, rfl⟩
    rw [htexts, List.map_map]
    exact List.mem_map_of_mem htext

end Level

/-! ### Arguments -/

/-- The value that is given for an argument. An absent argument is as good as
    `null`, and of several of one name the last one counts. -/
def given (args : List (String × Value)) (name : String) : Value :=
  args.foldl (fun v arg => if arg.1 = name then arg.2 else v) .null

namespace Level

/-- Clauses are what is asked for if each part is made from the argument of
    its name. -/
structure Asked (level : Level) (given : String → Value) (clauses : Clauses) : Prop where
  predicate : ∃ g, level.filter (given "where") = .ok g ∧ clauses.predicate = g.value
  orderBy : ∃ g, level.sort (given "orderBy") = .ok g ∧ clauses.orderBy = g.value
  limit : count "limit" (given "limit") = .ok clauses.limit
  offset : count "offset" (given "offset") = .ok clauses.offset

theorem asked_none (level : Level) : level.Asked (fun _ => .null) Clauses.none :=
  ⟨⟨_, rfl, rfl⟩, ⟨_, rfl, rfl⟩, rfl, rfl⟩

/-- An argument overwrites the part of its name and leaves the others. -/
theorem asked_addClause (level : Level) (given : String → Value) (clauses c : Guarded Clauses)
    (arg : String × Value) (hasked : level.Asked given clauses.value)
    (h : level.addClause clauses arg = .ok c) :
    level.Asked (fun name => if arg.1 = name then arg.2 else given name) c.value := by
  rcases arg with ⟨key, v⟩
  rcases hasked with ⟨hpredicate, horderBy, hlimit, hoffset⟩
  rcases level.addClause_eq_ok clauses (key, v) c h with
    ⟨hname, g, hg, rfl⟩ | ⟨hname, g, hg, rfl⟩ | ⟨hname, n, hn, rfl⟩ | ⟨hname, n, hn, rfl⟩ |
      ⟨hname, rfl⟩
  · subst hname
    exact ⟨⟨g, hg, rfl⟩, horderBy, hlimit, hoffset⟩
  · subst hname
    exact ⟨hpredicate, ⟨g, hg, rfl⟩, hlimit, hoffset⟩
  · subst hname
    exact ⟨hpredicate, horderBy, hn, hoffset⟩
  · subst hname
    exact ⟨hpredicate, horderBy, hlimit, hn⟩
  · simp only [List.mem_cons, not_or, List.not_mem_nil, not_false_eq_true, and_true] at hname
    -- The argument has none of the four names, so it changes no part.
    rcases hname with ⟨hwhere, horder, hlim, hoff⟩
    constructor
    · rw [if_neg hwhere]
      exact hpredicate
    · rw [if_neg horder]
      exact horderBy
    · rw [if_neg hlim]
      exact hlimit
    · rw [if_neg hoff]
      exact hoffset

theorem asked_foldlM (level : Level) (args : List (String × Value)) (start : String → Value)
    (clauses c : Guarded Clauses) (hasked : level.Asked start clauses.value)
    (h : args.foldlM level.addClause clauses = .ok c) :
    level.Asked (fun name => args.foldl (fun v arg => if arg.1 = name then arg.2 else v)
      (start name)) c.value := by
  induction args generalizing start clauses with
  | nil =>
      simp only [List.foldlM_nil, pure, Except.pure, Except.ok.injEq] at h
      rw [← h]
      exact hasked
  | cons arg rest ih =>
      rw [List.foldlM_cons, bind_eq_ok_iff] at h
      rcases h with ⟨mid, hmid, hrest⟩
      -- The first argument has become part of what the rest starts from.
      exact ih _ mid (level.asked_addClause start clauses mid arg hasked hmid) hrest

/-- The clauses of a level are what its arguments ask for. -/
theorem clauses_asked (level : Level) (args : List (String × Value)) (c : Guarded Clauses)
    (h : level.clauses args = .ok c) : level.Asked (given args) c.value :=
  level.asked_foldlM args _ _ c level.asked_none h

/-- A predicate is the filter that the arguments of a level ask for. It is not
    the one that no row satisfies, in which whatever it is joined with would
    get lost. -/
structure FilteredBy (level : Level) (args : List (String × Value)) (filter : Predicate) :
    Prop where
  asked : ∃ g, level.filter (given args "where") = .ok g ∧ filter = g.value
  live : filter ≠ .never

end Level

end ViewCompiler
