import ViewCompiler.Proofs.Literals

/-!
# Which Requests Are Accepted

The requests that can be compiled, described without compiling them.

Compiling refuses a request in a dozen places: where a level looks for its
entity, where it gives out a field, where a relation is followed, where an
argument is read and where a constraint becomes a predicate. Each of these has
a condition of its own here, which speaks of the schema and of the part of the
request that is looked at, and of nothing else. `QueryNode.Acceptable` puts them
together: one rule for a level, and one for each kind of field below it.

Which aliases are in use, which view a level reads and what a clause looks like
do not matter for whether there is one. So an outcome is reduced to whether it
is a result at all, `Succeeds`, and the stages of a level succeed one by one.

A condition with no operators is the one place where a name is not looked at.
It is accepted on anything, a field or not.

## Main definitions

* `Entity.Offers`, `Entity.OffersColumn`: The fields that a caller may use.
* `TakesOperand`: The operators with their operands.
* `Entity.AcceptsCondition`, `Entity.AcceptsFilter`, `Entity.AcceptsSort`,
  `Entity.AcceptsArgument`: The arguments of a level.
* `Schema.Links`: The relations that can be followed.
* `Entity.Matches`: The columns that rows can be matched by.
* `QueryNode.Acceptable`: The requests that are accepted.
* `Succeeds`: An outcome that is a result.

## Theorems

* `Level.succeeds_clauses_iff`: When arguments become clauses.
* `Schema.links_iff`: When a relation can be followed.
* `resolve_acceptable`: When a level can be resolved.
* `compileQuery_acceptable`: When a query can be compiled.
-/

namespace ViewCompiler

open Json Sql Schema

/-! ### Acceptable requests -/

namespace Schema.Entity

/-- A field that a caller may use: everyone may see it, it is stored in no
    column, or the caller is authenticated. -/
def Offers (entity : Entity) (authenticated : Bool) (name : String) (field : Field) : Prop :=
  entity.field? name = some field ∧
    (name ∈ entity.publicFieldNames ∨ field.nativeColumnName = none ∨ authenticated = true)

/-- A name that a caller may filter and sort by: that of a field which is stored
    in a column and stands for no relation. -/
def OffersColumn (entity : Entity) (authenticated : Bool) (name : String) : Prop :=
  ∃ field, entity.Offers authenticated name field ∧ field.relation = none ∧
    field.nativeColumnName.isSome = true

end Schema.Entity

/-- An operator and an operand that it takes. `eq` and `neq` take any value, the comparisons
    of order a value that is neither `null` nor made of others, `in` a list of such values
    that is not empty, and `isNull` a truth value. There are no other operators. -/
def TakesOperand (operator : String) (operand : Value) : Prop :=
  operator = "eq" ∨ operator = "neq" ∨
    operator ∈ ["gt", "gte", "lt", "lte"] ∧ operand.isScalar = true ∨
    operator = "in" ∧ (∃ elements, operand = .array elements ∧ elements ≠ [] ∧
      ∀ element ∈ elements, element.isScalar = true) ∨
    operator = "isNull" ∧ ∃ b, operand = .bool b

namespace Schema.Entity

/-- A condition is a value that a field is compared with, or operators with
    their operands. -/
def AcceptsCondition (entity : Entity) (authenticated : Bool) (entry : String × Value) : Prop :=
  match entry.2 with
  | .array _ => False
  | .object operations => ∀ operation ∈ operations,
      entity.OffersColumn authenticated entry.1 ∧ TakesOperand operation.1 operation.2
  | _ => entity.OffersColumn authenticated entry.1

/-- A filter is absent, or an object of conditions. -/
def AcceptsFilter (entity : Entity) (authenticated : Bool) : Value → Prop
  | .null => True
  | .object conditions => ∀ entry ∈ conditions, entity.AcceptsCondition authenticated entry
  | _ => False

/-- A sort text names a column, by itself or with a direction behind it. A name that ends in
    a direction itself does not stand there without one. -/
def AcceptsSortText (entity : Entity) (authenticated : Bool) (v : Value) : Prop :=
  ∃ (spelling : Spelling) (name : String), v = .string (spelling.write name) ∧
    (spelling = .plain → ¬ EndsInDirection name) ∧ entity.OffersColumn authenticated name

/-- A sort is absent, a text, or a list of texts. -/
def AcceptsSort (entity : Entity) (authenticated : Bool) : Value → Prop
  | .null => True
  | .array items => ∀ item ∈ items, entity.AcceptsSortText authenticated item
  | v => entity.AcceptsSortText authenticated v

/-- Of the arguments only a filter, a sort and two page bounds are looked at. -/
def AcceptsArgument (entity : Entity) (authenticated : Bool) (arg : String × Value) : Prop :=
  (arg.1 = "where" → entity.AcceptsFilter authenticated arg.2) ∧
    (arg.1 = "orderBy" → entity.AcceptsSort authenticated arg.2) ∧
    (arg.1 = "limit" ∨ arg.1 = "offset" → arg.2 = .null ∨ arg.2.IsCount)

/-- A column by which rows can be matched: the identifier, or a column that a
    field is stored in. -/
def Matches (entity : Entity) : ChildColumn → Prop
  | .primaryKey => True
  | .named name => name = entity.idColumnName ∨
      ∃ entry ∈ entity.fields, entry.2.nativeColumnName = some name

end Schema.Entity

/-- A field can be followed to rows that are matched by `child`: its relation is
    known and has a side on the field's table, and there is a column for the
    link. The own side has it, or the field, unless the own side is linked to
    many rows of which each is linked to one; then the foreign side has it. -/
def Schema.Links (schema : Schema) (field : Field) (use : FieldLink) (child : ChildColumn) :
    Prop :=
  ∃ relation sides, schema.relation? use.relationName = some relation ∧
    relation.endpoints? use.ownerTable use.isListType field.nativeColumnName = some sides ∧
    ((sides.own.cardinality = .one ∨
          sides.own.cardinality = .many ∧ sides.foreign.cardinality = .many) ∧
        (sides.own.columnName.isSome = true ∨ field.nativeColumnName.isSome = true) ∧
        child = .primaryKey ∨
      sides.own.cardinality = .many ∧ sides.foreign.cardinality = .one ∧
        ∃ key, sides.foreign.columnName = some key ∧ child = .named key)

mutual
/-- Requests that are accepted, of a caller who is authenticated or not. The rows
    of the outermost level may be matched by a column or not, those of a nested
    level always are. -/
inductive QueryNode.Acceptable (schema : Schema) (authenticated : Bool) :
    Option ChildColumn → QueryNode → Prop where
  | level (matched : Option ChildColumn) (name : String) (aliasName : Option String)
      (typeName : String) (entity : Entity) (fields : List (String × QueryNode))
      (more : List (String × List (String × QueryNode))) (args : List (String × Value))
      (hentity : schema.entity? typeName = some entity) (hfields : fields ≠ [])
      (hlisted : ¬ (matched = none ∧ entity.disallowGenericRootLevelAggregation = true))
      (hselection : QueryNode.SelectionAcceptable schema authenticated entity fields)
      (hargs : ∀ arg ∈ args, entity.AcceptsArgument authenticated arg)
      (hmatched : ∀ child ∈ matched, entity.Matches child) :
      QueryNode.Acceptable schema authenticated matched
        ⟨name, aliasName, (typeName, fields) :: more, args⟩
/-- Fields of an entity that can be selected. -/
inductive QueryNode.SelectionAcceptable (schema : Schema) (authenticated : Bool) :
    Entity → List (String × QueryNode) → Prop where
  | nil (entity : Entity) : QueryNode.SelectionAcceptable schema authenticated entity []
  | plain (entity : Entity) (key : String) (node : QueryNode) (field : Field)
      (rest : List (String × QueryNode)) (hfield : entity.Offers authenticated node.name field)
      (hrelation : field.relation = none)
      (hrest : QueryNode.SelectionAcceptable schema authenticated entity rest) :
      QueryNode.SelectionAcceptable schema authenticated entity ((key, node) :: rest)
  | related (entity : Entity) (key : String) (node : QueryNode) (field : Field) (use : FieldLink)
      (child : ChildColumn) (rest : List (String × QueryNode))
      (hfield : entity.Offers authenticated node.name field)
      (hrelation : field.relation = some use) (hlink : schema.Links field use child)
      (hnode : QueryNode.Acceptable schema authenticated (some child) node)
      (hrest : QueryNode.SelectionAcceptable schema authenticated entity rest) :
      QueryNode.SelectionAcceptable schema authenticated entity ((key, node) :: rest)
end

/-! ### Outcomes that are results -/

/-- An outcome that is a result. -/
def Succeeds {α : Type} (x : Except Failure α) : Prop := ∃ a, x = .ok a

section Succeeds

variable {α β ι : Type}

theorem succeeds_ok (a : α) : Succeeds (.ok a) := ⟨a, rfl⟩

theorem not_succeeds_error (e : Failure) : ¬ Succeeds (.error e : Except Failure α) := by
  rintro ⟨a, ha⟩
  simp only [reduceCtorEq] at ha

theorem succeeds_map_iff (f : α → β) (x : Except Failure α) :
    Succeeds (x.map f) ↔ Succeeds x := by
  simp only [Succeeds, map_eq_ok_iff]
  constructor
  · rintro ⟨_, a, ha, _⟩
    exact ⟨a, ha⟩
  · rintro ⟨a, ha⟩
    exact ⟨f a, a, ha, rfl⟩

/-- Two stages succeed one by one if it does not matter for the second what the
    result of the first is. -/
theorem succeeds_bind_iff (x : Except Failure α) (next : α → Except Failure β) (P : Prop)
    (hnext : ∀ a, x = .ok a → (Succeeds (next a) ↔ P)) :
    Succeeds (x >>= next) ↔ Succeeds x ∧ P := by
  simp only [Succeeds, bind_eq_ok_iff]
  constructor
  · rintro ⟨b, a, ha, hb⟩
    exact ⟨⟨a, ha⟩, (hnext a ha).mp ⟨b, hb⟩⟩
  · rintro ⟨⟨a, ha⟩, hP⟩
    rcases (hnext a ha).mpr hP with ⟨b, hb⟩
    exact ⟨b, a, ha, hb⟩

theorem succeeds_mapM_iff (f : ι → Except Failure α) (is : List ι) :
    Succeeds (is.mapM f) ↔ ∀ i ∈ is, Succeeds (f i) := by
  induction is with
  | nil => exact ⟨fun _ i hi => absurd hi List.not_mem_nil, fun _ => succeeds_ok []⟩
  | cons i rest ih =>
      rw [List.mapM_cons, succeeds_bind_iff _ _ (Succeeds (rest.mapM f)), ih,
        List.forall_mem_cons]
      exact fun a _ => succeeds_map_iff (a :: ·) (rest.mapM f)

/-- A fold succeeds if every step does, no matter what it starts from. -/
theorem succeeds_foldlM_iff (f : α → ι → Except Failure α) (P : ι → Prop)
    (hstep : ∀ a i, Succeeds (f a i) ↔ P i) (is : List ι) (start : α) :
    Succeeds (is.foldlM f start) ↔ ∀ i ∈ is, P i := by
  induction is generalizing start with
  | nil => exact ⟨fun _ i hi => absurd hi List.not_mem_nil, fun _ => succeeds_ok start⟩
  | cons i rest ih =>
      rw [List.foldlM_cons, succeeds_bind_iff _ _ (∀ j ∈ rest, P j), hstep, List.forall_mem_cons]
      exact fun a _ => ih a

end Succeeds

/-! ### Fields and columns -/

namespace Level

variable (level : Level)

theorem offers_iff (name : String) (field : Field) :
    level.entity.Offers level.authenticated name field ↔
      ∃ g, level.field name = .ok g ∧ g.value = field := by
  have hrestricts : level.entity.field? name = some field →
      (level.entity.restricts name = true →
        level.authenticated = true ↔ name ∈ level.entity.publicFieldNames ∨
          field.nativeColumnName = none ∨ level.authenticated = true) := by
    intro hfield
    cases hauth : level.authenticated <;> cases hnative : field.nativeColumnName <;>
      simp [Entity.restricts, hfield, Entity.requiresAuthorization, Entity.isPublic, hnative]
  constructor
  · rintro ⟨hfield, hallowed⟩
    refine ⟨⟨field, level.entity.restricts name⟩, ?_, rfl⟩
    exact (level.field_eq_ok_iff name _).mpr ⟨hfield, rfl, (hrestricts hfield).mpr hallowed⟩
  · rintro ⟨g, hg, rfl⟩
    rcases (level.field_eq_ok_iff name g).mp hg with ⟨hfield, hrestricted, hallowed⟩
    rw [hrestricted] at hallowed
    exact ⟨hfield, (hrestricts hfield).mp hallowed⟩

theorem succeeds_column_iff (name : String) :
    Succeeds (level.column name) ↔ level.entity.OffersColumn level.authenticated name := by
  simp only [Succeeds, level.column_eq_ok_iff, Entity.OffersColumn, level.offers_iff,
    Option.isSome_iff_exists]
  constructor
  · rintro ⟨g, field, columnName, hfield, hrelation, hnative, _⟩
    exact ⟨field, ⟨_, hfield, rfl⟩, hrelation, columnName, hnative⟩
  · rintro ⟨field, ⟨g, hg, rfl⟩, hrelation, columnName, hnative⟩
    exact ⟨⟨.physical level.aliasName columnName, g.restricted⟩, g.value, columnName, hg,
      hrelation, hnative, rfl⟩

end Level

/-! ### Arguments -/

theorem succeeds_scalarOperand_iff (op : Operator) (fieldName : String) (v : Value) :
    Succeeds (scalarOperand op fieldName v) ↔ v.isScalar = true := by
  cases v <;> simp [scalarOperand, Value.isScalar, succeeds_ok, not_succeeds_error]

theorem TakesOperand.exists_name {operator : String} {operand : Value}
    (h : TakesOperand operator operand) : ∃ op : Operator, operator = op.name := by
  rcases h with rfl | rfl | ⟨hname, _⟩ | ⟨rfl, _⟩ | ⟨rfl, _⟩
  · exact ⟨.eq, rfl⟩
  · exact ⟨.neq, rfl⟩
  · simp only [List.mem_cons, List.not_mem_nil, or_false] at hname
    rcases hname with rfl | rfl | rfl | rfl
    · exact ⟨.gt, rfl⟩
    · exact ⟨.gte, rfl⟩
    · exact ⟨.lt, rfl⟩
    · exact ⟨.lte, rfl⟩
  · exact ⟨.isIn, rfl⟩
  · exact ⟨.isNull, rfl⟩

/-- An operator makes a predicate of the operands that it takes. -/
theorem Operator.succeeds_predicate_iff (op : Operator) (fieldName : String) (operand : Value)
    (column : Column) :
    Succeeds (op.predicate fieldName operand column) ↔ TakesOperand op.name operand := by
  have horder : ∀ (op' : Operator) (comparison : Comparison), op.name ∈ ["gt", "gte", "lt", "lte"] →
      (Succeeds ((scalarOperand op' fieldName operand).map (Predicate.compare comparison column)) ↔
        TakesOperand op.name operand) := by
    intro op' comparison hname
    rw [succeeds_map_iff, succeeds_scalarOperand_iff]
    refine ⟨fun h => Or.inr (Or.inr (Or.inl ⟨hname, h⟩)), ?_⟩
    cases op <;> simp [TakesOperand, Operator.name] at hname ⊢
  cases op with
  | eq => exact iff_of_true (succeeds_ok _) (Or.inl rfl)
  | neq => exact iff_of_true (succeeds_ok _) (Or.inr (Or.inl rfl))
  | gt => exact horder .gt .gt (by decide)
  | gte => exact horder .gte .gte (by decide)
  | lt => exact horder .lt .lt (by decide)
  | lte => exact horder .lte .lte (by decide)
  | isIn =>
      -- Only a list that is not empty gets as far as its elements.
      cases operand with
      | array elements =>
          cases elements with
          | nil => simp [Operator.predicate, Operator.name, TakesOperand, not_succeeds_error]
          | cons first more =>
              simp only [Operator.predicate, succeeds_map_iff, succeeds_mapM_iff,
                succeeds_scalarOperand_iff]
              simp [Operator.name, TakesOperand]
      | _ => simp [Operator.predicate, Operator.name, TakesOperand, not_succeeds_error]
  | isNull =>
      cases operand with
      | bool b => cases b <;> simp [Operator.predicate, Operator.name, TakesOperand, succeeds_ok]
      | _ => simp [Operator.predicate, Operator.name, TakesOperand, not_succeeds_error]

/-- The items of a sort that can be read are the texts that they are read as. -/
theorem eq_map_of_sortText (items : List Value) (texts : List String)
    (h : items.mapM sortText = .ok texts) : items = texts.map Value.string := by
  rw [mapM_eq_ok_iff] at h
  induction h with
  | nil => rfl
  | @cons item text _ _ hitem _ ih =>
      cases item <;> simp only [sortText, reduceCtorEq, Except.ok.injEq] at hitem
      rw [List.map_cons, ← ih, hitem]

theorem succeeds_count_iff (argument : String) (v : Value) :
    Succeeds (count argument v) ↔ v = .null ∨ v.IsCount := by
  cases v with
  | null => exact ⟨fun _ => Or.inl rfl, fun _ => succeeds_ok _⟩
  | number n =>
      cases n with
      | float x => simp [count, Value.int64?, Value.IsCount, Value.int, not_succeeds_error]
      | int n =>
          simp only [count, Value.int64?, Value.IsCount, Value.int, reduceCtorEq, false_or,
            Value.number.injEq, Number.int.injEq]
          -- A number of 64 bits, and not a negative one.
          by_cases hrange : -9223372036854775808 ≤ n ∧ n ≤ 9223372036854775807
          · rw [if_pos hrange]
            by_cases hsign : 0 ≤ n
            · simp only [if_pos hsign]
              exact ⟨fun _ => ⟨n, rfl, hsign, hrange.2⟩, fun _ => succeeds_ok _⟩
            · simp only [if_neg hsign]
              refine ⟨fun h => absurd h (not_succeeds_error _), ?_⟩
              rintro ⟨m, rfl, hm, _⟩
              exact absurd hm hsign
          · rw [if_neg hrange]
            refine ⟨fun h => absurd h (not_succeeds_error _), ?_⟩
            rintro ⟨m, rfl, hm, hbound⟩
            exact absurd ⟨by omega, hbound⟩ hrange
  | _ => simp [count, Value.int64?, Value.IsCount, Value.int, not_succeeds_error]

namespace Level

variable (level : Level)

theorem succeeds_operation_iff (fieldName : String) (operation : String × Value) :
    Succeeds (level.operation fieldName operation) ↔
      level.entity.OffersColumn level.authenticated fieldName ∧
        TakesOperand operation.1 operation.2 := by
  unfold Level.operation
  rw [succeeds_bind_iff _ _ (TakesOperand operation.1 operation.2), level.succeeds_column_iff]
  intro column _
  cases hop : Operator.named? operation.1 with
  | none =>
      refine iff_of_false (not_succeeds_error _) fun h => ?_
      rcases h.exists_name with ⟨op, hname⟩
      rw [hname, Operator.named?_name] at hop
      simp only [reduceCtorEq] at hop
  | some op =>
      rw [← Operator.name_of_named? operation.1 op hop]
      exact (succeeds_map_iff (fun p => Guarded.mk p column.restricted) _).trans
        (op.succeeds_predicate_iff fieldName operation.2 column.value)

theorem succeeds_condition_iff (entry : String × Value) :
    Succeeds (level.condition entry) ↔
      level.entity.AcceptsCondition level.authenticated entry := by
  rcases entry with ⟨fieldName, v⟩
  cases v with
  | array items => exact ⟨fun h => absurd h (not_succeeds_error _), False.elim⟩
  | object operations =>
      simp only [Level.condition, succeeds_map_iff, succeeds_mapM_iff,
        level.succeeds_operation_iff, Entity.AcceptsCondition]
  | _ => exact (succeeds_map_iff _ _).trans (level.succeeds_column_iff fieldName)

theorem succeeds_filter_iff (v : Value) :
    Succeeds (level.filter v) ↔ level.entity.AcceptsFilter level.authenticated v := by
  cases v with
  | null => exact ⟨fun _ => trivial, fun _ => succeeds_ok _⟩
  | object conditions =>
      simp only [Level.filter, succeeds_map_iff, succeeds_mapM_iff, level.succeeds_condition_iff,
        Entity.AcceptsFilter]
  | _ => exact ⟨fun h => absurd h (not_succeeds_error _), False.elim⟩

theorem succeeds_orderTerm_iff (text : String) :
    Succeeds (level.orderTerm text) ↔
      level.entity.AcceptsSortText level.authenticated (.string text) := by
  simp only [Entity.AcceptsSortText, Value.string.injEq]
  rw [← orderingOf_fst_iff (level.entity.OffersColumn level.authenticated) text]
  exact (succeeds_map_iff _ _).trans (level.succeeds_column_iff _)

/-- The texts of a sort and their fields are looked at in two passes, and each
    item has to pass both. -/
theorem succeeds_sort_iff (v : Value) :
    Succeeds (level.sort v) ↔ level.entity.AcceptsSort level.authenticated v := by
  have hsort : ∀ texts, sortTexts v = .ok texts → (Succeeds (level.sort v) ↔
      ∀ text ∈ texts, level.entity.AcceptsSortText level.authenticated (.string text)) := by
    intro texts htexts
    simp only [← level.succeeds_orderTerm_iff, ← succeeds_mapM_iff]
    simp only [Level.sort, htexts, bind, Except.bind]
    cases texts with
    | nil => exact ⟨fun _ => succeeds_ok [], fun _ => succeeds_ok _⟩
    | cons text more => exact succeeds_map_iff _ _
  have hrefused : ∀ e, sortTexts v = .error e → ¬ Succeeds (level.sort v) := by
    intro e he
    simp only [Level.sort, he, bind, Except.bind]
    exact not_succeeds_error e
  cases v with
  | null =>
      rw [hsort [] rfl]
      exact ⟨fun _ => trivial, fun _ text htext => absurd htext List.not_mem_nil⟩
  | string text =>
      rw [hsort [text] rfl, List.forall_mem_singleton]
      rfl
  | array items =>
      have htexts : Succeeds (sortTexts (.array items)) ↔
          ∀ item ∈ items, ∃ text, item = .string text := by
        simp only [sortTexts, succeeds_mapM_iff]
        refine forall₂_congr fun item _ => ?_
        cases item <;> simp [sortText, succeeds_ok, not_succeeds_error]
      cases hread : sortTexts (.array items) with
      | error e =>
          refine ⟨fun h => absurd h (hrefused e hread), fun h => ?_⟩
          rw [hread] at htexts
          refine absurd (htexts.mpr fun item hitem => ?_) (not_succeeds_error e)
          rcases h item hitem with ⟨spelling, name, htext, _⟩
          exact ⟨_, htext⟩
      | ok texts =>
          rw [hsort texts hread, eq_map_of_sortText items texts hread]
          simp only [Entity.AcceptsSort, List.forall_mem_map]
  | _ =>
      refine ⟨fun h => absurd h (hrefused _ rfl), ?_⟩
      rintro ⟨spelling, name, heq, _⟩
      simp only [reduceCtorEq] at heq

theorem succeeds_addClause_iff (clauses : Guarded Clauses) (arg : String × Value) :
    Succeeds (level.addClause clauses arg) ↔
      level.entity.AcceptsArgument level.authenticated arg := by
  rcases arg with ⟨name, v⟩
  unfold Level.addClause Entity.AcceptsArgument
  -- The four names are different, so one condition at most is not vacuous.
  by_cases hwhere : name = "where"
  · subst hwhere
    exact (succeeds_map_iff _ _).trans ((level.succeeds_filter_iff v).trans (by simp))
  · by_cases horder : name = "orderBy"
    · subst horder
      exact (succeeds_map_iff _ _).trans ((level.succeeds_sort_iff v).trans (by simp))
    · by_cases hlimit : name = "limit"
      · subst hlimit
        exact (succeeds_map_iff _ _).trans ((succeeds_count_iff "limit" v).trans (by simp))
      · by_cases hoffset : name = "offset"
        · subst hoffset
          exact (succeeds_map_iff _ _).trans ((succeeds_count_iff "offset" v).trans (by simp))
        · simp [hwhere, horder, hlimit, hoffset, succeeds_ok]

/-- Arguments become clauses if each of them is accepted. -/
theorem succeeds_clauses_iff (args : List (String × Value)) :
    Succeeds (level.clauses args) ↔
      ∀ arg ∈ args, level.entity.AcceptsArgument level.authenticated arg :=
  succeeds_foldlM_iff _ _ level.succeeds_addClause_iff args _

end Level

/-! ### Constraints and links -/

/-- The column by which a constraint matches rows. -/
def Constraint.child : Constraint → ChildColumn
  | .equals child _ => child
  | .elementOf _ _ child _ => child

theorem ChildColumn.succeeds_toColumn_iff (child : ChildColumn) (typeName : String)
    (entity : Entity) (aliasName : String) :
    Succeeds (child.toColumn typeName entity aliasName) ↔ entity.Matches child := by
  cases child with
  | primaryKey => exact ⟨fun _ => trivial, fun _ => succeeds_ok _⟩
  | named name =>
      have hcolumn : hasColumn entity name = true ↔ entity.Matches (.named name) := by
        simp only [hasColumn, Bool.or_eq_true, beq_iff_eq, List.any_eq_true, Entity.Matches]
      rw [← hcolumn, ChildColumn.toColumn]
      cases hasColumn entity name <;> simp [succeeds_ok, not_succeeds_error]

theorem succeeds_matchPredicate_iff (constraint : Option Constraint) (typeName : String)
    (entity : Entity) (aliasName : String) :
    Succeeds (matchPredicate constraint typeName entity aliasName) ↔
      ∀ child ∈ constraint.map Constraint.child, entity.Matches child := by
  cases constraint with
  | none => simp [matchPredicate, succeeds_ok]
  | some c =>
      simp only [Option.map_some, Option.mem_some_iff, forall_eq']
      cases c with
      | equals child operand =>
          exact (succeeds_map_iff _ _).trans (child.succeeds_toColumn_iff typeName entity aliasName)
      | elementOf tableAlias arrayColumn child elementType =>
          exact (succeeds_map_iff _ _).trans (child.succeeds_toColumn_iff typeName entity aliasName)

theorem exists_orElse_iff {α : Type} (x y : Option α) :
    (∃ a, (x <|> y) = some a) ↔ x.isSome = true ∨ y.isSome = true := by
  cases x <;> cases y <;> simp

/-- A link is found for a field exactly if the field can be followed. -/
theorem Schema.links_iff (schema : Schema) (level : Level) (fieldName : String) (field : Field)
    (use : FieldLink) (child : ChildColumn) :
    schema.Links field use child ↔ ∃ fetch constraint,
      schema.link level fieldName field use = .ok (fetch, constraint) ∧
        constraint.child = child := by
  constructor
  · rintro ⟨relation, sides, hrelation, hsides,
      ⟨hkinds, hcolumn, rfl⟩ | ⟨hown, hforeign, key, hkey, rfl⟩⟩
    -- The own side or the field has a column, and it is the first that is found.
    · rcases (exists_orElse_iff _ _).mpr hcolumn with ⟨column, hstored⟩
      rcases hkinds with hown | ⟨hown, hforeign⟩
      · refine ⟨.row, .equals .primaryKey (.column level.aliasName column), ?_, rfl⟩
        simp only [Schema.link, hrelation, hsides, hown, hstored]
        rfl
      · refine ⟨.aggregation, .elementOf level.aliasName column .primaryKey
          sides.own.arrayElementType, ?_, rfl⟩
        simp only [Schema.link, hrelation, hsides, hown, hforeign, hstored]
        rfl
    · refine ⟨.aggregation, .equals (.named key) (.column level.aliasName
        level.entity.idColumnName), ?_, rfl⟩
      simp only [Schema.link, hrelation, hsides, hown, hforeign, hkey]
      rfl
  · rintro ⟨fetch, constraint, hlink, rfl⟩
    rcases schema.link_eq_ok level fieldName field use fetch constraint hlink with
      ⟨relation, sides, hrelation, hsides, ⟨hown, key, hkey, _, rfl⟩ |
        ⟨hown, hforeign, array, harray, _, rfl⟩ | ⟨hown, hforeign, key, hkey, _, rfl⟩⟩
    · exact ⟨relation, sides, hrelation, hsides,
        Or.inl ⟨Or.inl hown, (exists_orElse_iff _ _).mp ⟨key, hkey⟩, rfl⟩⟩
    · exact ⟨relation, sides, hrelation, hsides,
        Or.inl ⟨Or.inr ⟨hown, hforeign⟩, (exists_orElse_iff _ _).mp ⟨array, harray⟩, rfl⟩⟩
    · exact ⟨relation, sides, hrelation, hsides, Or.inr ⟨hown, hforeign, key, hkey, rfl⟩⟩

/-! ### Levels -/

/-- A level finds its entity if there is one that may be listed, or is matched,
    and something is selected of it. -/
theorem Schema.levelEntity_eq_ok_iff (schema : Schema) (position : Position) (fetch : Fetch)
    (constraint : Option Constraint) (typeName : String) (fields : List (String × QueryNode))
    (entity : Entity)
    (hposition : constraint = none → position = .top ∧ fetch = .aggregation) :
    schema.levelEntity position fetch constraint typeName fields = .ok entity ↔
      schema.entity? typeName = some entity ∧ fields ≠ [] ∧
        ¬ (constraint.map Constraint.child = none ∧
          entity.disallowGenericRootLevelAggregation = true) := by
  have hgeneric : isGenericRootAggregation position fetch constraint = constraint.isNone := by
    cases constraint with
    | none => rw [(hposition rfl).1, (hposition rfl).2]; rfl
    | some c => simp [isGenericRootAggregation]
  unfold Schema.levelEntity
  rw [hgeneric]
  cases schema.entity? typeName with
  | none => simp
  | some e =>
      cases constraint <;> cases hlisted : e.disallowGenericRootLevelAggregation <;>
        cases fields <;> simp [hlisted] <;> rintro rfl <;> simp [hlisted]

/-- A level can be resolved exactly if it is acceptable. By induction over the
    request, for any number of aliases that are in use. -/
theorem resolve_acceptable (schema : Schema) :
    (∀ (node : QueryNode) (authenticated : Bool) (fetch : Fetch) (position : Position)
      (constraint : Option Constraint) (next : Nat),
      (constraint = none → position = .top ∧ fetch = .aggregation) →
        (Succeeds (resolveLevel schema authenticated fetch position constraint next node) ↔
          node.Acceptable schema authenticated (constraint.map Constraint.child))) ∧
    ∀ (fields : List (String × QueryNode)) (level : Level) (next : Nat),
      Succeeds (resolveFields schema level next fields) ↔
        QueryNode.SelectionAcceptable schema level.authenticated level.entity fields := by
  refine QueryNode.induction ?_ ?_ ?_ ?_
  · intro name aliasName args authenticated fetch position constraint next _
    refine ⟨fun h => absurd h ?_, fun h => by cases h⟩
    rw [resolveLevel]
    exact not_succeeds_error _
  · intro name aliasName typeName fields more args ih authenticated fetch position constraint next
      hposition
    -- The stages after the first succeed one by one.
    have hstages : ∀ entity, Succeeds
        (resolveFields schema ⟨typeName, entity, localAlias (next + 1), authenticated⟩ (next + 2)
          fields >>= fun selected =>
            Level.clauses ⟨typeName, entity, localAlias (next + 1), authenticated⟩ args >>=
              fun clauses => (matchPredicate constraint typeName entity (localAlias (next + 1))).map
                (assembleLevel schema fetch
                  ⟨typeName, entity, localAlias (next + 1), authenticated⟩ selected clauses)) ↔
        QueryNode.SelectionAcceptable schema authenticated entity fields ∧
          (∀ arg ∈ args, entity.AcceptsArgument authenticated arg) ∧
            ∀ child ∈ constraint.map Constraint.child, entity.Matches child := by
      intro entity
      rw [succeeds_bind_iff _ _ ((∀ arg ∈ args, entity.AcceptsArgument authenticated arg) ∧
        ∀ child ∈ constraint.map Constraint.child, entity.Matches child), ih]
      intro selected _
      rw [succeeds_bind_iff _ _ (∀ child ∈ constraint.map Constraint.child, entity.Matches child),
        Level.succeeds_clauses_iff]
      intro clauses _
      rw [succeeds_map_iff, succeeds_matchPredicate_iff]
    rw [resolveLevel_typed]
    constructor
    · rintro ⟨r, hr⟩
      rcases (bind_eq_ok_iff _ _ _).mp hr with ⟨entity, hentity, hrest⟩
      rcases (schema.levelEntity_eq_ok_iff position fetch constraint typeName fields entity
        hposition).mp hentity with ⟨hentity, hfields, hlisted⟩
      rcases (hstages entity).mp ⟨r, hrest⟩ with ⟨hselection, hargs, hmatched⟩
      exact .level _ name aliasName typeName entity fields more args hentity hfields hlisted
        hselection hargs hmatched
    · intro h
      cases h with
      | level _ _ _ _ entity _ _ _ hentity hfields hlisted hselection hargs hmatched =>
          rcases (hstages entity).mpr ⟨hselection, hargs, hmatched⟩ with ⟨r, hr⟩
          exact ⟨r, (bind_eq_ok_iff _ _ _).mpr ⟨entity, (schema.levelEntity_eq_ok_iff position fetch
            constraint typeName fields entity hposition).mpr ⟨hentity, hfields, hlisted⟩, hr⟩⟩
  · intro level next
    exact ⟨fun _ => .nil level.entity, fun _ => ⟨_, by rw [resolveFields]⟩⟩
  · intro key node rest ihnode ihrest level next
    -- A nested level is always restricted.
    have hnested : ∀ (fetch : Fetch) (constraint : Constraint), some constraint = none →
        Position.nested = .top ∧ fetch = .aggregation :=
      fun _ constraint h => absurd h (Option.some_ne_none constraint)
    constructor
    · rintro ⟨r, hr⟩
      rcases resolveFields_cons_eq_ok schema level next key node rest r hr with
        ⟨field, hfield, ⟨hrelation, others, hothers, _⟩ |
          ⟨use, fetch, constraint, below, others, hrelation, hlink, hbelow, hothers, _⟩⟩
      · exact .plain _ key node field.value rest
          ((level.offers_iff node.name field.value).mpr ⟨field, hfield, rfl⟩) hrelation
          ((ihrest level next).mp ⟨others, hothers⟩)
      · exact .related _ key node field.value use constraint.child rest
          ((level.offers_iff node.name field.value).mpr ⟨field, hfield, rfl⟩) hrelation
          ((schema.links_iff level node.name field.value use _).mpr
            ⟨fetch, constraint, hlink, rfl⟩)
          ((ihnode level.authenticated fetch .nested (some constraint) next (hnested _ _)).mp
            ⟨below, hbelow⟩)
          ((ihrest level below.next).mp ⟨others, hothers⟩)
    · intro h
      rw [resolveFields_cons]
      cases h with
      | plain _ _ _ field _ hfield hrelation hrest =>
          rcases (level.offers_iff node.name field).mp hfield with ⟨g, hg, rfl⟩
          rcases (ihrest level next).mpr hrest with ⟨others, hothers⟩
          simp only [hg, hrelation, hothers, bind, Except.bind, Except.map]
          exact succeeds_ok _
      | related _ _ _ field use child _ hfield hrelation hlink hnode hrest =>
          rcases (level.offers_iff node.name field).mp hfield with ⟨g, hg, rfl⟩
          rcases (schema.links_iff level node.name g.value use child).mp hlink with
            ⟨fetch, constraint, hlinked, rfl⟩
          rcases (ihnode level.authenticated fetch .nested (some constraint) next
            (hnested _ _)).mpr hnode with ⟨below, hbelow⟩
          rcases (ihrest level below.next).mpr hrest with ⟨others, hothers⟩
          simp only [hg, hrelation, hlinked, hbelow, hothers, bind, Except.bind, Except.map,
            Except.mapError]
          exact succeeds_ok _

/-- Which queries are accepted. A query can be compiled exactly if its request is
    acceptable to the caller, with the rows of its outermost level matched by the
    column of the constraint, if there is one. What the constraint compares the
    column with does not matter. -/
theorem compileQuery_acceptable (schema : Schema) (minDepth : Nat) (authenticated : Bool)
    (constraint : Option Constraint) (node : QueryNode) :
    (∃ c, schema.compileQuery minDepth authenticated constraint node = .ok c) ↔
      node.Acceptable schema authenticated (constraint.map Constraint.child) := by
  have hresolve := (resolve_acceptable schema).1 node authenticated .aggregation .top constraint 0
    fun _ => ⟨rfl, rfl⟩
  exact (succeeds_map_iff _ _).trans hresolve

namespace Blog

/-- The names of two users, sorted. -/
def pair (sortedBy : String) : QueryNode where
  name := "users"
  aliasName := none
  fieldsByTypeName := [("User", [leaf "name"])]
  args := [("where", .object [("id", .object [("in", .array [.string "1", .int 2])])]),
    ("orderBy", .array [.string sortedBy])]

/-- Everyone may sort and filter users by what is stored and public. -/
theorem user_offersColumn (name : String) (h : name ∈ ["id", "name"]) :
    user.OffersColumn false name := by
  have hstored : ∀ name ∈ ["id", "name"], user.field? name = some ⟨some name, none⟩ ∧
      name ∈ user.publicFieldNames := by
    decide
  exact ⟨⟨some name, none⟩, ⟨(hstored name h).1, Or.inl (hstored name h).2⟩, rfl, rfl⟩

end Blog

/-- A list of identifiers and a sort with a direction are accepted, and what is behind the
    name has to be a direction. -/
theorem compileQuery_acceptable_pair :
    (Blog.pair "name_DESC").Acceptable Blog.schema false none ∧
      (∃ c, Blog.schema.compileQuery 3 false none (Blog.pair "name_DESC") = .ok c) ∧
      ¬ (Blog.pair "name_DOWN").Acceptable Blog.schema false none ∧
      Blog.schema.compileQuery 3 false none (Blog.pair "name_DOWN") =
        .error (.unknownField "User" "name_DOWN") := by
  have hselection : QueryNode.SelectionAcceptable Blog.schema false Blog.user
      [Blog.leaf "name"] :=
    .plain _ _ _ ⟨some "name", none⟩ _ ⟨rfl, Or.inl (by decide)⟩ rfl (.nil _)
  have hfilter : Blog.user.AcceptsFilter false
      (.object [("id", .object [("in", .array [.string "1", .int 2])])]) := by
    refine List.forall_mem_singleton.mpr (List.forall_mem_singleton.mpr
      ⟨Blog.user_offersColumn "id" (by decide), ?_⟩)
    exact Or.inr (Or.inr (Or.inr (Or.inl ⟨rfl, _, rfl, List.cons_ne_nil _ _, by decide⟩)))
  have hsort : Blog.user.AcceptsSort false (.array [.string "name_DESC"]) :=
    List.forall_mem_singleton.mpr
      ⟨.descending, "name", rfl, nofun, Blog.user_offersColumn "name" (by decide)⟩
  have hacceptable : (Blog.pair "name_DESC").Acceptable Blog.schema false none := by
    refine .level none _ _ "User" Blog.user _ [] _ rfl (List.cons_ne_nil _ _) ?_ hselection ?_
      fun child hchild => absurd hchild (Option.not_mem_none child)
    · exact fun hlisted => absurd hlisted.2 (by decide)
    · refine List.forall_mem_cons.mpr ⟨?_, List.forall_mem_singleton.mpr ?_⟩
      · exact ⟨fun _ => hfilter, nofun, nofun⟩
      · exact ⟨nofun, fun _ => hsort, nofun⟩
  have hrefused : Blog.schema.compileQuery 3 false none (Blog.pair "name_DOWN") =
      .error (.unknownField "User" "name_DOWN") := rfl
  refine ⟨hacceptable, (compileQuery_acceptable Blog.schema 3 false none _).mpr hacceptable, ?_,
    hrefused⟩
  intro hdown
  rcases (compileQuery_acceptable Blog.schema 3 false none _).mpr hdown with ⟨c, hc⟩
  rw [hrefused] at hc
  simp only [reduceCtorEq] at hc

end ViewCompiler
