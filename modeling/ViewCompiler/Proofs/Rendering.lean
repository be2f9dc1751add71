import ViewCompiler.Proofs.Blanks

/-!
# Trees and What They Are Written As

Induction over SQL trees, and the two views of what a tree is written as: its
text, and the values that the text has placeholders for.

Columns, predicates and selects contain each other, partly through lists and
optional parts, so an induction over them has to visit a dozen types.
`TreeInduction` reduces these to the three that matter. Its fields are the
cases, one for each constructor, and the parts of a list or of an option come
with their hypotheses one by one.

The text of pieces depends on how many parameters came before, because that is
what placeholders are numbered by. `written` is the text with that number as an
argument, and `Draft.append_eq` says that a draft grows by exactly that text.

What a tree holds besides names is listed by `Select.leaves`, in the order in
which it is written: the values, which are bound, and the element types of
arrays, which are the only strings of a tree that reach the text as they are.

## Main definitions

* `TreeInduction`: The cases of an induction over trees.
* `written`: The text of pieces after a number of parameters.
* `Leaf`: A value or an element type.
* `Column.leaves`, `Predicate.leaves`, `Select.leaves`: The leaves of a tree.
* `valuesOf`, `elementTypesOf`: The two kinds of leaves.
* `EveryType`: A property of all element types.
* `Column.render`, `Predicate.render`: Columns and predicates on their own.

## Theorems

* `TreeInduction.forColumn`, `TreeInduction.forPredicate`,
  `TreeInduction.forSelect`: What the cases amount to.
* `Draft.append_eq`: What a draft grows by.
* `written_append`: The text of pieces in two portions.
* `pieces_params`: The parameters of a tree are its values.
-/

namespace ViewCompiler

namespace Sql

/-! ### Induction -/

/-- The cases of an induction over columns, predicates and selects. -/
structure TreeInduction (C : Column → Prop) (P : Predicate → Prop) (S : Select → Prop) :
    Prop where
  physical : ∀ tableAlias name, C (.physical tableAlias name)
  param : ∀ p, C (.param p)
  rowToJson : ∀ tableAlias, C (.rowToJson tableAlias)
  jsonAgg : ∀ c, C c → C (.jsonAgg c)
  subSelect : ∀ s, S s → C (.subSelect s)
  array : ∀ c elementType, C c → C (.array c elementType)
  null : C .null
  always : P .always
  never : P .never
  compare : ∀ op l r, C l → C r → P (.compare op l r)
  isIn : ∀ c es, C c → (∀ e ∈ es, C e) → P (.isIn c es)
  isNull : ∀ c, C c → P (.isNull c)
  isNotNull : ∀ c, C c → P (.isNotNull c)
  and : ∀ l r, P l → P r → P (.and l r)
  select : ∀ columns source predicate orderBy limit offset,
    (∀ item ∈ columns, C item.column) →
    (∀ s aliasName, source = some (.subSelect s aliasName) → S s) →
    P predicate →
    (∀ terms, orderBy = some terms → ∀ term ∈ terms, C term.column) →
    S ⟨columns, source, predicate, orderBy, limit, offset⟩

namespace TreeInduction

variable {C : Column → Prop} {P : Predicate → Prop} {S : Select → Prop}

mutual
theorem forColumn (h : TreeInduction C P S) (c : Column) : C c := by
  match c with
  | .physical tableAlias name => exact h.physical tableAlias name
  | .param p => exact h.param p
  | .rowToJson tableAlias => exact h.rowToJson tableAlias
  | .jsonAgg c => exact h.jsonAgg c (h.forColumn c)
  | .subSelect s => exact h.subSelect s (h.forSelect s)
  | .array c elementType => exact h.array c elementType (h.forColumn c)
  | .null => exact h.null
theorem forColumns (h : TreeInduction C P S) (cs : List Column) : ∀ c ∈ cs, C c := by
  match cs with
  | [] => exact fun c hc => absurd hc List.not_mem_nil
  | first :: rest =>
      intro c hc
      rcases List.mem_cons.mp hc with hfirst | hrest
      · rw [hfirst]
        exact h.forColumn first
      · exact h.forColumns rest c hrest
theorem forPredicate (h : TreeInduction C P S) (p : Predicate) : P p := by
  match p with
  | .always => exact h.always
  | .never => exact h.never
  | .compare op l r => exact h.compare op l r (h.forColumn l) (h.forColumn r)
  | .isIn c es => exact h.isIn c es (h.forColumn c) (h.forColumns es)
  | .isNull c => exact h.isNull c (h.forColumn c)
  | .isNotNull c => exact h.isNotNull c (h.forColumn c)
  | .and l r => exact h.and l r (h.forPredicate l) (h.forPredicate r)
theorem forItems (h : TreeInduction C P S) (is : List SelectItem) : ∀ i ∈ is, C i.column := by
  match is with
  | [] => exact fun i hi => absurd hi List.not_mem_nil
  | ⟨c, a⟩ :: rest =>
      intro i hi
      rcases List.mem_cons.mp hi with hfirst | hrest
      · rw [hfirst]
        exact h.forColumn c
      · exact h.forItems rest i hrest
theorem forSource (h : TreeInduction C P S) (source : Option Source) :
    ∀ s aliasName, source = some (.subSelect s aliasName) → S s := by
  match source with
  | none => exact fun s aliasName hs => by simp only [reduceCtorEq] at hs
  | some (.view _ _) =>
      intro s aliasName hs
      simp only [Option.some.injEq, reduceCtorEq] at hs
  | some (.subSelect inner _) =>
      intro s aliasName hs
      simp only [Option.some.injEq, Source.subSelect.injEq] at hs
      rw [← hs.1]
      exact h.forSelect inner
theorem forTerms (h : TreeInduction C P S) (ts : List OrderTerm) : ∀ t ∈ ts, C t.column := by
  match ts with
  | [] => exact fun t ht => absurd ht List.not_mem_nil
  | ⟨c, d⟩ :: rest =>
      intro t ht
      rcases List.mem_cons.mp ht with hfirst | hrest
      · rw [hfirst]
        exact h.forColumn c
      · exact h.forTerms rest t hrest
theorem forSort (h : TreeInduction C P S) (orderBy : Option (List OrderTerm)) :
    ∀ terms, orderBy = some terms → ∀ term ∈ terms, C term.column := by
  match orderBy with
  | none => exact fun terms hterms => by simp only [reduceCtorEq] at hterms
  | some ts =>
      intro terms hterms
      rw [← Option.some.inj hterms]
      exact h.forTerms ts
theorem forSelect (h : TreeInduction C P S) (s : Select) : S s := by
  match s with
  | ⟨columns, source, predicate, orderBy, limit, offset⟩ =>
      exact h.select columns source predicate orderBy limit offset (h.forItems columns)
        (h.forSource source) (h.forPredicate predicate) (h.forSort orderBy)
end

end TreeInduction

/-! ### The text of pieces -/

/-- The text of pieces that come after `n` parameters. -/
def written (n : Nat) : List Piece → List Char
  | [] => []
  | .text s :: rest => s.toList ++ written n rest
  | .name s :: rest => (quoteName s).toList ++ written n rest
  | .bind _ :: rest => (placeholder (n + 1)).toList ++ written (n + 1) rest

/-- The parameters of pieces. -/
def paramsOf (pieces : List Piece) : List Param :=
  pieces.filterMap Piece.param?

theorem paramsOf_append (ps qs : List Piece) : paramsOf (ps ++ qs) = paramsOf ps ++ paramsOf qs :=
  List.filterMap_append

/-- The second portion is numbered from where the first one stops. -/
theorem written_append (n : Nat) (ps qs : List Piece) :
    written n (ps ++ qs) = written n ps ++ written (n + (paramsOf ps).length) qs := by
  induction ps generalizing n with
  | nil => rfl
  | cons p rest ih =>
      cases p with
      | text s => simp only [List.cons_append, written, ih, List.append_assoc, paramsOf,
          List.filterMap_cons, Piece.param?]
      | name s => simp only [List.cons_append, written, ih, List.append_assoc, paramsOf,
          List.filterMap_cons, Piece.param?]
      | bind p =>
          have hcount : n + (paramsOf (.bind p :: rest)).length =
              n + 1 + (paramsOf rest).length := by
            simp only [paramsOf, List.filterMap_cons, Piece.param?, List.length_cons]
            omega
          simp only [List.cons_append, written, ih, List.append_assoc, hcount]

/-- A draft grows by the text of the pieces, numbered from the parameters it
    has, and by their parameters. -/
theorem Draft.append_eq (d : Draft) (pieces : List Piece) :
    d.append pieces = ⟨d.sql ++ String.ofList (written d.params.length pieces),
      d.params ++ paramsOf pieces, d.qualified⟩ := by
  induction pieces generalizing d with
  | nil => simp only [Draft.append, List.foldl_nil, written, paramsOf, List.filterMap_nil,
      String.ofList_nil, String.append_empty, List.append_nil]
  | cons piece rest ih =>
      have hstep : d.append (piece :: rest) = (d.push piece).append rest := rfl
      rw [hstep, ih]
      cases piece <;>
        simp only [Draft.push, written, paramsOf, List.filterMap_cons, Piece.param?,
          String.ofList_append, String.ofList_toList, String.append_assoc, List.length_append,
          List.length_cons, List.length_nil, List.append_assoc, List.cons_append, List.nil_append]

/-- A column on its own as text and parameters. -/
def Column.render (c : Column) : Draft := Draft.ofPieces (c.pieces true)

/-- A predicate on its own as text and parameters. -/
def Predicate.render (p : Predicate) : Draft := Draft.ofPieces (p.pieces true)

theorem Draft.ofPieces_eq (pieces : List Piece) :
    Draft.ofPieces pieces = ⟨String.ofList (written 0 pieces), paramsOf pieces, true⟩ := by
  simp only [Draft.ofPieces, Draft.append_eq, Draft.empty, List.length_nil, String.empty_append,
    List.nil_append]

/-! ### Lists of trees -/

theorem Column.portions_eq_map (qualified : Bool) (cs : List Column) :
    Column.portions qualified cs = cs.map (Column.pieces qualified) := by
  induction cs with
  | nil => rw [Column.portions, List.map_nil]
  | cons c rest ih => rw [Column.portions, List.map_cons, ih]

theorem SelectItem.portions_eq_map (qualified : Bool) (is : List SelectItem) :
    SelectItem.portions qualified is = is.map (SelectItem.pieces qualified) := by
  induction is with
  | nil => rw [SelectItem.portions, List.map_nil]
  | cons i rest ih => rw [SelectItem.portions, List.map_cons, ih]

theorem OrderTerm.portions_eq_map (qualified : Bool) (ts : List OrderTerm) :
    OrderTerm.portions qualified ts = ts.map (OrderTerm.pieces qualified) := by
  induction ts with
  | nil => rw [OrderTerm.portions, List.map_nil]
  | cons t rest ih => rw [OrderTerm.portions, List.map_cons, ih]

/-! ### Leaves -/

/-- What a tree holds besides names. -/
inductive Leaf where
  /-- A value that is bound. -/
  | value (p : Param)
  /-- The element type of an array. -/
  | elementType (t : String)
deriving DecidableEq

mutual
/-- The leaves of a column, in the order in which they are written. -/
def Column.leaves : Column → List Leaf
  | .physical _ _ => []
  | .param p => [.value p]
  | .rowToJson _ => []
  | .jsonAgg c => c.leaves
  | .subSelect s => s.leaves
  | .array c elementType => c.leaves ++ [.elementType elementType]
  | .null => []
def Column.leavesOfList : List Column → List Leaf
  | [] => []
  | c :: cs => c.leaves ++ Column.leavesOfList cs
/-- The leaves of a predicate. -/
def Predicate.leaves : Predicate → List Leaf
  | .always => []
  | .never => []
  | .compare _ l r => l.leaves ++ r.leaves
  | .isIn c es => c.leaves ++ Column.leavesOfList es
  | .isNull c => c.leaves
  | .isNotNull c => c.leaves
  | .and l r => l.leaves ++ r.leaves
def SelectItem.leavesOfList : List SelectItem → List Leaf
  | [] => []
  | ⟨c, _⟩ :: is => c.leaves ++ SelectItem.leavesOfList is
def Source.leaves : Source → List Leaf
  | .view _ _ => []
  | .subSelect s _ => s.leaves
def Source.leavesOfOption : Option Source → List Leaf
  | none => []
  | some s => s.leaves
def OrderTerm.leavesOfList : List OrderTerm → List Leaf
  | [] => []
  | ⟨c, _⟩ :: ts => c.leaves ++ OrderTerm.leavesOfList ts
def OrderTerm.leavesOfOption : Option (List OrderTerm) → List Leaf
  | none => []
  | some ts => OrderTerm.leavesOfList ts
/-- The leaves of a query. A page bound is bound like any other value. -/
def Select.leaves : Select → List Leaf
  | ⟨columns, source, predicate, orderBy, limit, offset⟩ =>
      SelectItem.leavesOfList columns ++ Source.leavesOfOption source ++ predicate.leaves ++
        OrderTerm.leavesOfOption orderBy ++ limit.toList.map (fun n => .value (.int8 n)) ++
        offset.toList.map (fun n => .value (.int8 n))
end

/-- The values among leaves. -/
def valuesOf (leaves : List Leaf) : List Param :=
  leaves.filterMap fun
    | .value p => some p
    | .elementType _ => none

/-- The element types among leaves. -/
def elementTypesOf (leaves : List Leaf) : List String :=
  leaves.filterMap fun
    | .value _ => none
    | .elementType t => some t

theorem valuesOf_append (ls ms : List Leaf) : valuesOf (ls ++ ms) = valuesOf ls ++ valuesOf ms :=
  List.filterMap_append

theorem elementTypesOf_append (ls ms : List Leaf) :
    elementTypesOf (ls ++ ms) = elementTypesOf ls ++ elementTypesOf ms :=
  List.filterMap_append

/-- Leaves whose element types all have a property. -/
def EveryType (P : String → Prop) (leaves : List Leaf) : Prop :=
  ∀ t ∈ elementTypesOf leaves, P t

namespace EveryType

variable {P : String → Prop} {ls ms : List Leaf}

theorem left (h : EveryType P (ls ++ ms)) : EveryType P ls := fun t ht =>
  h t (by rw [elementTypesOf_append]; exact List.mem_append_left _ ht)

theorem right (h : EveryType P (ls ++ ms)) : EveryType P ms := fun t ht =>
  h t (by rw [elementTypesOf_append]; exact List.mem_append_right _ ht)

theorem item {α : Type} {items : List α} {leaves : α → List Leaf}
    (h : EveryType P (items.flatMap leaves)) (a : α) (ha : a ∈ items) :
    EveryType P (leaves a) := by
  intro t ht
  refine h t ?_
  rw [elementTypesOf, List.mem_filterMap] at ht ⊢
  rcases ht with ⟨leaf, hleaf, heq⟩
  exact ⟨leaf, List.mem_flatMap.mpr ⟨a, ha, hleaf⟩, heq⟩

end EveryType

theorem Column.leavesOfList_eq (cs : List Column) :
    Column.leavesOfList cs = cs.flatMap Column.leaves := by
  induction cs with
  | nil => rw [Column.leavesOfList, List.flatMap_nil]
  | cons c rest ih => rw [Column.leavesOfList, List.flatMap_cons, ih]

theorem SelectItem.leavesOfList_eq (is : List SelectItem) :
    SelectItem.leavesOfList is = is.flatMap fun i => i.column.leaves := by
  induction is with
  | nil => rw [SelectItem.leavesOfList, List.flatMap_nil]
  | cons i rest ih =>
      rcases i with ⟨c, a⟩
      rw [SelectItem.leavesOfList, List.flatMap_cons, ih]

theorem OrderTerm.leavesOfList_eq (ts : List OrderTerm) :
    OrderTerm.leavesOfList ts = ts.flatMap fun t => t.column.leaves := by
  induction ts with
  | nil => rw [OrderTerm.leavesOfList, List.flatMap_nil]
  | cons t rest ih =>
      rcases t with ⟨c, d⟩
      rw [OrderTerm.leavesOfList, List.flatMap_cons, ih]

/-! ### Parameters are values -/

@[simp] theorem paramsOf_nil : paramsOf [] = [] := rfl

@[simp] theorem paramsOf_text (s : String) (rest : List Piece) :
    paramsOf (.text s :: rest) = paramsOf rest := rfl

@[simp] theorem paramsOf_name (s : String) (rest : List Piece) :
    paramsOf (.name s :: rest) = paramsOf rest := rfl

@[simp] theorem paramsOf_bind (p : Param) (rest : List Piece) :
    paramsOf (.bind p :: rest) = p :: paramsOf rest := rfl

/-- Separators have no parameters. -/
theorem paramsOf_separated (separator : String) (portions : List (List Piece)) :
    paramsOf (separated separator portions) = portions.flatMap paramsOf := by
  induction portions with
  | nil => rfl
  | cons portion rest ih =>
      cases rest with
      | nil => simp only [separated, List.flatMap_cons, List.flatMap_nil, List.append_nil]
      | cons next more =>
          simp only [separated, paramsOf_append, paramsOf_text, ih, List.flatMap_cons]

theorem paramsOf_aliasPieces (aliasName : Option String) : paramsOf (aliasPieces aliasName) = [] := by
  cases aliasName <;> rfl

-- The parts of a list are written one after the other, with separators that
-- hold no parameter between them.
theorem paramsOf_separated_map {α : Type} (separator : String) (items : List α)
    (pieces : α → List Piece) (leaves : α → List Leaf)
    (h : ∀ a ∈ items, paramsOf (pieces a) = valuesOf (leaves a)) :
    paramsOf (separated separator (items.map pieces)) = valuesOf (items.flatMap leaves) := by
  rw [paramsOf_separated, List.flatMap_map]
  induction items with
  | nil => rfl
  | cons a rest ih =>
      rw [List.flatMap_cons, List.flatMap_cons, valuesOf_append, h a List.mem_cons_self,
        ih fun b hb => h b (List.mem_cons_of_mem a hb)]

theorem paramsOf_wherePieces (p : Predicate) (condition : List Piece)
    (h : paramsOf condition = valuesOf p.leaves) :
    paramsOf (wherePieces p.isAlways condition) = valuesOf p.leaves := by
  -- The condition that is left out has no values.
  cases p with
  | always => simp only [Predicate.isAlways, wherePieces, if_true, Predicate.leaves]; rfl
  | _ => simpa only [Predicate.isAlways, wherePieces, Bool.false_eq_true, if_false, paramsOf_text]
      using h

theorem SelectItem.pieces_params (qualified : Bool) (i : SelectItem)
    (h : paramsOf (i.column.pieces qualified) = valuesOf i.column.leaves) :
    paramsOf (i.pieces qualified) = valuesOf i.column.leaves := by
  rcases i with ⟨c, a⟩
  rw [SelectItem.pieces, paramsOf_append, paramsOf_aliasPieces, List.append_nil]
  exact h

theorem OrderTerm.pieces_params (qualified : Bool) (t : OrderTerm)
    (h : paramsOf (t.column.pieces qualified) = valuesOf t.column.leaves) :
    paramsOf (t.pieces qualified) = valuesOf t.column.leaves := by
  rcases t with ⟨c, d⟩
  rw [OrderTerm.pieces, paramsOf_append, paramsOf_text, paramsOf_nil, List.append_nil]
  exact h

theorem Source.pieces_params (qualified : Bool) (source : Source)
    (h : ∀ s a, source = .subSelect s a → paramsOf (s.pieces qualified) = valuesOf s.leaves) :
    paramsOf (source.pieces qualified) = valuesOf source.leaves := by
  cases source with
  | view v a =>
      rw [Source.pieces, Source.leaves, paramsOf_append, paramsOf_aliasPieces]
      rfl
  | subSelect s a =>
      rw [Source.pieces, Source.leaves, paramsOf_text, paramsOf_append, paramsOf_text,
        paramsOf_aliasPieces, List.append_nil]
      exact h s a rfl

/-- The parameters of a tree are its values, in the order of both. -/
theorem pieces_params (qualified : Bool) :
    TreeInduction (fun c => paramsOf (c.pieces qualified) = valuesOf c.leaves)
      (fun p => paramsOf (p.pieces qualified) = valuesOf p.leaves)
      (fun s => paramsOf (s.pieces qualified) = valuesOf s.leaves) where
  physical tableAlias name := by
    rw [Column.pieces, Column.leaves]
    cases qualified <;> rfl
  param p := by rw [Column.pieces, Column.leaves]; rfl
  rowToJson tableAlias := by rw [Column.pieces, Column.leaves]; rfl
  jsonAgg c ih := by
    rw [Column.pieces, Column.leaves, paramsOf_text, paramsOf_append, ih]
    exact List.append_nil _
  subSelect s ih := by
    rw [Column.pieces, Column.leaves, paramsOf_text, paramsOf_append, ih]
    exact List.append_nil _
  array c elementType ih := by
    rw [Column.pieces, Column.leaves, paramsOf_text, paramsOf_append, valuesOf_append, ih]
    rfl
  null := by rw [Column.pieces, Column.leaves]; rfl
  always := by rw [Predicate.pieces, Predicate.leaves]; rfl
  never := by rw [Predicate.pieces, Predicate.leaves]; rfl
  compare op l r ihl ihr := by
    rw [Predicate.pieces, Predicate.leaves, paramsOf_append, paramsOf_text, valuesOf_append, ihl,
      ihr]
  isIn c es ihc ihes := by
    rw [Predicate.pieces, Predicate.leaves, Column.portions_eq_map, Column.leavesOfList_eq,
      paramsOf_append, paramsOf_text, paramsOf_append, valuesOf_append, ihc,
      paramsOf_separated_map ", " es _ _ ihes]
    simp only [paramsOf_text, paramsOf_nil, List.append_nil]
  isNull c ih := by
    rw [Predicate.pieces, Predicate.leaves, paramsOf_append, ih]
    exact List.append_nil _
  isNotNull c ih := by
    rw [Predicate.pieces, Predicate.leaves, paramsOf_append, ih]
    exact List.append_nil _
  and l r ihl ihr := by
    rw [Predicate.pieces, Predicate.leaves, paramsOf_text, paramsOf_append, paramsOf_text,
      paramsOf_append, valuesOf_append, ihl, ihr]
    simp only [paramsOf_text, paramsOf_nil, List.append_nil]
  select columns source predicate orderBy limit offset ihcolumns ihsource ihpredicate ihorder := by
    have hcolumns : paramsOf (separated ", " (SelectItem.portions qualified columns)) =
        valuesOf (SelectItem.leavesOfList columns) := by
      rw [SelectItem.portions_eq_map, SelectItem.leavesOfList_eq]
      exact paramsOf_separated_map ", " columns _ _ fun item hitem =>
        item.pieces_params qualified (ihcolumns item hitem)
    have hsource : paramsOf (fromPieces qualified source) =
        valuesOf (Source.leavesOfOption source) := by
      cases source with
      | none => rfl
      | some source =>
          rw [fromPieces, paramsOf_text, Source.leavesOfOption]
          exact source.pieces_params qualified fun s a hs => ihsource s a (congrArg some hs)
    have horder : paramsOf (sortPieces qualified orderBy) =
        valuesOf (OrderTerm.leavesOfOption orderBy) := by
      cases orderBy with
      | none => rfl
      | some terms =>
          rw [sortPieces, OrderTerm.portions_eq_map, OrderTerm.leavesOfOption,
            OrderTerm.leavesOfList_eq, paramsOf_text, paramsOf_text]
          exact paramsOf_separated_map ", " terms _ _ fun term hterm =>
            term.pieces_params qualified (ihorder terms rfl term hterm)
    rw [Select.pieces_eq, Select.leaves]
    simp only [paramsOf_text, paramsOf_append, valuesOf_append, hcolumns, hsource, horder,
      paramsOf_wherePieces predicate _ ihpredicate]
    cases limit <;> cases offset <;> rfl

end Sql

end ViewCompiler
