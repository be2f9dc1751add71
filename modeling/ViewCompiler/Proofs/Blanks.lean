import Mathlib.Data.List.Forall2
import ViewCompiler.Query.Compile

/-!
# Statements Without Their Values

What is left of a statement if the values of its parameters are blanked out.

A blank keeps the type of a parameter and forgets its value. Blanking a tree
puts a blank in the place of every parameter and of every page bound, which
becomes a parameter when the tree is rendered. Rendering and blanking can be
done in either order (`Select.pieces_blank`), and pieces have the same text
before and after blanking. So two trees that are the same once they are
blanked are rendered as the same text, with parameters of the same types in
the same places. `Select.render_of_blank_eq` is the form in which this is used.

Blanking also commutes with everything that puts trees together, and cost
trees can be blanked in the same way: there it is the bounds that go.

## Main definitions

* `Param.SameType`: Parameters that differ in their value at most.
* `Param.blank`, `Piece.blank`: A parameter, or a piece, without the value.
* `Column.blank`, `Predicate.blank`, `Select.blank` and their companions: A
  tree without its values.
* `CostTree.blank`: A cost tree without its bounds.

## Theorems

* `Select.pieces_blank`: Rendering commutes with blanking.
* `Draft.append_blank`: Blanking pieces does not change their text.
* `Select.render_of_blank_eq`: What trees have in common that differ in their
  values only.
* `Predicate.blank_all`: Conjunctions commute with blanking.
* `CostTree.maxDepth_blank`: Bounds do not count for the depth.
-/

namespace ViewCompiler

namespace Sql

/-! ### Parameters and pieces -/

/-- Two parameters have the same type if both are texts or both are numbers. -/
inductive Param.SameType : Param → Param → Prop where
  | text (s t : Option String) : SameType (.text s) (.text t)
  | int8 (m n : Int) : SameType (.int8 m) (.int8 n)

/-- A parameter without its value. -/
def Param.blank : Param → Param
  | .text _ => .text none
  | .int8 _ => .int8 0

theorem Param.sameType_of_blank_eq (p q : Param) (h : p.blank = q.blank) : p.SameType q := by
  cases p with
  | text s =>
      cases q with
      | text t => exact .text s t
      | int8 n => simp only [Param.blank, reduceCtorEq] at h
  | int8 m =>
      cases q with
      | text t => simp only [Param.blank, reduceCtorEq] at h
      | int8 n => exact .int8 m n

/-- A piece without the value of its parameter. -/
def Piece.blank : Piece → Piece
  | .bind p => .bind p.blank
  | piece => piece

/-- A draft without the values of its parameters. -/
def Draft.blank (d : Draft) : Draft := { d with params := d.params.map Param.blank }

-- A placeholder has a number and no value, so it is the same for a blank.
theorem Draft.push_blank (d : Draft) (piece : Piece) :
    (d.push piece).blank = d.blank.push piece.blank := by
  cases piece with
  | text s => rfl
  | name s => rfl
  | bind p =>
      simp only [Draft.push, Draft.blank, Piece.blank, List.map_append, List.map_cons, List.map_nil,
        List.length_map]

theorem Draft.append_blank (d : Draft) (pieces : List Piece) :
    (d.append pieces).blank = d.blank.append (pieces.map Piece.blank) := by
  induction pieces generalizing d with
  | nil => rfl
  | cons piece rest ih =>
      have hstep : d.append (piece :: rest) = (d.push piece).append rest := rfl
      rw [hstep, ih, Draft.push_blank]
      rfl

theorem separated_blank (separator : String) (portions : List (List Piece)) :
    separated separator (portions.map (List.map Piece.blank)) =
      (separated separator portions).map Piece.blank := by
  induction portions with
  | nil => rfl
  | cons portion rest ih =>
      cases rest with
      | nil => rfl
      | cons next more =>
          simp only [List.map_cons, separated, List.map_append] at ih ⊢
          rw [ih]
          rfl

/-! ### Trees -/

mutual
/-- A column without its values. -/
def Column.blank : Column → Column
  | .physical tableAlias name => .physical tableAlias name
  | .param p => .param p.blank
  | .rowToJson tableAlias => .rowToJson tableAlias
  | .jsonAgg c => .jsonAgg c.blank
  | .subSelect s => .subSelect s.blank
  | .array c elementType => .array c.blank elementType
  | .null => .null
def Column.blankList : List Column → List Column
  | [] => []
  | c :: cs => c.blank :: Column.blankList cs
/-- A predicate without its values. -/
def Predicate.blank : Predicate → Predicate
  | .always => .always
  | .never => .never
  | .compare op l r => .compare op l.blank r.blank
  | .isIn c es => .isIn c.blank (Column.blankList es)
  | .isNull c => .isNull c.blank
  | .isNotNull c => .isNotNull c.blank
  | .and l r => .and l.blank r.blank
def SelectItem.blankList : List SelectItem → List SelectItem
  | [] => []
  | ⟨c, a⟩ :: is => ⟨c.blank, a⟩ :: SelectItem.blankList is
def Source.blankOption : Option Source → Option Source
  | none => none
  | some (.view v a) => some (.view v a)
  | some (.subSelect s a) => some (.subSelect s.blank a)
def OrderTerm.blankList : List OrderTerm → List OrderTerm
  | [] => []
  | ⟨c, d⟩ :: ts => ⟨c.blank, d⟩ :: OrderTerm.blankList ts
def OrderTerm.blankOption : Option (List OrderTerm) → Option (List OrderTerm)
  | none => none
  | some ts => some (OrderTerm.blankList ts)
/-- A query without its values. -/
def Select.blank : Select → Select
  | ⟨columns, source, predicate, orderBy, limit, offset⟩ =>
      ⟨SelectItem.blankList columns, Source.blankOption source, predicate.blank,
        OrderTerm.blankOption orderBy, limit.map fun _ => 0, offset.map fun _ => 0⟩
end

theorem Predicate.isAlways_blank (p : Predicate) : p.blank.isAlways = p.isAlways := by
  cases p <;> simp only [Predicate.blank, Predicate.isAlways]

/-- The pieces of the clause that names the source. -/
def fromPieces (qualified : Bool) : Option Source → List Piece
  | none => []
  | some s => .text " FROM " :: s.pieces qualified

/-- The pieces of the clause that sorts. -/
def sortPieces (qualified : Bool) : Option (List OrderTerm) → List Piece
  | none => []
  | some ts => .text " " :: .text "ORDER BY " :: separated ", " (OrderTerm.portions qualified ts)

theorem Select.pieces_eq (qualified : Bool) (columns : List SelectItem) (source : Option Source)
    (predicate : Predicate) (orderBy : Option (List OrderTerm)) (limit offset : Option Int) :
    Select.pieces qualified ⟨columns, source, predicate, orderBy, limit, offset⟩ =
      .text "SELECT " :: (separated ", " (SelectItem.portions qualified columns) ++
        fromPieces qualified source ++
        wherePieces predicate.isAlways (predicate.pieces qualified) ++
        sortPieces qualified orderBy ++
        clausePieces (limit.map limitPieces) ++ clausePieces (offset.map offsetPieces)) := by
  cases source <;> cases orderBy <;> rfl

theorem limitPieces_blank (limit : Option Int) :
    clausePieces ((limit.map fun _ => 0).map limitPieces) =
      (clausePieces (limit.map limitPieces)).map Piece.blank := by
  cases limit <;> rfl

theorem offsetPieces_blank (offset : Option Int) :
    clausePieces ((offset.map fun _ => 0).map offsetPieces) =
      (clausePieces (offset.map offsetPieces)).map Piece.blank := by
  cases offset <;> rfl

theorem wherePieces_blank (isAlways : Bool) (condition : List Piece) :
    wherePieces isAlways (condition.map Piece.blank) =
      (wherePieces isAlways condition).map Piece.blank := by
  cases isAlways <;> rfl

mutual
theorem Column.pieces_blank (qualified : Bool) (c : Column) :
    c.blank.pieces qualified = (c.pieces qualified).map Piece.blank := by
  match c with
  | .physical tableAlias name =>
      rw [Column.blank, Column.pieces]
      cases qualified <;> rfl
  | .param p => simp only [Column.blank, Column.pieces, List.map_cons, List.map_nil, Piece.blank]
  | .rowToJson tableAlias =>
      simp only [Column.blank, Column.pieces, List.map_cons, List.map_nil, Piece.blank]
  | .jsonAgg c =>
      simp only [Column.blank, Column.pieces, Column.pieces_blank qualified c, List.map_cons,
        List.map_append, List.map_nil, Piece.blank]
  | .subSelect s =>
      simp only [Column.blank, Column.pieces, Select.pieces_blank qualified s, List.map_cons,
        List.map_append, List.map_nil, Piece.blank]
  | .array c elementType =>
      simp only [Column.blank, Column.pieces, Column.pieces_blank qualified c, List.map_cons,
        List.map_append, List.map_nil, Piece.blank]
  | .null => simp only [Column.blank, Column.pieces, List.map_cons, List.map_nil, Piece.blank]
theorem Column.portions_blank (qualified : Bool) (cs : List Column) :
    Column.portions qualified (Column.blankList cs) =
      (Column.portions qualified cs).map (List.map Piece.blank) := by
  match cs with
  | [] => simp only [Column.blankList, Column.portions, List.map_nil]
  | c :: cs =>
      simp only [Column.blankList, Column.portions, List.map_cons, Column.pieces_blank qualified c,
        Column.portions_blank qualified cs]
theorem Predicate.pieces_blank (qualified : Bool) (p : Predicate) :
    p.blank.pieces qualified = (p.pieces qualified).map Piece.blank := by
  match p with
  | .always =>
      simp only [Predicate.blank, Predicate.pieces, List.map_cons, List.map_nil, Piece.blank]
  | .never =>
      simp only [Predicate.blank, Predicate.pieces, List.map_cons, List.map_nil, Piece.blank]
  | .compare op l r =>
      simp only [Predicate.blank, Predicate.pieces, Column.pieces_blank qualified l,
        Column.pieces_blank qualified r, List.map_append, List.map_cons, Piece.blank]
  | .isIn c es =>
      simp only [Predicate.blank, Predicate.pieces, Column.pieces_blank qualified c,
        Column.portions_blank qualified es, separated_blank, List.map_append, List.map_cons,
        List.map_nil, Piece.blank]
  | .isNull c =>
      simp only [Predicate.blank, Predicate.pieces, Column.pieces_blank qualified c,
        List.map_append, List.map_cons, List.map_nil, Piece.blank]
  | .isNotNull c =>
      simp only [Predicate.blank, Predicate.pieces, Column.pieces_blank qualified c,
        List.map_append, List.map_cons, List.map_nil, Piece.blank]
  | .and l r =>
      simp only [Predicate.blank, Predicate.pieces, Predicate.pieces_blank qualified l,
        Predicate.pieces_blank qualified r, List.map_append, List.map_cons, List.map_nil,
        Piece.blank]
theorem SelectItem.portions_blank (qualified : Bool) (is : List SelectItem) :
    SelectItem.portions qualified (SelectItem.blankList is) =
      (SelectItem.portions qualified is).map (List.map Piece.blank) := by
  match is with
  | [] => simp only [SelectItem.blankList, SelectItem.portions, List.map_nil]
  | ⟨c, a⟩ :: is =>
      have halias : (aliasPieces a).map Piece.blank = aliasPieces a := by cases a <;> rfl
      simp only [SelectItem.blankList, SelectItem.portions, SelectItem.pieces, List.map_cons,
        List.map_append, halias, Column.pieces_blank qualified c,
        SelectItem.portions_blank qualified is]
theorem OrderTerm.portions_blank (qualified : Bool) (ts : List OrderTerm) :
    OrderTerm.portions qualified (OrderTerm.blankList ts) =
      (OrderTerm.portions qualified ts).map (List.map Piece.blank) := by
  match ts with
  | [] => simp only [OrderTerm.blankList, OrderTerm.portions, List.map_nil]
  | ⟨c, d⟩ :: ts =>
      simp only [OrderTerm.blankList, OrderTerm.portions, OrderTerm.pieces, List.map_cons,
        List.map_append, List.map_nil, Piece.blank, Column.pieces_blank qualified c,
        OrderTerm.portions_blank qualified ts]
theorem sortPieces_blank (qualified : Bool) (orderBy : Option (List OrderTerm)) :
    sortPieces qualified (OrderTerm.blankOption orderBy) =
      (sortPieces qualified orderBy).map Piece.blank := by
  match orderBy with
  | none => simp only [OrderTerm.blankOption, sortPieces, List.map_nil]
  | some ts =>
      simp only [OrderTerm.blankOption, sortPieces, OrderTerm.portions_blank qualified ts,
        separated_blank, List.map_cons, Piece.blank]
theorem fromPieces_blank (qualified : Bool) (source : Option Source) :
    fromPieces qualified (Source.blankOption source) =
      (fromPieces qualified source).map Piece.blank := by
  match source with
  | none => simp only [Source.blankOption, fromPieces, List.map_nil]
  | some (.view v a) =>
      simp only [Source.blankOption, fromPieces, Source.pieces, ViewName.pieces, aliasPieces,
        List.map_cons, List.map_append, List.map_nil, Piece.blank]
  | some (.subSelect s a) =>
      simp only [Source.blankOption, fromPieces, Source.pieces, Select.pieces_blank qualified s,
        aliasPieces, List.map_cons, List.map_append, List.map_nil, Piece.blank]
/-- The pieces of a blanked query are the blanked pieces. -/
theorem Select.pieces_blank (qualified : Bool) (s : Select) :
    s.blank.pieces qualified = (s.pieces qualified).map Piece.blank := by
  match s with
  | ⟨columns, source, predicate, orderBy, limit, offset⟩ =>
      rw [Select.blank, Select.pieces_eq, Select.pieces_eq, SelectItem.portions_blank,
        separated_blank, fromPieces_blank, Predicate.isAlways_blank, Predicate.pieces_blank, wherePieces_blank,
        sortPieces_blank, limitPieces_blank, offsetPieces_blank]
      simp only [List.map_cons, List.map_append, Piece.blank]
end

/-- Trees that differ in their values only have the same text, and their
    parameters have the same types. -/
theorem Select.render_of_blank_eq (s t : Select) (h : s.blank = t.blank) :
    s.render.sql = t.render.sql ∧ List.Forall₂ Param.SameType s.render.params t.render.params := by
  -- A blanked draft is the draft of the blanked tree.
  have hdraft : ∀ u : Select, u.render.blank = Draft.ofPieces (u.blank.pieces true) := by
    intro u
    rw [Select.pieces_blank]
    exact Draft.append_blank Draft.empty (u.pieces true)
  have hblank : s.render.blank = t.render.blank := by rw [hdraft, hdraft, h]
  simp only [Draft.blank, Draft.mk.injEq] at hblank
  refine ⟨hblank.1, ?_⟩
  have hparams : List.Forall₂ (fun p q : Param => p.blank = q.blank) s.render.params
      t.render.params := by
    have heq : List.Forall₂ (· = ·) (s.render.params.map Param.blank)
        (t.render.params.map Param.blank) := List.forall₂_eq_eq_eq.symm ▸ hblank.2.1
    rw [List.forall₂_map_left_iff, List.forall₂_map_right_iff] at heq
    exact heq
  exact hparams.imp fun p q => Param.sameType_of_blank_eq p q

/-! ### Putting trees together -/

theorem Predicate.blank_conj (p q : Predicate) : (p.conj q).blank = p.blank.conj q.blank := by
  cases p <;> cases q <;> simp only [Predicate.conj, Predicate.blank]

theorem Predicate.blank_all (ps : List Predicate) :
    (Predicate.all ps).blank = Predicate.all (ps.map Predicate.blank) := by
  suffices hfold : ∀ start : Predicate, (ps.foldl Predicate.conj start).blank =
      (ps.map Predicate.blank).foldl Predicate.conj start.blank by
    rw [Predicate.all, Predicate.all, hfold, Predicate.blank]
  induction ps with
  | nil => exact fun _ => rfl
  | cons p rest ih =>
      intro start
      rw [List.foldl_cons, List.map_cons, List.foldl_cons, ih, Predicate.blank_conj]

/-- The JSON around the rows of a level has no values of its own. -/
theorem levelColumn_blank (fetch : Fetch) (aliasName : String) (rows : Select)
    (resultKey : String) (others : List SelectItem) :
    SelectItem.blankList (levelColumn fetch aliasName rows resultKey :: others) =
      levelColumn fetch aliasName rows.blank resultKey :: SelectItem.blankList others := by
  have hrows : (asJson fetch aliasName rows).blank = asJson fetch aliasName rows.blank := by
    cases fetch <;>
      simp only [asJson, Select.ofSource, Select.blank, SelectItem.blankList, Column.blank,
        Source.blankOption, Predicate.blank, OrderTerm.blankOption, Option.map_none]
  simp only [levelColumn, SelectItem.blankList, Column.blank, hrows]

end Sql

/-! ### Cost trees -/

namespace CostTree

mutual
/-- A cost tree without its bounds; only that there is one is kept. -/
def blank : CostTree → CostTree
  | ⟨fetch, tableName, tableSchemaName, limit, children⟩ =>
      ⟨fetch, tableName, tableSchemaName, limit.map fun _ => 0, blankChildren children⟩
def blankChildren : List (String × CostTree) → List (String × CostTree)
  | [] => []
  | (key, tree) :: rest => (key, tree.blank) :: blankChildren rest
end

mutual
theorem maxDepth_blank (tree : CostTree) : tree.blank.maxDepth = tree.maxDepth := by
  match tree with
  | ⟨fetch, tableName, tableSchemaName, limit, children⟩ =>
      rw [blank, maxDepth, maxDepth, deepest_blank children]
theorem deepest_blank (children : List (String × CostTree)) :
    deepest (blankChildren children) = deepest children := by
  match children with
  | [] => rw [blankChildren]
  | (key, tree) :: rest =>
      rw [blankChildren, deepest, deepest, maxDepth_blank tree, deepest_blank rest]
end

theorem blankChildren_put (key : String) (tree : CostTree) (children : Entries CostTree) :
    blankChildren (children.put key tree) =
      Entries.put key tree.blank (blankChildren children) := by
  induction children with
  | nil => simp only [Entries.put, blankChildren]
  | cons child rest ih =>
      rcases child with ⟨k, t⟩
      by_cases hk : k = key
      · simp only [Entries.put, blankChildren, if_pos hk]
      · simp only [Entries.put, blankChildren, if_neg hk, ih]

/-- Of several trees under one name the last one stays, whatever its bounds
    are. -/
theorem blankChildren_ofList (writes : List (String × CostTree)) :
    blankChildren (Entries.ofList writes) = Entries.ofList (blankChildren writes) := by
  suffices hfold : ∀ entries : Entries CostTree,
      blankChildren (writes.foldl (fun es w => Entries.put w.1 w.2 es) entries) =
        (blankChildren writes).foldl (fun es w => Entries.put w.1 w.2 es)
          (blankChildren entries) by
    have hnil := hfold []
    rw [blankChildren] at hnil
    exact hnil
  induction writes with
  | nil =>
      intro entries
      rw [blankChildren, List.foldl_nil, List.foldl_nil]
  | cons write rest ih =>
      rcases write with ⟨key, tree⟩
      intro entries
      -- The first write is done to the entries that the rest starts from.
      rw [List.foldl_cons, ih, blankChildren_put, blankChildren, List.foldl_cons]

end CostTree

end ViewCompiler
