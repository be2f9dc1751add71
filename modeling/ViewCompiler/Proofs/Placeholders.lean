import ViewCompiler.Proofs.Rendering

/-!
# Placeholders

The placeholders of a statement are those of its parameters, in order.

A placeholder is a dollar sign with a number, but not every dollar sign in the
text of a statement starts one: names may consist of anything, and so may
literals. `placeholders` therefore reads the text the way a database does. It
keeps track of whether it is inside double quotes, inside single quotes or
outside of both, and counts only what is outside.

Pieces are numbered (`Numbered`) if the placeholders found in their text are
those of their parameters, whatever the text after them is as long as it does
not go on with a digit. Names are numbered because their quotes are doubled, so
that the reader is outside of quotes again when they end. Texts of the language
are, because they hold no dollar sign and no open quote. Element types of arrays
are neither, and so they are the one thing that has to be asked for.

Every kind of tree is built onto a draft in one step, `Tree.build`. The
statements that change data write their columns without aliases, which they do
by setting the draft's flag for a while. `Tree.build_eq` says that nothing is
left of this afterwards.

## Main definitions

* `scan`, `placeholders`: The placeholders in a text.
* `numbered`: The placeholders that a number of parameters should have.
* `Numbered`: Pieces whose placeholders are those of their parameters.
* `Tree`: A tree of any kind.
* `Tree.build`: A draft with a tree added to it.

## Theorems

* `scan_quoteName`: A name has no placeholders.
* `Numbered.append`, `Numbered.separated`: Pieces that are put together.
* `pieces_numbered`: The pieces of every tree are numbered.
* `Tree.build_placeholders`: What building a tree does to a draft.
-/

namespace ViewCompiler

namespace Sql

/-! ### Reading placeholders -/

/-- What the reader of a statement is inside of. -/
inductive Mode where
  | outside
  | name
  | literal

/-- The placeholders in a text: a dollar sign outside of quotes, with the
    digits after it. A doubled quote closes and opens again. -/
def scan : Mode → List Char → List String
  | _, [] => []
  | .outside, c :: rest =>
      if c = '$' then String.ofList ('$' :: rest.takeWhile Char.isDigit) :: scan .outside rest
      else if c = '"' then scan .name rest
      else if c = '\'' then scan .literal rest
      else scan .outside rest
  | .name, c :: rest => if c = '"' then scan .outside rest else scan .name rest
  | .literal, c :: rest => if c = '\'' then scan .outside rest else scan .literal rest

/-- The placeholders of a text that starts outside of quotes. -/
def placeholders (sql : String) : List String :=
  scan .outside sql.toList

/-- The placeholders of `k` parameters that come after `n` others. -/
def numbered (n k : Nat) : List String :=
  (List.range k).map fun i => placeholder (n + 1 + i)

theorem numbered_add (n j k : Nat) : numbered n (j + k) = numbered n j ++ numbered (n + j) k := by
  have hshift : ∀ i, n + 1 + (j + i) = n + j + 1 + i := by
    intro i
    omega
  simp only [numbered, List.range_add, List.map_append, List.map_map, Function.comp_def, hshift]

/-- A character that means nothing to the reader of placeholders. -/
def isInert (c : Char) : Bool := c != '$' && c != '"' && c != '\''

theorem scan_inert (text rest : List Char) (h : text.all isInert = true) :
    scan .outside (text ++ rest) = scan .outside rest := by
  induction text with
  | nil => rfl
  | cons c more ih =>
      simp only [List.all_cons, Bool.and_eq_true, isInert, bne_iff_ne, ne_eq] at h
      rcases h with ⟨⟨⟨hdollar, hquote⟩, happostrophe⟩, hmore⟩
      rw [List.cons_append, scan, if_neg hdollar, if_neg hquote, if_neg happostrophe]
      exact ih hmore

theorem scan_doubleQuotes (content rest : List Char) :
    scan .name (doubleQuotes content ++ '"' :: rest) = scan .outside rest := by
  induction content with
  | nil => rw [doubleQuotes, List.nil_append, scan, if_pos rfl]
  | cons c more ih =>
      by_cases hc : c = '"'
      -- The first quote seems to close the name, and the second opens it again.
      · rw [doubleQuotes, if_pos hc, List.cons_append, List.cons_append, scan, if_pos rfl, scan,
          if_neg (by decide), if_pos rfl, ih]
      · rw [doubleQuotes, if_neg hc, List.cons_append, scan, if_neg hc, ih]

/-- A name has no placeholders, whatever it consists of. -/
theorem scan_quoteName (s : String) (rest : List Char) :
    scan .outside ((quoteName s).toList ++ rest) = scan .outside rest := by
  rw [quoteName, String.toList_ofList, List.cons_append, List.append_assoc, scan,
    if_neg (by decide), if_pos rfl]
  exact scan_doubleQuotes s.toList rest

/-! ### Numbered pieces -/

/-- Text that does not go on with a digit. -/
def NoDigit (rest : List Char) : Prop := ∀ c ∈ rest.head?, c.isDigit = false

theorem noDigit_nil : NoDigit [] := by
  intro c hc
  simp only [List.head?_nil, Option.mem_def, reduceCtorEq] at hc

theorem noDigit_cons (c : Char) (rest : List Char) (h : c.isDigit = false) :
    NoDigit (c :: rest) := by
  intro d hd
  simp only [List.head?_cons, Option.mem_def, Option.some.injEq] at hd
  rw [← hd]
  exact h

theorem scan_placeholder (n : Nat) (rest : List Char) (h : NoDigit rest) :
    scan .outside ((placeholder n).toList ++ rest) = placeholder n :: scan .outside rest := by
  have hdigits : ∀ c ∈ Nat.toDigits 10 n, c.isDigit = true := fun c hc =>
    Nat.isDigit_of_mem_toDigits (by decide) (by decide) hc
  -- The number ends where the digits do.
  have htake : (Nat.toDigits 10 n ++ rest).takeWhile Char.isDigit = Nat.toDigits 10 n := by
    rw [List.takeWhile_append_of_pos hdigits]
    cases rest with
    | nil => rw [List.takeWhile_nil, List.append_nil]
    | cons c more =>
        have hc : ¬ c.isDigit = true := by
          rw [h c rfl]
          decide
        rw [List.takeWhile_cons_of_neg hc, List.append_nil]
  have hinert : (Nat.toDigits 10 n).all isInert = true := by
    rw [List.all_eq_true]
    intro c hc
    have hdigit := hdigits c hc
    simp only [isInert, Bool.and_eq_true, bne_iff_ne, ne_eq]
    refine ⟨⟨?_, ?_⟩, ?_⟩ <;> rintro rfl <;> exact absurd hdigit (by decide)
  rw [placeholder, String.toList_ofList, List.cons_append, scan, if_pos rfl, htake,
    scan_inert _ rest hinert]

/-- A text that means nothing to the reader of placeholders. It must not start
    with a digit either, which would belong to a number in front of it. -/
def isNeutral (s : String) : Bool :=
  s.toList.all isInert && s.toList.head?.all fun c => !c.isDigit

/-- Pieces whose placeholders are those of their parameters, whatever text
    comes after them. -/
structure Numbered (pieces : List Piece) : Prop where
  noDigit : ∀ n rest, NoDigit rest → NoDigit (written n pieces ++ rest)
  scan_eq : ∀ n rest, NoDigit rest → scan .outside (written n pieces ++ rest) =
    numbered n (paramsOf pieces).length ++ scan .outside rest

namespace Numbered

theorem nil : Numbered [] := ⟨fun _ _ h => h, fun _ _ _ => rfl⟩

theorem append {ps qs : List Piece} (hp : Numbered ps) (hq : Numbered qs) :
    Numbered (ps ++ qs) := by
  constructor
  · intro n rest h
    rw [written_append, List.append_assoc]
    exact hp.noDigit n _ (hq.noDigit _ rest h)
  · intro n rest h
    rw [written_append, List.append_assoc, hp.scan_eq n _ (hq.noDigit _ rest h),
      hq.scan_eq _ rest h, paramsOf_append, List.length_append, numbered_add, List.append_assoc]

theorem name (s : String) : Numbered [.name s] := by
  have htext : ∀ n rest, written n [.name s] ++ rest = (quoteName s).toList ++ rest := by
    intro n rest
    rw [written, written, List.append_nil]
  constructor
  · intro n rest _
    rw [htext, quoteName, String.toList_ofList]
    exact noDigit_cons _ _ (by decide)
  · intro n rest _
    rw [htext, scan_quoteName]
    rfl

theorem bind (p : Param) : Numbered [.bind p] := by
  have htext : ∀ n rest,
      written n [.bind p] ++ rest = (placeholder (n + 1)).toList ++ rest := by
    intro n rest
    rw [written, written, List.append_nil]
  constructor
  · intro n rest _
    rw [htext, placeholder, String.toList_ofList]
    exact noDigit_cons _ _ (by decide)
  · intro n rest h
    rw [htext, scan_placeholder _ _ h]
    rfl

/-- A text in which nothing is special. -/
theorem text (s : String) (h : isNeutral s = true) : Numbered [.text s] := by
  simp only [isNeutral, Bool.and_eq_true, Option.all_eq_true, Bool.not_eq_true'] at h
  rcases h with ⟨hinert, hfirst⟩
  have htext : ∀ n rest, written n [.text s] ++ rest = s.toList ++ rest := by
    intro n rest
    rw [written, written, List.append_nil]
  constructor
  · intro n rest hrest
    rw [htext]
    cases hs : s.toList with
    | nil => exact hrest
    | cons c more =>
        refine noDigit_cons c _ (hfirst c ?_)
        rw [hs]
        rfl
  · intro n rest _
    rw [htext, scan_inert _ _ hinert]
    rfl

theorem cons {p : Piece} {ps : List Piece} (hp : Numbered [p]) (hps : Numbered ps) :
    Numbered (p :: ps) :=
  hp.append hps

theorem separated {separator : String} (hseparator : Numbered [.text separator])
    {portions : List (List Piece)} (h : ∀ ps ∈ portions, Numbered ps) :
    Numbered (Sql.separated separator portions) := by
  induction portions with
  | nil => exact nil
  | cons portion rest ih =>
      have hrest := ih fun ps hps => h ps (List.mem_cons_of_mem portion hps)
      cases rest with
      | nil => exact h portion List.mem_cons_self
      | cons next more => exact (h portion List.mem_cons_self).append (hseparator.cons hrest)

theorem separated_map {α : Type} {items : List α} {pieces : α → List Piece}
    (h : ∀ a ∈ items, Numbered (pieces a)) :
    Numbered (Sql.separated ", " (items.map pieces)) := by
  refine separated (text ", " (by decide)) fun ps hps => ?_
  rcases List.mem_map.mp hps with ⟨a, ha, rfl⟩
  exact h a ha

/-- The end of an aggregation is the only text of the language with a literal
    in it. -/
theorem aggregated : Numbered [.text "), '[]'::json)"] :=
  ⟨fun _ _ _ => noDigit_cons ')' _ (by decide), fun _ _ _ => rfl⟩

/-- An element type stands between two texts of the language, so it may start
    with a digit. -/
theorem elementType (t : String) (h : t.toList.all isInert = true) :
    Numbered [.text "]::", .text t, .text "[]"] := by
  have htext : ∀ n rest, written n [.text "]::", .text t, .text "[]"] ++ rest =
      ("]::".toList ++ t.toList ++ "[]".toList) ++ rest := by
    intro n rest
    simp only [written, List.append_assoc, List.nil_append]
  constructor
  · intro n rest _
    rw [htext]
    exact noDigit_cons ']' _ (by decide)
  · intro n rest _
    rw [htext, scan_inert _ rest]
    · rfl
    · simp only [List.all_append, h]
      decide

theorem aliasPieces (aliasName : Option String) : Numbered (Sql.aliasPieces aliasName) := by
  cases aliasName with
  | none => exact nil
  | some a => exact (text " AS " (by decide)).cons (name a)

theorem viewName (v : ViewName) : Numbered v.pieces :=
  (name v.schemaName).cons ((text "." (by decide)).cons (name v.name))

theorem wherePieces (isAlways : Bool) {condition : List Piece} (h : Numbered condition) :
    Numbered (Sql.wherePieces isAlways condition) := by
  cases isAlways with
  | true => exact nil
  | false => exact (text " WHERE " (by decide)).cons h

theorem limitPieces (n : Int) : Numbered (Sql.limitPieces n) :=
  (text "LIMIT " (by decide)).cons (bind (.int8 n))

theorem offsetPieces (n : Int) : Numbered (Sql.offsetPieces n) :=
  (text "OFFSET " (by decide)).cons (bind (.int8 n))

theorem clausePieces {α : Type} {pieces : α → List Piece} (h : ∀ a, Numbered (pieces a))
    (clause : Option α) : Numbered (Sql.clausePieces (clause.map pieces)) := by
  cases clause with
  | none => exact nil
  | some a => exact (text " " (by decide)).cons (h a)

end Numbered

/-- An element type in which nothing is special to the reader of placeholders. -/
def InertType (t : String) : Prop :=
  '"' ∉ t.toList ∧ '\'' ∉ t.toList ∧ '$' ∉ t.toList

theorem InertType.all_isInert {t : String} (h : InertType t) : t.toList.all isInert = true := by
  rcases h with ⟨hquote, happostrophe, hdollar⟩
  rw [List.all_eq_true]
  intro c hc
  simp only [isInert, Bool.and_eq_true, bne_iff_ne, ne_eq]
  exact ⟨⟨fun heq => hdollar (heq ▸ hc), fun heq => hquote (heq ▸ hc)⟩,
    fun heq => happostrophe (heq ▸ hc)⟩

theorem SelectItem.numbered (qualified : Bool) (i : SelectItem)
    (h : Numbered (i.column.pieces qualified)) : Numbered (i.pieces qualified) := by
  rcases i with ⟨c, a⟩
  rw [SelectItem.pieces]
  exact h.append (Numbered.aliasPieces a)

theorem Source.numbered (qualified : Bool) (source : Source)
    (h : ∀ s a, source = .subSelect s a → Numbered (s.pieces qualified)) :
    Numbered (source.pieces qualified) := by
  cases source with
  | view v a =>
      rw [Source.pieces]
      exact (Numbered.viewName v).append (Numbered.aliasPieces (some a))
  | subSelect s a =>
      rw [Source.pieces]
      exact (Numbered.text "(" (by decide)).cons ((h s a rfl).append
        ((Numbered.text ")" (by decide)).cons (Numbered.aliasPieces (some a))))

theorem OrderTerm.numbered (qualified : Bool) (t : OrderTerm)
    (h : Numbered (t.column.pieces qualified)) : Numbered (t.pieces qualified) := by
  rcases t with ⟨c, direction⟩
  rw [OrderTerm.pieces]
  refine h.append ?_
  cases direction <;> exact Numbered.text _ (by decide)

/-- A sort is numbered if its columns are. -/
theorem orderByPieces_numbered (qualified : Bool) (terms : List OrderTerm)
    (h : ∀ t ∈ terms, Numbered (t.column.pieces qualified)) :
    Numbered (orderByPieces qualified terms) := by
  rw [orderByPieces, OrderTerm.portions_eq_map]
  exact (Numbered.text "ORDER BY " (by decide)).cons
    (Numbered.separated_map fun t ht => t.numbered qualified (h t ht))

/-- The pieces of every tree are numbered. One case for each constructor; all
    of them put numbered pieces together. -/
theorem pieces_numbered (qualified : Bool) :
    TreeInduction (fun c => EveryType InertType c.leaves → Numbered (c.pieces qualified))
      (fun p => EveryType InertType p.leaves → Numbered (p.pieces qualified))
      (fun s => EveryType InertType s.leaves → Numbered (s.pieces qualified)) where
  physical tableAlias name _ := by
    rw [Column.pieces, physicalPieces]
    cases qualified with
    | true =>
        exact (Numbered.name tableAlias).cons
          ((Numbered.text "." (by decide)).cons (Numbered.name name))
    | false => exact Numbered.name name
  param p _ := by
    rw [Column.pieces]
    exact Numbered.bind p
  rowToJson tableAlias _ := by
    rw [Column.pieces]
    exact (Numbered.text "row_to_json(" (by decide)).cons
      ((Numbered.name tableAlias).cons (Numbered.text ")" (by decide)))
  jsonAgg c ih h := by
    rw [Column.leaves] at h
    rw [Column.pieces]
    exact (Numbered.text "COALESCE(json_agg(" (by decide)).cons
      ((ih h).append Numbered.aggregated)
  subSelect s ih h := by
    rw [Column.leaves] at h
    rw [Column.pieces]
    exact (Numbered.text "(" (by decide)).cons
      ((ih h).append (Numbered.text ")" (by decide)))
  array c elementType ih h := by
    rw [Column.leaves] at h
    have htype : InertType elementType := h.right elementType List.mem_cons_self
    rw [Column.pieces]
    exact (Numbered.text "ARRAY[" (by decide)).cons
      ((ih h.left).append (Numbered.elementType elementType htype.all_isInert))
  null _ := by
    rw [Column.pieces]
    exact Numbered.text "NULL" (by decide)
  always _ := by
    rw [Predicate.pieces]
    exact Numbered.text "TRUE" (by decide)
  never _ := by
    rw [Predicate.pieces]
    exact Numbered.text "FALSE" (by decide)
  compare op l r ihl ihr h := by
    rw [Predicate.leaves] at h
    rw [Predicate.pieces]
    have hsign : Numbered [.text (" " ++ op.sign ++ " ")] := by
      cases op <;> exact Numbered.text _ (by decide)
    exact (ihl h.left).append (hsign.cons (ihr h.right))
  isIn c es ihc ihes h := by
    rw [Predicate.leaves, Column.leavesOfList_eq] at h
    rw [Predicate.pieces, Column.portions_eq_map]
    have helements := Numbered.separated_map fun e he => ihes e he (h.right.item e he)
    exact (ihc h.left).append ((Numbered.text " IN (" (by decide)).cons
      (helements.append (Numbered.text ")" (by decide))))
  isNull c ih h := by
    rw [Predicate.leaves] at h
    rw [Predicate.pieces]
    exact (ih h).append (Numbered.text " IS NULL" (by decide))
  isNotNull c ih h := by
    rw [Predicate.leaves] at h
    rw [Predicate.pieces]
    exact (ih h).append (Numbered.text " IS NOT NULL" (by decide))
  and l r ihl ihr h := by
    rw [Predicate.leaves] at h
    rw [Predicate.pieces]
    exact (Numbered.text "(" (by decide)).cons ((ihl h.left).append
      ((Numbered.text " AND " (by decide)).cons ((ihr h.right).append
        (Numbered.text ")" (by decide)))))
  select columns source predicate orderBy limit offset ihcolumns ihsource ihpredicate ihorder h := by
    rw [Select.leaves] at h
    -- The element types of the four parts that can have some.
    have htypes := h.left.left
    have hcolumns : Numbered (separated ", " (SelectItem.portions qualified columns)) := by
      have hitems := htypes.left.left.left
      rw [SelectItem.leavesOfList_eq] at hitems
      rw [SelectItem.portions_eq_map]
      exact Numbered.separated_map fun item hitem =>
        item.numbered qualified (ihcolumns item hitem (hitems.item item hitem))
    have hsource : Numbered (fromPieces qualified source) := by
      have hinner := htypes.left.left.right
      cases source with
      | none => exact Numbered.nil
      | some source =>
          refine (Numbered.text " FROM " (by decide)).cons
            (source.numbered qualified fun s a hs => ihsource s a (congrArg some hs) ?_)
          rw [hs, Source.leavesOfOption, Source.leaves] at hinner
          exact hinner
    have horder : Numbered (sortPieces qualified orderBy) := by
      have hsort := htypes.right
      cases orderBy with
      | none => exact Numbered.nil
      | some terms =>
          rw [OrderTerm.leavesOfOption, OrderTerm.leavesOfList_eq] at hsort
          exact (Numbered.text " " (by decide)).cons (orderByPieces_numbered qualified terms
            fun term hterm => ihorder terms rfl term hterm (hsort.item term hterm))
    rw [Select.pieces_eq]
    exact (Numbered.text "SELECT " (by decide)).cons
      (((((hcolumns.append hsource).append
        (Numbered.wherePieces _ (ihpredicate htypes.left.right))).append horder).append
          (Numbered.clausePieces Numbered.limitPieces limit)).append
            (Numbered.clausePieces Numbered.offsetPieces offset))

/-! ### Building trees -/

/-- A tree of any kind. -/
inductive Tree where
  | column (c : Column)
  | predicate (p : Predicate)
  | item (i : SelectItem)
  | source (s : Source)
  | select (s : Select)
  | orderBy (terms : List OrderTerm)
  | limit (n : Int)
  | offset (n : Int)
  | insert (i : Insert)
  | update (u : Update)
  | delete (x : Delete)

/-- A statement that adds a row, built onto a draft. Only the values are
    written without aliases. -/
def Insert.build (i : Insert) (d : Draft) : Draft :=
  let opened := d.append (.text "INSERT INTO " :: (i.view.pieces ++
    .text " (" :: (separated ", " (i.columns.map fun c => [.name c]) ++ [.text ") VALUES ("])))
  let filled := opened.unqualified fun d =>
    d.appendWith fun qualified => separated ", " (Column.portions qualified i.values)
  filled.append [.text ")"]

/-- A statement that changes rows, built onto a draft. The assignments and the
    condition are written without aliases. -/
def Update.build (u : Update) (d : Draft) : Draft :=
  let opened := d.append (.text "UPDATE " :: (u.view.pieces ++ [.text " SET "]))
  opened.unqualified fun d => d.appendWith fun qualified =>
    separated ", " (u.assignments.map fun a => .name a.1 :: .text " = " :: a.2.pieces qualified) ++
      wherePieces u.predicate.isAlways (u.predicate.pieces qualified)

/-- A statement that removes rows, built onto a draft. The condition is written
    without aliases. -/
def Delete.build (x : Delete) (d : Draft) : Draft :=
  let opened := d.append (.text "DELETE FROM " :: x.view.pieces)
  if x.predicate.isAlways then opened
  else
    (opened.append [.text " WHERE "]).unqualified fun d =>
      d.appendWith fun qualified => x.predicate.pieces qualified

namespace Tree

/-- The pieces of a tree. -/
def pieces (qualified : Bool) : Tree → List Piece
  | .column c => c.pieces qualified
  | .predicate p => p.pieces qualified
  | .item i => i.pieces qualified
  | .source s => s.pieces qualified
  | .select s => s.pieces qualified
  | .orderBy terms => orderByPieces qualified terms
  | .limit n => limitPieces n
  | .offset n => offsetPieces n
  | .insert i => i.pieces
  | .update u => u.pieces
  | .delete x => x.pieces

/-- A draft with a tree added to it. -/
def build (tree : Tree) (d : Draft) : Draft :=
  match tree with
  | .insert i => i.build d
  | .update u => u.build d
  | .delete x => x.build d
  | tree => d.appendWith tree.pieces

/-- The leaves of a tree, in the order in which they are written. -/
def leaves : Tree → List Leaf
  | .column c => c.leaves
  | .predicate p => p.leaves
  | .item i => i.column.leaves
  | .source s => s.leaves
  | .select s => s.leaves
  | .orderBy terms => OrderTerm.leavesOfList terms
  | .limit n => [.value (.int8 n)]
  | .offset n => [.value (.int8 n)]
  | .insert i => Column.leavesOfList i.values
  | .update u => (u.assignments.flatMap fun a => a.2.leaves) ++ u.predicate.leaves
  | .delete x => x.predicate.leaves

end Tree

theorem Draft.appendWith_unqualified (d : Draft) (pieces : Bool → List Piece) :
    (d.unqualified fun d => d.appendWith pieces) = d.append (pieces false) := by
  simp only [Draft.unqualified, Draft.appendWith, Draft.append_eq]

/-- Whatever a tree does on the way, it adds its pieces to the draft, and they
    are written as the draft's flag says. -/
theorem Tree.build_eq (tree : Tree) (d : Draft) :
    tree.build d = d.append (tree.pieces d.qualified) := by
  cases tree with
  | insert i =>
      simp only [Tree.build, Insert.build, Draft.appendWith_unqualified, ← Draft.append_append,
        Tree.pieces, Insert.pieces, List.cons_append, List.append_assoc, List.nil_append]
  | update u =>
      simp only [Tree.build, Update.build, Draft.appendWith_unqualified, ← Draft.append_append,
        Tree.pieces, Update.pieces, List.cons_append, List.append_assoc, List.nil_append]
  | delete x =>
      simp only [Tree.build, Delete.build, Draft.appendWith_unqualified, ← Draft.append_append,
        Tree.pieces, Delete.pieces, wherePieces]
      split <;> simp only [List.cons_append, List.append_assoc, List.nil_append, List.append_nil]
  | _ => rfl

/-- The parameters of a tree of any kind are its values. -/
theorem Tree.paramsOf_pieces (tree : Tree) (qualified : Bool) :
    paramsOf (tree.pieces qualified) = valuesOf tree.leaves := by
  have hcolumn := fun qualified => (pieces_params qualified).forColumn
  have hpredicate := fun qualified => (pieces_params qualified).forPredicate
  have hselect := fun qualified => (pieces_params qualified).forSelect
  -- A name that is written to is no value.
  have hnames : ∀ names : List String,
      paramsOf (separated ", " (names.map fun c => [.name c])) = [] := by
    intro names
    rw [paramsOf_separated, List.flatMap_map, List.flatMap_eq_nil_iff]
    exact fun _ _ => rfl
  cases tree with
  | column c => exact hcolumn qualified c
  | predicate p => exact hpredicate qualified p
  | item i => exact i.pieces_params qualified (hcolumn qualified i.column)
  | source source => exact source.pieces_params qualified fun s _ _ => hselect qualified s
  | select s => exact hselect qualified s
  | orderBy terms =>
      rw [Tree.pieces, Tree.leaves, orderByPieces, OrderTerm.portions_eq_map,
        OrderTerm.leavesOfList_eq, paramsOf_text]
      exact paramsOf_separated_map ", " terms _ _ fun t _ =>
        t.pieces_params qualified (hcolumn qualified t.column)
  | limit n => rfl
  | offset n => rfl
  | insert i =>
      simp only [Tree.pieces, Tree.leaves, Insert.pieces, ViewName.pieces, Column.portions_eq_map,
        Column.leavesOfList_eq, List.cons_append, List.nil_append, paramsOf_text, paramsOf_name,
        paramsOf_append, hnames, paramsOf_nil, List.append_nil]
      exact paramsOf_separated_map ", " i.values _ _ fun c _ => hcolumn false c
  | update u =>
      simp only [Tree.pieces, Tree.leaves, Update.pieces, ViewName.pieces, List.cons_append,
        List.nil_append, paramsOf_text, paramsOf_name, paramsOf_append, valuesOf_append,
        paramsOf_wherePieces u.predicate _ (hpredicate false u.predicate)]
      rw [paramsOf_separated_map ", " u.assignments _ (fun a => a.2.leaves) fun a _ => ?_]
      simp only [paramsOf_text, paramsOf_name]
      exact hcolumn false a.2
  | delete x =>
      simp only [Tree.pieces, Tree.leaves, Delete.pieces, ViewName.pieces, List.cons_append,
        List.nil_append, paramsOf_text, paramsOf_name]
      exact paramsOf_wherePieces x.predicate _ (hpredicate false x.predicate)

/-- The pieces of a tree of any kind are numbered. -/
theorem Tree.numbered_pieces (tree : Tree) (qualified : Bool)
    (h : EveryType InertType tree.leaves) : Numbered (tree.pieces qualified) := by
  have hcolumn := fun qualified => (pieces_numbered qualified).forColumn
  have hpredicate := fun qualified => (pieces_numbered qualified).forPredicate
  have hselect := fun qualified => (pieces_numbered qualified).forSelect
  cases tree with
  | column c => exact hcolumn qualified c h
  | predicate p => exact hpredicate qualified p h
  | item i => exact i.numbered qualified (hcolumn qualified i.column h)
  | source source =>
      refine source.numbered qualified fun s a hs => hselect qualified s ?_
      rw [Tree.leaves, hs, Source.leaves] at h
      exact h
  | select s => exact hselect qualified s h
  | orderBy terms =>
      rw [Tree.leaves, OrderTerm.leavesOfList_eq] at h
      exact orderByPieces_numbered qualified terms fun t ht =>
        hcolumn qualified t.column (h.item t ht)
  | limit n => exact Numbered.limitPieces n
  | offset n => exact Numbered.offsetPieces n
  | insert i =>
      rw [Tree.leaves, Column.leavesOfList_eq] at h
      rw [Tree.pieces, Insert.pieces, Column.portions_eq_map]
      exact (Numbered.text "INSERT INTO " (by decide)).cons ((Numbered.viewName i.view).append
        ((Numbered.text " (" (by decide)).cons
          ((Numbered.separated_map fun c _ => Numbered.name c).append
            ((Numbered.text ") VALUES (" (by decide)).cons
              ((Numbered.separated_map fun c hc => hcolumn false c (h.item c hc)).append
                (Numbered.text ")" (by decide)))))))
  | update u =>
      rw [Tree.leaves] at h
      have hassignments : Numbered (separated ", " (u.assignments.map fun a =>
          .name a.1 :: .text " = " :: a.2.pieces false)) :=
        Numbered.separated_map fun a ha => (Numbered.name a.1).cons
          ((Numbered.text " = " (by decide)).cons (hcolumn false a.2 (h.left.item a ha)))
      exact (Numbered.text "UPDATE " (by decide)).cons ((Numbered.viewName u.view).append
        ((Numbered.text " SET " (by decide)).cons (hassignments.append
          (Numbered.wherePieces _ (hpredicate false u.predicate h.right)))))
  | delete x =>
      exact (Numbered.text "DELETE FROM " (by decide)).cons ((Numbered.viewName x.view).append
        (Numbered.wherePieces _ (hpredicate false x.predicate h)))

/-- What building a tree does to a draft. The text and the parameters that were
    there stay in front, the flag stays as it was, and the parameters that come
    are the values of the tree. If the element types of its arrays hold no quote
    and no dollar sign, the placeholders in the new text are those of the new
    parameters, each once and in order. -/
theorem Tree.build_placeholders (tree : Tree) (d : Draft) :
    ∃ added : String,
      (tree.build d).sql = d.sql ++ added ∧
      (tree.build d).params = d.params ++ valuesOf tree.leaves ∧
      (tree.build d).qualified = d.qualified ∧
      ((∀ t ∈ elementTypesOf tree.leaves,
          '"' ∉ t.toList ∧ '\'' ∉ t.toList ∧ '$' ∉ t.toList) →
        placeholders added = numbered d.params.length (valuesOf tree.leaves).length) := by
  refine ⟨String.ofList (written d.params.length (tree.pieces d.qualified)), ?_⟩
  rw [tree.build_eq, Draft.append_eq, tree.paramsOf_pieces]
  refine ⟨rfl, rfl, rfl, fun h => ?_⟩
  have hscan := (tree.numbered_pieces d.qualified h).scan_eq d.params.length [] noDigit_nil
  rw [List.append_nil, tree.paramsOf_pieces] at hscan
  rw [placeholders, String.toList_ofList, hscan, scan, List.append_nil]

/-- A query whose names are made to mislead a reader of its text. -/
def misleading : Select where
  columns := [⟨.physical "$1" "a\"$2", some "'"⟩, ⟨.param (.text (some "$7")), none⟩]
  source := some (.view ⟨"s", "v\" AS \"$3"⟩ "$1")
  predicate := .compare .contains (.physical "$1" "tags")
    (.array (.param (.text (some "x"))) "uuid")
  orderBy := none
  limit := some 5
  offset := none

/-- The names of a query do not count as placeholders, even if they look like
    some. Behind one parameter its three values have the next three numbers. -/
theorem Tree.build_placeholders_misleading :
    ∃ added : String,
      ((Tree.select misleading).build ⟨"VALUES ($1), ", [.int8 0], true⟩).sql =
        "VALUES ($1), " ++ added ∧
      ((Tree.select misleading).build ⟨"VALUES ($1), ", [.int8 0], true⟩).params =
        [.int8 0, .text (some "$7"), .text (some "x"), .int8 5] ∧
      placeholders added = ["$2", "$3", "$4"] := by
  rcases (Tree.select misleading).build_placeholders ⟨"VALUES ($1), ", [.int8 0], true⟩ with
    ⟨added, hsql, hparams, _, hplaceholders⟩
  refine ⟨added, hsql, hparams.trans (by decide), ?_⟩
  exact (hplaceholders (by decide)).trans (by decide)

end Sql

end ViewCompiler
