import ViewCompiler.Proofs.Placeholders

/-!
# Where Values Are Bound

The words in front of the placeholders of a statement.

A statement is written from pieces, and what kind of value a placeholder stands
for can be told from the piece right before it: the sign of a comparison, the
start of a list or the comma in it, or one of the two words of a page. A value
is *sited* behind the word that calls for it (`Site`). Pieces are sited one
portion after the other, as long as none of them starts with a bound value.

The text of pieces is cut behind every placeholder. That gives as many portions
as there are values, each of which ends in the word before its placeholder. The
words of a page are not the ends of other words, nor the other way round, so the
end of a portion tells whether a count or a text is bound there.

## Main definitions

* `Site`: A value behind a word that calls for it.
* `Sited`: Pieces in which all values are.
* `woven`: A text from portions and placeholders.
* `portionsFrom`: The portions of pieces.

## Theorems

* `Sited.append`, `Sited.separated`, `Sited.list`: Pieces that are put together.
* `woven_portionsFrom`: The portions of pieces make up their text.
* `portionsFrom_sited`: Each portion ends in the word before its value.
* `Site.isCount_iff`: Counts are behind the words of a page.
-/

namespace ViewCompiler

namespace Sql

/-! ### Sites -/

/-- The words in front of a page bound. -/
def pageWords : List String := ["LIMIT ", "OFFSET "]

/-- The words in front of an operand: the signs of comparisons, the start of a
    list, and the comma in it. -/
def operandWords : List String :=
  [" = ", " <> ", " < ", " <= ", " > ", " >= ", " IN (", ", "]

/-- A value behind a word that calls for it: a count behind the words of a page,
    a text behind the words of a condition. -/
inductive Site : String → Param → Prop where
  | page (word : String) (n : Int) (hword : word ∈ pageWords) (hn : 0 ≤ n) : Site word (.int8 n)
  | operand (word text : String) (hword : word ∈ operandWords) : Site word (.text (some text))

/-- Pieces in which every bound value is behind a word that calls for it, if they
    follow `word`. -/
def SitedAfter : (word : Option String) → List Piece → Prop
  | _, [] => True
  | _, .text s :: rest => SitedAfter (some s) rest
  | _, .name _ :: rest => SitedAfter none rest
  | word, .bind p :: rest => (∃ s, word = some s ∧ Site s p) ∧ SitedAfter none rest

/-- Pieces in which every bound value is behind a word that calls for it,
    whatever they follow. -/
def Sited (pieces : List Piece) : Prop := SitedAfter none pieces

theorem Sited.after {pieces : List Piece} (h : Sited pieces) (word : Option String) :
    SitedAfter word pieces := by
  cases pieces with
  | nil => trivial
  | cons piece rest =>
      cases piece with
      | text s => exact h
      | name s => exact h
      | bind p =>
          rcases h with ⟨⟨s, hs, _⟩, _⟩
          simp only [reduceCtorEq] at hs

theorem SitedAfter.append {word : Option String} {ps qs : List Piece} (hp : SitedAfter word ps)
    (hq : Sited qs) : SitedAfter word (ps ++ qs) := by
  induction ps generalizing word with
  | nil => exact hq.after word
  | cons piece rest ih =>
      cases piece with
      | text s => exact @ih (some s) hp
      | name s => exact @ih none hp
      | bind p => exact ⟨hp.1, ih hp.2⟩

theorem SitedAfter.exists_site {word : Option String} {pieces : List Piece}
    (h : SitedAfter word pieces) : ∀ p ∈ paramsOf pieces, ∃ word, Site word p := by
  induction pieces generalizing word with
  | nil => exact fun p hp => absurd hp List.not_mem_nil
  | cons piece rest ih =>
      cases piece with
      | text s => exact @ih (some s) h
      | name s => exact @ih none h
      | bind p =>
          rcases h with ⟨⟨s, _, hsite⟩, hrest⟩
          exact List.forall_mem_cons.mpr ⟨⟨s, hsite⟩, ih hrest⟩

namespace Sited

variable {ps qs : List Piece}

theorem nil : Sited [] := trivial

theorem append (hp : Sited ps) (hq : Sited qs) : Sited (ps ++ qs) := SitedAfter.append hp hq

theorem text (s : String) (h : Sited ps) : Sited (.text s :: ps) := h.after (some s)

theorem bind (word : String) (p : Param) (hsite : Site word p) (h : Sited ps) :
    Sited (.text word :: .bind p :: ps) := ⟨⟨word, rfl, hsite⟩, h⟩

theorem separated {portions : List (List Piece)} (h : ∀ portion ∈ portions, Sited portion) :
    Sited (Sql.separated ", " portions) := by
  induction portions with
  | nil => exact nil
  | cons portion rest ih =>
      have hportion := h portion List.mem_cons_self
      cases rest with
      | nil => exact hportion
      | cons next more =>
          exact hportion.append
            (text ", " (ih fun other hother => h other (List.mem_cons_of_mem portion hother)))

/-- In a list the first value is behind the start of the list, and the others are
    behind a comma. -/
theorem list (word : String) (hword : word ∈ operandWords) (texts : List String) :
    Sited (.text word :: Sql.separated ", " (texts.map fun t => [.bind (.text (some t))])) := by
  induction texts generalizing word with
  | nil => exact text word nil
  | cons t rest ih =>
      have hsite := Site.operand word t hword
      cases rest with
      | nil => exact bind word _ hsite nil
      | cons next more => exact bind word _ hsite (ih ", " (by decide))

theorem physical (tableAlias name : String) :
    Sited ((Column.physical tableAlias name).pieces true) :=
  trivial

theorem aliasPieces (aliasName : Option String) : Sited (Sql.aliasPieces aliasName) := by
  cases aliasName <;> trivial

theorem limit (n : Option Int) (hn : ∀ k ∈ n, 0 ≤ k) :
    Sited (clausePieces (n.map limitPieces)) := by
  cases n with
  | none => exact nil
  | some k => exact text " " (bind "LIMIT " _ (.page _ k (by decide) (hn k rfl)) nil)

theorem offset (n : Option Int) (hn : ∀ k ∈ n, 0 ≤ k) :
    Sited (clausePieces (n.map offsetPieces)) := by
  cases n with
  | none => exact nil
  | some k => exact text " " (bind "OFFSET " _ (.page _ k (by decide) (hn k rfl)) nil)

end Sited

/-! ### Portions of a text -/

/-- A text from portions, each of which ends in the next placeholder, and what
    comes after the last of them. -/
def woven (n : Nat) : List String → String → String
  | [], ending => ending
  | portion :: rest, ending => portion ++ placeholder (n + 1) ++ woven (n + 1) rest ending

/-- The portions of pieces that come after `start`, and the ending. -/
def portionsFrom (start : String) : List Piece → List String × String
  | [] => ([], start)
  | .text s :: rest => portionsFrom (start ++ s) rest
  | .name s :: rest => portionsFrom (start ++ quoteName s) rest
  | .bind _ :: rest => (start :: (portionsFrom "" rest).1, (portionsFrom "" rest).2)

theorem woven_portionsFrom (n : Nat) (start : String) (pieces : List Piece) :
    woven n (portionsFrom start pieces).1 (portionsFrom start pieces).2 =
      start ++ String.ofList (written n pieces) := by
  induction pieces generalizing n start with
  | nil => simp only [portionsFrom, woven, written, String.ofList_nil, String.append_empty]
  | cons piece rest ih =>
      cases piece <;>
        simp only [portionsFrom, woven, written, ih, String.ofList_append, String.ofList_toList,
          String.append_assoc, String.empty_append]

/-- Every portion ends in a word that calls for the value bound behind it. -/
theorem portionsFrom_sited (word : Option String) (start : String) (pieces : List Piece)
    (h : SitedAfter word pieces) (hstart : ∀ s ∈ word, s.toList <:+ start.toList) :
    List.Forall₂ (fun portion p => ∃ word, Site word p ∧ word.toList <:+ portion.toList)
      (portionsFrom start pieces).1 (paramsOf pieces) := by
  have hnone : ∀ start : String, ∀ s ∈ (none : Option String), s.toList <:+ start.toList :=
    fun _ s hs => absurd hs (Option.not_mem_none s)
  induction pieces generalizing word start with
  | nil => exact List.Forall₂.nil
  | cons piece rest ih =>
      cases piece with
      | text s =>
          refine ih (some s) (start ++ s) h fun s' hs' => ?_
          rw [← Option.some.inj hs', String.toList_append]
          exact List.suffix_append _ _
      | name s => exact ih none (start ++ quoteName s) h (hnone _)
      | bind p =>
          rcases h with ⟨⟨s, hs, hsite⟩, hrest⟩
          exact List.Forall₂.cons ⟨s, hsite, hstart s hs⟩ (ih none "" hrest (hnone _))

/-- A text that ends in one of the words of a condition does not end in one of the
    words of a page. -/
theorem not_pageWord_suffix (text : List Char) (word other : String) (hword : word ∈ operandWords)
    (hother : other ∈ pageWords) (hsuffix : word.toList <:+ text) : ¬ other.toList <:+ text := by
  intro hend
  -- The words of a page are longer, so the other word would be the end of one.
  have hlength : ∀ w ∈ operandWords, ∀ o ∈ pageWords,
      w.toList.length ≤ o.toList.length ∧ ¬ w.toList <:+ o.toList := by decide
  rcases hlength word hword other hother with ⟨hle, hnot⟩
  exact hnot (List.suffix_of_suffix_length_le hsuffix hend hle)

/-- A value is a count if its portion ends in one of the words of a page, and a
    text otherwise. -/
theorem Site.isCount_iff {word portion : String} {p : Param} (h : Site word p)
    (hsuffix : word.toList <:+ portion.toList) :
    (∃ n, p = .int8 n) ↔
      "LIMIT ".toList <:+ portion.toList ∨ "OFFSET ".toList <:+ portion.toList := by
  cases h with
  | page n hword _ =>
      refine ⟨fun _ => ?_, fun _ => ⟨n, rfl⟩⟩
      simp only [pageWords, List.mem_cons, List.not_mem_nil, or_false] at hword
      rcases hword with rfl | rfl
      · exact Or.inl hsuffix
      · exact Or.inr hsuffix
  | operand text hword =>
      constructor
      · rintro ⟨n, hn⟩
        simp only [reduceCtorEq] at hn
      · rintro (hlimit | hoffset)
        · exact absurd hlimit (not_pageWord_suffix _ _ _ hword (by decide) hsuffix)
        · exact absurd hoffset (not_pageWord_suffix _ _ _ hword (by decide) hsuffix)

end Sql

end ViewCompiler
