import Mathlib.Data.List.Infix
import ViewCompiler.Proofs.Reading

/-!
# Laws of Readers

When a reader returns what was written.

A reader sees no boundary between the pieces that it should read and those that
come after, so a law about it has to say what may come after. A name followed by
a quote, or a placeholder followed by a digit, would go on too far, and an
optional clause that is missing must not be mistaken for what stands there
instead. `Reads reader pieces a after` says that the reader reads exactly the
pieces, as `a`, if the text after them is at its end or goes on with one of the
words `after`. The laws for `bind` and for the optional parts pass these words
on: what follows the first part is what the second one starts with (`Leads`).

Whether a word can be told from others, and whether a list of words covers
another, are questions about fixed strings. They are `Bool`s (`isApart` and
`begins`), which are computed where a law is used.

The readers of trees carry a bound. It has to be at least the number of pieces
that are not empty (`width`), and a text is at least as long as that.

## Main definitions

* `Starts`: The first character of pieces.
* `width`: The number of pieces that are not empty.
* `Ahead`, `Leads`: What text goes on with.
* `Reads`: A reader that returns what was written.
* `ReadsWithin`: The same for a reader with a bound.
* `OptionalClause`: The pieces of a clause that may be missing.

## Theorems

* `Reads.bind`, `Reads.tryWord_missing`, `Reads.peek_bind`: The laws of
  sequences and decisions.
* `Reads.name`, `Reads.value`, `Reads.elementType`: Names, placeholders and
  element types end where they were meant to.
* `Reads.list`: A list is read item by item.
* `Reads.optional_bind`: A clause that may be missing in front of others.
* `ReadsWithin.readAll`: The length of a text is enough of a bound.
-/

namespace ViewCompiler

namespace Sql

/-! ### What text starts with -/

/-- Pieces whose text starts with the given character. -/
def Starts (c : Char) (pieces : List Piece) : Prop :=
  ∀ n, ∃ t, written n pieces = c :: t

namespace Starts

theorem text {w : String} {c : Char} (rest : List Piece) (h : w.toList.head? = some c) :
    Starts c (.text w :: rest) := by
  intro n
  rcases List.head?_eq_some_iff.mp h with ⟨t, ht⟩
  exact ⟨t ++ written n rest, by rw [written, ht, List.cons_append]⟩

theorem name (s : String) (rest : List Piece) : Starts '"' (.name s :: rest) := by
  intro n
  rw [written, quoteName, String.toList_ofList, List.cons_append]
  exact ⟨_, rfl⟩

theorem bind (p : Param) (rest : List Piece) : Starts '$' (.bind p :: rest) := by
  intro n
  rw [written, placeholder, String.toList_ofList, List.cons_append]
  exact ⟨_, rfl⟩

theorem append {c : Char} {ps : List Piece} (h : Starts c ps) (qs : List Piece) :
    Starts c (ps ++ qs) := by
  intro n
  rcases h n with ⟨t, ht⟩
  exact ⟨_, by rw [written_append, ht, List.cons_append]⟩

end Starts

/-! ### How wide pieces are -/

/-- The number of pieces that are not empty. -/
def width : List Piece → Nat
  | [] => 0
  | .text s :: rest => (if s = "" then 0 else 1) + width rest
  | _ :: rest => 1 + width rest

theorem width_append (ps qs : List Piece) : width (ps ++ qs) = width ps + width qs := by
  induction ps with
  | nil => rw [List.nil_append, width, Nat.zero_add]
  | cons p rest ih => cases p <;> simp only [List.cons_append, width, ih, Nat.add_assoc]

/-- A text is at least as long as the number of its pieces. -/
theorem width_le_length (n : Nat) (ps : List Piece) : width ps ≤ (written n ps).length := by
  induction ps generalizing n with
  | nil => exact Nat.zero_le _
  | cons p rest ih =>
      cases p with
      | text s =>
          have hrest := ih n
          rw [width, written, List.length_append]
          by_cases hs : s = ""
          · rw [if_pos hs]
            omega
          · have hpos : 0 < s.toList.length :=
              List.length_pos_iff.mpr (mt String.toList_eq_nil_iff.mp hs)
            rw [if_neg hs]
            omega
      | name s =>
          have hrest := ih n
          simp only [width, written, quoteName, String.toList_ofList, List.length_append,
            List.length_cons]
          omega
      | bind p =>
          have hrest := ih (n + 1)
          simp only [width, written, placeholder, String.toList_ofList, List.length_append,
            List.length_cons]
          omega

theorem width_le_separated (portions : List (List Piece)) (ps : List Piece) (h : ps ∈ portions) :
    width ps ≤ width (separated ", " portions) := by
  induction portions with
  | nil => exact absurd h List.not_mem_nil
  | cons portion rest ih =>
      cases rest with
      | nil =>
          rw [List.mem_singleton.mp h]
          exact Nat.le_refl _
      | cons next more =>
          rw [separated, width_append, width]
          rcases List.mem_cons.mp h with rfl | hrest
          · omega
          · have := ih hrest
            omega

/-- An item of a list is no wider than the list. -/
theorem width_le_of_mem {α : Type} {pieces : α → List Piece} {as : List α} {a : α} {k : Nat}
    (ha : a ∈ as) (hk : width (separated ", " (as.map pieces)) ≤ k) : width (pieces a) ≤ k :=
  Nat.le_trans (width_le_separated _ _ (List.mem_map_of_mem ha)) hk

/-- Portions that are not empty are at most as many as their width. -/
theorem length_le_separated (portions : List (List Piece)) (h : ∀ ps ∈ portions, 0 < width ps) :
    portions.length ≤ width (separated ", " portions) := by
  induction portions with
  | nil => exact Nat.zero_le _
  | cons portion rest ih =>
      have hfirst := h portion List.mem_cons_self
      cases rest with
      | nil => exact hfirst
      | cons next more =>
          have hrest := ih fun ps hps => h ps (List.mem_cons_of_mem _ hps)
          rw [separated, width_append, width, List.length_cons]
          omega

/-- Pieces without a single one that is not empty have no text. -/
theorem written_eq_nil (n : Nat) (ps : List Piece) (h : width ps = 0) : written n ps = [] := by
  induction ps with
  | nil => rfl
  | cons p rest ih =>
      cases p with
      | text s =>
          rw [width, Nat.add_eq_zero_iff] at h
          have hs : s = "" := by
            by_contra hne
            rw [if_neg hne] at h
            exact absurd h.1 Nat.one_ne_zero
          rw [written, hs, ih h.2]
          rfl
      | name s =>
          simp only [width] at h
          omega
      | bind p =>
          simp only [width] at h
          omega

theorem Starts.width_pos {c : Char} {ps : List Piece} (h : Starts c ps) : 0 < width ps := by
  rw [Nat.pos_iff_ne_zero]
  intro hzero
  rcases h 0 with ⟨t, ht⟩
  rw [written_eq_nil 0 ps hzero] at ht
  exact absurd ht (List.cons_ne_nil _ _).symm

/-- What stands on either side of a word has a smaller width than the whole. -/
theorem width_le_of_text {w : String} {ps qs : List Piece} {k : Nat} (hw : w ≠ "")
    (h : width (ps ++ .text w :: qs) ≤ k + 1) : width ps ≤ k ∧ width qs ≤ k := by
  rw [width_append, width, if_neg hw] at h
  omega

theorem width_le_of_enclosed {w : String} {ps qs : List Piece} {k : Nat} (hw : w ≠ "")
    (h : width (.text w :: (ps ++ qs)) ≤ k + 1) : width ps ≤ k := by
  rw [width, if_neg hw, width_append] at h
  omega

/-! ### What may follow -/

/-- Text that is at its end, or goes on with one of the given words. -/
def Ahead (words : List String) (rest : List Char) : Prop :=
  rest = [] ∨ ∃ w ∈ words, w.toList <+: rest

/-- Whether a word begins with one of the given words. -/
def begins (words : List String) (w : String) : Bool :=
  words.any fun v => v.toList.isPrefixOf w.toList

/-- Whether a word can be told from the given words: neither begins with the
    other. -/
def isApart (w : String) (words : List String) : Bool :=
  w != "" && words.all fun v => !w.toList.isPrefixOf v.toList && !v.toList.isPrefixOf w.toList

theorem begins_of_mem {words : List String} {w : String} (h : w ∈ words) :
    begins words w = true :=
  List.any_eq_true.mpr ⟨w, h, List.isPrefixOf_iff_prefix.mpr (List.prefix_refl _)⟩

namespace Ahead

variable {words : List String} {rest : List Char}

/-- It is enough to look at the beginnings of the words. -/
theorem widen (h : Ahead words rest) (more : List String)
    (hmore : words.all (begins more) = true) :
    Ahead more rest := by
  rcases h with hnil | ⟨w, hw, hprefix⟩
  · exact Or.inl hnil
  · rcases List.any_eq_true.mp (List.all_eq_true.mp hmore w hw) with ⟨v, hv, hvw⟩
    exact Or.inr ⟨v, hv, (List.isPrefixOf_iff_prefix.mp hvw).trans hprefix⟩

/-- A word is not there if it can be told from those that may be. -/
theorem missing (h : Ahead words rest) (w : String) (hw : isApart w words = true) :
    w.toList.isPrefixOf? rest = none := by
  simp only [isApart, Bool.and_eq_true, bne_iff_ne, ne_eq, List.all_eq_true, Bool.not_eq_true',
    Bool.eq_false_iff, List.isPrefixOf_iff_prefix] at hw
  rcases hw with ⟨hne, hwords⟩
  cases hread : w.toList.isPrefixOf? rest with
  | none => rfl
  | some more =>
      have happend := List.isPrefixOf?_eq_some_iff_append_eq.mp hread
      rcases h with hnil | ⟨v, hv, hprefix⟩
      · rw [hnil] at happend
        exact absurd (String.toList_eq_nil_iff.mp (List.append_eq_nil_iff.mp happend).1) hne
      -- Two words at the same place: one begins with the other.
      · rcases List.prefix_or_prefix_of_prefix (happend ▸ List.prefix_append _ _) hprefix with
          hwv | hvw
        · exact absurd hwv (hwords v hv).1
        · exact absurd hvw (hwords v hv).2

end Ahead

/-- What stands behind a name or a number. -/
def delimiters : List String := [" ", ",", ")", "]", "."]

theorem Ahead.head_of_delimiters {rest : List Char} (h : Ahead delimiters rest) :
    ∀ c ∈ rest.head?, c ≠ '"' ∧ c.isDigit = false := by
  intro c hc
  rcases h with rfl | ⟨w, hw, t, rfl⟩
  · simp only [List.head?_nil, Option.mem_def, reduceCtorEq] at hc
  · simp only [delimiters, List.mem_cons, List.not_mem_nil, or_false] at hw
    rcases hw with rfl | rfl | rfl | rfl | rfl <;>
      (obtain rfl := Option.some.inj hc; decide)

/-- Pieces after which one of the words `after` may come, and which together
    with that go on with one of the words `words`. -/
def Leads (words : List String) (pieces : List Piece) (after : List String) : Prop :=
  ∀ n rest, Ahead after rest → Ahead words (written n pieces ++ rest)

namespace Leads

variable {words after : List String}

theorem nil (h : after.all (begins words) = true) : Leads words [] after :=
  fun _ _ hrest => hrest.widen words h

theorem text {w : String} {rest : List Piece} (h : begins words w = true) :
    Leads words (.text w :: rest) after := by
  rcases List.any_eq_true.mp h with ⟨v, hv, hvw⟩
  intro n more _
  refine Or.inr ⟨v, hv, (List.isPrefixOf_iff_prefix.mp hvw).trans ?_⟩
  rw [written, List.append_assoc]
  exact List.prefix_append _ _

theorem name (s : String) (rest : List Piece) : Leads ["\""] (.name s :: rest) after := by
  intro n more _
  rcases Starts.name s rest n with ⟨t, ht⟩
  exact Or.inr ⟨"\"", List.mem_cons_self, t ++ more, by rw [ht]; rfl⟩

theorem append {between : List String} {ps qs : List Piece} (hp : Leads words ps between)
    (hq : Leads between qs after) : Leads words (ps ++ qs) after := by
  intro n rest hrest
  rw [written_append, List.append_assoc]
  exact hp n _ (hq _ rest hrest)

theorem joined {u v : String} {rest : List Piece}
    (h : Leads words (.text (u ++ v) :: rest) after) :
    Leads words (.text u :: .text v :: rest) after := by
  intro n more hmore
  have hlead := h n more hmore
  simp only [written, String.toList_append, List.append_assoc] at hlead ⊢
  exact hlead

end Leads

/-! ### Readers that return what was written -/

/-- A reader that reads pieces as `a`, whatever comes after them, provided that
    it starts with one of the words `after`. -/
def Reads {α : Type} (reader : Reader α) (pieces : List Piece) (a : α) (after : List String) :
    Prop :=
  ∀ n rest values, Ahead after rest →
    reader ⟨written n pieces ++ rest, paramsOf pieces ++ values⟩ = some (a, ⟨rest, values⟩)

namespace Reads

open Reader

variable {α β : Type} {after : List String}

theorem pure (a : α) : Reads (Pure.pure a) [] a after := fun _ _ _ _ => rfl

theorem bind {reader : Reader α} {next : α → Reader β} {ps qs : List Piece} {a : α} {b : β}
    {between : List String} (hfirst : Reads reader ps a between)
    (hnext : Reads (next a) qs b after) (hleads : Leads between qs after) :
    Reads (reader >>= next) (ps ++ qs) b after := by
  intro n rest values hrest
  have hread := hfirst n (written (n + (paramsOf ps).length) qs ++ rest) (paramsOf qs ++ values)
    (hleads _ rest hrest)
  rw [written_append, paramsOf_append, List.append_assoc, List.append_assoc]
  simp only [Bind.bind, StateT.bind, hread, Option.bind_some]
  exact hnext _ rest values hrest

/-- Fewer words may follow. -/
theorem narrow {reader : Reader α} {ps : List Piece} {a : α} {words : List String}
    (h : Reads reader ps a words) (hafter : after.all (begins words) = true) :
    Reads reader ps a after :=
  fun n rest values hrest => h n rest values (hrest.widen words hafter)

/-- A reader and what is read after it, which starts with a word that may follow. -/
theorem bind_on {reader : Reader α} {next : α → Reader β} {ps qs : List Piece} {a : α} {b : β}
    {between : List String} (hfirst : Reads reader ps a between)
    (hnext : Reads (next a) qs b after ∧ Leads between qs after) :
    Reads (reader >>= next) (ps ++ qs) b after :=
  hfirst.bind hnext.1 hnext.2

/-- The text of a word in front of the rest. -/
theorem isPrefixOf?_written (n : Nat) (w : String) (qs : List Piece) (rest : List Char) :
    w.toList.isPrefixOf? (written n (.text w :: qs) ++ rest) = some (written n qs ++ rest) := by
  rw [List.isPrefixOf?_eq_some_iff_append_eq, written, List.append_assoc]

theorem word_bind {w : String} {next : Unit → Reader β} {qs : List Piece} {b : β}
    (hnext : Reads (next ()) qs b after) : Reads (word w >>= next) (.text w :: qs) b after := by
  intro n rest values hrest
  simp only [Bind.bind, StateT.bind, word, isPrefixOf?_written, Option.map_some,
    Option.bind_some, paramsOf_text]
  exact hnext n rest values hrest

theorem tryWord_bind {w : String} {next : Bool → Reader β} {qs : List Piece} {b : β}
    (hnext : Reads (next true) qs b after) :
    Reads (tryWord w >>= next) (.text w :: qs) b after := by
  intro n rest values hrest
  simp only [Bind.bind, StateT.bind, tryWord, isPrefixOf?_written, Option.bind_some, paramsOf_text]
  exact hnext n rest values hrest

/-- A word that cannot be there, as other words are. -/
theorem tryWord_missing {w : String} {next : Bool → Reader β} {qs : List Piece} {b : β}
    {words : List String} (hleads : Leads words qs after) (hw : isApart w words = true)
    (hnext : Reads (next false) qs b after) : Reads (tryWord w >>= next) qs b after := by
  intro n rest values hrest
  have hmissing := (hleads n rest hrest).missing w hw
  simp only [Bind.bind, StateT.bind, tryWord, hmissing, Option.bind_some]
  exact hnext n rest values hrest

theorem peek_bind {next : Option Char → Reader β} {ps : List Piece} {b : β} (c : Char)
    (hstarts : Starts c ps) (hnext : Reads (next (some c)) ps b after) :
    Reads (peek >>= next) ps b after := by
  intro n rest values hrest
  rcases hstarts n with ⟨t, ht⟩
  have hread := hnext n rest values hrest
  rw [ht, List.cons_append] at hread ⊢
  simp only [Bind.bind, StateT.bind, peek, List.head?_cons, Option.bind_some]
  exact hread

theorem isNext_bind {w : String} {next : Bool → Reader β} {ps : List Piece} {b : β}
    (answer : Bool) (hw : ∀ n rest, w.toList.isPrefixOf (written n ps ++ rest) = answer)
    (hnext : Reads (next answer) ps b after) : Reads (isNext w >>= next) ps b after := by
  intro n rest values hrest
  simp only [Bind.bind, StateT.bind, isNext, hw, Option.bind_some]
  exact hnext n rest values hrest

/-- Texts next to each other are one text. -/
theorem joined {reader : Reader α} {u v : String} {qs : List Piece} {a : α}
    (h : Reads reader (.text (u ++ v) :: qs) a after) :
    Reads reader (.text u :: .text v :: qs) a after := by
  intro n rest values hrest
  have hread := h n rest values hrest
  simp only [written, String.toList_append, List.append_assoc, paramsOf_text] at hread ⊢
  exact hread

/-! ### Names and values -/

theorem unquote_doubleQuotes (content rest : List Char) (h : ∀ c ∈ rest.head?, c ≠ '"') :
    unquote false (doubleQuotes content ++ '"' :: rest) = some (content, rest) := by
  induction content with
  | nil =>
      rw [doubleQuotes, List.nil_append, unquote, if_pos rfl]
      -- The quote is the last one, as it is not doubled.
      cases rest with
      | nil => rfl
      | cons c more => rw [unquote, if_neg (h c rfl)]
  | cons c more ih =>
      by_cases hc : c = '"'
      · rw [doubleQuotes, if_pos hc, List.cons_append, List.cons_append, unquote, if_pos rfl,
          unquote, if_pos rfl, ih, hc]
        rfl
      · rw [doubleQuotes, if_neg hc, List.cons_append, unquote, if_neg hc, ih]
        rfl

theorem name (s : String) : Reads Reader.name [.name s] s delimiters := by
  intro n rest values hrest
  have htext : written n [.name s] ++ rest = '"' :: (doubleQuotes s.toList ++ '"' :: rest) := by
    simp only [written, quoteName, String.toList_ofList, List.append_nil, List.cons_append,
      List.append_assoc, List.nil_append]
  rw [htext]
  have hcontent := unquote_doubleQuotes s.toList rest fun c hc => (hrest.head_of_delimiters c hc).1
  simp only [Reader.name, hcontent, Option.map_some, String.ofList_toList, paramsOf_name,
    paramsOf_nil, List.nil_append]

theorem value (p : Param) : Reads Reader.value [.bind p] p delimiters := by
  intro n rest values hrest
  have htext : written n [.bind p] ++ rest = '$' :: (Nat.toDigits 10 (n + 1) ++ rest) := by
    simp only [written, placeholder, String.toList_ofList, List.append_nil, List.cons_append]
  have hdigits : ∀ c ∈ Nat.toDigits 10 (n + 1), c.isDigit = true := fun c hc =>
    Nat.isDigit_of_mem_toDigits (by decide) (by decide) hc
  have hdrop : (Nat.toDigits 10 (n + 1) ++ rest).dropWhile Char.isDigit = rest := by
    rw [List.dropWhile_append_of_pos hdigits]
    cases rest with
    | nil => rfl
    | cons c more =>
        refine List.dropWhile_cons_of_neg ?_
        rw [(hrest.head_of_delimiters c rfl).2]
        decide
  rw [htext]
  simp only [Reader.value, paramsOf_bind, paramsOf_nil, List.cons_append, List.nil_append, hdrop]

theorem bound (k : Int) : Reads Reader.bound [.bind (.int8 k)] k delimiters := by
  intro n rest values hrest
  have hread := value (.int8 k) n rest values hrest
  simp only [Reader.bound, Bind.bind, StateT.bind, hread, Option.bind_some]
  rfl

theorem elementType (t : String) (h : '[' ∉ t.toList) :
    Reads Reader.elementType [.text t] t ["["] := by
  intro n rest values hrest
  have htype : ∀ c ∈ t.toList, (c != '[') = true := by
    intro c hc
    rw [bne_iff_ne]
    exact fun heq => h (heq ▸ hc)
  -- The type is followed by the end of the text or by a bracket.
  have hstop : rest.takeWhile (· != '[') = [] ∧ rest.dropWhile (· != '[') = rest := by
    rcases hrest with rfl | ⟨w, hw, more, rfl⟩
    · exact ⟨rfl, rfl⟩
    · rw [List.mem_singleton.mp hw]
      exact ⟨rfl, rfl⟩
  simp only [Reader.elementType, written, List.append_nil, List.takeWhile_append_of_pos htype,
    List.dropWhile_append_of_pos htype, hstop.1, hstop.2, String.ofList_toList, paramsOf_text,
    paramsOf_nil, List.nil_append]

/-! ### Clauses and lists -/

theorem bind_pure {reader : Reader α} {f : α → β} {ps : List Piece} {a : α}
    (h : Reads reader ps a after) :
    Reads (reader >>= fun a => Pure.pure (f a)) ps (f a) after := by
  have hread : Reads (reader >>= fun a => Pure.pure (f a)) (ps ++ []) (f a) after :=
    h.bind (pure (f a)) fun _ _ hrest => hrest
  rw [List.append_nil] at hread
  exact hread

theorem clause_some {w : String} {part : Reader α} {ps : List Piece} {a : α}
    (h : Reads part ps a after) : Reads (clause w part) (.text w :: ps) (some a) after :=
  tryWord_bind h.bind_pure

theorem clause_none {w : String} {part : Reader α} (hw : isApart w after = true) :
    Reads (clause w part) [] none after :=
  tryWord_missing (fun _ _ hrest => hrest) hw (pure none)

/-- One item after the other is read, as long as there are commas between
    them. -/
theorem items {item : Reader α} {pieces : α → List Piece} {between : List String}
    (hcomma : begins between ", " = true) (hafter : after.all (begins between) = true)
    (hapart : isApart ", " after = true) (as : List α)
    (hitem : ∀ a ∈ as, Reads item (pieces a) a between) (hne : as ≠ []) (k : Nat)
    (hk : as.length ≤ k) :
    Reads (Reader.items item k) (separated ", " (as.map pieces)) as after := by
  induction as generalizing k with
  | nil => exact absurd rfl hne
  | cons a rest ih =>
      have ha := hitem a List.mem_cons_self
      obtain ⟨j, rfl⟩ : ∃ j, k = j + 1 := ⟨k - 1, by simp only [List.length_cons] at hk; omega⟩
      cases rest with
      | nil =>
          have hlast : Reads (Reader.items item (j + 1)) (pieces a ++ []) [a] after := by
            rw [Reader.items]
            refine ha.bind ?_ (Leads.nil hafter)
            exact tryWord_missing (fun _ _ hrest => hrest) hapart (pure [a])
          rw [List.append_nil] at hlast
          exact hlast
      | cons b more =>
          have hrest := ih (fun c hc => hitem c (List.mem_cons_of_mem a hc)) (by simp) j
            (by simp only [List.length_cons] at hk ⊢; omega)
          exact ha.bind (tryWord_bind hrest.bind_pure) (Leads.text hcomma)

/-- A list is read if its items are, and if none of them can be taken for the
    end of the list. -/
theorem list {item : Reader α} {pieces : α → List Piece} (between : List String) (cs : List Char)
    (hcomma : begins between ", " = true) (hafter : after.all (begins between) = true)
    (hapart : isApart ", " after = true) (hend : after.all (begins [" ", ")"]) = true)
    (hcs : ' ' ∉ cs ∧ ')' ∉ cs) (as : List α) (hitem : ∀ a ∈ as, Reads item (pieces a) a between)
    (hstarts : ∀ a ∈ as, ∃ c ∈ cs, Starts c (pieces a)) (k : Nat)
    (hk : width (separated ", " (as.map pieces)) ≤ k) :
    Reads (Reader.list item k) (separated ", " (as.map pieces)) as after := by
  cases as with
  | nil =>
      intro n rest values hrest
      rcases hrest.widen _ hend with rfl | ⟨w, hw, t, rfl⟩
      · rfl
      · simp only [List.mem_cons, List.not_mem_nil, or_false] at hw
        rcases hw with rfl | rfl <;> rfl
  | cons a more =>
      have hlength : (a :: more).length ≤ k := by
        rw [← List.length_map pieces]
        refine Nat.le_trans (length_le_separated _ ?_) hk
        intro ps hps
        rcases List.mem_map.mp hps with ⟨b, hb, rfl⟩
        rcases hstarts b hb with ⟨c, _, hfirst⟩
        exact hfirst.width_pos
      have hread := items hcomma hafter hapart (a :: more) hitem (by simp) k hlength
      rcases hstarts a List.mem_cons_self with ⟨c, hc, hfirst⟩
      have hopen : Starts c (separated ", " ((a :: more).map pieces)) := by
        cases more with
        | nil => exact hfirst
        | cons b rest => exact hfirst.append _
      have hother : ¬ (c = ' ' ∨ c = ')') := by
        rintro (rfl | rfl)
        · exact hcs.1 hc
        · exact hcs.2 hc
      refine peek_bind c hopen ?_
      simp only [if_neg hother]
      exact hread

end Reads

/-- The pieces of a clause that `part` reads, or nothing. Its word can be one
    piece, or two of which the first is a blank. -/
inductive OptionalClause {α : Type} (w : String) (part : Reader α) (after : List String) :
    List Piece → Option α → Prop
  | missing : OptionalClause w part after [] none
  | one {ps : List Piece} {a : α} : Reads part ps a after →
      OptionalClause w part after (.text w :: ps) (some a)
  | two {v : String} {ps : List Piece} {a : α} : " " ++ v = w → Reads part ps a after →
      OptionalClause w part after (.text " " :: .text v :: ps) (some a)

namespace Reads

open Reader

variable {α β : Type} {after : List String}

/-- After a clause that may be missing, the next one can be read, and the words
    that can come are one more. -/
theorem optional_bind {w : String} {part : Reader α} {next : Option α → Reader β}
    {ps qs : List Piece} {a : Option α} {b : β} {words : List String}
    (h : OptionalClause w part words ps a) (hw : isApart w words = true)
    (hnext : Reads (next a) qs b after ∧ Leads words qs after) :
    Reads (clause w part >>= next) (ps ++ qs) b after ∧ Leads (w :: words) (ps ++ qs) after := by
  cases h with
  | missing =>
      refine ⟨(clause_none hw).bind hnext.1 hnext.2, Leads.append (Leads.nil ?_) hnext.2⟩
      exact List.all_eq_true.mpr fun v hv => begins_of_mem (List.mem_cons_of_mem w hv)
  | one hpart =>
      exact ⟨(clause_some hpart).bind hnext.1 hnext.2,
        Leads.text (begins_of_mem List.mem_cons_self)⟩
  | two hv hpart =>
      subst hv
      exact ⟨((clause_some hpart).bind hnext.1 hnext.2).joined,
        Leads.joined (Leads.text (begins_of_mem List.mem_cons_self))⟩

end Reads

/-! ### Bounded readers -/

/-- A reader that reads pieces as `a` if its bound is not less than their
    width. -/
def ReadsWithin {α : Type} (reader : Nat → Reader α) (pieces : List Piece) (a : α)
    (after : List String) : Prop :=
  ∀ k, width pieces ≤ k → Reads (reader k) pieces a after

theorem ReadsWithin.of_succ {α : Type} {reader : Nat → Reader α} {pieces : List Piece} {a : α}
    {after : List String} (hpos : 0 < width pieces)
    (h : ∀ k, width pieces ≤ k + 1 → Reads (reader (k + 1)) pieces a after) :
    ReadsWithin reader pieces a after := by
  intro k hk
  obtain ⟨j, rfl⟩ : ∃ j, k = j + 1 := ⟨k - 1, by omega⟩
  exact h j hk

/-- A text is read to its end, with the bound that its length is. -/
theorem ReadsWithin.readAll {α : Type} {reader : Nat → Reader α} {pieces : List Piece} {a : α}
    {after : List String} (h : ReadsWithin reader pieces a after) :
    Sql.readAll reader (Draft.ofPieces pieces).sql (Draft.ofPieces pieces).params = some a := by
  have hwidth : width pieces ≤ (String.ofList (written 0 pieces)).length := by
    rw [String.length_ofList]
    exact width_le_length 0 pieces
  have hread := h _ hwidth 0 [] [] (Or.inl rfl)
  rw [List.append_nil, List.append_nil] at hread
  simp only [Sql.readAll, Draft.ofPieces_eq, String.toList_ofList, hread]

end Sql

end ViewCompiler
