import Mathlib.Data.List.Infix
import ViewCompiler.Query.Clauses

/-!
# Spellings in a Sort

How the texts of a sort are written, and how they are to be read.

A sort names fields, each by itself or with a direction behind it. So a text is read from
its end: a direction is taken off, and what is left is the field. Nothing else is looked
at, least of all which fields there are. A field that is written with a direction is
therefore always found again, whatever its name is, and one that is written without is
found again unless its name ends in a direction itself (`orderingOf_write_iff`).

`readSpelling` says the same of a text that somebody else has written. Every text is some
field in some spelling, and that is what it is taken for (`orderingOf_eq_readSpelling`).

## Main definitions

* `Spelling`: The ways of writing a field in a sort.
* `EndsInDirection`: Names that end like a direction.
* `readSpelling`: The field that a text names, and how it is written there.

## Theorems

* `orderingOf_write_iff`: When a field is found again.
* `write_readSpelling`: A text is the field that is read, in the spelling that is read.
* `orderingOf_eq_readSpelling`, `orderingOf_fst_iff`: What a text is taken for.
-/

namespace ViewCompiler

open Json Sql

/-! ### Writing -/

/-- The ways of writing a field in a sort: by itself, or with a direction. -/
inductive Spelling where
  | plain
  | ascending
  | descending
deriving DecidableEq

namespace Spelling

/-- The text of a field. -/
def write : Spelling → String → String
  | .plain, name => name
  | .ascending, name => name ++ "_ASC"
  | .descending, name => name ++ "_DESC"

/-- The direction that a spelling asks for. -/
def direction : Spelling → Direction
  | .plain => .asc
  | .ascending => .asc
  | .descending => .desc

end Spelling

/-- A name that ends in what a direction is written as. -/
def EndsInDirection (name : String) : Prop :=
  "_ASC".toList <:+ name.toList ∨ "_DESC".toList <:+ name.toList

instance (name : String) : Decidable (EndsInDirection name) :=
  inferInstanceAs (Decidable (_ ∨ _))

theorem withoutEnding?_append (ending name : String) :
    withoutEnding? ending (name ++ ending) = some name := by
  have hsuffix : ending.toList.isSuffixOf (name ++ ending).toList = true := by
    rw [List.isSuffixOf_iff_suffix, String.toList_append]
    exact List.suffix_append _ _
  -- What is left over has the length of the name, with which the text begins.
  have hlength : (name ++ ending).length - ending.length = name.toList.length := by
    rw [String.length_append, Nat.add_sub_cancel, String.length_toList]
  rw [withoutEnding?, if_pos hsuffix, hlength, String.toList_append, List.take_left,
    String.ofList_toList]

theorem withoutEnding?_eq_none (ending text : String) (h : ¬ ending.toList <:+ text.toList) :
    withoutEnding? ending text = none := by
  rw [withoutEnding?, if_neg]
  rwa [List.isSuffixOf_iff_suffix]

/-- Behind the one direction there is not the other. -/
theorem not_descending_of_ascending (name : String) :
    ¬ "_DESC".toList <:+ (name ++ "_ASC").toList := by
  intro hdesc
  have hasc : "_ASC".toList <:+ (name ++ "_ASC").toList := by
    rw [String.toList_append]
    exact List.suffix_append _ _
  -- Of two endings of one text, the shorter is an ending of the longer.
  exact absurd (List.suffix_of_suffix_length_le hasc hdesc (by decide)) (by decide)

/-- A field that is written with a direction is found again. -/
theorem orderingOf_directed (spelling : Spelling) (h : spelling ≠ .plain) (name : String) :
    orderingOf (spelling.write name) = (name, spelling.direction) := by
  cases spelling with
  | plain => exact absurd rfl h
  | descending => simp only [Spelling.write, orderingOf, withoutEnding?_append, Spelling.direction]
  | ascending =>
      have hdesc := withoutEnding?_eq_none _ _ (not_descending_of_ascending name)
      simp only [Spelling.write, orderingOf, hdesc, withoutEnding?_append, Spelling.direction]

/-- A name that ends in a direction can be taken for a shorter one with a direction. -/
theorem EndsInDirection.exists_write {name : String} (h : EndsInDirection name) :
    ∃ spelling bare, spelling ≠ .plain ∧ name = Spelling.write spelling bare := by
  rcases h with ⟨bare, hbare⟩ | ⟨bare, hbare⟩
  · refine ⟨.ascending, String.ofList bare, nofun, ?_⟩
    rw [Spelling.write, ← String.toList_inj, String.toList_append, String.toList_ofList, hbare]
  · refine ⟨.descending, String.ofList bare, nofun, ?_⟩
    rw [Spelling.write, ← String.toList_inj, String.toList_append, String.toList_ofList, hbare]

theorem Spelling.length_lt_write (spelling : Spelling) (h : spelling ≠ .plain) (name : String) :
    name.length < (spelling.write name).length := by
  cases spelling with
  | plain => exact absurd rfl h
  | ascending =>
      have hlength : "_ASC".length = 4 := rfl
      rw [write, String.length_append]
      omega
  | descending =>
      have hlength : "_DESC".length = 5 := rfl
      rw [write, String.length_append]
      omega

/-- A field that is written in a sort is found again, unless it stands there without a
    direction and its name ends in one. -/
theorem orderingOf_write_iff (spelling : Spelling) (name : String) :
    orderingOf (spelling.write name) = (name, spelling.direction) ↔
      (spelling = .plain → ¬ EndsInDirection name) := by
  by_cases hspelling : spelling = .plain
  · subst hspelling
    constructor
    -- The name is read as a shorter one.
    · intro hread _ hending
      rcases hending.exists_write with ⟨directed, bare, hdirected, rfl⟩
      rw [Spelling.write, orderingOf_directed directed hdirected, Prod.mk.injEq] at hread
      have hshorter := directed.length_lt_write hdirected bare
      rw [← hread.1] at hshorter
      exact Nat.lt_irrefl _ hshorter
    · intro hending
      have hneither := not_or.mp (hending rfl)
      simp only [Spelling.write, Spelling.direction, orderingOf,
        withoutEnding?_eq_none _ _ hneither.1, withoutEnding?_eq_none _ _ hneither.2]
  · simp only [orderingOf_directed spelling hspelling, hspelling, false_imp_iff]

/-! ### Reading -/

/-- The field that a sort text names, and the way in which it is written there. A text is
    read from its end. -/
def readSpelling (text : String) : String × Spelling :=
  match text.toList.reverse with
  | 'C' :: 'S' :: 'E' :: 'D' :: '_' :: front => (String.ofList front.reverse, .descending)
  | 'C' :: 'S' :: 'A' :: '_' :: front => (String.ofList front.reverse, .ascending)
  | _ => (text, .plain)

/-- Every text is the field that is read in it, in the spelling that is read. A field that
    stands there by itself does not end in a direction. -/
theorem write_readSpelling (text : String) :
    (readSpelling text).2.write (readSpelling text).1 = text ∧
      ((readSpelling text).2 = .plain → ¬ EndsInDirection (readSpelling text).1) := by
  have hwritten : ∀ front ending : List Char, text.toList.reverse = ending.reverse ++ front →
      String.ofList front.reverse ++ String.ofList ending = text := by
    intro front ending h
    rw [← String.toList_inj, String.toList_append, String.toList_ofList, String.toList_ofList,
      ← List.reverse_reverse text.toList, h, List.reverse_append, List.reverse_reverse]
  unfold readSpelling
  split
  · rename_i front h
    exact ⟨hwritten front "_DESC".toList h, nofun⟩
  · rename_i front h
    exact ⟨hwritten front "_ASC".toList h, nofun⟩
  -- An ending would have been found at the front of the reversed text.
  · rename_i hdesc hasc
    refine ⟨rfl, fun _ hending => ?_⟩
    rcases hending with ⟨front, hfront⟩ | ⟨front, hfront⟩
    · exact hasc front.reverse (by rw [← hfront, List.reverse_append]; rfl)
    · exact hdesc front.reverse (by rw [← hfront, List.reverse_append]; rfl)

/-- A text is taken for the field that is read in it. -/
theorem orderingOf_eq_readSpelling (text : String) :
    orderingOf text = ((readSpelling text).1, (readSpelling text).2.direction) := by
  have hread := (orderingOf_write_iff (readSpelling text).2 (readSpelling text).1).mpr
    (write_readSpelling text).2
  rwa [(write_readSpelling text).1] at hread

/-- What holds of the field that a text is taken for holds of a field that the text can be
    written for. -/
theorem orderingOf_fst_iff (P : String → Prop) (text : String) :
    P (orderingOf text).1 ↔ ∃ (spelling : Spelling) (name : String),
      text = spelling.write name ∧ (spelling = .plain → ¬ EndsInDirection name) ∧ P name := by
  constructor
  · intro h
    rw [orderingOf_eq_readSpelling] at h
    exact ⟨_, _, (write_readSpelling text).1.symm, (write_readSpelling text).2, h⟩
  · rintro ⟨spelling, name, rfl, hplain, h⟩
    rw [(orderingOf_write_iff spelling name).mpr hplain]
    exact h

end ViewCompiler
