import ViewCompiler.Json.Decode
import ViewCompiler.Json.Render

/-!
# Reading Back What Was Written

The compact text of a value is read as that value.

The reader and the writer of JSON share no definition. The writer goes through
a value once and leaves characters behind; the reader descends into them with a
count of calls, skips blanks that the writer never leaves, decodes escapes that
it never writes, and finds the end of a number only at the character behind it.
`Document.read?_compact` says that they agree on every value whose numbers are
whole and fit 64 bits. Floating point numbers are left out: their literals go
through rounding, which is a subject of its own.

Two conditions carry the induction. A number has no end of its own, so a value
is read back only in front of something that cannot be taken for a digit, a
point or an exponent (`Delimited`): the end of the text, a comma, a closing
bracket. And the calls must not run out. The reader makes a call for every
value and one for every item of a sequence, each of which has a character of
its own, so twice the length of the text is enough.

What is read is a `Document`, which has the members of an object in the order
of the text and repeated names included. Nothing about names is needed here.

## Main definitions

* `Delimited`: What may follow a value.
* `Value.Whole`: A value all of whose numbers are whole and fit 64 bits.
* `Value.document`: The document that the text of a value is read as.

## Theorems

* `readNumber_intChars`: A whole number is read back.
* `readText_stringChars`: A string is read back, whatever its characters are.
* `readDocument_chars`: A value is read back in front of what may follow it.
* `Document.read?_compact`: A text that holds a value and nothing else.
-/

namespace ViewCompiler

namespace Json

open Text (Symbol)

/-! ### Numbers -/

/-- Whether a symbol could go on with the literal of a number. -/
def continuesNumber : Symbol → Bool
  | some c => c.isDigit || c == '.' || c == 'e' || c == 'E'
  | none => false

/-- What may follow a value: nothing that could be taken for a part of it. -/
def Delimited (rest : List Symbol) : Prop :=
  ∀ s ∈ rest.head?, continuesNumber s = false

theorem delimited_nil : Delimited [] := fun _ h => absurd h (by simp)

theorem delimited_cons (c : Char) (rest : List Symbol) (h : continuesNumber (some c) = false) :
    Delimited (some c :: rest) := by
  intro s hs
  rw [List.head?_cons, Option.mem_some_iff] at hs
  rw [← hs]
  exact h

theorem Delimited.head {c : Char} {rest : List Symbol} (h : Delimited (some c :: rest)) :
    c.isDigit = false ∧ c ≠ '.' ∧ c ≠ 'e' ∧ c ≠ 'E' := by
  have hc := h (some c) rfl
  simpa only [continuesNumber, Bool.or_eq_false_iff, beq_eq_false_iff_ne, and_assoc] using hc

theorem readDigits_append (digits : List Char) (hdigits : ∀ c ∈ digits, c.isDigit = true)
    (rest : List Symbol) (hrest : Delimited rest) :
    readDigits (digits.map some ++ rest) = (digits, rest) := by
  induction digits with
  | nil =>
      match rest with
      | [] => rfl
      | none :: more => rfl
      | some c :: more =>
          rw [List.map_nil, List.nil_append, readDigits, if_neg (by simp [hrest.head.1])]
  | cons c more ih =>
      have hmore := ih fun d hd => hdigits d (List.mem_cons_of_mem c hd)
      rw [List.map_cons, List.cons_append, readDigits, if_pos (hdigits c List.mem_cons_self)]
      simp only [hmore]

theorem toDigits_start (n : Nat) :
    ∃ c cs, Nat.toDigits 10 n = c :: cs ∧ c.isDigit = true := by
  cases htext : Nat.toDigits 10 n with
  | nil => exact absurd htext Nat.toDigits_ne_nil
  | cons c cs =>
      exact ⟨c, cs, rfl,
        Nat.isDigit_of_mem_toDigits (by decide) (by decide) (htext ▸ List.mem_cons_self)⟩

/-- The digits of a number do not start with a zero unless they are nothing else. -/
theorem head?_toDigits (n : Nat) (hn : n ≠ 0) : (Nat.toDigits 10 n).head? ≠ some '0' := by
  induction n using Nat.strongRecOn with
  | ind n ih =>
      have hdigit : ∀ d < 10, d ≠ 0 → [Nat.digitChar d].head? ≠ some '0' := by decide
      rw [Nat.toDigits_eq_if (by decide)]
      by_cases hlt : n < 10
      · rw [if_pos hlt]
        exact hdigit n hlt hn
      · have hrest := ih (n / 10) (by omega) (by omega)
        rw [if_neg hlt, List.head?_append]
        cases hhead : (Nat.toDigits 10 (n / 10)).head? with
        | none => exact absurd (List.head?_eq_none_iff.mp hhead) Nat.toDigits_ne_nil
        | some c =>
            rw [hhead] at hrest
            exact hrest

theorem readWhole_toDigits (n : Nat) (rest : List Symbol) (hrest : Delimited rest) :
    readWhole ((Nat.toDigits 10 n).map some ++ rest) = some (Nat.toDigits 10 n, rest) := by
  have hdigits : ∀ c ∈ Nat.toDigits 10 n, c.isDigit = true := fun c hc =>
    Nat.isDigit_of_mem_toDigits (by decide) (by decide) hc
  have hread := readDigits_append _ hdigits rest hrest
  by_cases hn : n = 0
  · rw [hn, Nat.toDigits_zero]
    rfl
  · have hhead := head?_toDigits n hn
    rcases toDigits_start n with ⟨c, more, htext, hdigit⟩
    have hzero : c ≠ '0' := fun heq => hhead (by rw [htext, heq]; rfl)
    rw [htext, List.map_cons, List.cons_append] at hread ⊢
    rw [readWhole, if_neg hzero, if_pos hdigit, hread]

theorem readFraction_of_delimited (rest : List Symbol) (hrest : Delimited rest) :
    readFraction rest = some (none, rest) := by
  match rest with
  | [] => rfl
  | none :: more => rfl
  | some c :: more => rw [readFraction, if_neg hrest.head.2.1]

theorem readExponent_of_delimited (rest : List Symbol) (hrest : Delimited rest) :
    readExponent rest = some (none, rest) := by
  match rest with
  | [] => rfl
  | none :: more => rfl
  | some c :: more => rw [readExponent, if_neg (not_or.mpr hrest.head.2.2)]

/-- A character with which the literal of a number can start. -/
def startsNumber (c : Char) : Bool :=
  c.isDigit || c == '-'

theorem intChars_start (n : Int) : ∃ c cs, intChars n = c :: cs ∧ startsNumber c = true := by
  unfold intChars
  by_cases hn : n < 0
  · exact ⟨'-', _, if_pos hn, rfl⟩
  · rcases toDigits_start n.natAbs with ⟨c, cs, htext, hdigit⟩
    exact ⟨c, cs, by rw [if_neg hn, htext], by rw [startsNumber, hdigit, Bool.true_or]⟩

/-- The literal that a whole number is written as. -/
def NumberLiteral.ofInt (n : Int) : NumberLiteral :=
  ⟨decide (n < 0), Nat.toDigits 10 n.natAbs, none, none⟩

theorem readNumber_intChars (n : Int) (rest : List Symbol) (hrest : Delimited rest) :
    readNumber ((intChars n).map some ++ rest) = some (.ofInt n, rest) := by
  have hwhole := readWhole_toDigits n.natAbs rest hrest
  have hfraction := readFraction_of_delimited rest hrest
  have hexponent := readExponent_of_delimited rest hrest
  unfold intChars NumberLiteral.ofInt
  by_cases hn : n < 0
  · simp only [List.map_cons, List.cons_append, readNumber, if_true, hwhole, hfraction,
      hexponent, decide_true, Option.bind_eq_bind, Option.bind_some, hn]
    rfl
  · rw [if_neg hn]
    -- The first digit is no sign.
    rcases toDigits_start n.natAbs with ⟨c, cs, htext, hdigit⟩
    have hsign : c ≠ '-' := by
      rintro rfl
      exact absurd hdigit (by decide)
    rw [htext, List.map_cons, List.cons_append] at hwhole
    simp only [htext, List.map_cons, List.cons_append, readNumber, if_neg hsign, hwhole, hfraction,
      hexponent, hn, decide_false, Option.bind_eq_bind, Option.bind_some]
    rfl

/-- A whole number of 64 bits, one of them for the sign if it is negative. -/
def Number.Whole : Number → Prop
  | .int n => -9223372036854775808 ≤ n ∧ n ≤ 18446744073709551615
  | .float _ => False

theorem NumberLiteral.number?_ofInt (n : Int) (h : (Number.int n).Whole) :
    (NumberLiteral.ofInt n).number? = some (.int n) := by
  have hvalue : digitsValue (Nat.toDigits 10 n.natAbs) = n.natAbs :=
    Nat.ofDigitChars_toDigits (by decide) (by decide)
  rcases h with ⟨hlow, hhigh⟩
  have hint : (NumberLiteral.ofInt n).int? = some n := by
    by_cases hn : n < 0
    · have habs : 0 < n.natAbs ∧ n.natAbs ≤ 9223372036854775808 := by omega
      have hneg : -(n.natAbs : Int) = n := by omega
      simp only [NumberLiteral.int?, NumberLiteral.ofInt, hvalue, hn, decide_true,
        if_true, habs, and_self, hneg, Option.isSome_none, Bool.or_self, Bool.false_eq_true,
        if_false]
    · have habs : n.natAbs ≤ 18446744073709551615 := by omega
      have hpos : (n.natAbs : Int) = n := by omega
      simp only [NumberLiteral.int?, NumberLiteral.ofInt, hvalue, hn, decide_false,
        Bool.false_eq_true, if_false, habs, if_true, hpos, Option.isSome_none, Bool.or_self]
  rw [NumberLiteral.number?, hint]

/-! ### Strings -/

/-- What one character is written as is read as one part, and the part denotes
    the character: as itself, behind a backslash, or by the number of its code
    unit, which for a control character is never half of a pair. -/
theorem readParts_escapeChar (c : Char) : ∃ part : StringPart,
    (∀ rest, readParts ((escapeChar c).map some ++ rest) =
      (readParts rest).map fun r => (part :: r.1, r.2)) ∧
    ∀ parts, joinParts (part :: parts) = (joinParts parts).map (c :: ·) := by
  by_cases hshort : c ∈ ['"', '\\', '\x08', '\x0c', '\n', '\r', '\t']
  · refine ⟨.char c, fun rest => ?_, fun parts => rfl⟩
    simp only [List.mem_cons, List.not_mem_nil, or_false] at hshort
    rcases hshort with rfl | rfl | rfl | rfl | rfl | rfl | rfl <;> rfl
  · simp only [List.mem_cons, List.not_mem_nil, or_false, not_or] at hshort
    rcases hshort with ⟨hquote, hback, hb, hf, hn, hr, ht⟩
    have hescape : escapeChar c = if c.toNat < 0x20 then
        ['\\', 'u', '0', '0', hexDigit (c.toNat / 16), hexDigit (c.toNat % 16)] else [c] := by
      simp only [escapeChar, hquote, hback, hb, hf, hn, hr, ht, if_false]
    by_cases hcontrol : c.toNat < 0x20
    · have hunit : ∀ n < 0x20, unit? (some '0') (some '0') (some (hexDigit (n / 16)))
          (some (hexDigit (n % 16))) = some n := by decide
      have hhalf : ∀ n < 0x20, isHighUnit n = false ∧ isLowUnit n = false := by decide
      refine ⟨.unit c.toNat, fun rest => ?_, fun parts => ?_⟩
      · rw [hescape, if_pos hcontrol]
        simp [readParts, hunit c.toNat hcontrol]
      · rw [joinParts.eq_def]
        simp only [hhalf c.toNat hcontrol, Bool.false_eq_true, if_false, Char.ofNat_toNat]
    · refine ⟨.char c, fun rest => ?_, fun parts => rfl⟩
      rw [hescape, if_neg hcontrol, List.map_singleton, List.singleton_append, readParts.eq_def]
      simp only [if_neg hquote, if_neg hback, if_neg hcontrol]

/-- A string behind its opening quote. -/
theorem readText_stringChars (s : String) (rest : List Symbol) :
    readText ((s.toList.flatMap escapeChar ++ ['"']).map some ++ rest) = some (some s, rest) := by
  have hparts : ∀ cs : List Char, ∃ parts, joinParts parts = some cs ∧
      readParts ((cs.flatMap escapeChar ++ ['"']).map some ++ rest) = some (parts, rest) := by
    intro cs
    induction cs with
    | nil => exact ⟨[], rfl, by rw [List.flatMap_nil, List.nil_append, readParts.eq_def]; rfl⟩
    | cons c more ih =>
        rcases ih with ⟨parts, hjoin, hread⟩
        rcases readParts_escapeChar c with ⟨part, hpart, hdenotes⟩
        refine ⟨part :: parts, by rw [hdenotes, hjoin, Option.map_some], ?_⟩
        rw [List.flatMap_cons, List.append_assoc, List.map_append, List.append_assoc, hpart, hread,
          Option.map_some]
  rcases hparts s.toList with ⟨parts, hjoin, hread⟩
  rw [readText, hread, Option.map_some, hjoin, Option.map_some, String.ofList_toList]

/-! ### Values -/

mutual
/-- A value all of whose numbers are whole. -/
def Value.Whole : Value → Prop
  | .number n => n.Whole
  | .array items => Value.ItemsWhole items
  | .object members => Value.MembersWhole members
  | _ => True
def Value.ItemsWhole : List Value → Prop
  | [] => True
  | v :: vs => v.Whole ∧ Value.ItemsWhole vs
def Value.MembersWhole : List (String × Value) → Prop
  | [] => True
  | (_, v) :: ms => v.Whole ∧ Value.MembersWhole ms
end

mutual
/-- The document that the text of a value is read as. -/
def Value.document : Value → Document
  | .null => .null
  | .bool b => .bool b
  | .number n => .number n
  | .string s => .string s
  | .array items => .array (Value.itemDocuments items)
  | .object members => .object (Value.memberDocuments members)
def Value.itemDocuments : List Value → List Document
  | [] => []
  | v :: vs => v.document :: Value.itemDocuments vs
def Value.memberDocuments : List (String × Value) → List (String × Document)
  | [] => []
  | (k, v) :: ms => (k, v.document) :: Value.memberDocuments ms
end

/-- A character with which a value can start: no blank, and no closing
    bracket. -/
def startsValue (c : Char) : Bool :=
  startsNumber c || ['"', 'n', 't', 'f', '[', '\x7b'].contains c

theorem startsValue_of_startsNumber (c : Char) (h : startsNumber c = true) :
    startsValue c = true := by
  rw [startsValue, h, Bool.true_or]

theorem ne_of_startsValue (c : Char) (h : startsValue c = true) :
    isSpace (some c) = false ∧ c ≠ ']' := by
  have hother : [' ', '\n', '\r', '\t', ']'].all (fun d => !startsValue d) = true := rfl
  have hne : ∀ d ∈ [' ', '\n', '\r', '\t', ']'], c ≠ d := by
    rintro d hd rfl
    have hnot := List.all_eq_true.mp hother c hd
    rw [h] at hnot
    exact Bool.noConfusion hnot
  simp [isSpace, hne]

theorem skipSpace_cons (c : Char) (rest : List Symbol) (h : isSpace (some c) = false) :
    skipSpace (some c :: rest) = some c :: rest := by
  rw [skipSpace, List.dropWhile_cons_of_neg (by simp [h])]

theorem skipSpace_start (c : Char) (rest : List Symbol) (h : startsValue c = true) :
    skipSpace (some c :: rest) = some c :: rest :=
  skipSpace_cons c rest (ne_of_startsValue c h).1

theorem Value.chars_start (v : Value) (hv : v.Whole) :
    ∃ c cs, v.chars = c :: cs ∧ startsValue c = true := by
  cases v with
  | null => exact ⟨_, _, by rw [Value.chars], rfl⟩
  | bool b => cases b <;> exact ⟨_, _, by rw [Value.chars, boolChars], rfl⟩
  | string s => exact ⟨_, _, by rw [Value.chars, stringChars], rfl⟩
  | array items => exact ⟨_, _, by rw [Value.chars], rfl⟩
  | object members => exact ⟨_, _, by rw [Value.chars], rfl⟩
  | number n =>
      rw [Value.Whole] at hv
      cases n with
      | float x => exact False.elim hv
      | int n =>
          rcases intChars_start n with ⟨c, cs, htext, hc⟩
          exact ⟨c, cs, by rw [Value.chars, Number.chars, htext], startsValue_of_startsNumber c hc⟩

theorem Value.itemChars_start (v : Value) (vs : List Value) (hv : v.Whole) :
    ∃ c cs, Value.itemChars (v :: vs) = c :: cs ∧ startsValue c = true := by
  rcases v.chars_start hv with ⟨c, cs, htext, hc⟩
  cases vs with
  | nil => exact ⟨c, cs, by rw [Value.itemChars, htext], hc⟩
  | cons w more => exact ⟨c, _, by rw [Value.itemChars, htext, List.cons_append], hc⟩

theorem Value.memberChars_start (m : String × Value) (ms : List (String × Value)) :
    ∃ cs, Value.memberChars (m :: ms) = '"' :: cs := by
  rcases m with ⟨k, v⟩
  cases ms with
  | nil => exact ⟨_, by rw [Value.memberChars, stringChars, List.cons_append]⟩
  | cons n more => exact ⟨_, by rw [Value.memberChars, stringChars, List.cons_append]⟩

theorem readDocument_intChars (n : Int) (h : (Number.int n).Whole) (calls : Nat)
    (rest : List Symbol) (hrest : Delimited rest) :
    readDocument (calls + 1) ((intChars n).map some ++ rest) = some (.number (.int n), rest) := by
  have hnumber := readNumber_intChars n rest hrest
  rcases intChars_start n with ⟨c, cs, htext, hc⟩
  rw [htext, List.map_cons, List.cons_append] at hnumber ⊢
  -- Neither a digit nor a sign is taken for the start of anything else.
  have hne : ∀ d, startsNumber d = false → c ≠ d := by
    rintro d hd rfl
    exact Bool.noConfusion (hc.symm.trans hd)
  simp only [readDocument, skipSpace_start c _ (startsValue_of_startsNumber c hc), hne '[' rfl,
    hne '\x7b' rfl, if_false, readLiteral, hne '"' rfl, hne 'n' rfl, hne 't' rfl, hne 'f' rfl,
    hnumber, Option.map_some, NumberLiteral.number?_ofInt n h, Option.getD_some]

/-- If every part is read from what it was written as, all of them are. -/
theorem mapM_map_of_forall {α β : Type} (write : α → β) (read : β → Option α) (items : List α)
    (h : ∀ a ∈ items, read (write a) = some a) : (items.map write).mapM read = some items := by
  induction items with
  | nil => rfl
  | cons a rest ih =>
      have hrest := ih fun b hb => h b (List.mem_cons_of_mem a hb)
      rw [List.map_cons, List.mapM_cons, h a List.mem_cons_self, hrest]
      rfl

theorem Document.ofMembers_named (members : List (String × Document)) :
    Document.ofMembers (members.map fun m => (some m.1, m.2)) = .object members := by
  rw [Document.ofMembers, mapM_map_of_forall _ _ members fun m _ => by rw [Option.map_some]]

/-- Something behind an opening bracket is the first item of an array. -/
theorem readDocument_array (calls : Nat) (c : Char) (rest : List Symbol)
    (hc : startsValue c = true) :
    readDocument (calls + 1) (some '[' :: some c :: rest) =
      (readItems calls (some c :: rest)).map fun r => (.array r.1, r.2) := by
  simp only [readDocument, skipSpace_start '[' _ rfl, if_true, skipSpace_start c _ hc]
  split
  · rename_i hclosed
    simp only [List.cons.injEq, Option.some.injEq] at hclosed
    exact absurd hclosed.1 (ne_of_startsValue c hc).2
  · rfl

/-- A quote behind an opening brace starts the first name of an object. -/
theorem readDocument_object (calls : Nat) (rest : List Symbol) :
    readDocument (calls + 1) (some '\x7b' :: some '"' :: rest) =
      (readMembers calls (some '"' :: rest)).map fun r => (Document.ofMembers r.1, r.2) := by
  simp only [readDocument, skipSpace_start '\x7b' _ rfl, skipSpace_start '"' _ rfl]
  rfl

/-- The members from one that has been read, up to the closing brace. -/
def readMembersAfter (calls : Nat) (member : Option String × Document) (rest : List Symbol) :
    Option (List (Option String × Document) × List Symbol) :=
  match skipSpace rest with
  | some ',' :: more => do
      let (members, more) ← readMembers calls more
      return (member :: members, more)
  | some '\x7d' :: more => return ([member], more)
  | _ => none

/-- A name and a value that is read back make a member. -/
theorem readMembers_named (calls : Nat) (name : String) (v : Value) (rest : List Symbol)
    (hread : readDocument calls (v.chars.map some ++ rest) = some (v.document, rest)) :
    readMembers (calls + 1) ((stringChars name ++ ':' :: v.chars).map some ++ rest) =
      readMembersAfter calls (some name, v.document) rest := by
  have htext : (stringChars name ++ ':' :: v.chars).map some ++ rest =
      some '"' :: ((name.toList.flatMap escapeChar ++ ['"']).map some ++
        some ':' :: (v.chars.map some ++ rest)) := by
    simp only [stringChars, List.map_append, List.map_cons, List.append_assoc, List.cons_append,
      List.map_nil, List.nil_append]
  rw [htext, readMembers]
  simp only [skipSpace_start '"' _ rfl, readText_stringChars, Option.bind_eq_bind,
    Option.bind_some, skipSpace_cons ':' _ rfl, hread, Option.pure_def]
  rfl

mutual
/-- A value is read back in front of what may follow it. -/
theorem readDocument_chars (v : Value) (hv : v.Whole) (calls : Nat)
    (hcalls : 2 * v.chars.length ≤ calls) (rest : List Symbol) (hrest : Delimited rest) :
    readDocument calls (v.chars.map some ++ rest) = some (v.document, rest) := by
  obtain ⟨k, rfl⟩ : ∃ k, calls = k + 1 := by
    rcases v.chars_start hv with ⟨c, cs, htext, _⟩
    rw [htext, List.length_cons] at hcalls
    exact ⟨calls - 1, by omega⟩
  match v with
  | .null => rw [Value.chars, Value.document]; rfl
  | .bool true => rw [Value.chars, Value.document]; rfl
  | .bool false => rw [Value.chars, Value.document]; rfl
  | .number (.int n) =>
      rw [Value.Whole] at hv
      rw [Value.chars, Number.chars, Value.document]
      exact readDocument_intChars n hv k rest hrest
  | .number (.float x) =>
      rw [Value.Whole] at hv
      exact False.elim hv
  | .string s =>
      rw [Value.chars, Value.document, stringChars, List.map_cons, List.cons_append]
      simp only [readDocument, skipSpace_start '"' _ rfl, readLiteral, readText_stringChars]
      rfl
  | .array [] => rw [Value.chars, Value.document]; rfl
  | .array (v :: vs) =>
      rw [Value.Whole] at hv
      rw [Value.chars, List.length_cons, List.length_append, List.length_singleton] at hcalls
      have hitems := readItems_chars (v :: vs) (List.cons_ne_nil v vs) hv k (by omega) rest
      rcases Value.itemChars_start v vs hv.1 with ⟨c, cs, htext, hc⟩
      rw [Value.chars, Value.document, List.map_cons, List.map_append, List.map_singleton,
        List.cons_append, List.append_assoc, List.singleton_append]
      rw [htext, List.map_cons, List.cons_append] at hitems ⊢
      rw [readDocument_array k c _ hc, hitems, Option.map_some]
  | .object [] => rw [Value.chars, Value.document]; rfl
  | .object (m :: ms) =>
      rw [Value.Whole] at hv
      rw [Value.chars, List.length_cons, List.length_append, List.length_singleton] at hcalls
      have hmembers := readMembers_chars (m :: ms) (List.cons_ne_nil m ms) hv k (by omega) rest
      rcases Value.memberChars_start m ms with ⟨cs, htext⟩
      rw [Value.chars, Value.document, List.map_cons, List.map_append, List.map_singleton,
        List.cons_append, List.append_assoc, List.singleton_append]
      rw [htext, List.map_cons, List.cons_append] at hmembers ⊢
      rw [readDocument_object, hmembers, Option.map_some, Document.ofMembers_named]
theorem readItems_chars (items : List Value) (hne : items ≠ []) (hitems : Value.ItemsWhole items)
    (calls : Nat) (hcalls : 2 * (Value.itemChars items).length + 1 ≤ calls) (rest : List Symbol) :
    readItems calls ((Value.itemChars items).map some ++ some ']' :: rest) =
      some (Value.itemDocuments items, rest) := by
  obtain ⟨k, rfl⟩ : ∃ k, calls = k + 1 := ⟨calls - 1, by omega⟩
  match items with
  | [v] =>
      rw [Value.itemChars] at hcalls ⊢
      have hread := readDocument_chars v hitems.1 k (by omega) (some ']' :: rest)
        (delimited_cons ']' rest rfl)
      rw [readItems, hread]
      rfl
  | v :: w :: more =>
      rw [Value.itemChars, List.length_append, List.length_cons] at hcalls
      rw [Value.itemChars]
      have hread := readDocument_chars v hitems.1 k (by omega)
        (some ',' :: ((Value.itemChars (w :: more)).map some ++ some ']' :: rest))
        (delimited_cons ',' _ rfl)
      have hmore := readItems_chars (w :: more) (List.cons_ne_nil w more) hitems.2 k (by omega) rest
      rw [List.map_append, List.map_cons, List.append_assoc, List.cons_append, readItems, hread]
      simp only [Option.bind_eq_bind, Option.bind_some, skipSpace_cons ',' _ rfl, hmore]
      rfl
theorem readMembers_chars (members : List (String × Value)) (hne : members ≠ [])
    (hmembers : Value.MembersWhole members) (calls : Nat)
    (hcalls : 2 * (Value.memberChars members).length + 1 ≤ calls) (rest : List Symbol) :
    readMembers calls ((Value.memberChars members).map some ++ some '\x7d' :: rest) =
      some ((Value.memberDocuments members).map fun m => (some m.1, m.2), rest) := by
  obtain ⟨k, rfl⟩ : ∃ k, calls = k + 1 := ⟨calls - 1, by omega⟩
  match members with
  | [(name, v)] =>
      rw [Value.memberChars, List.length_append, List.length_cons] at hcalls
      rw [Value.memberChars]
      have hread := readDocument_chars v hmembers.1 k (by omega) (some '\x7d' :: rest)
        (delimited_cons '\x7d' rest rfl)
      rw [readMembers_named k name v _ hread]
      rfl
  | (name, v) :: m :: more =>
      rw [Value.memberChars, List.length_append, List.length_cons, List.length_append,
        List.length_cons] at hcalls
      have hread := readDocument_chars v hmembers.1 k (by omega)
        (some ',' :: ((Value.memberChars (m :: more)).map some ++ some '\x7d' :: rest))
        (delimited_cons ',' _ rfl)
      have hmore := readMembers_chars (m :: more) (List.cons_ne_nil m more) hmembers.2 k (by omega)
        rest
      have htext : (Value.memberChars ((name, v) :: m :: more)).map some ++ some '\x7d' :: rest =
          (stringChars name ++ ':' :: v.chars).map some ++
            some ',' :: ((Value.memberChars (m :: more)).map some ++ some '\x7d' :: rest) := by
        rw [Value.memberChars]
        simp only [List.map_append, List.map_cons, List.append_assoc, List.cons_append]
      rw [htext, readMembers_named k name v _ hread]
      simp only [readMembersAfter, skipSpace_cons ',' _ rfl, hmore]
      rfl
end

theorem symbols_compact (v : Value) : Text.symbols v.compact = v.chars.map some := by
  rw [Text.symbols, Value.compact, String.toList_ofList]

/-- The text of a value is read as the value, and nothing is left. -/
theorem Document.read?_compact (v : Value) (hv : v.Whole) :
    Document.read? (Text.symbols v.compact) = some v.document := by
  have hread := readDocument_chars v hv (2 * (v.chars.map some).length + 2)
    (by rw [List.length_map]; omega) [] delimited_nil
  rw [List.append_nil] at hread
  rw [symbols_compact, Document.read?, hread]
  rfl

end Json

end ViewCompiler
