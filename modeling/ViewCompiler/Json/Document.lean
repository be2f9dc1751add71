import ViewCompiler.Json.Value
import ViewCompiler.Text.Utf8

/-!
# JSON Documents

A JSON text as it was read, before anyone asks what it means.

The text is read in two steps. The first checks the grammar and nothing else:
its result is a tree that still has the members of an object in the order of
the text, repeated names included. The second step, in `Decode`, knows what
is expected where, and it is there that most faults are found.

The line between the steps matters because a reader of a record passes over
the members it does not know. What stands there has to follow the grammar,
but it may be nested as deeply as it likes, and a literal that denotes
nothing does no harm: half of a surrogate pair, a number beyond all range, a
byte that belongs to no character. Such a literal is `unreadable`, which is an
error only where a value is asked for.

## Main definitions

* `Document`: A text as it was read.
* `Document.read?`: The document of a text.

The grammar is read by recursive descent, one function for each kind of
sequence. The functions share a count of calls that is never exhausted: every
second call consumes a symbol, and the count starts above twice their number.
-/

namespace ViewCompiler

namespace Json

open Text (Symbol)

/-- A JSON text as it was read. -/
inductive Document where
  | null
  | bool (value : Bool)
  | number (value : Number)
  | string (value : String)
  | array (items : List Document)
  | object (members : List (String × Document))
  /-- A literal that follows the grammar and denotes nothing. -/
  | unreadable

instance : Inhabited Document := ⟨.null⟩

/-! ### Literals -/

/-- The blanks of JSON. -/
def isSpace : Symbol → Bool
  | some c => c == ' ' || c == '\n' || c == '\r' || c == '\t'
  | none => false

/-- The symbols behind the blanks in front. -/
def skipSpace (input : List Symbol) : List Symbol :=
  input.dropWhile isSpace

/-- The symbols behind an expected word. -/
def skipWord : (word : List Char) → List Symbol → Option (List Symbol)
  | [], input => some input
  | w :: word, some c :: input => if c = w then skipWord word input else none
  | _ :: _, _ => none

/-- The digits in front, and what follows them. -/
def readDigits : List Symbol → List Char × List Symbol
  | some c :: rest =>
      if c.isDigit then
        let (digits, more) := readDigits rest
        (c :: digits, more)
      else ([], some c :: rest)
  | rest => ([], rest)

/-- The number that digits denote. -/
def digitsValue (digits : List Char) : Nat :=
  digits.foldl (fun n c => 10 * n + (c.toNat - '0'.toNat)) 0

/-- The parts of the literal of a number. -/
structure NumberLiteral where
  negative : Bool
  whole : List Char
  /-- The digits behind the point, if there is one. -/
  fraction : Option (List Char)
  /-- The exponent, if there is one. -/
  exponent : Option Int
deriving DecidableEq

/-- The digits in front of the point: zero, or digits that start with another
    one. -/
def readWhole : List Symbol → Option (List Char × List Symbol)
  | some c :: rest =>
      if c = '0' then some (['0'], rest)
      else if c.isDigit then some (readDigits (some c :: rest))
      else none
  | _ => none

/-- The digits behind a point, of which there must be one. -/
def readFraction : List Symbol → Option (Option (List Char) × List Symbol)
  | some c :: rest =>
      if c = '.' then
        match readDigits rest with
        | ([], _) => none
        | (digits, more) => some (some digits, more)
      else some (none, some c :: rest)
  | rest => some (none, rest)

/-- The sign in front of an exponent. -/
def readSign : List Symbol → Bool × List Symbol
  | some c :: rest =>
      if c = '-' then (true, rest) else if c = '+' then (false, rest) else (false, some c :: rest)
  | rest => (false, rest)

/-- The exponent of a number, which needs a digit if it is there. -/
def readExponent : List Symbol → Option (Option Int × List Symbol)
  | some c :: rest =>
      if c = 'e' ∨ c = 'E' then
        let (negative, rest) := readSign rest
        match readDigits rest with
        | ([], _) => none
        | (digits, more) =>
            let n : Int := digitsValue digits
            some (some (if negative then -n else n), more)
      else some (none, some c :: rest)
  | rest => some (none, rest)

/-- The literal of a number. -/
def readNumber (input : List Symbol) : Option (NumberLiteral × List Symbol) := do
  let (negative, rest) := match input with
    | some c :: rest => if c = '-' then (true, rest) else (false, some c :: rest)
    | rest => (false, rest)
  let (whole, rest) ← readWhole rest
  let (fraction, rest) ← readFraction rest
  let (exponent, rest) ← readExponent rest
  return (⟨negative, whole, fraction, exponent⟩, rest)

/-- The decimal that a literal denotes, up to its sign. -/
def NumberLiteral.decimal (l : NumberLiteral) : Decimal :=
  let fraction := l.fraction.getD []
  ⟨digitsValue (l.whole ++ fraction), l.exponent.getD 0 - fraction.length⟩

/-- The whole number that a literal denotes: it has neither a point nor an
    exponent, it fits 64 bits, with a sign if it is negative and without one
    otherwise, and it is not the negative zero. -/
def NumberLiteral.int? (l : NumberLiteral) : Option Int :=
  if l.fraction.isSome || l.exponent.isSome then none
  else
    let n := digitsValue l.whole
    if l.negative then (if 0 < n ∧ n ≤ 9223372036854775808 then some (-(n : Int)) else none)
    else if n ≤ 18446744073709551615 then some n else none

/-- The number that a literal denotes, unless it is beyond all range. -/
def NumberLiteral.number? (l : NumberLiteral) : Option Number :=
  match l.int? with
  | some n => some (.int n)
  | none => (Binary64.nearest? l.negative l.decimal).map .float

/-- One step of a string: a character, an escaped code unit, or a byte that
    belongs to no character. -/
inductive StringPart where
  | char (c : Char)
  | unit (code : Nat)
  | undecodable
deriving DecidableEq

/-- The value of a digit in base sixteen. -/
def hexValue? (s : Symbol) : Option Nat :=
  match s with
  | none => none
  | some c =>
      if '0' ≤ c ∧ c ≤ '9' then some (c.toNat - '0'.toNat)
      else if 'a' ≤ c ∧ c ≤ 'f' then some (c.toNat - 'a'.toNat + 10)
      else if 'A' ≤ c ∧ c ≤ 'F' then some (c.toNat - 'A'.toNat + 10)
      else none

/-- The code unit of four digits. -/
def unit? (a b c d : Symbol) : Option Nat := do
  let a ← hexValue? a
  let b ← hexValue? b
  let c ← hexValue? c
  let d ← hexValue? d
  return ((a * 16 + b) * 16 + c) * 16 + d

/-- The character of a short escape. -/
def shortEscape? (c : Char) : Option Char :=
  if c = '"' ∨ c = '\\' ∨ c = '/' then some c
  else if c = 'b' then some '\x08'
  else if c = 'f' then some '\x0c'
  else if c = 'n' then some '\n'
  else if c = 'r' then some '\r'
  else if c = 't' then some '\t'
  else none

/-- The parts of a string behind its opening quote, and what follows the
    closing one. -/
def readParts : List Symbol → Option (List StringPart × List Symbol)
  | [] => none
  | none :: rest => (readParts rest).map fun r => (.undecodable :: r.1, r.2)
  | some c :: rest =>
      if c = '"' then some ([], rest)
      else if c = '\\' then
        match rest with
        | some 'u' :: h₁ :: h₂ :: h₃ :: h₄ :: more =>
            match unit? h₁ h₂ h₃ h₄ with
            | some code => (readParts more).map fun r => (.unit code :: r.1, r.2)
            | none => none
        | some e :: more =>
            match shortEscape? e with
            | some c => (readParts more).map fun r => (.char c :: r.1, r.2)
            | none => none
        | _ => none
      else if c.toNat < 0x20 then none
      else (readParts rest).map fun r => (.char c :: r.1, r.2)

/-- The first half of a surrogate pair. -/
def isHighUnit (code : Nat) : Bool := 0xd800 ≤ code && code < 0xdc00

/-- The second half of a surrogate pair. -/
def isLowUnit (code : Nat) : Bool := 0xdc00 ≤ code && code < 0xe000

/-- The characters of a string, unless a part of it denotes none. -/
def joinParts : List StringPart → Option (List Char)
  | [] => some []
  | .char c :: rest => (joinParts rest).map (c :: ·)
  | .undecodable :: _ => none
  | .unit code :: rest =>
      if isHighUnit code then
        match rest with
        | .unit low :: more =>
            if isLowUnit low then
              (joinParts more).map
                (Char.ofNat (0x10000 + (code - 0xd800) * 0x400 + (low - 0xdc00)) :: ·)
            else none
        | _ => none
      else if isLowUnit code then none
      else (joinParts rest).map (Char.ofNat code :: ·)

/-- The text of a string behind its opening quote, if it denotes one, and what
    follows the closing quote. -/
def readText (input : List Symbol) : Option (Option String × List Symbol) :=
  (readParts input).map fun r => ((joinParts r.1).map String.ofList, r.2)

/-! ### Values -/

/-- The object of members, which is unreadable if a name is. -/
def Document.ofMembers (members : List (Option String × Document)) : Document :=
  match members.mapM (fun m => m.1.map fun name => (name, m.2)) with
  | some named => .object named
  | none => .unreadable

/-- The literal that starts with a character other than a bracket. -/
def readLiteral (c : Char) (rest : List Symbol) : Option (Document × List Symbol) :=
  if c = '"' then
    (readText rest).map fun r => ((r.1.map Document.string).getD .unreadable, r.2)
  else if c = 'n' then (skipWord ['u', 'l', 'l'] rest).map fun r => (.null, r)
  else if c = 't' then (skipWord ['r', 'u', 'e'] rest).map fun r => (.bool true, r)
  else if c = 'f' then (skipWord ['a', 'l', 's', 'e'] rest).map fun r => (.bool false, r)
  else
    (readNumber (some c :: rest)).map fun r =>
      ((r.1.number?.map Document.number).getD .unreadable, r.2)

mutual
/-- The document in front, and what follows it. -/
def readDocument : (calls : Nat) → List Symbol → Option (Document × List Symbol)
  | 0, _ => none
  | calls + 1, input =>
      match skipSpace input with
      | some c :: rest =>
          if c = '[' then
            match skipSpace rest with
            | some ']' :: more => some (.array [], more)
            | _ => (readItems calls rest).map fun r => (.array r.1, r.2)
          else if c = '\x7b' then
            match skipSpace rest with
            | some '\x7d' :: more => some (.object [], more)
            | _ => (readMembers calls rest).map fun r => (Document.ofMembers r.1, r.2)
          else readLiteral c rest
      | _ => none
/-- The items of an array up to its closing bracket. -/
def readItems : (calls : Nat) → List Symbol → Option (List Document × List Symbol)
  | 0, _ => none
  | calls + 1, input => do
      let (item, rest) ← readDocument calls input
      match skipSpace rest with
      | some ',' :: more =>
          let (items, more) ← readItems calls more
          return (item :: items, more)
      | some ']' :: more => return ([item], more)
      | _ => none
/-- The members of an object up to its closing bracket. -/
def readMembers : (calls : Nat) → List Symbol →
    Option (List (Option String × Document) × List Symbol)
  | 0, _ => none
  | calls + 1, input => do
      let some '"' :: rest := skipSpace input | none
      let (name, rest) ← readText rest
      let some ':' :: rest := skipSpace rest | none
      let (value, rest) ← readDocument calls rest
      match skipSpace rest with
      | some ',' :: more =>
          let (members, more) ← readMembers calls more
          return ((name, value) :: members, more)
      | some '\x7d' :: more => return ([(name, value)], more)
      | _ => none
end

/-- The document of a whole text: only blanks may follow it. -/
def Document.read? (input : List Symbol) : Option Document := do
  let (document, rest) ← readDocument (2 * input.length + 2) input
  if (skipSpace rest).isEmpty then return document else none

end Json

end ViewCompiler
