/-!
# Decoding UTF-8

A text that arrives as bytes need not be one. Some readers reject such a text
as a whole; the JSON reader does not, because it passes over parts of a
document whose content nobody asks for, and a stray byte there goes unnoticed.
So bytes are decoded into symbols, each of which is a character or a byte that
belongs to none.

## Main definitions

* `Symbol`: A character, or the place of a byte that belongs to none.
* `symbolsOfBytes`: The symbols of a sequence of bytes.
* `symbols`: The symbols of a text, all of them characters.
-/

namespace ViewCompiler

namespace Text

/-- A character of a text; `none` stands for a byte that is no part of any. -/
abbrev Symbol := Option Char

/-- The symbols of a text. -/
def symbols (text : String) : List Symbol :=
  text.toList.map some

/-- Whether a byte continues a character. -/
def isTail (byte : UInt8) : Bool :=
  0x80 ≤ byte && byte ≤ 0xbf

/-- The payload of a byte that continues a character. -/
def tailBits (byte : UInt8) : Nat :=
  byte.toNat % 0x40

/-- The code point of a first byte's payload and the bytes that continue it. -/
def codePoint (lead : Nat) (tails : List UInt8) : Nat :=
  tails.foldl (fun code byte => code * 0x40 + tailBits byte) lead

/-- The character of a code point that is neither too small for the number of
    its bytes nor a surrogate nor out of range. -/
def scalar? (least code : Nat) : Option Char :=
  if h : least ≤ code ∧ code.isValidChar then some (Char.ofNatAux code h.2) else none

/-- What a first byte announces: the number of bytes that continue the
    character, its own payload, and the least code point that needs so many. -/
def announced? (byte : UInt8) : Option (Nat × Nat × Nat) :=
  if 0xc0 ≤ byte && byte ≤ 0xdf then some (1, byte.toNat % 0x20, 0x80)
  else if 0xe0 ≤ byte && byte ≤ 0xef then some (2, byte.toNat % 0x10, 0x800)
  else if 0xf0 ≤ byte && byte ≤ 0xf7 then some (3, byte.toNat % 0x8, 0x10000)
  else none

/-- The character that starts with a byte outside ASCII, and how many of the
    bytes behind it belong to it. -/
def wideChar? (byte : UInt8) (rest : List UInt8) : Option (Char × Nat) := do
  let (count, lead, least) ← announced? byte
  let tails := rest.take count
  if tails.length = count && tails.all isTail then
    let c ← scalar? least (codePoint lead tails)
    return (c, count)
  else none

/-- The symbols behind the first `skip` bytes. -/
def symbolsAfter : (skip : Nat) → List UInt8 → List Symbol
  | _, [] => []
  | skip + 1, _ :: rest => symbolsAfter skip rest
  | 0, byte :: rest =>
      if byte < 0x80 then some (Char.ofNat byte.toNat) :: symbolsAfter 0 rest
      else
        match wideChar? byte rest with
        | some (c, count) => some c :: symbolsAfter count rest
        | none => none :: symbolsAfter 0 rest

/-- The symbols of a sequence of bytes. A byte from which no character can be
    read is a symbol of its own, and decoding goes on behind it. -/
def symbolsOfBytes (bytes : List UInt8) : List Symbol :=
  symbolsAfter 0 bytes

end Text

end ViewCompiler
