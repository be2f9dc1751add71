import ViewCompiler.Json.Value
import ViewCompiler.Binary64.Shortest

/-!
# Writing JSON

The text of a value, in two forms: without any blanks, which is also the form
in which a value that is no text is bound as a parameter, and spread over
indented lines, which is the form shown on the command line.

## Main definitions

* `floatLayout`: Which floating point numbers are written positionally.
* `Value.compact`: The text of a value without blanks.
* `Value.indented`: The text of a value over indented lines.
-/

namespace ViewCompiler

namespace Json

/-- Floating point numbers from `1e-5` up to, but not including, `1e16` are
    written positionally. -/
def floatLayout : Decimal.Layout := ⟨-5, 15⟩

/-- The digit of a number below sixteen, in lower case. -/
def hexDigit (n : Nat) : Char :=
  Nat.digitChar n

/-- How one character is written inside a string. -/
def escapeChar (c : Char) : List Char :=
  if c = '"' then ['\\', '"']
  else if c = '\\' then ['\\', '\\']
  else if c = '\x08' then ['\\', 'b']
  else if c = '\x0c' then ['\\', 'f']
  else if c = '\n' then ['\\', 'n']
  else if c = '\r' then ['\\', 'r']
  else if c = '\t' then ['\\', 't']
  else if c.toNat < 0x20 then
    ['\\', 'u', '0', '0', hexDigit (c.toNat / 16), hexDigit (c.toNat % 16)]
  else [c]

/-- A string between its quotes. -/
def stringChars (s : String) : List Char :=
  '"' :: (s.toList.flatMap escapeChar ++ ['"'])

/-- The digits of a whole number, with a sign if it is negative. -/
def intChars (n : Int) : List Char :=
  if n < 0 then '-' :: Nat.toDigits 10 n.natAbs else Nat.toDigits 10 n.natAbs

/-- The literal of a number. -/
def Number.chars : Number → List Char
  | .int n => intChars n
  | .float x => x.write floatLayout

/-- The two literals of truth values. -/
def boolChars : Bool → List Char
  | true => ['t', 'r', 'u', 'e']
  | false => ['f', 'a', 'l', 's', 'e']

/-- A line break and the indentation of a depth. -/
def newLine (depth : Nat) : List Char :=
  '\n' :: List.replicate (2 * depth) ' '

namespace Value

mutual
/-- The characters of a value without blanks. -/
def chars : Value → List Char
  | .null => ['n', 'u', 'l', 'l']
  | .bool b => boolChars b
  | .number n => n.chars
  | .string s => stringChars s
  | .array items => '[' :: (itemChars items ++ [']'])
  | .object members => '\x7b' :: (memberChars members ++ ['\x7d'])
/-- The items of an array, with commas between them. -/
def itemChars : List Value → List Char
  | [] => []
  | [v] => v.chars
  | v :: w :: rest => v.chars ++ ',' :: itemChars (w :: rest)
/-- The members of an object, with commas between them. -/
def memberChars : List (String × Value) → List Char
  | [] => []
  | [(k, v)] => stringChars k ++ ':' :: v.chars
  | (k, v) :: m :: rest => stringChars k ++ ':' :: (v.chars ++ ',' :: memberChars (m :: rest))
end

mutual
/-- The characters of a value at a depth of indentation. -/
def indentedChars (depth : Nat) : Value → List Char
  | .null => ['n', 'u', 'l', 'l']
  | .bool b => boolChars b
  | .number n => n.chars
  | .string s => stringChars s
  | .array [] => ['[', ']']
  | .array (v :: rest) => '[' :: (indentedItems (depth + 1) (v :: rest) ++ newLine depth ++ [']'])
  | .object [] => ['\x7b', '\x7d']
  | .object (m :: rest) =>
      '\x7b' :: (indentedMembers (depth + 1) (m :: rest) ++ newLine depth ++ ['\x7d'])
/-- The items of an array, each on lines of its own. -/
def indentedItems (depth : Nat) : List Value → List Char
  | [] => []
  | [v] => newLine depth ++ v.indentedChars depth
  | v :: w :: rest =>
      newLine depth ++ v.indentedChars depth ++ ',' :: indentedItems depth (w :: rest)
/-- The members of an object, each on lines of its own. -/
def indentedMembers (depth : Nat) : List (String × Value) → List Char
  | [] => []
  | [(k, v)] => newLine depth ++ stringChars k ++ ':' :: ' ' :: v.indentedChars depth
  | (k, v) :: m :: rest =>
      newLine depth ++ stringChars k ++ ':' :: ' ' ::
        (v.indentedChars depth ++ ',' :: indentedMembers depth (m :: rest))
end

/-- The text of a value without blanks. -/
def compact (v : Value) : String :=
  String.ofList v.chars

/-- The text of a value over lines that are indented by two blanks a level. -/
def indented (v : Value) : String :=
  String.ofList (v.indentedChars 0)

end Value

end Json

end ViewCompiler
