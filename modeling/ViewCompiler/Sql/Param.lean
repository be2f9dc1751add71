import ViewCompiler.Text.Quoted

/-!
# Parameters

The values that a statement is run with. They never enter the text of the
statement, which holds a numbered placeholder for each.

Nearly every value is sent as text, and the database reads it as whatever the
placeholder is compared with or written to; a text may be absent, which is the
typed `NULL`. Only the two page bounds of a query are sent as numbers.

## Main definitions

* `Param`: A text, or a whole number of 64 bits.
* `Param.display`: How a parameter is shown to a person.
* `Param.bind`: What is sent for a parameter of a given database type.
-/

namespace ViewCompiler

namespace Sql

/-- A value that a statement is run with. -/
inductive Param where
  /-- A text, or the absence of one. -/
  | text (value : Option String)
  /-- A whole number of 64 bits. -/
  | int8 (value : Int)
deriving DecidableEq

/-- The way in which a parameter is sent. -/
inductive WireFormat where
  | text
  | binary
deriving DecidableEq

/-- The lowest bytes of a whole number in two's complement, the lowest
    first. -/
def lowBytes : (width : Nat) → Int → List UInt8
  | 0, _ => []
  | width + 1, n => UInt8.ofNat (n % 256).toNat :: lowBytes width (n / 256)

/-- The bytes of a whole number in two's complement, the highest first. -/
def bigEndian (width : Nat) (n : Int) : List UInt8 :=
  (lowBytes width n).reverse

namespace Param

/-- How a parameter is shown to a person. -/
def display : Param → String
  | .text none => "NULL"
  | .text (some s) => Text.quoted s
  | .int8 n => if n < 0 then "-" ++ Nat.repr n.natAbs else Nat.repr n.natAbs

/-- The way in which a parameter is sent. -/
def wireFormat : Param → WireFormat
  | .text _ => .text
  | .int8 _ => .binary

/-- What is sent for a parameter where the database expects the type
    `typeName`: its bytes, none of them for an absent text. A text fits every
    type, a number only its own. -/
def bind (p : Param) (typeName : String) : Except String (Option (List UInt8)) :=
  match p with
  | .text value => .ok (value.map fun s => s.toUTF8.toList)
  | .int8 n =>
      if typeName = "int8" then .ok (some (bigEndian 8 n))
      else .error
        s!"cannot convert between the Rust type `i64` and the Postgres type `{typeName}`"

end Param

end Sql

end ViewCompiler
