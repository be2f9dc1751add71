import ViewCompiler.Entries
import ViewCompiler.Binary64

/-!
# JSON Values

The values that a request carries: operands, inputs, identifiers.

A number keeps the distinction that its text makes. A literal without a point
and an exponent that fits 64 bits is a whole number, and every other literal
is a floating point number, so `1` and `1.0` are different values.

An object is a list of members. The values of a request hold theirs in the
order of their names; the documents that the program writes hold theirs in
the order in which they are written.

## Main definitions

* `Number`: A whole number or a floating point number.
* `Value`: A JSON value.
* `Value.same`: Equality of values, under which the two zeros are equal.
* `Value.int64?`: The whole number of 64 bits that a value is.
-/

namespace ViewCompiler

namespace Json

/-- A number as its literal distinguishes it. -/
inductive Number where
  | int (value : Int)
  | float (value : Binary64)
deriving DecidableEq

/-- Equality of numbers: a whole number is equal to whole numbers only. -/
def Number.same : Number → Number → Bool
  | .int a, .int b => a == b
  | .float a, .float b => a.same b
  | _, _ => false

/-- A JSON value. -/
inductive Value where
  | null
  | bool (value : Bool)
  | number (value : Number)
  | string (value : String)
  | array (items : List Value)
  | object (members : List (String × Value))

instance : Inhabited Value := ⟨.null⟩

namespace Value

/-- A whole number as a value. -/
def int (n : Int) : Value := .number (.int n)

/-- A text that may be absent, which is written as `null`. -/
def optionalString : Option String → Value
  | none => .null
  | some s => .string s

/-- Whether a value is `null`. -/
def isNull : Value → Bool
  | .null => true
  | _ => false

/-- The whole number of 64 bits, one of them for the sign, that a value
    is. -/
def int64? : Value → Option Int
  | .number (.int n) =>
      if -9223372036854775808 ≤ n ∧ n ≤ 9223372036854775807 then some n else none
  | _ => none

mutual
/-- Equality of values: members are compared in order, numbers by value. -/
def same : Value → Value → Bool
  | .null, .null => true
  | .bool a, .bool b => a == b
  | .number a, .number b => a.same b
  | .string a, .string b => a == b
  | .array a, .array b => sameItems a b
  | .object a, .object b => sameMembers a b
  | _, _ => false
/-- Equality of the items of two arrays. -/
def sameItems : List Value → List Value → Bool
  | [], [] => true
  | a :: as, b :: bs => same a b && sameItems as bs
  | _, _ => false
/-- Equality of the members of two objects. -/
def sameMembers : List (String × Value) → List (String × Value) → Bool
  | [], [] => true
  | (k, a) :: as, (l, b) :: bs => k == l && same a b && sameMembers as bs
  | _, _ => false
end

end Value

end Json

end ViewCompiler
