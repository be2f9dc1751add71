import ViewCompiler.Json.Document

/-!
# Decoding Documents

What a document means where something definite is expected.

A decoder is told how many arrays and objects may still be nested in what it
is given. The limit belongs to this step and not to the grammar: the members
that a record does not know are not decoded, and so their nesting is not
limited.

A record has two written forms: an object with the names of its fields, and
an array of its fields in the order in which the record declares them. Both
become named fields here, and the decoder of a record does not see which one
was written. In the first form unknown names are passed over, and a known name
must not be repeated; in the second the last fields may be missing.

## Main definitions

* `Decoder`: A reading of documents, within a budget of nesting.
* `Document.fields?`: The fields of a record in either form.
* `Decoder.value`: Any value, with the members of objects sorted by name.
* `decode?`: The meaning of a text.
-/

namespace ViewCompiler

namespace Json

/-- A reading of documents, given the number of arrays and objects that may
    still be nested in one another. -/
abbrev Decoder (α : Type) := (budget : Nat) → Document → Option α

/-- The nesting that a text may have. -/
def nestingLimit : Nat := 127

namespace Document

/-- The items of an array, each read by `read`. -/
def items? {α : Type} (read : Document → Option α) : Document → Option (List α)
  | .array items => items.mapM read
  | _ => none

/-- The members of an object, each read by `read`. -/
def entries? {α : Type} (read : Document → Option α) : Document → Option (Entries α)
  | .object members =>
      (members.mapM fun m => (read m.2).map fun v => (m.1, v)).map Entries.ofList
  | _ => none

/-- The fields of a record with the given names, from either of its forms. -/
def fields? (names : List String) : Document → Option (Entries Document)
  | .object members =>
      -- A repeated name is a fault only if the record knows it.
      if names.all fun name => (members.filter fun m => m.1 == name).length ≤ 1 then some members
      else none
  | .array items => if items.length ≤ names.length then some (names.zip items) else none
  | _ => none

end Document

/-- A field that must be there. -/
def required {α : Type} (fields : Entries Document) (name : String)
    (read : Document → Option α) : Option α :=
  match fields.get? name with
  | none => none
  | some d => read d

/-- A field that has a default. -/
def defaulted {α : Type} (fields : Entries Document) (name : String)
    (read : Document → Option α) (value : α) : Option α :=
  match fields.get? name with
  | none => some value
  | some d => read d

namespace Decoder

variable {α : Type}

/-- A text. -/
def text : Decoder String
  | _, .string s => some s
  | _, _ => none

/-- A truth value. -/
def flag : Decoder Bool
  | _, .bool b => some b
  | _, _ => none

/-- Something that may be `null`. -/
def optional (decoder : Decoder α) : Decoder (Option α)
  | _, .null => some none
  | budget, d => (decoder budget d).map some

/-- An array of things. -/
def list (decoder : Decoder α) : Decoder (List α)
  | 0, _ => none
  | budget + 1, d => d.items? (decoder budget)

/-- An object from names to things. -/
def entries (decoder : Decoder α) : Decoder (Entries α)
  | 0, _ => none
  | budget + 1, d => d.entries? (decoder budget)

/-- One of several names, written as a text or as the only member of an
    object, whose value is then `null`. -/
def choice (named : String → Option α) : Decoder α
  | _, .string s => named s
  | _ + 1, .object [(s, .null)] => named s
  | _, _ => none

mutual
/-- Any value. Objects are sorted by name, and a repeated name takes its last
    value. -/
def value : Decoder Value
  | _, .null => some .null
  | _, .bool b => some (.bool b)
  | _, .number n => some (.number n)
  | _, .string s => some (.string s)
  | _, .unreadable => none
  | 0, .array _ => none
  | budget + 1, .array items => (values budget items).map .array
  | 0, .object _ => none
  | budget + 1, .object members =>
      (memberValues budget members).map fun ms => .object (Entries.sortedOfList ms)
/-- The values of the items of an array. -/
def values : (budget : Nat) → List Document → Option (List Value)
  | _, [] => some []
  | budget, d :: rest => do
      let v ← value budget d
      let vs ← values budget rest
      return v :: vs
/-- The values of the members of an object. -/
def memberValues : (budget : Nat) → List (String × Document) → Option (List (String × Value))
  | _, [] => some []
  | budget, (k, d) :: rest => do
      let v ← value budget d
      let vs ← memberValues budget rest
      return (k, v) :: vs
end

end Decoder

/-- What a text means to a decoder. -/
def decode? {α : Type} (decoder : Decoder α) (input : List Text.Symbol) : Option α := do
  let document ← Document.read? input
  decoder nestingLimit document

end Json

end ViewCompiler
