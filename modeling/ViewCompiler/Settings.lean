import ViewCompiler.Text.Blank

/-!
# Settings

What can be set from outside, through named variables.

There is one setting, a number. Blanks around it do not matter, and one plus
sign may stand in front of it.

## Main definitions

* `Environment`: The variables.
* `wordOfText`: The whole number of 64 bits that a text denotes.
* `Environment.number`: The number that a variable holds.
* `Settings`: The settings, with their defaults.
* `Settings.ofEnvironment`: The settings that the variables ask for.
-/

namespace ViewCompiler

/-- Variables by name. -/
abbrev Environment := String → Option String

/-- Why a text denotes no whole number of 64 bits. -/
inductive NumberFault where
  | empty
  | invalidDigit
  | tooLarge
deriving DecidableEq

/-- The text of a fault. -/
def NumberFault.text : NumberFault → String
  | .empty => "cannot parse integer from empty string"
  | .invalidDigit => "invalid digit found in string"
  | .tooLarge => "number too large to fit in target type"

/-- The greatest whole number of 64 bits. -/
def greatestWord : Nat := 18446744073709551615

/-- The number so far, with one more digit. -/
def addDigit (n : Nat) (c : Char) : Except NumberFault Nat :=
  if c.isDigit then
    let more := 10 * n + (c.toNat - '0'.toNat)
    if more ≤ greatestWord then .ok more else .error .tooLarge
  else .error .invalidDigit

/-- The whole number of 64 bits that a text denotes. Of two faults the one
    further to the left is found. -/
def wordOfText (chars : List Char) : Except NumberFault Nat :=
  match chars with
  | [] => .error .empty
  | ['+'] => .error .invalidDigit
  | '+' :: digits => digits.foldlM addDigit 0
  | digits => digits.foldlM addDigit 0

/-- A variable that should hold a number and does not. -/
structure InvalidNumber where
  key : String
  value : String
  fault : NumberFault
deriving DecidableEq

/-- The message about a variable that should hold a number. -/
def InvalidNumber.message (e : InvalidNumber) : String :=
  let key := e.key
  let value := e.value
  let reason := e.fault.text
  s!"Invalid value for {key}: {value}. Expected a non-negative integer ({reason})"

/-- The number that a variable holds, or a default if it is not set. -/
def Environment.number (env : Environment) (key : String) (default : Nat) :
    Except InvalidNumber Nat :=
  match env key with
  | none => .ok default
  | some value =>
      match wordOfText (Text.trim value.toList) with
      | .ok n => .ok n
      | .error fault => .error ⟨key, value, fault⟩

/-- What can be set from outside. -/
structure Settings where
  /-- The number of levels from which on a query is potentially of high
      cost. -/
  minDepth : Nat
deriving DecidableEq

namespace Settings

/-- The variable that holds the number of levels. -/
def minDepthKey : String := "VIEWQL_MIN_QUERY_DEPTH_TO_CHECK_COST_LIMIT"

/-- The settings without any variable. -/
def standard : Settings := ⟨4⟩

/-- The settings that the variables ask for. -/
def ofEnvironment (env : Environment) : Except InvalidNumber Settings :=
  (env.number minDepthKey standard.minDepth).map Settings.mk

end Settings

end ViewCompiler
