import ViewCompiler.Query.Level

/-!
# Clauses

The filter, the sort and the page that the arguments of a node ask for.

A filter is an object from fields to conditions. A condition is a value to be
equal to, or an object from operators to operands; all conditions have to
hold. A sort is a list of fields, each of which may end in the direction. The
page is given by two counts. Other arguments are of no concern here.

## Main definitions

* `Operator`: The operators of a condition.
* `Level.filter`: The filter as a predicate.
* `Level.sort`: The sort as columns with directions.
* `Clauses`: The clauses of a level.
* `Level.clauses`: The clauses that the arguments of a node ask for.

## Theorems

* `Operator.named?_name`: Every operator is found under its name.
-/

namespace ViewCompiler

open Json Sql

/-! ### Filters -/

/-- The operators of a condition. -/
inductive Operator where
  | eq
  | neq
  | gt
  | gte
  | lt
  | lte
  | isIn
  | isNull
deriving DecidableEq

/-- The name of an operator in a request. -/
def Operator.name : Operator → String
  | .eq => "eq"
  | .neq => "neq"
  | .gt => "gt"
  | .gte => "gte"
  | .lt => "lt"
  | .lte => "lte"
  | .isIn => "in"
  | .isNull => "isNull"

/-- All operators. -/
def Operator.all : List Operator :=
  [.eq, .neq, .gt, .gte, .lt, .lte, .isIn, .isNull]

/-- The operator of a name. -/
def Operator.named? (name : String) : Option Operator :=
  Operator.all.find? fun op => op.name == name

theorem Operator.named?_name (op : Operator) : Operator.named? op.name = some op := by
  cases op <;> rfl

/-- The operand of an operator that compares with a value other than `null`,
    an array and an object. -/
def scalarOperand (op : Operator) (fieldName : String) : Value → Except Failure Column
  | .null => .error (.operandNotScalar op.name fieldName)
  | .array _ => .error (.operandNotScalar op.name fieldName)
  | .object _ => .error (.operandNotScalar op.name fieldName)
  | v => .ok (literal v)

/-- The condition that an operator and its operand put on the column of a
    field. -/
def Operator.predicate (op : Operator) (fieldName : String) (operand : Value) (column : Column) :
    Except Failure Predicate :=
  match op with
  | .eq => .ok (.equal column (literal operand))
  | .neq => .ok (.notEqual column (literal operand))
  | .gt => (scalarOperand .gt fieldName operand).map (Predicate.compare .gt column)
  | .gte => (scalarOperand .gte fieldName operand).map (Predicate.compare .gte column)
  | .lt => (scalarOperand .lt fieldName operand).map (Predicate.compare .lt column)
  | .lte => (scalarOperand .lte fieldName operand).map (Predicate.compare .lte column)
  | .isIn =>
      match operand with
      | .array (v :: vs) =>
          ((v :: vs).mapM (scalarOperand .isIn fieldName)).map (Predicate.within column)
      | _ => .error (.operandNotList fieldName)
  | .isNull =>
      match operand with
      | .bool true => .ok (.isNull column)
      | .bool false => .ok (.isNotNull column)
      | _ => .error (.operandNotFlag fieldName)

/-- The conjunction of conditions, which needs the authorized view if one of
    them does. -/
def Guarded.all (conditions : List (Guarded Predicate)) : Guarded Predicate :=
  ⟨Predicate.all (conditions.map Guarded.value), conditions.any Guarded.restricted⟩

namespace Level

/-- The condition of one operator on a field. The field is looked up first, so
    a fault in it is reported before one in the operator. -/
def operation (level : Level) (fieldName : String) (operation : String × Value) :
    Except Failure (Guarded Predicate) := do
  let column ← level.column fieldName
  match Operator.named? operation.1 with
  | none => throw (.unknownOperator operation.1 fieldName)
  | some op =>
      let predicate ← op.predicate fieldName operation.2 column.value
      return ⟨predicate, column.restricted⟩

/-- The condition on one field: operators with their operands, or a value to
    be equal to. -/
def condition (level : Level) (entry : String × Value) : Except Failure (Guarded Predicate) :=
  match entry.2 with
  | .object operations => (operations.mapM (level.operation entry.1)).map Guarded.all
  | .array _ => .error (.conditionIsList entry.1)
  | v => do
      let column ← level.column entry.1
      return ⟨.equal column.value (literal v), column.restricted⟩

/-- The filter of a level. -/
def filter (level : Level) : Value → Except Failure (Guarded Predicate)
  | .null => .ok ⟨.always, false⟩
  | .object conditions => (conditions.mapM level.condition).map Guarded.all
  | _ => .error .filterNotObject

end Level

/-! ### Sorts -/

/-- A text without its ending, if it has that ending. -/
def withoutEnding? (ending text : String) : Option String :=
  if ending.toList.isSuffixOf text.toList then
    some (String.ofList (text.toList.take (text.length - ending.length)))
  else none

/-- The field and the direction of a sort text: the direction may follow the
    field behind an underscore, and is ascending otherwise. -/
def orderingOf (text : String) : String × Direction :=
  match withoutEnding? "_DESC" text with
  | some fieldName => (fieldName, .desc)
  | none =>
      match withoutEnding? "_ASC" text with
      | some fieldName => (fieldName, .asc)
      | none => (text, .asc)

/-- A text in a list of sort texts. -/
def sortText : Value → Except Failure String
  | .string s => .ok s
  | _ => .error .sortNotText

/-- The sort texts of an argument: one of them, or a list. -/
def sortTexts : Value → Except Failure (List String)
  | .null => .ok []
  | .string s => .ok [s]
  | .array items => items.mapM sortText
  | _ => .error .sortNotText

namespace Level

/-- The column and direction of a sort text. -/
def orderTerm (level : Level) (text : String) : Except Failure (Guarded OrderTerm) := do
  let column ← level.column (orderingOf text).1
  return ⟨⟨column.value, (orderingOf text).2⟩, column.restricted⟩

/-- The sort of a level; an empty list asks for none. -/
def sort (level : Level) (v : Value) : Except Failure (Guarded (Option (List OrderTerm))) := do
  let texts ← sortTexts v
  if texts.isEmpty then return ⟨none, false⟩
  let terms ← texts.mapM level.orderTerm
  return ⟨some (terms.map Guarded.value), terms.any Guarded.restricted⟩

end Level

/-! ### Pages -/

/-- The number of rows that an argument gives, if it does. -/
def count (argument : String) : Value → Except Failure (Option Int)
  | .null => .ok none
  | v =>
      match v.int64? with
      | some n => if 0 ≤ n then .ok (some n) else .error (.notACount argument)
      | none => .error (.notACount argument)

/-! ### All clauses -/

/-- The clauses of a level. -/
structure Clauses where
  predicate : Predicate
  orderBy : Option (List OrderTerm)
  limit : Option Int
  offset : Option Int

/-- No filter, no sort and no page. -/
def Clauses.none : Clauses := ⟨.always, Option.none, Option.none, Option.none⟩

namespace Level

/-- The clauses with what one more argument asks for. -/
def addClause (level : Level) (clauses : Guarded Clauses) (arg : String × Value) :
    Except Failure (Guarded Clauses) :=
  if arg.1 = "where" then do
    let filter ← level.filter arg.2
    return ⟨{ clauses.value with predicate := filter.value },
      clauses.restricted || filter.restricted⟩
  else if arg.1 = "orderBy" then do
    let sort ← level.sort arg.2
    return ⟨{ clauses.value with orderBy := sort.value }, clauses.restricted || sort.restricted⟩
  else if arg.1 = "limit" then do
    let limit ← count "limit" arg.2
    return ⟨{ clauses.value with limit := limit }, clauses.restricted⟩
  else if arg.1 = "offset" then do
    let offset ← count "offset" arg.2
    return ⟨{ clauses.value with offset := offset }, clauses.restricted⟩
  else .ok clauses

/-- The clauses that the arguments of a node ask for, in the order of the
    arguments. -/
def clauses (level : Level) (args : Entries Value) : Except Failure (Guarded Clauses) :=
  args.foldlM level.addClause ⟨Clauses.none, false⟩

end Level

end ViewCompiler
