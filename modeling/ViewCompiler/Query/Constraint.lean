import ViewCompiler.Failure
import ViewCompiler.Query.Literal
import ViewCompiler.Schema.Entity

/-!
# Matching Rows

A level of a query may be restricted to the rows that belong to something: to
a row of the level above it, or to a value that the caller gives.

## Main definitions

* `ChildColumn`: The column of the level that is compared.
* `Operand`: What it is compared with.
* `Constraint`: The comparison, with one value or with an array of them.
* `Constraint.predicate`: The comparison as a predicate.
-/

namespace ViewCompiler

open Sql Schema

/-- The column by which rows of an entity are matched. -/
inductive ChildColumn where
  | primaryKey
  | named (name : String)
deriving DecidableEq

/-- What a column is compared with. -/
inductive Operand where
  /-- A column of an enclosing row. -/
  | column (tableAlias : String) (name : String)
  /-- A value that the caller gives. -/
  | value (v : Json.Value)

/-- Equality of operands; values are compared by `Json.Value.same`. -/
def Operand.same : Operand → Operand → Bool
  | .column a n, .column a' n' => a == a' && n == n'
  | .value v, .value v' => v.same v'
  | _, _ => false

/-- The condition under which rows belong to something. -/
inductive Constraint where
  /-- A column is equal to an operand. -/
  | equals (child : ChildColumn) (operand : Operand)
  /-- A column is an element of an array in an enclosing row. -/
  | elementOf (tableAlias : String) (arrayColumn : String) (child : ChildColumn)
      (elementType : String)

namespace Constraint

/-- The row with the given identifier. -/
def onId (v : Json.Value) : Constraint :=
  .equals .primaryKey (.value v)

/-- Equality of constraints. -/
def same : Constraint → Constraint → Bool
  | .equals c o, .equals c' o' => c == c' && o.same o'
  | .elementOf a n c t, .elementOf a' n' c' t' => a == a' && n == n' && c == c' && t == t'
  | _, _ => false

end Constraint

/-- An operand as a column. -/
def Operand.toColumn : Operand → Column
  | .column tableAlias name => .physical tableAlias name
  | .value v => literal v

/-- Whether an entity has a column: the one of its identifier, or that of a
    field. -/
def hasColumn (entity : Entity) (name : String) : Bool :=
  name == entity.idColumnName || entity.fields.any fun f => f.2.nativeColumnName == some name

/-- The column of an entity by which its rows are matched. -/
def ChildColumn.toColumn (child : ChildColumn) (typeName : String) (entity : Entity)
    (aliasName : String) : Except Failure Column :=
  match child with
  | .primaryKey => .ok (.physical aliasName entity.idColumnName)
  | .named name =>
      if hasColumn entity name then .ok (.physical aliasName name)
      else .error (.noMatchColumn typeName name)

/-- A constraint as a predicate on the rows of an entity. -/
def Constraint.predicate (constraint : Constraint) (typeName : String) (entity : Entity)
    (aliasName : String) : Except Failure Predicate :=
  match constraint with
  | .equals child operand => do
      let column ← child.toColumn typeName entity aliasName
      return .equal column operand.toColumn
  | .elementOf tableAlias arrayColumn child elementType => do
      let column ← child.toColumn typeName entity aliasName
      return .compare .contains (.physical tableAlias arrayColumn) (.array column elementType)

end ViewCompiler
