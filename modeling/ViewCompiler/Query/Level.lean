import ViewCompiler.Failure
import ViewCompiler.Sql.Tree
import ViewCompiler.Schema.Entity
import ViewCompiler.Query.Cost
import ViewCompiler.Query.Constraint

/-!
# Levels of a Query

A level of a query selects from one entity. Whatever refers to a field of the
entity, be it the selection, the filter or the sort, asks the level for it,
and so the same rule applies everywhere: the field has to exist, and a field
that the public view does not have is given to an authenticated caller only.

Each answer says whether such a field was needed. A level that needed one reads
from the authorized view.

## Main definitions

* `Position`: Whether a level is the outermost one.
* `isGenericRootAggregation`: Whether a level lists all rows of an entity.
* `Level`: An entity under an alias.
* `Guarded`: A result, and whether it needs the authorized view.
* `Level.field`, `Level.column`: The fields and columns of a level.
-/

namespace ViewCompiler

open Sql Schema

/-- The position of a level in a query. -/
inductive Position where
  | top
  | nested
deriving DecidableEq

/-- Whether a level lists the rows of an entity without anything that they
    belong to. -/
def isGenericRootAggregation (position : Position) (fetch : Fetch)
    (constraint : Option Constraint) : Bool :=
  position == .top && fetch == .aggregation && constraint.isNone

/-- A level of a query: an entity, the alias of its view, and whether the
    caller is authenticated. -/
structure Level where
  typeName : String
  entity : Entity
  aliasName : String
  authenticated : Bool

/-- A result that refers to fields, and whether one of these is in the
    authorized view only. -/
structure Guarded (α : Type) where
  value : α
  restricted : Bool

namespace Level

/-- A field of the entity, if the caller may see it. -/
def field (level : Level) (name : String) : Except Failure (Guarded Field) :=
  match level.entity.field? name with
  | none => .error (.unknownField level.typeName name)
  | some field =>
      let restricted := level.entity.requiresAuthorization name field
      if restricted && !level.authenticated then .error (.authorization level.typeName name)
      else .ok ⟨field, restricted⟩

/-- The column of a field, to compare or to sort by: the field is stored in a
    column and stands for no relation. -/
def column (level : Level) (name : String) : Except Failure (Guarded Column) := do
  let field ← level.field name
  match field.value.relation, field.value.nativeColumnName with
  | none, some columnName => return ⟨.physical level.aliasName columnName, field.restricted⟩
  | _, _ => throw (.notAColumn level.typeName name)

end Level

end ViewCompiler
