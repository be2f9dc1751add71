import ViewCompiler.Entries
import ViewCompiler.Schema.Relation

/-!
# Entities

An entity is a type that requests can select from. Its rows are read through
one of two views: the public view holds what everyone may see, the authorized
view holds the other columns as well.

A field is stored in a native column, or computed by the views under its own
name, or stands for a relation to another entity.

## Main definitions

* `Field`: A field of an entity.
* `Entity`: An entity with its views and fields.
* `Entity.requiresAuthorization`: Which fields only the authorized view has.
-/

namespace ViewCompiler

namespace Schema

/-- The use that a field makes of a relation. -/
structure FieldLink where
  relationName : String
  isListType : Bool
  ownerTable : TableName
deriving DecidableEq

/-- A field of an entity. -/
structure Field where
  nativeColumnName : Option String
  relation : Option FieldLink
deriving DecidableEq

/-- The column under which a view shows a field. -/
def Field.columnName (field : Field) (fieldName : String) : String :=
  field.nativeColumnName.getD fieldName

/-- An entity with its table, its views and its fields. -/
structure Entity where
  tableSchemaName : String
  tableName : String
  viewSchemaName : Option String
  publicViewName : String
  authViewName : String
  idColumnName : String
  fields : Entries Field
  publicFieldNames : List String
  disallowGenericRootLevelAggregation : Bool
deriving DecidableEq

namespace Entity

/-- The identifier column, unless an entity names one. -/
def defaultIdColumnName : String := "id"

/-- The table that an entity's rows come from. -/
def table (e : Entity) : TableName := ⟨e.tableSchemaName, e.tableName⟩

/-- A field by its name. -/
def field? (e : Entity) (name : String) : Option Field :=
  e.fields.get? name

/-- Whether everyone may see a field. -/
def isPublic (e : Entity) (name : String) : Bool :=
  e.publicFieldNames.contains name

/-- Whether a field is in the authorized view only. -/
def requiresAuthorization (e : Entity) (name : String) (field : Field) : Bool :=
  field.nativeColumnName.isSome && !e.isPublic name

/-- The name of the authorized or of the public view. -/
def viewName (e : Entity) (authorized : Bool) : String :=
  if authorized then e.authViewName else e.publicViewName

end Entity

/-- The names of a list in order, each at its first place only. -/
def distinctNames (names : List String) : List String :=
  names.foldl (fun seen name => if name ∈ seen then seen else seen ++ [name]) []

end Schema

end ViewCompiler
