import ViewCompiler.Schema.Basic
import ViewCompiler.Json.Decode
import ViewCompiler.Json.Render

/-!
# Schemas as JSON

How metadata is read from a text and written to one.

The names of the fields are given once for each record, in the order in which
the record declares them. That order is the one of the array form of the
record, and the one in which its members are written.

## Main definitions

* `Schema.decoder`, and one decoder for each part of a schema.
* `Schema.toJson`, and one for each part of a schema.
* `Schema.ofText?`: The schema that a text describes.
-/

namespace ViewCompiler

namespace Schema

open Json

/-! ### Reading -/

/-- The cardinality of a name. -/
def Cardinality.named? (name : String) : Option Cardinality :=
  if name = "ONE" then some .one else if name = "MANY" then some .many else none

/-- The kind of mutation of a name; every name is one. -/
def MutationKind.named (name : String) : MutationKind :=
  if name = "CREATE" then .create
  else if name = "UPDATE" then .update
  else if name = "DELETE" then .delete
  else .unsupported

/-- Reads the name of a table. -/
def TableName.decoder : Decoder TableName
  | 0, _ => none
  | budget + 1, d => do
      let fields ← d.fields? ["schemaName", "tableName"]
      let schemaName ← required fields "schemaName" (Decoder.text budget)
      let tableName ← required fields "tableName" (Decoder.text budget)
      return ⟨schemaName, tableName⟩

/-- Reads a reference to a column. -/
def ColumnReference.decoder : Decoder ColumnReference
  | 0, _ => none
  | budget + 1, d => do
      let fields ← d.fields? ["schemaName", "tableName", "columnName"]
      let schemaName ← required fields "schemaName" (Decoder.text budget)
      let tableName ← required fields "tableName" (Decoder.text budget)
      let columnName ← required fields "columnName" (Decoder.text budget)
      return ⟨schemaName, tableName, columnName⟩

/-- Reads a side of a relation. -/
def Side.decoder : Decoder Side
  | 0, _ => none
  | budget + 1, d => do
      let fields ← d.fields?
        ["schemaName", "tableName", "kind", "columnName", "reference", "arrayElementType"]
      let schemaName ← required fields "schemaName" (Decoder.text budget)
      let tableName ← required fields "tableName" (Decoder.text budget)
      let cardinality ← required fields "kind" (Decoder.choice Cardinality.named? budget)
      let columnName ← defaulted fields "columnName" (Decoder.text.optional budget) none
      let reference ← defaulted fields "reference" (ColumnReference.decoder.optional budget) none
      let elementType ← defaulted fields "arrayElementType" (Decoder.text budget)
        Side.defaultElementType
      return ⟨schemaName, tableName, cardinality, columnName, reference, elementType⟩

/-- Reads exactly two sides. -/
def sidesDecoder : Decoder (Side × Side)
  | budget, d =>
      match Side.decoder.list budget d with
      | some [first, second] => some (first, second)
      | _ => none

/-- Reads a relation, whose name may be missing. -/
def Relation.decoder : Decoder Relation
  | 0, _ => none
  | budget + 1, d => do
      let fields ← d.fields? ["name", "sides"]
      let name ← defaulted fields "name" (Decoder.text budget) ""
      let (first, second) ← required fields "sides" (sidesDecoder budget)
      return ⟨name, first, second⟩

/-- Reads the use of a relation. -/
def FieldLink.decoder : Decoder FieldLink
  | 0, _ => none
  | budget + 1, d => do
      let fields ← d.fields? ["relationName", "isListType", "ownerTable"]
      let relationName ← required fields "relationName" (Decoder.text budget)
      let isListType ← required fields "isListType" (Decoder.flag budget)
      let ownerTable ← required fields "ownerTable" (TableName.decoder budget)
      return ⟨relationName, isListType, ownerTable⟩

/-- Reads a field. -/
def Field.decoder : Decoder Field
  | 0, _ => none
  | budget + 1, d => do
      let fields ← d.fields? ["nativeColumnName", "relation"]
      let nativeColumnName ← defaulted fields "nativeColumnName" (Decoder.text.optional budget) none
      let relation ← defaulted fields "relation" (FieldLink.decoder.optional budget) none
      return ⟨nativeColumnName, relation⟩

/-- Reads an entity. -/
def Entity.decoder : Decoder Entity
  | 0, _ => none
  | budget + 1, d => do
      let fields ← d.fields?
        ["tableSchemaName", "tableName", "viewSchemaName", "publicViewName", "authViewName",
          "idColumnName", "fields", "publicFieldNames", "disallowGenericRootLevelAggregation"]
      let tableSchemaName ← required fields "tableSchemaName" (Decoder.text budget)
      let tableName ← required fields "tableName" (Decoder.text budget)
      let viewSchemaName ← defaulted fields "viewSchemaName" (Decoder.text.optional budget) none
      let publicViewName ← required fields "publicViewName" (Decoder.text budget)
      let authViewName ← required fields "authViewName" (Decoder.text budget)
      let idColumnName ← defaulted fields "idColumnName" (Decoder.text budget)
        Entity.defaultIdColumnName
      let entityFields ← required fields "fields" (Field.decoder.entries budget)
      let publicNames ← required fields "publicFieldNames" (Decoder.text.list budget)
      let disallow ← defaulted fields "disallowGenericRootLevelAggregation"
        (Decoder.flag budget) false
      return ⟨tableSchemaName, tableName, viewSchemaName, publicViewName, authViewName,
        idColumnName, entityFields, distinctNames publicNames, disallow⟩

/-- Reads a mutation. -/
def Mutation.decoder : Decoder Mutation
  | 0, _ => none
  | budget + 1, d => do
      let fields ← d.fields? ["type", "typeName", "viewSchemaName", "viewName"]
      let kind ← required fields "type"
        (Decoder.choice (fun name => some (MutationKind.named name)) budget)
      let typeName ← required fields "typeName" (Decoder.text budget)
      let viewSchemaName ← defaulted fields "viewSchemaName" (Decoder.text.optional budget) none
      let viewName ← required fields "viewName" (Decoder.text budget)
      return ⟨kind, typeName, viewSchemaName, viewName⟩

/-- Reads a schema, every part of which may be missing. -/
def decoder : Decoder Schema
  | 0, _ => none
  | budget + 1, d => do
      let fields ← d.fields? ["viewSchemaName", "entities", "relations", "mutations"]
      let viewSchemaName ← defaulted fields "viewSchemaName" (Decoder.text budget)
        defaultViewSchemaName
      let entities ← defaulted fields "entities" (Entity.decoder.entries budget) []
      let relations ← defaulted fields "relations" (Relation.decoder.entries budget) []
      let mutations ← defaulted fields "mutations" (Mutation.decoder.entries budget) []
      return ⟨viewSchemaName, entities, nameRelations relations, mutations⟩

/-- The schema that a text describes. -/
def ofText? (text : List Text.Symbol) : Option Schema :=
  decode? decoder text

/-! ### Writing -/

/-- The name of a cardinality. -/
def Cardinality.name : Cardinality → String
  | .one => "ONE"
  | .many => "MANY"

/-- The name of a kind of mutation. -/
def MutationKind.name : MutationKind → String
  | .create => "CREATE"
  | .update => "UPDATE"
  | .delete => "DELETE"
  | .unsupported => "UNSUPPORTED"

/-- Entries as an object. -/
def entriesToJson {α : Type} (write : α → Value) (entries : Entries α) : Value :=
  .object (entries.map fun entry => (entry.1, write entry.2))

/-- Something that may be absent, which is written as `null`. -/
def optionToJson {α : Type} (write : α → Value) : Option α → Value
  | none => .null
  | some x => write x

/-- Writes the name of a table. -/
def TableName.toJson (t : TableName) : Value :=
  .object [("schemaName", .string t.schemaName), ("tableName", .string t.tableName)]

/-- Writes a reference to a column. -/
def ColumnReference.toJson (r : ColumnReference) : Value :=
  .object [("schemaName", .string r.schemaName), ("tableName", .string r.tableName),
    ("columnName", .string r.columnName)]

/-- Writes a side of a relation. -/
def Side.toJson (s : Side) : Value :=
  .object [("schemaName", .string s.schemaName), ("tableName", .string s.tableName),
    ("kind", .string s.cardinality.name), ("columnName", .optionalString s.columnName),
    ("reference", optionToJson ColumnReference.toJson s.reference),
    ("arrayElementType", .string s.arrayElementType)]

/-- Writes a relation. -/
def Relation.toJson (r : Relation) : Value :=
  .object [("name", .string r.name), ("sides", .array [r.first.toJson, r.second.toJson])]

/-- Writes the use of a relation. -/
def FieldLink.toJson (l : FieldLink) : Value :=
  .object [("relationName", .string l.relationName), ("isListType", .bool l.isListType),
    ("ownerTable", l.ownerTable.toJson)]

/-- Writes a field. -/
def Field.toJson (f : Field) : Value :=
  .object [("nativeColumnName", .optionalString f.nativeColumnName),
    ("relation", optionToJson FieldLink.toJson f.relation)]

/-- Writes an entity. -/
def Entity.toJson (e : Entity) : Value :=
  .object [("tableSchemaName", .string e.tableSchemaName), ("tableName", .string e.tableName),
    ("viewSchemaName", .optionalString e.viewSchemaName),
    ("publicViewName", .string e.publicViewName), ("authViewName", .string e.authViewName),
    ("idColumnName", .string e.idColumnName), ("fields", entriesToJson Field.toJson e.fields),
    ("publicFieldNames", .array (e.publicFieldNames.map .string)),
    ("disallowGenericRootLevelAggregation", .bool e.disallowGenericRootLevelAggregation)]

/-- Writes a mutation. -/
def Mutation.toJson (m : Mutation) : Value :=
  .object [("type", .string m.kind.name), ("typeName", .string m.typeName),
    ("viewSchemaName", .optionalString m.viewSchemaName), ("viewName", .string m.viewName)]

/-- Writes a schema. -/
def toJson (s : Schema) : Value :=
  .object [("viewSchemaName", .string s.viewSchemaName),
    ("entities", entriesToJson Entity.toJson s.entities),
    ("relations", entriesToJson Relation.toJson s.relations),
    ("mutations", entriesToJson Mutation.toJson s.mutations)]

end Schema

end ViewCompiler
