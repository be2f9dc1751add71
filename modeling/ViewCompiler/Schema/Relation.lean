/-!
# Relations

A relation links the rows of two tables. Each of its two sides names a table
and says how many rows of the *other* table a row of it is linked to.

A field of an entity uses a relation from one of its sides, its own, to the
other, the foreign side. The field names the table it belongs to, and that
settles which side is its own unless the relation links a table to itself.
Then the number of rows decides, a list field being on the side of many; and
between two sides of the same kind the column that the field is stored in.

## Main definitions

* `TableName`, `Cardinality`, `ColumnReference`: What a side is made of.
* `Side`: One of the two sides of a relation.
* `Relation`: A named pair of sides.
* `Relation.ownIsFirst?`: Which side belongs to a field.
* `Relation.endpoints?`: The two sides, seen from a field.

## Theorems

* `Relation.endpoints?_eq_none_iff`: A relation is of no use to a field
  exactly if neither side is on the field's table.
-/

namespace ViewCompiler

namespace Schema

/-- A table inside a database schema. -/
structure TableName where
  schemaName : String
  tableName : String
deriving DecidableEq

/-- The text under which a table appears in messages. -/
def TableName.display (t : TableName) : String :=
  t.schemaName ++ "." ++ t.tableName

/-- How many rows of the other side a row is linked to. -/
inductive Cardinality where
  | one
  | many
deriving DecidableEq

/-- The column that a foreign key refers to. -/
structure ColumnReference where
  schemaName : String
  tableName : String
  columnName : String
deriving DecidableEq

/-- One side of a relation. A side linked to one row stores the foreign key in
    its column; a side linked to many may store an array of identifiers. -/
structure Side where
  schemaName : String
  tableName : String
  cardinality : Cardinality
  columnName : Option String
  reference : Option ColumnReference
  arrayElementType : String
deriving DecidableEq

/-- The element type of an array of identifiers, unless a side names one. -/
def Side.defaultElementType : String := "uuid"

/-- Whether a side is on a table. -/
def Side.isOn (s : Side) (t : TableName) : Bool :=
  s.schemaName == t.schemaName && s.tableName == t.tableName

/-- Whether a side stores its link in the given column. -/
def Side.holds (s : Side) (column : Option String) : Bool :=
  column.isSome && s.columnName == column

/-- A named pair of sides. -/
structure Relation where
  name : String
  first : Side
  second : Side
deriving DecidableEq

/-- The two sides of a relation, seen from a field. -/
structure Endpoints where
  own : Side
  foreign : Side
deriving DecidableEq

namespace Relation

/-- Whether the first side is the own side of a field with the given table,
    multiplicity and column. -/
def ownIsFirst? (r : Relation) (owner : TableName) (isList : Bool) (column : Option String) :
    Option Bool :=
  match r.first.isOn owner, r.second.isOn owner with
  | true, false => some true
  | false, true => some false
  | false, false => none
  | true, true =>
      if r.first.cardinality ≠ r.second.cardinality then
        some (r.first.cardinality == if isList then Cardinality.many else Cardinality.one)
      else some (r.first.holds column || !r.second.holds column)

/-- The two sides of a relation, seen from a field with the given table,
    multiplicity and column. -/
def endpoints? (r : Relation) (owner : TableName) (isList : Bool) (column : Option String) :
    Option Endpoints :=
  (r.ownIsFirst? owner isList column).map fun ownIsFirst =>
    if ownIsFirst then ⟨r.first, r.second⟩ else ⟨r.second, r.first⟩

theorem endpoints?_eq_none_iff (r : Relation) (owner : TableName) (isList : Bool)
    (column : Option String) :
    r.endpoints? owner isList column = none ↔
      r.first.isOn owner = false ∧ r.second.isOn owner = false := by
  unfold endpoints? ownIsFirst?
  cases r.first.isOn owner <;> cases r.second.isOn owner <;>
    simp only [Option.map_eq_none_iff, reduceCtorEq, and_self, and_false, false_and]
  split <;> simp only [reduceCtorEq]

end Relation

end Schema

end ViewCompiler
