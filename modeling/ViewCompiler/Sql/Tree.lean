import ViewCompiler.Sql.Param

/-!
# SQL Trees

The part of the query language that compiled requests use, as trees.

Columns, predicates and selects contain each other: a column can be a select
in parentheses, and a select has columns and a predicate. The types are
therefore declared together.

Predicates are put together by `equal`, `notEqual`, `within` and `conj`, which
keep them simple: a comparison with `NULL` becomes a test for it, an empty
list holds nothing, and the constants disappear from conjunctions.

## Main definitions

* `Column`, `Predicate`, `SelectItem`, `Source`, `OrderTerm`, `Select`: The
  trees.
* `Predicate.conj`, `Predicate.all`: Conjunctions without constants.
* `Insert`, `Update`, `Delete`, `Statement`: The statements that change data.
-/

namespace ViewCompiler

namespace Sql

/-- A view inside a database schema. -/
structure ViewName where
  schemaName : String
  name : String
deriving DecidableEq

/-- The ways of comparing two columns. -/
inductive Comparison where
  | eq
  | neq
  | lt
  | lte
  | gt
  | gte
  /-- An array contains another. -/
  | contains
deriving DecidableEq

/-- The direction of a sort. -/
inductive Direction where
  | asc
  | desc
deriving DecidableEq

mutual
/-- An expression that has a value in a row. -/
inductive Column where
  /-- A column of the source with the given alias. -/
  | physical (tableAlias : String) (name : String)
  | param (value : Param)
  /-- The whole row of the source with the given alias, as a JSON object. -/
  | rowToJson (tableAlias : String)
  /-- The values of a column over all rows, as a JSON array. -/
  | jsonAgg (column : Column)
  | subSelect (select : Select)
  /-- An array of one element, of an explicit type. -/
  | array (element : Column) (elementType : String)
  | null
/-- A condition on a row. -/
inductive Predicate where
  | always
  | never
  | compare (op : Comparison) (left : Column) (right : Column)
  | isIn (column : Column) (elements : List Column)
  | isNull (column : Column)
  | isNotNull (column : Column)
  | and (left : Predicate) (right : Predicate)
/-- A column of a select, with the name under which it is returned. -/
structure SelectItem where
  column : Column
  aliasName : Option String
/-- What a select reads from. -/
inductive Source where
  | view (view : ViewName) (aliasName : String)
  | subSelect (select : Select) (aliasName : String)
/-- A column to sort by. -/
structure OrderTerm where
  column : Column
  direction : Direction
/-- A query. Without a source it has exactly one row. -/
structure Select where
  columns : List SelectItem
  source : Option Source
  predicate : Predicate
  orderBy : Option (List OrderTerm)
  limit : Option Int
  offset : Option Int
end

/-- The alias of a source. -/
def Source.aliasName : Source → String
  | .view _ aliasName => aliasName
  | .subSelect _ aliasName => aliasName

/-- All rows of a source. -/
def Select.ofSource (columns : List SelectItem) (source : Source) : Select :=
  ⟨columns, some source, .always, none, none, none⟩

/-- The one row without a source. -/
def Select.expression (columns : List SelectItem) : Select :=
  ⟨columns, none, .always, none, none, none⟩

namespace Predicate

/-- Equality; a column is equal to `NULL` if it is `NULL`. -/
def equal (left : Column) : Column → Predicate
  | .null => .isNull left
  | right => .compare .eq left right

/-- Difference; a column differs from `NULL` if it is not `NULL`. -/
def notEqual (left : Column) : Column → Predicate
  | .null => .isNotNull left
  | right => .compare .neq left right

/-- Membership; nothing is a member of an empty list. -/
def within (column : Column) : List Column → Predicate
  | [] => .never
  | elements => .isIn column elements

/-- Conjunction without constants. -/
def conj : Predicate → Predicate → Predicate
  -- The order matters: `never` absorbs `always` on either side.
  | .never, _ => .never
  | _, .never => .never
  | .always, right => right
  | left, .always => left
  | left, right => .and left right

/-- The conjunction of a list, from left to right. -/
def all (predicates : List Predicate) : Predicate :=
  predicates.foldl conj .always

/-- Whether a predicate is the one that every row satisfies. -/
def isAlways : Predicate → Bool
  | .always => true
  | _ => false

end Predicate

/-- A statement that adds a row. -/
structure Insert where
  view : ViewName
  columns : List String
  values : List Column

/-- A statement that changes rows. -/
structure Update where
  view : ViewName
  assignments : List (String × Column)
  predicate : Predicate

/-- A statement that removes rows. -/
structure Delete where
  view : ViewName
  predicate : Predicate

/-- A statement that changes data. -/
inductive Statement where
  | insert (statement : Insert)
  | update (statement : Update)
  | delete (statement : Delete)

end Sql

end ViewCompiler
