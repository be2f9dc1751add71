import ViewCompiler.Cache
import ViewCompiler.Request.Basic
import ViewCompiler.Schema.Basic
import ViewCompiler.Sql.Render
import ViewCompiler.Query.Clauses

/-!
# Compiling Queries

A query becomes one select that returns one JSON value.

Each node that selects fields is a level. Its rows come from a view of its
entity: the columns are the selected fields, and a field that stands for a
relation is a nested select over the related entity. Around the rows of a
level there is a second select that turns them into JSON, into one object or
an array of objects, depending on how many are wanted.

The levels are numbered in the order in which they are met, and level `i` uses
the aliases `2 * i` for the JSON and `2 * i + 1` for the rows. A nested level
refers to the row it belongs to by the alias of the level above, so aliases
must not repeat; a counter of the aliases in use goes through the whole
compilation.

## Main definitions

* `localAlias`: The alias of a number.
* `Schema.link`: How a relation field fetches and matches its rows.
* `resolveLevel`, `resolveFields`: The select of a level.
* `CompiledQuery`: A compiled query.
* `Schema.compileQuery`: The compilation of a query.
-/

namespace ViewCompiler

open Sql Schema

/-- The alias of a number. -/
def localAlias (n : Nat) : String :=
  "_local_" ++ Nat.repr n ++ "_"

/-- How a relation field is fetched, and how its rows match the row it is a
    field of. Where the own side is linked to one row, it stores a foreign
    key. Where both sides are linked to many, it stores an array. Otherwise
    it is the foreign side that stores the key. -/
def Schema.link (schema : Schema) (level : Level) (fieldName : String) (field : Field)
    (use : FieldLink) : Except Failure (Fetch × Constraint) := do
  let some relation := schema.relation? use.relationName
    | throw (.unknownRelation use.relationName level.typeName fieldName)
  let some sides := relation.endpoints? use.ownerTable use.isListType field.nativeColumnName
    | throw (.noSide relation.name use.ownerTable.display)
  match sides.own.cardinality, sides.foreign.cardinality with
  | .one, _ =>
      let some key := sides.own.columnName <|> field.nativeColumnName
        | throw (.noLinkColumn relation.name level.typeName fieldName)
      return (.row, .equals .primaryKey (.column level.aliasName key))
  | .many, .many =>
      let some array := sides.own.columnName <|> field.nativeColumnName
        | throw (.noLinkColumn relation.name level.typeName fieldName)
      return (.aggregation,
        .elementOf level.aliasName array .primaryKey sides.own.arrayElementType)
  | .many, .one =>
      let some key := sides.foreign.columnName
        | throw (.noLinkColumn relation.name level.typeName fieldName)
      return (.aggregation,
        .equals (.named key) (.column level.aliasName level.entity.idColumnName))

/-- The select of a level, and what was learned on the way. -/
structure Resolved where
  /-- The rows of the level. -/
  select : Select
  cost : CostTree
  /-- Whether this level or one below it reads from an authorized view. -/
  authRequired : Bool
  /-- The number of the next alias. -/
  next : Nat

/-- The columns of a level, and what was learned on the way. -/
structure ResolvedFields where
  columns : List SelectItem
  /-- The cost trees of the nested levels, in order. -/
  children : List (String × CostTree)
  /-- Whether a field of this level is in the authorized view only. -/
  restricted : Bool
  /-- Whether a level below reads from an authorized view. -/
  authBelow : Bool
  /-- The number of the next alias. -/
  next : Nat

/-- The rows of a select as JSON: one object, or an array of objects. -/
def asJson (fetch : Fetch) (aliasName : String) (rows : Select) : Select :=
  let column := match fetch with
    | .row => Column.rowToJson aliasName
    | .aggregation => Column.jsonAgg (.rowToJson aliasName)
  Select.ofSource [⟨column, none⟩] (.subSelect rows aliasName)

/-- The rows of a level as a column. -/
def levelColumn (fetch : Fetch) (aliasName : String) (rows : Select) (resultKey : String) :
    SelectItem :=
  ⟨.subSelect (asJson fetch aliasName rows), some resultKey⟩

mutual
/-- The select of a level. The alias `next` is that of the JSON around it. -/
def resolveLevel (schema : Schema) (authenticated : Bool) (fetch : Fetch) (position : Position)
    (constraint : Option Constraint) (next : Nat) : QueryNode → Except Failure Resolved
  | .mk name _ [] _ => .error (.noTypeSelected name)
  | .mk _ _ ((typeName, fields) :: _) args => do
      let some entity := schema.entity? typeName | throw (.unknownType typeName)
      if isGenericRootAggregation position fetch constraint &&
          entity.disallowGenericRootLevelAggregation then
        throw (.rootAggregation typeName)
      if fields.isEmpty then throw (.noFieldsSelected typeName)
      let level : Level := ⟨typeName, entity, localAlias (next + 1), authenticated⟩
      -- Nested levels come before the clauses, so their failures do too.
      let selected ← resolveFields schema level (next + 2) fields
      let clauses ← level.clauses args
      let matching ← match constraint with
        | none => pure Predicate.always
        | some c => c.predicate typeName entity level.aliasName
      -- Only the fields of this very level decide which view it reads.
      let restricted := selected.restricted || clauses.restricted
      let view : ViewName := ⟨schema.entityViewSchema entity, entity.viewName restricted⟩
      return {
        select :=
          { columns := selected.columns
            source := some (.view view level.aliasName)
            predicate := matching.conj clauses.value.predicate
            orderBy := clauses.value.orderBy
            limit := clauses.value.limit
            offset := clauses.value.offset }
        cost :=
          { fetch := fetch
            tableName := entity.tableName
            tableSchemaName := entity.tableSchemaName
            limit := clauses.value.limit
            children := Entries.ofList selected.children }
        authRequired := restricted || selected.authBelow
        next := selected.next }
/-- The columns of a level, in the order of the selected fields. -/
def resolveFields (schema : Schema) (level : Level) (next : Nat) :
    List (String × QueryNode) → Except Failure ResolvedFields
  | [] => .ok ⟨[], [], false, false, next⟩
  | (_, node) :: rest => do
      let field ← level.field node.name
      match field.value.relation with
      | none =>
          let others ← resolveFields schema level next rest
          let column := Column.physical level.aliasName (field.value.columnName node.name)
          return { others with
            columns := ⟨column, some node.resultKey⟩ :: others.columns
            restricted := field.restricted || others.restricted }
      | some use =>
          -- A failure of the relation itself belongs to this level; only what
          -- happens below gets a context.
          let (fetch, constraint) ← schema.link level node.name field.value use
          let below ←
            (resolveLevel schema level.authenticated fetch .nested (some constraint) next
              node).mapError (.inContext (Failure.relationContext level.typeName node.name))
          let others ← resolveFields schema level below.next rest
          return {
            columns :=
              levelColumn fetch (localAlias next) below.select node.resultKey :: others.columns
            children := (node.resultKey, below.cost) :: others.children
            restricted := field.restricted || others.restricted
            authBelow := below.authRequired || others.authBelow
            next := others.next }
end

/-- A compiled query. -/
structure CompiledQuery where
  statement : Select
  authRequired : Bool
  cost : CostTree
  maxDepth : Nat
  potentiallyHighCost : Bool

namespace CompiledQuery

/-- The text of a compiled query. -/
def sql (c : CompiledQuery) : String := c.statement.render.sql

/-- The parameters of a compiled query, in the order of their placeholders. -/
def values (c : CompiledQuery) : List Param := c.statement.render.params

/-- Who may keep the answer to a compiled query. -/
def cachePolicy (c : CompiledQuery) : CachePolicy := .ofQuery c.authRequired

end CompiledQuery

/-- Compiles a query. The result is an array of the rows of the outermost
    level, which `constraint` may restrict. A query that nests `minDepth`
    levels or more is marked as potentially of high cost. -/
def Schema.compileQuery (schema : Schema) (minDepth : Nat) (authenticated : Bool)
    (constraint : Option Constraint) (node : QueryNode) : Except Failure CompiledQuery := do
  let resolved ← resolveLevel schema authenticated .aggregation .top constraint 0 node
  let maxDepth := resolved.cost.maxDepth
  return {
    statement := Select.expression
      [levelColumn .aggregation (localAlias 0) resolved.select node.resultKey]
    authRequired := resolved.authRequired
    cost := resolved.cost
    maxDepth := maxDepth
    potentiallyHighCost := minDepth ≤ maxDepth }

end ViewCompiler
