import ViewCompiler.Query.Compile
import ViewCompiler.Mutation.Compile

/-!
# Reports

A compiled request as a document, in the form in which the command line shows
it. Parameters appear as they are displayed to a person.

## Main definitions

* `CompiledQuery.report`: The report on a query.
* `CompiledMutation.report`: The report on a mutation.
-/

namespace ViewCompiler

open Json

/-- Parameters as they are displayed. -/
def displayAll (params : List Sql.Param) : Value :=
  .array (params.map fun p => .string p.display)

/-- The report on a compiled query. -/
def CompiledQuery.report (c : CompiledQuery) : Value :=
  .object [("sql", .string c.sql), ("values", displayAll c.values),
    ("authRequired", .bool c.authRequired), ("costTree", c.cost.toJson),
    ("maxDepth", .int c.maxDepth), ("potentiallyHighCost", .bool c.potentiallyHighCost),
    ("cacheControl", .string c.cachePolicy.header)]

/-- The report on a compiled mutation and on the query for its response. What
    is not there is left out. -/
def CompiledMutation.report (c : CompiledMutation) (response : Option CompiledQuery) : Value :=
  let affected := match c.affectedEntityId with
    | none => []
    | some id => [("affectedEntityId", id)]
  let selected := match response with
    | none => []
    | some query => [("response", query.report)]
  .object ([("mutationName", .string c.mutationName),
      ("entityTypeName", .string c.entityTypeName), ("sql", .string c.sql),
      ("values", displayAll c.values)] ++ affected ++
    [("cacheControl", .string c.cachePolicy.header)] ++ selected)

end ViewCompiler
