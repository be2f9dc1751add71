import ViewCompiler.Json.Value

/-!
# Requests

What a caller asks for.

A query is a tree of nodes. Each node names a field, may rename its result,
carries arguments, and selects fields of one or more types; of these the
first is the one that counts. A mutation names what it wants done and gives
the values of the fields it sets.

## Main definitions

* `QueryNode`: A node of a query.
* `QueryNode.resultKey`: The name of a node's result.
* `QueryNode.selection?`: The type of a node and the fields selected from it.
* `MutationRequest`: A mutation with its input.
-/

namespace ViewCompiler

/-- A node of a query. -/
structure QueryNode where
  /-- The field that the node names. -/
  name : String
  /-- The name that the node gives to its result, if it does. -/
  aliasName : Option String
  /-- The nodes that are selected of each type, by the names of their
      results. -/
  fieldsByTypeName : List (String × List (String × QueryNode))
  args : List (String × Json.Value)

namespace QueryNode

/-- The name of a node's result. -/
def resultKey (node : QueryNode) : String :=
  node.aliasName.getD node.name

/-- The type of a node and the fields selected from it: the first of those
    that the node lists. -/
def selection? (node : QueryNode) : Option (String × Entries QueryNode) :=
  node.fieldsByTypeName.head?

end QueryNode

/-- A mutation with the values of the fields that it sets. -/
structure MutationRequest where
  name : String
  input : Entries Json.Value

end ViewCompiler
