import ViewCompiler.Json.Value

/-!
# Cost Trees

The shape of a query, without its columns and conditions: one node for each
level, with the table it reads, whether one row or many are wanted, and the
bound on their number.

## Main definitions

* `Fetch`: One row or many.
* `CostTree`: A level of a query and the levels below it.
* `CostTree.maxDepth`: The length of the longest chain of levels.
* `CostTree.toJson`: A cost tree as a value.
-/

namespace ViewCompiler

/-- How many rows of a level are wanted. -/
inductive Fetch where
  /-- One row, or none. -/
  | row
  /-- A list of rows. -/
  | aggregation
deriving DecidableEq

/-- The name of a way to fetch rows. -/
def Fetch.name : Fetch → String
  | .row => "row"
  | .aggregation => "aggregation"

/-- A level of a query and the levels below it, by the names of their
    results. -/
structure CostTree where
  fetch : Fetch
  tableName : String
  tableSchemaName : String
  limit : Option Int
  children : List (String × CostTree)

namespace CostTree

mutual
/-- The number of levels on the longest way down. -/
def maxDepth : CostTree → Nat
  | ⟨_, _, _, _, children⟩ => 1 + deepest children
/-- The depth of the deepest of several trees. -/
def deepest : List (String × CostTree) → Nat
  | [] => 0
  | (_, tree) :: rest => max tree.maxDepth (deepest rest)
end

mutual
/-- A cost tree as a value. A bound or the children are left out if there are
    none. -/
def toJson : CostTree → Json.Value
  | ⟨fetch, tableName, tableSchemaName, limit, children⟩ =>
      let bound := match limit with
        | none => []
        | some n => [("limit", Json.Value.int n)]
      let level := Json.Value.object
        ([("type", .string fetch.name), ("tableName", .string tableName),
          ("tableSchemaName", .string tableSchemaName)] ++ bound)
      let below := childrenToJson children
      .object (("meta", level) :: if below.isEmpty then [] else [("children", .object below)])
/-- The trees below a level as members. -/
def childrenToJson : List (String × CostTree) → List (String × Json.Value)
  | [] => []
  | (key, tree) :: rest => (key, tree.toJson) :: childrenToJson rest
end

end CostTree

end ViewCompiler
