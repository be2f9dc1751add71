import ViewCompiler.Request.Basic
import ViewCompiler.Json.Decode
import ViewCompiler.Json.Render

/-!
# Requests as JSON

How requests are read from a text and written to one.

A query nests through two objects, one from types to fields and one from
fields to nodes, so its decoder is three functions that hand the budget of
nesting down to each other.

## Main definitions

* `QueryNode.decoder`, `MutationRequest.decoder`: Reading.
* `QueryNode.toJson`, `MutationRequest.toJson`: Writing.
* `QueryNode.ofText?`, `MutationRequest.ofText?`: The request of a text.
-/

namespace ViewCompiler

open Json

namespace QueryNode

mutual
/-- Reads a node. -/
def decoder : Decoder QueryNode
  | 0, _ => none
  | budget + 1, d => do
      let fields ← d.fields? ["name", "alias", "fieldsByTypeName", "args"]
      let name ← required fields "name" (Decoder.text budget)
      let aliasName ← defaulted fields "alias" (Decoder.text.optional budget) none
      let byType ← defaulted fields "fieldsByTypeName" (typesDecoder budget) []
      let args ← defaulted fields "args" (Decoder.value.entries budget) []
      return mk name aliasName byType args
/-- Reads the fields of every type of a node. -/
def typesDecoder : Decoder (Entries (Entries QueryNode))
  | 0, _ => none
  | budget + 1, d => d.entries? (fieldsDecoder budget)
/-- Reads the fields of one type. -/
def fieldsDecoder : Decoder (Entries QueryNode)
  | 0, _ => none
  | budget + 1, d => d.entries? (decoder budget)
end

/-- The query that a text describes. -/
def ofText? (text : List Text.Symbol) : Option QueryNode :=
  decode? decoder text

mutual
/-- Writes a node; an alias is left out if there is none. -/
def toJson : QueryNode → Value
  | mk name aliasName byType args =>
      let renamed := match aliasName with
        | none => []
        | some a => [("alias", Value.string a)]
      .object (("name", .string name) :: renamed ++
        [("fieldsByTypeName", .object (typesToJson byType)), ("args", .object args)])
/-- Writes the fields of every type of a node. -/
def typesToJson : List (String × List (String × QueryNode)) → List (String × Value)
  | [] => []
  | (typeName, fields) :: rest => (typeName, .object (fieldsToJson fields)) :: typesToJson rest
/-- Writes the fields of one type. -/
def fieldsToJson : List (String × QueryNode) → List (String × Value)
  | [] => []
  | (key, node) :: rest => (key, node.toJson) :: fieldsToJson rest
end

end QueryNode

namespace MutationRequest

/-- Reads the arguments of a mutation, of which there is one. -/
def argsDecoder : Decoder (Entries Value)
  | 0, _ => none
  | budget + 1, d => do
      let fields ← d.fields? ["input"]
      defaulted fields "input" (Decoder.value.entries budget) []

/-- Reads a mutation. -/
def decoder : Decoder MutationRequest
  | 0, _ => none
  | budget + 1, d => do
      let fields ← d.fields? ["name", "args"]
      let name ← required fields "name" (Decoder.text budget)
      let input ← required fields "args" (argsDecoder budget)
      return ⟨name, input⟩

/-- The mutation that a text describes. -/
def ofText? (text : List Text.Symbol) : Option MutationRequest :=
  decode? decoder text

/-- Writes a mutation. -/
def toJson (m : MutationRequest) : Value :=
  .object [("name", .string m.name), ("args", .object [("input", .object m.input)])]

end MutationRequest

end ViewCompiler
