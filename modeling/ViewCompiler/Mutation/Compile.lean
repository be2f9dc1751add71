import ViewCompiler.Cache
import ViewCompiler.Request.Basic
import ViewCompiler.Schema.Basic
import ViewCompiler.Sql.Render
import ViewCompiler.Query.Constraint

/-!
# Compiling Mutations

A mutation becomes one statement on the view of the mutation: it adds a row,
or it changes or removes the row of an identifier.

The input of a mutation names fields of the entity. Only the columns of these
fields enter the statement, never a name from the input. The identifier is
given under the name of the field that is stored in the identifier column; if
there is no such field, under the name of the column itself.

## Main definitions

* `MutationTarget`: What a mutation changes.
* `idFieldName`: The name of the identifier in the input.
* `CompiledMutation`: A compiled mutation.
* `Schema.compileMutation`: The compilation of a mutation.
-/

namespace ViewCompiler

open Json Sql Schema

/-- What a mutation changes. -/
structure MutationTarget where
  mutationName : String
  typeName : String
  entity : Entity
  view : ViewName

/-- The name under which the input gives the identifier: the first field that
    is stored in the identifier column and stands for no relation. -/
def idFieldName (entity : Entity) : String :=
  match entity.fields.find? fun f =>
      f.2.relation.isNone && f.2.nativeColumnName == some entity.idColumnName with
  | some (name, _) => name
  | none => entity.idColumnName

/-- The identifier in the input of a mutation, if it is there and not
    `null`. -/
def inputId? (entity : Entity) (input : Entries Value) : Option Value :=
  (input.get? (idFieldName entity)).filter fun v => !v.isNull

namespace MutationTarget

/-- The column of a field of the input. -/
def inputColumn (target : MutationTarget) (fieldName : String) : Except Failure String :=
  match (target.entity.field? fieldName).bind Field.nativeColumnName with
  | some column => .ok column
  | none => .error (.fieldNotSettable target.typeName fieldName target.mutationName)

/-- The column and the value of a field of the input. -/
def assignment (target : MutationTarget) (entry : String × Value) :
    Except Failure (String × Column) := do
  let column ← target.inputColumn entry.1
  return (column, stored entry.2)

/-- The identifier that the input has to give. -/
def requiredId (target : MutationTarget) (input : Entries Value) : Except Failure Value :=
  match inputId? target.entity input with
  | some v => .ok v
  | none => .error (.noIdentifier target.mutationName (idFieldName target.entity))

/-- The row with the given identifier. -/
def idPredicate (target : MutationTarget) (id : Value) : Predicate :=
  .equal (.physical target.view.name target.entity.idColumnName) (stored id)

/-- The statement that adds a row. -/
def create (target : MutationTarget) (input : Entries Value) : Except Failure Insert := do
  if input.isEmpty then throw (.noInput target.mutationName)
  let assignments ← input.mapM target.assignment
  return ⟨target.view, assignments.map Prod.fst, assignments.map Prod.snd⟩

/-- The statement that changes the row of an identifier. -/
def update (target : MutationTarget) (input : Entries Value) : Except Failure Update := do
  let id ← target.requiredId input
  -- The identifier selects the row and is not among the values set.
  let others := input.filter fun entry => entry.1 != idFieldName target.entity
  let assignments ← others.mapM target.assignment
  if assignments.isEmpty then throw (.noChange target.mutationName)
  return ⟨target.view, assignments, target.idPredicate id⟩

/-- The statement that removes the row of an identifier. -/
def delete (target : MutationTarget) (input : Entries Value) : Except Failure Delete := do
  let id ← target.requiredId input
  return ⟨target.view, target.idPredicate id⟩

end MutationTarget

/-- A compiled mutation. -/
structure CompiledMutation where
  statement : Statement
  affectedEntityId : Option Value
  mutationName : String
  entityTypeName : String

namespace CompiledMutation

/-- The text of a compiled mutation. -/
def sql (c : CompiledMutation) : String := c.statement.render.sql

/-- The parameters of a compiled mutation, in the order of their
    placeholders. -/
def values (c : CompiledMutation) : List Param := c.statement.render.params

/-- Nobody may keep the answer to a mutation. -/
def cachePolicy (_ : CompiledMutation) : CachePolicy := .nobody

/-- The row that a mutation affects, for a query that selects the response. -/
def responseMatch (c : CompiledMutation) : Option Constraint :=
  c.affectedEntityId.map Constraint.onId

end CompiledMutation

/-- What a mutation changes. -/
def Schema.mutationTarget (schema : Schema) (name : String) (mutation : Mutation) :
    Except Failure MutationTarget :=
  match schema.entity? mutation.typeName with
  | some entity =>
      .ok ⟨name, mutation.typeName, entity, ⟨schema.mutationViewSchema mutation, mutation.viewName⟩⟩
  | none => .error (.unknownMutationType mutation.typeName name)

/-- Compiles a mutation. -/
def Schema.compileMutation (schema : Schema) (request : MutationRequest) :
    Except Failure CompiledMutation := do
  let some mutation := schema.mutation? request.name | throw (.unknownMutation request.name)
  let target ← schema.mutationTarget request.name mutation
  let statement ← match mutation.kind with
    | .create => (target.create request.input).map Statement.insert
    | .update => (target.update request.input).map Statement.update
    | .delete => (target.delete request.input).map Statement.delete
    | .unsupported => throw (.unsupportedMutation request.name)
  return {
    statement := statement
    affectedEntityId := inputId? target.entity request.input
    mutationName := request.name
    entityTypeName := target.typeName }

end ViewCompiler
