import ViewCompiler.Schema.Entity

/-!
# Schemas

The metadata that requests are compiled against: the entities, the relations
between their tables, and the mutations.

## Main definitions

* `MutationKind`, `Mutation`: A mutation that requests can name.
* `Schema`: Entities, relations and mutations by name.
* `Schema.entityViewSchema`, `Schema.mutationViewSchema`: Where views live.
* `Schema.nameRelations`: Relations without a name take that of their entry.
-/

namespace ViewCompiler

namespace Schema

/-- What a mutation does to a row. Kinds that are not known are kept, and
    refused when they are compiled. -/
inductive MutationKind where
  | create
  | update
  | delete
  | unsupported
deriving DecidableEq

/-- A mutation: the entity that it changes, and the view through which it
    does. -/
structure Mutation where
  kind : MutationKind
  typeName : String
  viewSchemaName : Option String
  viewName : String
deriving DecidableEq

end Schema

/-- The metadata that requests are compiled against. -/
structure Schema where
  viewSchemaName : String
  entities : Entries Schema.Entity
  relations : Entries Schema.Relation
  mutations : Entries Schema.Mutation
deriving DecidableEq

namespace Schema

/-- The database schema of the views, unless the metadata names one. -/
def defaultViewSchemaName : String := "_graphql"

/-- An entity by its name. -/
def entity? (s : Schema) (name : String) : Option Entity := s.entities.get? name

/-- A relation by its name. -/
def relation? (s : Schema) (name : String) : Option Relation := s.relations.get? name

/-- A mutation by its name. -/
def mutation? (s : Schema) (name : String) : Option Mutation := s.mutations.get? name

/-- The database schema of an entity's views. -/
def entityViewSchema (s : Schema) (e : Entity) : String :=
  e.viewSchemaName.getD s.viewSchemaName

/-- The database schema of a mutation's view. -/
def mutationViewSchema (s : Schema) (m : Mutation) : String :=
  m.viewSchemaName.getD s.viewSchemaName

/-- Relations of which every one has a name: those without take that of their
    entry. -/
def nameRelations (relations : Entries Relation) : Entries Relation :=
  relations.map fun (key, r) => (key, if r.name = "" then { r with name := key } else r)

end Schema

end ViewCompiler
