/-!
# Failures

Why a request cannot be compiled. Every reason lies in the request and in the
metadata, so the same request fails again in the same way.

A failure in a nested part of a request is wrapped once for every level it
passes on the way out, each time with the relation that led to it. The two
messages differ in what they show of this: the full one has every context,
while the one for the caller keeps an authorization failure to the field it
names.

## Main definitions

* `Failure`: A cause, or a cause in a context.
* `Failure.root`: The cause.
* `Failure.message`, `Failure.userMessage`: The two messages.
* The causes that compiling can meet, one definition each.
-/

namespace ViewCompiler

/-- Why a request cannot be compiled. -/
inductive Failure where
  /-- The metadata does not have what the request refers to. -/
  | schema (text : String)
  /-- A field is in the authorized view only. -/
  | authorization (typeName : String) (fieldName : String)
  /-- The metadata forbids the request. -/
  | policy (text : String)
  /-- An argument or an input has the wrong form. -/
  | validation (text : String)
  /-- A failure in a nested part of the request. -/
  | inContext (context : String) (cause : Failure)
deriving DecidableEq

namespace Failure

/-- What kind of failure it is, a context being a kind of its own. -/
inductive Kind where
  | schema
  | authorization
  | policy
  | validation
  | withContext
deriving DecidableEq

/-- The kind of a failure. -/
def kind : Failure → Failure.Kind
  | .schema _ => .schema
  | .authorization _ _ => .authorization
  | .policy _ => .policy
  | .validation _ => .validation
  | .inContext _ _ => .withContext

/-- The cause of a failure, without its contexts. -/
def root : Failure → Failure
  | .inContext _ cause => cause.root
  | failure => failure

/-- The text of an authorization failure. -/
def authorizationText (typeName fieldName : String) : String :=
  s!"The field '{typeName}.{fieldName}' is not available without authentication"

/-- The full message, with the kind of the cause in front and every context
    behind it. -/
def message : Failure → String
  | .schema text => s!"Schema: {text}"
  | .authorization typeName fieldName => authorizationText typeName fieldName
  | .policy text => s!"Policy: {text}"
  | .validation text => s!"Validation: {text}"
  | .inContext context cause => s!"{cause.message} ({context})"

/-- The message that may be shown to the caller. -/
def userMessage : Failure → String
  | .schema text => text
  | .authorization typeName fieldName => authorizationText typeName fieldName
  | .policy text => text
  | .validation text => text
  | .inContext context cause =>
      if cause.root.kind = .authorization then cause.userMessage
      else s!"{cause.userMessage}: {context}"

/-! ### Causes -/

/-- A node selects nothing of any type. -/
def noTypeSelected (nodeName : String) : Failure :=
  .schema s!"No type selected for '{nodeName}'"

/-- A node selects from a type that does not exist. -/
def unknownType (typeName : String) : Failure :=
  .schema s!"The type '{typeName}' is unknown"

/-- All rows of a type are asked for that may be reached by relations only. -/
def rootAggregation (typeName : String) : Failure :=
  .policy s!"The type '{typeName}' cannot be accessed by a root level aggregation"

/-- A node selects no field of its type. -/
def noFieldsSelected (typeName : String) : Failure :=
  .schema s!"No fields selected for '{typeName}'"

/-- A type does not have a field. -/
def unknownField (typeName fieldName : String) : Failure :=
  .schema s!"The field '{typeName}.{fieldName}' is not available"

/-- A field has no column to compare or to sort by. -/
def notAColumn (typeName fieldName : String) : Failure :=
  .schema s!"The field '{typeName}.{fieldName}' cannot be used to filter or order"

/-- A field uses a relation that does not exist. -/
def unknownRelation (relationName typeName fieldName : String) : Failure :=
  .schema s!"The relation '{relationName}' of '{typeName}.{fieldName}' is unknown"

/-- A relation has no side on the table of a field. -/
def noSide (relationName tableName : String) : Failure :=
  .schema s!"The relation '{relationName}' has no side for '{tableName}'"

/-- A relation stores its link in no column. -/
def noLinkColumn (relationName typeName fieldName : String) : Failure :=
  .schema s!"The relation '{relationName}' has no column to match '{typeName}.{fieldName}'"

/-- A type has no column of the name that its rows are matched by. -/
def noMatchColumn (typeName columnName : String) : Failure :=
  .schema s!"The type '{typeName}' has no column '{columnName}' to match on"

/-- The filter is no object. -/
def filterNotObject : Failure :=
  .validation "'where' must be an object"

/-- A condition is a list. -/
def conditionIsList (fieldName : String) : Failure :=
  .validation s!"Use the 'in' operator to match '{fieldName}' against a list"

/-- The operand of an operator is no scalar. -/
def operandNotScalar (operator fieldName : String) : Failure :=
  .validation s!"'{operator}' for '{fieldName}' expects a scalar value"

/-- The operand of `in` is no list, or an empty one. -/
def operandNotList (fieldName : String) : Failure :=
  .validation s!"'in' for '{fieldName}' expects a non-empty list"

/-- The operand of `isNull` is no truth value. -/
def operandNotFlag (fieldName : String) : Failure :=
  .validation s!"'isNull' for '{fieldName}' expects a boolean"

/-- There is no such operator. -/
def unknownOperator (operator fieldName : String) : Failure :=
  .validation s!"Unknown operator '{operator}' for '{fieldName}'"

/-- The sort is neither a text nor a list of texts. -/
def sortNotText : Failure :=
  .validation "'orderBy' must be a string or a list of strings"

/-- A page bound is no whole number, or a negative one. -/
def notACount (argument : String) : Failure :=
  .validation s!"'{argument}' must be a non-negative integer"

/-- There is no such mutation. -/
def unknownMutation (mutationName : String) : Failure :=
  .schema s!"The mutation '{mutationName}' is unknown"

/-- A mutation changes a type that does not exist. -/
def unknownMutationType (typeName mutationName : String) : Failure :=
  .schema s!"The type '{typeName}' of mutation '{mutationName}' is unknown"

/-- A mutation is of a kind that is not known. -/
def unsupportedMutation (mutationName : String) : Failure :=
  .policy s!"The mutation '{mutationName}' is of an unsupported type"

/-- A field cannot be written. -/
def fieldNotSettable (typeName fieldName mutationName : String) : Failure :=
  .schema s!"The field '{typeName}.{fieldName}' cannot be set by '{mutationName}'"

/-- A row is to be added without any value. -/
def noInput (mutationName : String) : Failure :=
  .validation s!"The mutation '{mutationName}' requires at least one input field"

/-- A row is to be changed, and no value is given. -/
def noChange (mutationName : String) : Failure :=
  .validation s!"The mutation '{mutationName}' requires at least one field to update"

/-- A mutation does not say which row it means. -/
def noIdentifier (mutationName fieldName : String) : Failure :=
  .validation s!"The mutation '{mutationName}' requires '{fieldName}'"

/-- The relation through which a nested part was reached. -/
def relationContext (typeName fieldName : String) : String :=
  s!"while resolving '{typeName}.{fieldName}'"

end Failure

end ViewCompiler
