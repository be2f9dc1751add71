import ViewCompiler.Json.Render
import ViewCompiler.Sql.Tree

/-!
# Literals

The values of a request as parameters of a statement.

A value is bound as text: a text as it is, and anything else as its JSON text,
which the database then reads as whatever it is compared with. Only `null` has
no text. In a condition it becomes the `NULL` of the language, so that the
comparison turns into a test; in a row that is written it becomes a parameter
without a text.

## Main definitions

* `boundText?`: The text of a value.
* `literal`: A value in a condition.
* `stored`: A value that is written to a row.
-/

namespace ViewCompiler

open Json Sql

/-- The text as which a value is bound, unless it is `null`. -/
def boundText? : Value → Option String
  | .null => none
  | .string s => some s
  | v => some v.compact

/-- A value in a condition. -/
def literal (v : Value) : Column :=
  match boundText? v with
  | none => .null
  | some s => .param (.text (some s))

/-- A value that is written to a row. -/
def stored (v : Value) : Column :=
  .param (.text (boundText? v))

end ViewCompiler
