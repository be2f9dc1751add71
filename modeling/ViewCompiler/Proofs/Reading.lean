import ViewCompiler.Proofs.Rendering

/-!
# Reading Statements

A reader of statements, which takes the text and the parameters of a tree and
returns the tree.

A reader has two things in front of it, the rest of the text and the values of
the placeholders in it (`Unread`). At every point the next few characters say
what comes next, so it never has to try one thing and go back. It only has to
know where something ends. A name ends at a quote that is not doubled, a
placeholder with its digits, and an element type, which can be anything else, at
the next bracket. A list ends where no comma follows, and a clause is missing if
the word it starts with is.

Trees nest to any depth, so the readers of trees carry a bound on the depth that
is left. The length of the text is always enough.

## Main definitions

* `Reader`: Takes something off the front of what is unread.
* `Reader.word`, `Reader.name`, `Reader.value`: The smallest readers.
* `Reader.clause`, `Reader.list`: Readers of optional parts and of lists.
* `Reader.column`, `Reader.predicate`, `Reader.select`: The readers of trees.
* `readAll`: Reading a text to its end.
-/

namespace ViewCompiler

namespace Sql

/-- What is left to be read: the text, and the values of its placeholders. -/
structure Unread where
  text : List Char
  values : List Param

/-- A reader takes something off the front of what is unread, or fails. -/
abbrev Reader (α : Type) := StateT Unread Option α

namespace Reader

/-! ### Words, names and values -/

/-- Reads the given word. -/
def word (w : String) : Reader Unit := fun unread =>
  (w.toList.isPrefixOf? unread.text).map fun rest => ((), { unread with text := rest })

/-- Reads the given word if it is there, and says whether it was. -/
def tryWord (w : String) : Reader Bool := fun unread =>
  match w.toList.isPrefixOf? unread.text with
  | some rest => some (true, { unread with text := rest })
  | none => some (false, unread)

/-- The next character, which stays unread. -/
def peek : Reader (Option Char) := fun unread => some (unread.text.head?, unread)

/-- Whether the given word is next. It stays unread. -/
def isNext (w : String) : Reader Bool := fun unread =>
  some (w.toList.isPrefixOf unread.text, unread)

/-- The content of a name behind its first quote, and the text behind its last.
    The flag says whether a quote was read that is the last one unless another
    follows. -/
def unquote : (pending : Bool) → List Char → Option (List Char × List Char)
  | false, [] => none
  | true, [] => some ([], [])
  | false, c :: rest =>
      if c = '"' then unquote true rest else (unquote false rest).map fun r => (c :: r.1, r.2)
  | true, c :: rest =>
      if c = '"' then (unquote false rest).map fun r => ('"' :: r.1, r.2) else some ([], c :: rest)

/-- Reads a name. -/
def name : Reader String := fun unread =>
  match unread.text with
  | '"' :: rest =>
      (unquote false rest).map fun r => (String.ofList r.1, { unread with text := r.2 })
  | _ => none

/-- Reads a placeholder, which stands for the next value. -/
def value : Reader Param := fun unread =>
  match unread.text, unread.values with
  | '$' :: rest, p :: values => some (p, ⟨rest.dropWhile Char.isDigit, values⟩)
  | _, _ => none

/-- Reads the placeholder of a page bound. -/
def bound : Reader Int := do
  match ← value with
  | .int8 n => return n
  | .text _ => failure

/-- Reads an element type, which goes on to the next bracket. -/
def elementType : Reader String := fun unread =>
  some (String.ofList (unread.text.takeWhile (· != '[')),
    { unread with text := unread.text.dropWhile (· != '[') })

/-! ### Optional parts and lists -/

/-- Reads what stands behind the given word, if the word is there. -/
def clause {α : Type} (w : String) (part : Reader α) : Reader (Option α) := do
  if ← tryWord w then return some (← part) else return none

/-- Reads one or more items, at most as many as the bound. -/
def items {α : Type} (item : Reader α) : Nat → Reader (List α)
  | 0 => failure
  | k + 1 => do
      let first ← item
      if ← tryWord ", " then return first :: (← items item k) else return [first]

/-- Reads any number of items. There are none if what a list stands in goes on
    or ends at once. -/
def list {α : Type} (item : Reader α) (k : Nat) : Reader (List α) := do
  match ← peek with
  | none => return []
  | some c => if c = ' ' ∨ c = ')' then return [] else items item k

/-! ### Trees -/

/-- All ways of comparing two columns. -/
def comparisons : List Comparison := [.eq, .neq, .lt, .lte, .gt, .gte, .contains]

/-- Reads the sign of one of the given comparisons. -/
def sign : List Comparison → Reader Comparison
  | [] => failure
  | op :: ops => do
      if ← tryWord (" " ++ op.sign ++ " ") then return op else sign ops

/-- Reads a predicate that starts with a column. -/
def test (column : Reader Column) (k : Nat) : Reader Predicate := do
  let c ← column
  if ← tryWord " IN (" then
    let es ← list column k
    word ")"
    return .isIn c es
  else if ← tryWord " IS NULL" then return .isNull c
  else if ← tryWord " IS NOT NULL" then return .isNotNull c
  else
    let op ← sign comparisons
    return .compare op c (← column)

/-- Reads a column of a select. -/
def item (column : Reader Column) : Reader SelectItem := do
  let c ← column
  return ⟨c, ← clause " AS " name⟩

/-- Reads a source. -/
def source (select : Reader Select) : Reader Source := do
  if ← tryWord "(" then
    let s ← select
    word ")"
    word " AS "
    return .subSelect s (← name)
  else
    let schemaName ← name
    word "."
    let viewName ← name
    word " AS "
    return .view ⟨schemaName, viewName⟩ (← name)

/-- Reads a sort column. -/
def orderTerm (column : Reader Column) : Reader OrderTerm := do
  let c ← column
  if ← tryWord " ASC" then return ⟨c, .asc⟩
  else
    word " DESC"
    return ⟨c, .desc⟩

mutual
/-- Reads a column that nests no deeper than the bound. -/
def column : Nat → Reader Column
  | 0 => failure
  | k + 1 => do
      match ← peek with
      | some '"' =>
          let tableAlias ← name
          word "."
          return .physical tableAlias (← name)
      | some '$' => return .param (← value)
      | some 'r' =>
          word "row_to_json("
          let tableAlias ← name
          word ")"
          return .rowToJson tableAlias
      | some 'C' =>
          word "COALESCE(json_agg("
          let c ← column k
          word "), '[]'::json)"
          return .jsonAgg c
      | some '(' =>
          word "("
          let s ← select k
          word ")"
          return .subSelect s
      | some 'A' =>
          word "ARRAY["
          let c ← column k
          word "]::"
          let t ← elementType
          word "[]"
          return .array c t
      | some 'N' =>
          word "NULL"
          return .null
      | _ => failure
/-- Reads a predicate that nests no deeper than the bound. A parenthesis opens a
    conjunction, unless it opens a select that is a column. -/
def predicate : Nat → Reader Predicate
  | 0 => failure
  | k + 1 => do
      match ← peek with
      | some 'T' =>
          word "TRUE"
          return .always
      | some 'F' =>
          word "FALSE"
          return .never
      | some '(' =>
          if ← isNext "(SELECT " then test (column k) k
          else
            word "("
            let l ← predicate k
            word " AND "
            let r ← predicate k
            word ")"
            return .and l r
      | _ => test (column k) k
/-- Reads a query that nests no deeper than the bound. -/
def select : Nat → Reader Select
  | 0 => failure
  | k + 1 => do
      word "SELECT "
      let columns ← list (item (column k)) k
      let from? ← clause " FROM " (source (select k))
      let where? ← clause " WHERE " (predicate k)
      let orderBy ← clause " ORDER BY " (list (orderTerm (column k)) k)
      let limit ← clause " LIMIT " bound
      let offset ← clause " OFFSET " bound
      return ⟨columns, from?, where?.getD .always, orderBy, limit, offset⟩
end

end Reader

/-- Reads a text to its end, with as many values as it has placeholders. -/
def readAll {α : Type} (reader : Nat → Reader α) (sql : String) (values : List Param) :
    Option α :=
  match reader sql.length ⟨sql.toList, values⟩ with
  | some (a, ⟨[], []⟩) => some a
  | _ => none

end Sql

end ViewCompiler
