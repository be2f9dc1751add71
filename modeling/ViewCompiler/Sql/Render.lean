import ViewCompiler.Sql.Tree
import ViewCompiler.Sql.Draft

/-!
# Rendering SQL Trees

The pieces of every kind of tree.

A column of a source is written with the alias of the source, except inside a
statement that changes data, where there is only one source and it has no
alias. Which of the two it is comes down the tree as `qualified`, through
nested queries as well.

## Main definitions

* `Column.pieces`, `Predicate.pieces`, `Select.pieces` and their companions:
  The pieces of a tree.
* `Draft.appendWith`, `Draft.unqualified`: Adding trees to a draft.
* `Select.render`, `Statement.render`: The finished statement.
-/

namespace ViewCompiler

namespace Sql

/-- The sign of a comparison. -/
def Comparison.sign : Comparison → String
  | .eq => "="
  | .neq => "<>"
  | .lt => "<"
  | .lte => "<="
  | .gt => ">"
  | .gte => ">="
  | .contains => "@>"

/-- The word of a direction. -/
def Direction.word : Direction → String
  | .asc => "ASC"
  | .desc => "DESC"

/-- The pieces of a view's name. -/
def ViewName.pieces (v : ViewName) : List Piece :=
  [.name v.schemaName, .text ".", .name v.name]

/-- The pieces of a column of a source. -/
def physicalPieces (qualified : Bool) (tableAlias name : String) : List Piece :=
  if qualified then [.name tableAlias, .text ".", .name name] else [.name name]

/-- The pieces that name the result of a column. -/
def aliasPieces : Option String → List Piece
  | none => []
  | some a => [.text " AS ", .name a]

/-- The pieces of a bound on the number of rows. -/
def limitPieces (n : Int) : List Piece :=
  [.text "LIMIT ", .bind (.int8 n)]

/-- The pieces of a number of rows to skip. -/
def offsetPieces (n : Int) : List Piece :=
  [.text "OFFSET ", .bind (.int8 n)]

/-- The pieces of a clause, with a blank in front. -/
def clausePieces : Option (List Piece) → List Piece
  | none => []
  | some ps => .text " " :: ps

/-- The pieces of a condition clause, which is left out if every row
    satisfies the condition. -/
def wherePieces (isAlways : Bool) (condition : List Piece) : List Piece :=
  if isAlways then [] else .text " WHERE " :: condition

mutual
/-- The pieces of a column. -/
def Column.pieces (qualified : Bool) : Column → List Piece
  | .physical tableAlias name => physicalPieces qualified tableAlias name
  | .param p => [.bind p]
  | .rowToJson tableAlias => [.text "row_to_json(", .name tableAlias, .text ")"]
  | .jsonAgg c => .text "COALESCE(json_agg(" :: (c.pieces qualified ++ [.text "), '[]'::json)"])
  | .subSelect s => .text "(" :: (s.pieces qualified ++ [.text ")"])
  | .array c elementType =>
      .text "ARRAY[" :: (c.pieces qualified ++ [.text "]::", .text elementType, .text "[]"])
  | .null => [.text "NULL"]
/-- The pieces of each column of a list. -/
def Column.portions (qualified : Bool) : List Column → List (List Piece)
  | [] => []
  | c :: cs => c.pieces qualified :: Column.portions qualified cs
/-- The pieces of a predicate. -/
def Predicate.pieces (qualified : Bool) : Predicate → List Piece
  | .always => [.text "TRUE"]
  | .never => [.text "FALSE"]
  | .compare op l r =>
      l.pieces qualified ++ .text (" " ++ op.sign ++ " ") :: r.pieces qualified
  | .isIn c es =>
      c.pieces qualified ++
        .text " IN (" :: (separated ", " (Column.portions qualified es) ++ [.text ")"])
  | .isNull c => c.pieces qualified ++ [.text " IS NULL"]
  | .isNotNull c => c.pieces qualified ++ [.text " IS NOT NULL"]
  | .and l r =>
      .text "(" :: (l.pieces qualified ++ .text " AND " :: (r.pieces qualified ++ [.text ")"]))
/-- The pieces of a column of a select. -/
def SelectItem.pieces (qualified : Bool) : SelectItem → List Piece
  | ⟨c, a⟩ => c.pieces qualified ++ aliasPieces a
/-- The pieces of each column of a select. -/
def SelectItem.portions (qualified : Bool) : List SelectItem → List (List Piece)
  | [] => []
  | i :: is => i.pieces qualified :: SelectItem.portions qualified is
/-- The pieces of a source. -/
def Source.pieces (qualified : Bool) : Source → List Piece
  | .view v a => v.pieces ++ aliasPieces (some a)
  | .subSelect s a => .text "(" :: (s.pieces qualified ++ .text ")" :: aliasPieces (some a))
/-- The pieces of a sort column. -/
def OrderTerm.pieces (qualified : Bool) : OrderTerm → List Piece
  | ⟨c, d⟩ => c.pieces qualified ++ [.text (" " ++ d.word)]
/-- The pieces of each sort column. -/
def OrderTerm.portions (qualified : Bool) : List OrderTerm → List (List Piece)
  | [] => []
  | t :: ts => t.pieces qualified :: OrderTerm.portions qualified ts
/-- The pieces of a query. -/
def Select.pieces (qualified : Bool) : Select → List Piece
  | ⟨columns, source, predicate, orderBy, limit, offset⟩ =>
      .text "SELECT " :: (separated ", " (SelectItem.portions qualified columns) ++
        (match source with
          | none => []
          | some s => .text " FROM " :: s.pieces qualified) ++
        wherePieces predicate.isAlways (predicate.pieces qualified) ++
        (match orderBy with
          | none => []
          | some ts =>
              .text " " :: .text "ORDER BY " :: separated ", " (OrderTerm.portions qualified ts)) ++
        clausePieces (limit.map limitPieces) ++ clausePieces (offset.map offsetPieces))
end

/-- The pieces of a sort. -/
def orderByPieces (qualified : Bool) (terms : List OrderTerm) : List Piece :=
  .text "ORDER BY " :: separated ", " (OrderTerm.portions qualified terms)

/-- The pieces of a statement that adds a row. -/
def Insert.pieces (i : Insert) : List Piece :=
  .text "INSERT INTO " :: (i.view.pieces ++
    .text " (" :: (separated ", " (i.columns.map fun c => [.name c]) ++
    .text ") VALUES (" :: (separated ", " (Column.portions false i.values) ++ [.text ")"])))

/-- The pieces of a statement that changes rows. -/
def Update.pieces (u : Update) : List Piece :=
  .text "UPDATE " :: (u.view.pieces ++
    .text " SET " :: (separated ", " (u.assignments.map fun a =>
        .name a.1 :: .text " = " :: a.2.pieces false) ++
      wherePieces u.predicate.isAlways (u.predicate.pieces false)))

/-- The pieces of a statement that removes rows. -/
def Delete.pieces (d : Delete) : List Piece :=
  .text "DELETE FROM " :: (d.view.pieces ++
    wherePieces d.predicate.isAlways (d.predicate.pieces false))

/-- The pieces of a statement that changes data. -/
def Statement.pieces : Statement → List Piece
  | .insert i => i.pieces
  | .update u => u.pieces
  | .delete d => d.pieces

namespace Draft

/-- A draft with more pieces, which may depend on how columns are written. -/
def appendWith (d : Draft) (pieces : (qualified : Bool) → List Piece) : Draft :=
  d.append (pieces d.qualified)

/-- A draft to which `write` adds while columns are written without the alias
    of their source; afterwards they are written as before. -/
def unqualified (d : Draft) (write : Draft → Draft) : Draft :=
  { write { d with qualified := false } with qualified := d.qualified }

end Draft

/-- A query as text and parameters. -/
def Select.render (s : Select) : Draft :=
  Draft.ofPieces (s.pieces true)

/-- A statement that changes data as text and parameters. -/
def Statement.render (s : Statement) : Draft :=
  Draft.ofPieces s.pieces

end Sql

end ViewCompiler
