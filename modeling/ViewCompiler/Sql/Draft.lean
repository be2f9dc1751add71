import ViewCompiler.Sql.Param

/-!
# Drafts of Statements

The text of a statement as it grows, together with the parameters that its
placeholders stand for.

What is added to a draft comes in pieces of three kinds: text that is part of
the language, names, and parameters. The number of a placeholder is not known
to the piece. It is the draft that numbers them, and so every tree can be
turned into pieces without regard to where it ends up.

A name is written between double quotes, with the quotes inside it doubled, so
no name can end early whatever it consists of.

## Main definitions

* `Piece`: Text, a name, or a parameter.
* `quoteName`: A name between its quotes.
* `Draft`: The text and parameters so far.
* `Draft.append`: A draft with more pieces.

## Theorems

* `Draft.append_append`: Pieces can be added in any portions.
-/

namespace ViewCompiler

namespace Sql

/-- A part of a statement. -/
inductive Piece where
  /-- Text that is part of the language. -/
  | text (s : String)
  /-- A name of the database or of the statement. -/
  | name (s : String)
  /-- A value that the statement is run with. -/
  | bind (p : Param)
deriving DecidableEq

/-- The characters of a name, with every quote doubled. -/
def doubleQuotes : List Char → List Char
  | [] => []
  | c :: rest => if c = '"' then '"' :: '"' :: doubleQuotes rest else c :: doubleQuotes rest

/-- A name between its quotes. -/
def quoteName (s : String) : String :=
  String.ofList ('"' :: (doubleQuotes s.toList ++ ['"']))

/-- The placeholder of a number. -/
def placeholder (n : Nat) : String :=
  String.ofList ('$' :: Nat.toDigits 10 n)

/-- Pieces with a text between each two portions. -/
def separated (separator : String) : List (List Piece) → List Piece
  | [] => []
  | [ps] => ps
  | ps :: qs :: rest => ps ++ .text separator :: separated separator (qs :: rest)

/-- The text and the parameters of a statement so far, and whether columns are
    written with the alias of their source. -/
structure Draft where
  sql : String
  params : List Param
  qualified : Bool
deriving DecidableEq

/-- The parameter of a piece, if it has one. -/
def Piece.param? : Piece → Option Param
  | .bind p => some p
  | _ => none

namespace Draft

/-- The draft to start from. -/
def empty : Draft := ⟨"", [], true⟩

/-- A draft with one more piece. -/
def push (d : Draft) : Piece → Draft
  | .text s => { d with sql := d.sql ++ s }
  | .name s => { d with sql := d.sql ++ quoteName s }
  | .bind p =>
      { d with sql := d.sql ++ placeholder (d.params.length + 1), params := d.params ++ [p] }

/-- A draft with more pieces. -/
def append (d : Draft) (pieces : List Piece) : Draft :=
  pieces.foldl push d

theorem append_append (d : Draft) (ps qs : List Piece) :
    d.append (ps ++ qs) = (d.append ps).append qs := by
  simp only [append, List.foldl_append]

/-- The text and parameters of pieces on their own. -/
def ofPieces (pieces : List Piece) : Draft :=
  empty.append pieces

end Draft

end Sql

end ViewCompiler
