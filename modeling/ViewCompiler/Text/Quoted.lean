import ViewCompiler.Text.Printable

/-!
# Quoted Text

The form in which a text is shown to a person: between double quotes, with
escapes for whatever could be mistaken for something else.

## Main definitions

* `quoteChar`: How one character is written between the quotes.
* `quoted`: A text between double quotes.
-/

namespace ViewCompiler

namespace Text

/-- The digits of a number in base sixteen, in lower case and without leading
    zeros. -/
def hexDigits (n : Nat) : List Char :=
  Nat.toDigits 16 n

/-- How one character is written between the quotes: a short escape where
    there is one, itself if it is printable, and its code point otherwise. -/
def quoteChar (c : Char) : List Char :=
  if c = '\x00' then ['\\', '0']
  else if c = '\t' then ['\\', 't']
  else if c = '\r' then ['\\', 'r']
  else if c = '\n' then ['\\', 'n']
  else if c = '"' then ['\\', '"']
  else if c = '\\' then ['\\', '\\']
  else if isPrintable c then [c]
  else '\\' :: 'u' :: '\x7b' :: (hexDigits c.toNat ++ ['\x7d'])

/-- A text between double quotes. -/
def quoted (text : String) : String :=
  String.ofList ('"' :: (text.toList.flatMap quoteChar ++ ['"']))

end Text

end ViewCompiler
