/-!
# Blank Characters

The white space of Unicode, and its removal from both ends of a text.

## Main definitions

* `isBlank`: The characters with the property White_Space.
* `trim`: A text without the blanks at its two ends.
-/

namespace ViewCompiler

namespace Text

/-- The characters with the Unicode property White_Space. -/
def isBlank (c : Char) : Bool :=
  let code := c.toNat
  (0x9 ≤ code && code ≤ 0xd) || code == 0x20 || code == 0x85 || code == 0xa0 || code == 0x1680 ||
    (0x2000 ≤ code && code ≤ 0x200a) || code == 0x2028 || code == 0x2029 || code == 0x202f ||
    code == 0x205f || code == 0x3000

/-- The characters of a text without the blanks at its two ends. -/
def trim (chars : List Char) : List Char :=
  ((chars.dropWhile isBlank).reverse.dropWhile isBlank).reverse

end Text

end ViewCompiler
