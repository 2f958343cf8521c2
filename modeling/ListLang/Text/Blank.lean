import ListLang.Text.CodeRange

/-!
# Blanks

The characters that separate words and carry no meaning of their own: the
controls and spaces that the Unicode standard counts as white space, together
with the four information separators.

## Main definitions

* `isBlank`: Whether a character is a blank.
-/

namespace ListLang

/-- The code points of the blanks, ascending. -/
def blankRanges : List CodeRange :=
  [(0x09, 0x0d), (0x1c, 0x20), (0x85, 0x85), (0xa0, 0xa0), (0x1680, 0x1680), (0x2000, 0x200a),
   (0x2028, 0x2029), (0x202f, 0x202f), (0x205f, 0x205f), (0x3000, 0x3000)]

/-- Whether a character is a blank. The line break is one of them. -/
def isBlank (c : Char) : Bool :=
  CodeRange.covers blankRanges c.toNat

end ListLang
