import ApiTypings.Text.CodeRange

/-! White space. Two sets are in use and neither holds the other: the blanks that trimming removes,
and the irregular spaces that a doc comment shows as plain ones. -/

namespace ApiTypings.Text

/-- The white space of Unicode and the four separators U+001C to U+001F. -/
def blankRanges : List CodeRange :=
  [(0x09, 0x0D), (0x1C, 0x20), (0x85, 0x85), (0xA0, 0xA0), (0x1680, 0x1680), (0x2000, 0x200A),
   (0x2028, 0x2029), (0x202F, 0x202F), (0x205F, 0x205F), (0x3000, 0x3000)]

def isBlank (c : Char) : Bool := inRanges blankRanges c

/-- Spaces other than U+0020. Beside the blanks among them there are three that are no white
space: the vowel separator U+180E, the zero width space U+200B and the byte order mark U+FEFF. -/
def irregularSpaceRanges : List CodeRange :=
  [(0x0B, 0x0C), (0x85, 0x85), (0xA0, 0xA0), (0x1680, 0x1680), (0x180E, 0x180E),
   (0x2000, 0x200B), (0x2028, 0x2029), (0x202F, 0x202F), (0x205F, 0x205F), (0x3000, 0x3000),
   (0xFEFF, 0xFEFF)]

def isIrregularSpace (c : Char) : Bool := inRanges irregularSpaceRanges c

/-- Without the characters at the end that satisfy `p`. -/
def dropEndWhile (p : Char → Bool) (cs : List Char) : List Char :=
  (cs.reverse.dropWhile p).reverse

/-- Without the characters at both ends that satisfy `p`. -/
def trimWhile (p : Char → Bool) (cs : List Char) : List Char := dropEndWhile p (cs.dropWhile p)

/-- Without the blanks at both ends. -/
def trim (cs : List Char) : List Char := trimWhile isBlank cs

end ApiTypings.Text
