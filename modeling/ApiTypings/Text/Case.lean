import ApiTypings.Text.CaseTable

/-! Full case mapping. Upper case may lengthen a character; lower case looks at its neighbours,
because a capital sigma at the end of a word has a form of its own. -/

namespace ApiTypings.Text

/-- The upper case of one character, which may be several. -/
def upper (c : Char) : List Char :=
  if c.toNat < 0x80 then [c.toUpper]
  else match upperExpansions.lookup c.toNat with
    | some cs => cs.map Char.ofNat
    | none => [applyRuns upperRuns c]

def isCased (c : Char) : Bool := inRanges casedRanges c

def isCaseIgnorable (c : Char) : Bool := inRanges caseIgnorableRanges c

/-- Does a cased character come first once case-ignorable ones are skipped? -/
def meetsCased (cs : List Char) : Bool :=
  match cs.dropWhile isCaseIgnorable with
  | [] => false
  | c :: _ => isCased c

/-- The lower case of one character between `before` (nearest first) and `after`. A capital sigma
that ends a word becomes the final form; a capital I with a dot keeps its dot. -/
def lowerBetween (before : List Char) (c : Char) (after : List Char) : List Char :=
  if c.toNat < 0x80 then [c.toLower]
  else if c == '\u03a3' then
    if meetsCased before && !meetsCased after then ['\u03c2'] else ['\u03c3']
  else if c == '\u0130' then ['i', '\u0307']
  else [applyRuns lowerRuns c]

/-- Lower case of `rest`, which follows `before` (nearest first). -/
def lowerAfter (before : List Char) : List Char → List Char
  | [] => []
  | c :: rest => lowerBetween before c rest ++ lowerAfter (c :: before) rest

def lower (s : String) : String := String.ofList (lowerAfter [] s.toList)

end ApiTypings.Text
