import ApiTypings.Text.Blank

/-! # Reading types

The text of a type, read by the grammar of TypeScript as far as declarations go: names, arrays in
both spellings, alternatives, records and object types. A text that uses anything else is not read.
White space and comments stand between tokens and say nothing; brackets behind an operand bind
tighter than the bar between two. -/

namespace ApiTypings

/-! ## Names -/

/-- May the character stand in a name? Letters beyond ASCII are not told from other signs there, so
that every identifier is made of such characters. -/
def isNameChar (c : Char) : Bool :=
  c.isAlphanum || c == '_' || c == '$' ||
    (0x80 ≤ c.toNat && !Text.isBlank c && !Text.isIrregularSpace c)

def isIdentifier (name : String) : Bool :=
  match name.toList with
  | [] => false
  | c :: rest => !c.isDigit && (c :: rest).all isNameChar

theorem isNameChar_of_isIdentifier {name : String} (h : isIdentifier name) :
    ∃ c cs, name.toList = c :: cs ∧ ∀ d ∈ c :: cs, isNameChar d := by
  unfold isIdentifier at h
  split at h
  · cases h
  · rename_i c cs hname
    exact ⟨c, cs, hname, List.all_eq_true.mp (Bool.and_eq_true_iff.mp h).2⟩

/-- Words that name no type: a type that begins with one has another form, if there is one. -/
def reservedWords : List String :=
  ["await", "break", "case", "catch", "class", "const", "continue", "debugger", "default",
   "delete", "do", "else", "enum", "export", "extends", "finally", "for", "function", "if",
   "import", "in", "infer", "instanceof", "keyof", "new", "readonly", "return", "super", "switch",
   "throw", "try", "typeof", "unique", "var", "while", "with", "yield"]

def isTypeName (name : String) : Bool := isIdentifier name && !reservedWords.contains name

theorem isIdentifier_of_isTypeName {name : String} (h : isTypeName name) : isIdentifier name :=
  (Bool.and_eq_true_iff.mp h).1

/-! ## Tokens -/

inductive TypeToken where
  | word (name : String)
  | bar
  | question
  | colon
  | semicolon
  | comma
  | less
  | greater
  | leftParen
  | rightParen
  | leftBracket
  | rightBracket
  | leftBrace
  | rightBrace
  /-- A sign that no type is made of. -/
  | other (c : Char)
deriving DecidableEq, Repr

namespace TypeToken

def isSpace (c : Char) : Bool := c == ' ' || c == '\n' || c == '\t' || c == '\r'

def ofSign (c : Char) : TypeToken :=
  if c == '|' then bar
  else if c == '?' then question
  else if c == ':' then colon
  else if c == ';' then semicolon
  else if c == ',' then comma
  else if c == '<' then less
  else if c == '>' then greater
  else if c == '(' then leftParen
  else if c == ')' then rightParen
  else if c == '[' then leftBracket
  else if c == ']' then rightBracket
  else if c == '\x7b' then leftBrace
  else if c == '\x7d' then rightBrace
  else other c

/-- Where the next character stands. -/
inductive Place where
  | between
  /-- Behind the first characters of a word. -/
  | word (begun : List Char)
  /-- Behind a slash, which may open a comment. -/
  | slash
  | comment
  /-- In a comment, behind an asterisk, which may begin its end. -/
  | asterisk
deriving Repr

namespace Place

/-- A character that no word or comment takes in. -/
def start (c : Char) : List TypeToken × Place :=
  if isSpace c then ([], between)
  else if isNameChar c then ([], word [c])
  else if c == '/' then ([], slash)
  else ([ofSign c], between)

/-- The tokens that end with the character, and the place behind it. -/
def step : Place → Char → List TypeToken × Place
  | between, c => start c
  | word begun, c =>
    if isNameChar c then ([], word (begun ++ [c]))
    else (TypeToken.word (String.ofList begun) :: (start c).1, (start c).2)
  | slash, c => if c == '*' then ([], comment) else (other '/' :: (start c).1, (start c).2)
  | comment, c => ([], if c == '*' then asterisk else comment)
  | asterisk, c => ([], if c == '/' then between else if c == '*' then asterisk else comment)

/-- The tokens that the end of the text ends. A comment without an end is no comment. -/
def atEnd : Place → List TypeToken
  | between => []
  | word begun => [TypeToken.word (String.ofList begun)]
  | slash => [other '/']
  | comment | asterisk => [other '*']

/-- The tokens of a text from a place on. -/
def tokens : Place → List Char → List TypeToken
  | place, [] => place.atEnd
  | place, c :: rest => (place.step c).1 ++ (place.step c).2.tokens rest

end Place

end TypeToken

/-! ## Grammar -/

/-- What a member of an object type is for. -/
inductive MemberKey where
  | property (name : String) (required : Bool)
  /-- All properties that are not listed. -/
  | index
deriving DecidableEq, Repr

/-- A type as its text says it. -/
inductive TypeTerm where
  | name (name : String)
  | array (item : TypeTerm)
  | union (first second : TypeTerm)
  | record (value : TypeTerm)
  | object (members : List (MemberKey × TypeTerm))
deriving Repr

namespace TypeTerm

open TypeToken

/-- Each pair of brackets makes an array of what stands before it. -/
def readBrackets (item : TypeTerm) : List TypeToken → TypeTerm × List TypeToken
  | .leftBracket :: .rightBracket :: rest => readBrackets item.array rest
  | rest => (item, rest)

def readKey : List TypeToken → Option (MemberKey × List TypeToken)
  | .word key :: .question :: .colon :: rest =>
    if isIdentifier key then some (.property key false, rest) else none
  | .word key :: .colon :: rest =>
    if isIdentifier key then some (.property key true, rest) else none
  | .leftBracket :: .word _ :: .colon :: .word keys :: .rightBracket :: .colon :: rest =>
    if keys = "string" then some (.index, rest) else none
  | _ => none

/-- What has been read, if the token follows. -/
def before {α : Type} (token : TypeToken) :
    Option (α × List TypeToken) → Option (α × List TypeToken)
  | some (value, next :: rest) => if next = token then some (value, rest) else none
  | _ => none

/-! A call is allowed so many calls inside each other. Of any four one takes a token, so an
allowance of three for each token is never used up. -/

mutual

/-- One operand, or several with bars between them. -/
def readType : Nat → List TypeToken → Option (TypeTerm × List TypeToken)
  | 0, _ => none
  | fuel + 1, ts =>
    match readOperand fuel ts with
    | some (first, .bar :: rest) =>
      (readType fuel rest).map fun (others, rest) => (union first others, rest)
    | result => result

def readOperand : Nat → List TypeToken → Option (TypeTerm × List TypeToken)
  | 0, _ => none
  | fuel + 1, ts => (readPrimary fuel ts).map fun (item, rest) => readBrackets item rest

def readPrimary : Nat → List TypeToken → Option (TypeTerm × List TypeToken)
  | 0, _ => none
  | fuel + 1, .leftParen :: rest => before .rightParen (readType fuel rest)
  | fuel + 1, .leftBrace :: rest =>
    (readMembers fuel rest).map fun (members, rest) => (object members, rest)
  | fuel + 1, .word generic :: .less :: rest =>
    if generic = "Array" then
      (before .greater (readType fuel rest)).map fun (item, rest) => (array item, rest)
    else if generic = "Record" then
      match rest with
      | .word key :: .comma :: rest =>
        if key = "string" then
          (before .greater (readType fuel rest)).map fun (value, rest) => (record value, rest)
        else none
      | _ => none
    else none
  | _ + 1, .word simple :: rest => if isTypeName simple then some (.name simple, rest) else none
  | _ + 1, _ => none

def readMembers : Nat → List TypeToken → Option (List (MemberKey × TypeTerm) × List TypeToken)
  | 0, _ => none
  | _ + 1, .rightBrace :: rest => some ([], rest)
  | fuel + 1, ts => do
    let (key, rest) ← readKey ts
    let (type, rest) ← before .semicolon (readType fuel rest)
    let (members, rest) ← readMembers fuel rest
    return ((key, type) :: members, rest)

end

/-- The type that a text says, if the whole text is a type. -/
def ofText? (text : String) : Option TypeTerm :=
  let ts := Place.between.tokens text.toList
  match readType (3 * ts.length) ts with
  | some (type, []) => some type
  | _ => none

end TypeTerm

end ApiTypings
