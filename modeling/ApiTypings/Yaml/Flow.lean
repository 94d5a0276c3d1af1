import ApiTypings.Yaml.Quoted
import ApiTypings.Yaml.Scalar

/-! Values in brackets. Lines and indentation mean nothing within them. -/

namespace ApiTypings.Yaml

/-- Leaves out spaces, line ends and comments. A comment starts behind a space, a line end or a
bracket. -/
def skipFlow : Nat → List Char → List Char
  | 0, cs => cs
  | fuel + 1, cs =>
    match cs with
    | ' ' :: rest | '\n' :: rest => skipFlow fuel rest
    | '#' :: rest => skipFlow fuel (rest.dropWhile (· != '\n'))
    | _ => cs

/-- Characters that cannot start a plain scalar. -/
def startIndicators : List Char :=
  [',', '[', ']', '\x7b', '\x7d', '#', '&', '*', '!', '|', '>', '\'', '"', '%', '@', '\x60']

/-- A dash, a question mark or a colon starts a plain scalar only before something else. -/
def startsPlain (cs : List Char) : Bool :=
  match cs with
  | [] => false
  | c :: rest =>
    if c == '-' || c == '?' || c == ':' then (rest.head?.map fun d => !isBlank d).getD false
    else !isBlank c && !startIndicators.contains c

def isFlowMark (c : Char) : Bool := [',', '[', ']', '\x7b', '\x7d', '?'].contains c

/-- Does a colon before these characters end a scalar in brackets? -/
def endsFlowKey (rest : List Char) : Bool :=
  match rest with
  | [] => true
  | c :: _ => isBlank c || [',', '[', ']', '\x7b', '\x7d'].contains c

/-- The characters of a plain scalar in brackets, and the rest. -/
def takeFlowPlain : List Char → List Char × List Char
  | [] => ([], [])
  | c :: rest =>
    if isFlowMark c || (c == ':' && endsFlowKey rest) then ([], c :: rest)
    else if isBlank c && (rest.dropWhile isBlank).head? == some '#' then ([], c :: rest)
    else
      let (taken, after) := takeFlowPlain rest
      (c :: taken, after)

def trimBlanks (cs : List Char) : List Char := Text.trimWhile isBlank cs

/-- Lines of a plain scalar as one. -/
def foldLines : Nat → List Char → List Char
  | 0, cs => cs
  | fuel + 1, cs =>
    match cs with
    | [] => []
    | c :: rest =>
      if isBlank c then
        let blanks := (c :: rest).takeWhile isBlank
        foldBlanks blanks ++ foldLines fuel ((c :: rest).drop blanks.length)
      else c :: foldLines fuel rest

def flowPlain (cs : List Char) : Except SyntaxFault (Yaml × List Char) :=
  if startsPlain cs then
    let (taken, rest) := takeFlowPlain cs
    if taken.contains '\t' then .error .tab
    else .ok (ofPlain (foldLines taken.length (trimBlanks taken)), rest)
  else match cs with
    | [] => .error .unclosedBracket
    | '\t' :: _ => .error .tab
    | c :: _ => .error (.unexpected c)

mutual

/-- The value that starts here. -/
def flowValue : Nat → List Char → Except SyntaxFault (Yaml × List Char)
  | 0, _ => .error .unclosedBracket
  | fuel + 1, cs =>
    match cs with
    | '[' :: rest => flowItems fuel [] (skipFlow rest.length rest)
    | '\x7b' :: rest => flowMembers fuel [] (skipFlow rest.length rest)
    | _ =>
      match readQuoted? cs with
      | some (.ok (text, rest)) => .ok (.string (String.ofList text), rest)
      | some (.error e) => .error e
      | none => flowPlain cs

/-- The value behind a colon; nothing before a comma or a closing bracket is null. -/
def flowMember : Nat → List Char → Except SyntaxFault (Yaml × List Char)
  | 0, _ => .error .unclosedBracket
  | fuel + 1, cs =>
    let inside := skipFlow cs.length cs
    match inside with
    | ',' :: _ | ']' :: _ | '\x7d' :: _ => .ok (.null, inside)
    | _ => flowValue fuel inside

/-- Items up to the closing bracket. A key and a value among them are a mapping of one entry. -/
def flowItems : Nat → List Yaml → List Char → Except SyntaxFault (Yaml × List Char)
  | 0, _, _ => .error .unclosedBracket
  | _, read, ']' :: rest => .ok (.list read.reverse, rest)
  | fuel + 1, read, cs => do
    let (key, afterKey) ← flowValue fuel cs
    let (item, afterItem) ←
      match skipFlow afterKey.length afterKey with
      | ':' :: rest => do
        let (value, after) ← flowMember fuel rest
        pure (Yaml.map [(key, value)], after)
      | after => pure (key, after)
    match skipFlow afterItem.length afterItem with
    | ',' :: rest => flowItems fuel (item :: read) (skipFlow rest.length rest)
    | ']' :: rest => return (.list (item :: read).reverse, rest)
    | _ => throw .unclosedBracket

/-- Entries up to the closing brace. A key without a value has the value null. -/
def flowMembers : Nat → List (Yaml × Yaml) → List Char → Except SyntaxFault (Yaml × List Char)
  | 0, _, _ => .error .unclosedBracket
  | _, read, '\x7d' :: rest => .ok (.map read.reverse, rest)
  | fuel + 1, read, cs => do
    let (key, afterKey) ← flowValue fuel cs
    let (value, afterValue) ←
      match skipFlow afterKey.length afterKey with
      | ':' :: rest => flowMember fuel rest
      | after => pure (Yaml.null, after)
    match skipFlow afterValue.length afterValue with
    | ',' :: rest => flowMembers fuel ((key, value) :: read) (skipFlow rest.length rest)
    | '\x7d' :: rest => return (.map ((key, value) :: read).reverse, rest)
    | _ => throw .unclosedBracket

end

end ApiTypings.Yaml
