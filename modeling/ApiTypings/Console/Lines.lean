import ApiTypings.Console.Markup
import ApiTypings.Text.Split

/-! The lines that a console shows of a marked up text. -/

namespace ApiTypings.Console

/-- The controls that a console leaves out: bell, backspace, vertical tab, form feed and carriage
return. -/
def isHiddenControl (c : Char) : Bool :=
  c.toNat = 7 || c.toNat = 8 || c.toNat = 11 || c.toNat = 12 || c.toNat = 13

/-- A tab goes on to the next multiple of eight columns. -/
def expandTabs (column : Nat) : List Char → List Char
  | [] => []
  | c :: rest =>
    if c == '\t' then
      let width := 8 - column % 8
      List.replicate width ' ' ++ expandTabs (column + width) rest
    else c :: expandTabs (column + 1) rest

/-- A line without what would not be seen at its end. -/
def lineText (cs : List Char) : String :=
  String.ofList (Text.dropEndWhile Text.isBlank (expandTabs 0 cs))

/-- The lines of a text, unless its tags are faulty. -/
def lines (text : String) : Except Markup.Fault (List String) :=
  match Markup.plain text.toList with
  | .ok shown => .ok ((Text.split '\n' (shown.filter (!isHiddenControl ·))).map lineText)
  | .error f => .error f

/-- The lines of texts up to the first faulty one. -/
def linesOf : List String → List String × Option Markup.Fault
  | [] => ([], none)
  | text :: rest =>
    match lines text with
    | .error f => ([], some f)
    | .ok shown =>
      let (others, fault) := linesOf rest
      (shown ++ others, fault)

end ApiTypings.Console
