import ApiTypings.Code.Basic
import ApiTypings.DocComment
import ApiTypings.Naming

/-! The TypeScript constructs that typings are made of. -/

namespace ApiTypings

/-- What stands where a type is expected. -/
inductive Operand (ε : Type) where
  /-- A type on one line. -/
  | inline (text : String)
  /-- A type that takes several lines. -/
  | block (code : Code ε)
  /-- No type: the faults of writing it as a type, and as the type of a property. -/
  | unwritable (asType asProperty : ε)

/-- Why something that is no type is refused. -/
inductive OperandFault where
  | notType (kind : String)
  | notPropertyType (kind : String)
deriving DecidableEq, Repr

def OperandFault.message : OperandFault → String
  | notType kind => "Cannot write " ++ kind ++ " as a type"
  | notPropertyType kind => "Cannot write property of type " ++ kind

namespace Code

variable {ε : Type}

def operand : Operand ε → Code ε
  | .inline s => text s
  | .block code => code
  | .unwritable asType _ => fail asType

/-! ## Blocks -/

/-- A body between braces, after a heading. -/
def braces (heading : String) (body : Code ε) : Code ε :=
  line (heading ++ " \x7b") ++ nest body ++ line "\x7d"

def namespaceBlock (name : String) (body : Code ε) : Code ε := braces ("namespace " ++ name) body

/-- A declared namespace stands after an empty line. -/
def declareNamespace (name : String) (body : Code ε) : Code ε :=
  line "" ++ braces ("declare namespace " ++ name) body

def interfaceBlock (name : String) (body : Code ε) : Code ε := braces ("interface " ++ name) body

/-- An object type without a name, written where the line stands. -/
def anonymousType (body : Code ε) : Code ε := endLine "\x7b" ++ nest body ++ beginLine "\x7d"

/-- A body between two tags; the line is not ended before the body, and the closing tag takes a
line of its own. -/
def scope (body : Code ε) (opening closing : String) : Code ε :=
  text opening ++ nest body ++ newLine ++ beginLine closing

/-! ## Lines of a declaration -/

def referenceTypes (name : String) : Code ε := line ("/// <reference types=\"" ++ name ++ "\" />")

/-- A member with its type. Something that is no type is refused before anything is written. -/
def property (name : String) (type : Operand ε) (required : Bool) : Code ε :=
  let head := Naming.memberName name ++ (if required then "" else "?") ++ ": "
  match type with
  | .inline s => line (head ++ s ++ ";")
  | .block code => beginLine head ++ code ++ endLine ";"
  | .unwritable _ asProperty => fail asProperty

/-- The last line of a comment, which may be left open. -/
def lastCommentLine (s : String) (closed : Bool) : Code ε := if closed then line s else beginLine s

/-- A doc comment on one line, or with every line on one of its own. A text without lines gives no
comment. -/
def comment (description : String) (closed : Bool) : Code ε :=
  match DocComment.lines description with
  | [] => nil
  | [single] => lastCommentLine ("/** " ++ single ++ " */") closed
  | lines =>
    line "/**" ++ all (lines.map fun s => line (if s.isEmpty then " *" else " * " ++ s)) ++
      lastCommentLine " */" closed

def comment? (description : Option String) : Code ε := comment (description.getD "") true

/-- The parameters of a signature, each on a line of its own unless the signature keeps to one. -/
def parameters (singleLine : Bool) : List (String × Operand ε) → Code ε
  | [] => nil
  | [(name, type)] => text (name ++ ": ") ++ operand type
  | (name, type) :: rest =>
    text (name ++ ": ") ++ operand type ++ text "," ++
      (if singleLine then text " " else beginNewLine "") ++ parameters singleLine rest

def method (name : String) (params : List (String × Operand ε)) (returnType : String)
    (singleLine : Bool) : Code ε :=
  beginLine (name ++ "(") ++ parameters singleLine params ++ text ("): " ++ returnType ++ ";") ++
    endLine ""

end Code

end ApiTypings
