import ApiTypings.Description
import ApiTypings.Failure
import ApiTypings.Naming
import ApiTypings.Text.Blank
import ApiTypings.Text.Quoted
import ApiTypings.Text.Split
import ApiTypings.Version

/-! Templates of a caller's own. What compiles them is a parameter of whatever loads them, since the
language they are written in is no part of this library. One engine is given here, for templates of
literal text with places where a value of the API is put in. It refuses statements, comments,
filters and all other expressions, and fields that hold more than a text. -/

namespace ApiTypings

/-- What templates are filled in for: an API, and whether its version is the preferred one. -/
structure TemplateContext where
  api : Description
  preferred : Bool

/-- A compiled template: its text for an API, or why it cannot be rendered. -/
abbrev TemplateProgram := TemplateContext → Except Cause String

/-- What makes a program of the text of a template, unless the text is none. -/
abbrev TemplateEngine := List Char → Except Cause TemplateProgram

/-- A value that a template may ask for. -/
inductive TemplateValue where
  | field (name : String)
  | packageName
  | packageVersion
  | preferred
deriving DecidableEq, Repr

inductive TemplatePiece where
  | text (content : String)
  | value (asked : TemplateValue)
  /-- A name in what a field of the API holds, but the API has no such field. -/
  | beyond (field : String)
deriving DecidableEq, Repr

namespace TemplateContext

/-- The text for a value that is missing. -/
def missing : String := "None"

def orMissing (s : Option String) : String := s.getD missing

def packageVersion (c : TemplateContext) : String := orMissing (Version.package? c.api.version)

def labelsText (labels : List String) : String :=
  "[" ++ ", ".intercalate (labels.map Text.quoted) ++ "]"

/-- The text of a field of the description; a name that is no field has none. -/
def fieldText (api : Description) : String → String
  | "kind" => orMissing api.kind
  | "discoveryVersion" => orMissing api.discoveryVersion
  | "id" => orMissing api.id
  | "name" => api.name
  | "version" => api.version
  | "revision" => orMissing api.revision
  | "title" => orMissing api.title
  | "description" => orMissing api.description
  | "ownerDomain" => orMissing api.ownerDomain
  | "ownerName" => orMissing api.ownerName
  | "documentationLink" => orMissing api.documentationLink
  | "protocol" => orMissing api.protocol
  | "rootUrl" => orMissing api.rootUrl
  | "servicePath" => orMissing api.servicePath
  | "baseUrl" => orMissing api.baseUrl
  | "batchPath" => orMissing api.batchPath
  | "labels" => orMissing (api.labels.map labelsText)
  | _ => ""

def valueText (c : TemplateContext) : TemplateValue → String
  | .field name => fieldText c.api name
  | .packageName => Naming.packageName c.api.name
  | .packageVersion => c.packageVersion
  | .preferred => if c.preferred then "True" else "False"

/-- A field that the API does not have can be put in, and is empty. Nothing can be in it. -/
def pieceText (c : TemplateContext) : TemplatePiece → Except Cause String
  | .text content => .ok content
  | .value asked => .ok (c.valueText asked)
  | .beyond field => .error ⟨.undefinedName,
      "'discotyper.discovery.models.RestDescription object' has no attribute " ++
        Text.quoted field⟩

/-- The pieces with their values. The first one that cannot be rendered stops it. -/
def fill (c : TemplateContext) (pieces : List TemplatePiece) : Except Cause String :=
  (pieces.mapM c.pieceText).map String.join

end TemplateContext

namespace TemplatePiece

/-- Fields that are put in as they are. -/
def textFields : List String :=
  ["kind", "discoveryVersion", "id", "name", "version", "revision", "title", "description",
    "ownerDomain", "ownerName", "documentationLink", "protocol", "rootUrl", "servicePath",
    "baseUrl", "batchPath", "labels"]

/-- Fields in which there are records. -/
def recordFields : List String := ["parameters", "auth", "schemas", "methods", "resources"]

/-- Letters, digits and underscores, and no digit in front. -/
def isName (name : List Char) : Bool :=
  !(name.headD '0').isDigit && name.all fun c => c.isAlphanum || c == '_'

/-- The piece that names with points between them stand for. -/
def ofNames? : List String → Option TemplatePiece
  | ["typings_name"] => some (.value .packageName)
  | ["package_version"] => some (.value .packageVersion)
  | ["actual_version"] => some (.value .preferred)
  | ["api", field] => if recordFields.contains field then none else some (.value (.field field))
  | "api" :: field :: _ =>
    if (textFields ++ recordFields).contains field then none else some (.beyond field)
  | _ => none

/-- The piece that is written between braces. -/
def ofExpression? (written : List Char) : Option TemplatePiece :=
  let names := Text.split '.' (Text.trim written)
  if names.all isName then ofNames? (names.map String.ofList) else none

/-- What stands before the first two closing braces, and what follows them. -/
def splitClosing : List Char → Option (List Char × List Char)
  | '\x7d' :: '\x7d' :: rest => some ([], rest)
  | c :: rest => (splitClosing rest).map fun (inside, after) => (c :: inside, after)
  | [] => none

/-- Literal text, written last character first, before other pieces. -/
def afterText (written : List Char) (pieces : List TemplatePiece) : List TemplatePiece :=
  if written.isEmpty then pieces else .text (String.ofList written.reverse) :: pieces

/-- The pieces of a text, unless there is something else in it. Every step takes a character, so
that the length is enough fuel. -/
def readFrom : Nat → List Char → List Char → Option (List TemplatePiece)
  | 0, written, _ => some (afterText written [])
  | _, written, [] => some (afterText written [])
  | _, _, '\x7b' :: '%' :: _ => none
  | _, _, '\x7b' :: '#' :: _ => none
  | fuel + 1, written, '\x7b' :: '\x7b' :: rest => do
    let (inside, after) ← splitClosing rest
    let piece ← ofExpression? inside
    return afterText written (piece :: (← readFrom fuel [] after))
  | fuel + 1, written, c :: rest => readFrom fuel (c :: written) rest

def ofText? (text : List Char) : Option (List TemplatePiece) := readFrom (text.length + 1) [] text

/-- The engine for templates of literal text and values. -/
def engine : TemplateEngine := fun text =>
  match ofText? text with
  | some pieces => .ok fun c => c.fill pieces
  | none => .error ⟨.unsupported, "The template is more than literal text and values"⟩

end TemplatePiece

end ApiTypings
