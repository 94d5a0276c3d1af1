import ApiTypings.Schema.Shape

/-! What can go wrong in a run, with the text that reports it. -/

namespace ApiTypings

/-- The kind of a failure underneath: of a document's text, of the files, of the network or of a
template. -/
inductive CauseKind where
  | invalidValue
  | syntaxError
  | undecodable
  | fileNotFound
  | accessDenied
  | fileExists
  | notDirectory
  | isDirectory
  | device
  | httpStatus
  | connection
  | tooManyRedirects
  | badRedirect
  | invalidAddress
  | undefinedName
  /-- What is asked for is no part of this library. -/
  | unsupported
deriving DecidableEq, Repr

structure Cause where
  kind : CauseKind
  text : String
deriving DecidableEq, Repr

inductive Failure where
  | general (message : String)
  | render (fault : RenderFault)
  /-- A document could not be fetched or read. -/
  | load (source : String) (cause : Option Cause)
  /-- A document is JSON, but not of the form it should have. -/
  | invalidDocument (source : String) (errors : List String)
  | serviceNotFound (service : Option String)
  | configuration (message : String) (path field : Option String)
  | output (path : String) (cause : Option Cause)
  /-- A template cannot be rendered. The cause comes out as it is. -/
  | template (cause : Cause)
deriving DecidableEq, Repr

/-- The cause behind a colon, if there is one. -/
def Cause.suffix : Option Cause → String
  | some cause => ": " ++ cause.text
  | none => ""

def Failure.message : Failure → String
  | general message => message
  | render fault => fault.message
  | load source cause =>
    "Failed to load discovery document from '" ++ source ++ "'" ++ Cause.suffix cause
  | invalidDocument source errors =>
    "Discovery document validation failed for '" ++ source ++ "'" ++
      if errors.isEmpty then "" else ": " ++ "; ".intercalate errors
  | serviceNotFound service =>
    "Can't find services" ++
      match nonEmpty? service with
      | some service => " matching '" ++ service ++ "'"
      | none => ""
  | configuration message path field =>
    let place := match nonEmpty? path with
      | some path => " in '" ++ path ++ "'"
      | none => ""
    let part := match nonEmpty? field with
      | some field => " (field: " ++ field ++ ")"
      | none => ""
    message ++ place ++ part
  | output path cause => "Failed to write output to '" ++ path ++ "'" ++ Cause.suffix cause
  | template cause => cause.text

end ApiTypings
