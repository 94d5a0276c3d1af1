/-! What a run reports about itself. -/

namespace ApiTypings

inductive LogLevel where
  | debug
  | info
  | warning
deriving DecidableEq, Repr

def LogLevel.name : LogLevel → String
  | debug => "DEBUG"
  | info => "INFO"
  | warning => "WARNING"

/-- The part of the program that reports. -/
inductive LogOrigin where
  | generation
  | declarations
  | stub
  | output
  | loading
deriving DecidableEq, Repr

def LogOrigin.name : LogOrigin → String
  | generation => "discotyper.codegen.codegen"
  | declarations => "discotyper.codegen.declarations"
  | stub => "discotyper.codegen.stubs"
  | output => "discotyper.codegen.writer"
  | loading => "discotyper.discovery.loader"

structure LogRecord where
  level : LogLevel
  origin : LogOrigin
  message : String
deriving DecidableEq, Repr

namespace LogRecord

def debug (origin : LogOrigin) (message : String) : LogRecord := ⟨.debug, origin, message⟩

def info (message : String) : LogRecord := ⟨.info, .generation, message⟩

def warning (message : String) : LogRecord := ⟨.warning, .generation, message⟩

/-- Level and message. -/
def brief (r : LogRecord) : String := r.level.name ++ " " ++ r.message

/-- Level, origin and message. -/
def text (r : LogRecord) : String := r.level.name ++ " " ++ r.origin.name ++ ": " ++ r.message

end LogRecord

end ApiTypings
