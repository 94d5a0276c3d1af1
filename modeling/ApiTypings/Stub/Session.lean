import ApiTypings.Code.Typescript
import ApiTypings.Schema.Shape
import ApiTypings.Stub.Guard

/-! Sessions: writing onto a page while a guard keeps track of the schemas being expanded. A
synthesis is a step of a session. It may fail, and it has no result at all only where more
references are nested than it was allowed to open. -/

namespace ApiTypings

structure Session where
  page : Page
  guard : Guard
deriving DecidableEq

def Session.start : Session := ⟨Page.empty, Guard.empty⟩

/-- A step of a session: the session it leaves and the fault that cut it short, if one did. -/
abbrev Synthesis := Session → Option (Session × Option RenderFault)

namespace Synthesis

def emit (code : Code RenderFault) : Synthesis := fun session =>
  let (page, fault) := code.run session.page
  some ({ session with page := page }, fault)

def done : Synthesis := fun session => some (session, none)

def fail (fault : RenderFault) : Synthesis := fun session => some (session, some fault)

/-- The second step follows unless the first fails. -/
def andThen (first second : Synthesis) : Synthesis := fun session =>
  match first session with
  | some (session, none) => second session
  | stopped => stopped

def all (steps : List Synthesis) : Synthesis := steps.foldr andThen done

/-- A body one level deeper. A fault leaves the page at the level of the body. -/
def nested (body : Synthesis) : Synthesis := fun session =>
  match body { session with page := session.page.shift 1 } with
  | some (session, none) => some ({ session with page := session.page.shift (-1) }, none)
  | stopped => stopped

/-- A body during which the name is open. It is closed again on every way out. -/
def entering (name : String) (body : Synthesis) : Synthesis := fun session =>
  (body { session with guard := session.guard.enter name }).map fun (session, fault) =>
    ({ session with guard := session.guard.leave name }, fault)

/-- A body between two tags, as `Code.scope` writes one. -/
def scope (body : Synthesis) (opening closing : String) : Synthesis :=
  all [emit (.text opening), nested body, emit (.beginNewLine closing)]

/-- The session after a step that has a result. -/
def run (step : Synthesis) (session : Session) : Session × Option RenderFault :=
  (step session).getD (session, none)

end Synthesis

end ApiTypings
