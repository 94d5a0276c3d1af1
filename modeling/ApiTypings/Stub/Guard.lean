/-! The guard: the names that are open while something nested is being expanded. -/

namespace ApiTypings

/-- The open names, each once. -/
structure Guard where
  names : List String
deriving DecidableEq, Repr

namespace Guard

def empty : Guard := ⟨[]⟩

def contains (guard : Guard) (name : String) : Bool := guard.names.contains name

def size (guard : Guard) : Nat := guard.names.length

/-- A name that is already open stays open once. -/
def enter (guard : Guard) (name : String) : Guard :=
  if guard.contains name then guard else ⟨name :: guard.names⟩

/-- The name is closed, however often it was entered. -/
def leave (guard : Guard) (name : String) : Guard := ⟨guard.names.filter (· != name)⟩

/-! ## Runs of nested blocks -/

/-- What happens inside a guard. -/
inductive Action where
  /-- A block in which the name is open. It may catch what is raised inside it. -/
  | enter (name : String) (body : List Action) (catches : Bool)
  | raise

/-- What an observer of a run is told. -/
inductive Event where
  | entered (name : String)
  | left (name : String)
  /-- The block of this name was left because something was raised inside it. -/
  | failed (name : String)
  /-- What was raised got out of every block. -/
  | escaped
deriving DecidableEq, Repr

def Event.text : Event → String
  | entered name => "enter " ++ name
  | left name => "leave " ++ name
  | failed name => "failed " ++ name
  | escaped => "failed"

/-- A run so far: the guard, the events with the guard at the time of each, and whether something
raised is still on its way out. -/
structure Run where
  guard : Guard
  events : List (Event × Guard)
  raised : Bool

def Run.note (run : Run) (event : Event) : Run :=
  { run with events := run.events ++ [(event, run.guard)] }

mutual

/-- One action. A block closes its name on every way out. -/
def step (run : Run) : Action → Run
  | .raise => { run with raised := true }
  | .enter name body catches =>
    let inside := steps ({ run with guard := run.guard.enter name }.note (.entered name)) body
    let outside := { inside with guard := inside.guard.leave name }
    if outside.raised then { outside.note (.failed name) with raised := !catches }
    else outside.note (.left name)

/-- Actions in order, up to the first that raises. -/
def steps (run : Run) : List Action → Run
  | [] => run
  | action :: rest =>
    let next := step run action
    if next.raised then next else steps next rest

end

/-- The events of a whole run. -/
def trace (actions : List Action) : List (Event × Guard) :=
  let run := steps ⟨empty, [], false⟩ actions
  (if run.raised then run.note .escaped else run).events

end Guard

end ApiTypings
