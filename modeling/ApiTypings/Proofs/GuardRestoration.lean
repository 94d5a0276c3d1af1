import ApiTypings.Proofs.StubWriting
import Mathlib.Logic.Relation

/-! # The guard after a request

A generator is asked for the value of a schema, for that of a named schema or for properties, on any
page and with any names open. Leaving a name closes it however often it was entered, so the names
are as they were only because no open name is entered again; and a fault leaves the blocks of all
names it passes on its way out. One request gives the guard back, so any number of them do, those
that failed included. -/

namespace ApiTypings.Stub

open Synthesis

/-- What a generator can be asked to write. -/
inductive Request where
  | value (schema : Schema)
  | reference (name : String)
  | properties (listed : Entries Schema)

namespace Request

variable {table : SchemaTable}

def write (table : SchemaTable) : Request → Synthesis
  | value schema => writeValue table schema
  | reference name => writeRef table name
  | properties listed => writeProperties table listed

/-- The code that a request comes to below the names of a path, or its fault. -/
def outcome (table : SchemaTable) (path : List String) :
    Request → Except RenderFault (Code RenderFault)
  | value schema => (expand table path schema).map Value.code
  | reference name => (expandReference table path name).map Value.code
  | properties listed =>
    (Entries.collect ((Entries.sortByKey listed).mapValues (expand table path))).map
      Value.membersCode

theorem writes_outcome (table : SchemaTable) (request : Request) (path : List String) :
    Writes path (request.write table) (request.outcome table path) := by
  cases request with
  | value schema => exact writes_value table schema
  | reference name => exact writes_reference _ (table.unopened_le_length path) name
  | properties listed => exact writes_properties table listed

/-- A request ends, with or without a fault, and the guard is what it was. -/
theorem write_guard (table : SchemaTable) (request : Request) (session : Session) :
    ∃ page fault, request.write table session = some (⟨page, session.guard⟩, fault) := by
  have hw := request.writes_outcome table session.guard.names session rfl
  cases ho : request.outcome table session.guard.names with
  | error fault =>
    rw [ho] at hw
    obtain ⟨page, hw⟩ := hw
    exact ⟨page, some fault, hw⟩
  | ok code =>
    rw [ho] at hw
    obtain ⟨page, _, hw⟩ := hw
    exact ⟨page, none, hw⟩

/-- A request that is made on some page takes the guard from the first to the second. -/
def Takes (table : SchemaTable) (before after : Guard) : Prop :=
  ∃ (request : Request) (page : Page) (session : Session) (fault : Option RenderFault),
    request.write table ⟨page, before⟩ = some (session, fault) ∧ session.guard = after

theorem Takes.eq {before after : Guard} (h : Takes table before after) : after = before := by
  obtain ⟨request, page, session, fault, hw, rfl⟩ := h
  obtain ⟨_, _, hg⟩ := request.write_guard table ⟨page, before⟩
  rw [hg] at hw
  cases hw
  rfl

end Request

/-- Whatever a generator is asked for, on whatever page and with whatever names open, the request
ends with just these names open, with a fault or without. So after any requests, each on a page of
its own, a generator that had no open names has none. -/
theorem guard_restored (table : SchemaTable) :
    (∀ (request : Request) (session : Session), ∃ page fault,
      request.write table session = some (⟨page, session.guard⟩, fault)) ∧
    ∀ before after, Relation.ReflTransGen (Request.Takes table) before after → after = before := by
  refine ⟨Request.write_guard table, fun before after h => ?_⟩
  induction h with
  | refl => rfl
  | tail _ htakes ih => exact htakes.eq.trans ih

end ApiTypings.Stub
