import ApiTypings.Proofs.StubWriting
import Mathlib.Data.Finset.Card
import Mathlib.Data.Finset.Dedup
import Mathlib.Data.List.Forall2

/-! # The names of open blocks

A run of nested blocks is read twice. Its events take the guard along, one after the other; and in
the tree each event lies inside certain blocks. The guard has the names that no block has closed
since they were last entered, and a block closes its name for the blocks around it as well. So these
are the names of the open blocks just as long as no block is opened inside another of its name. -/

namespace ApiTypings.Guard

/-! ## The guard along events -/

/-- What an event does to the guard. -/
def on (guard : Guard) : Event → Guard
  | .entered name => guard.enter name
  | .left name | .failed name => guard.leave name
  | .escaped => guard

@[simp] theorem on_entered (guard : Guard) (name : String) :
    guard.on (.entered name) = guard.enter name := rfl

def after (guard : Guard) (events : List Event) : Guard := events.foldl on guard

/-- Each event with the guard after it. -/
def along (guard : Guard) : List Event → List (Event × Guard)
  | [] => []
  | event :: rest => (event, guard.on event) :: along (guard.on event) rest

section
variable {guard here : Guard} {events later : List Event} {event : Event}

@[simp] theorem after_nil : guard.after [] = guard := rfl

@[simp] theorem after_cons : guard.after (event :: events) = (guard.on event).after events := rfl

@[simp] theorem after_append :
    guard.after (events ++ later) = (guard.after events).after later := List.foldl_append

@[simp] theorem along_append :
    guard.along (events ++ later) = guard.along events ++ (guard.after events).along later := by
  induction events generalizing guard with
  | nil => rfl
  | cons event events ih => simp only [List.cons_append, along, after_cons, ih]

@[simp] theorem map_fst_along : (guard.along events).map (·.1) = events := by
  induction events generalizing guard with
  | nil => rfl
  | cons event events ih => simp only [along, List.map_cons, ih]

/-- The guard at an event is the one after all events up to it. -/
theorem eq_after_of_along {before rest : List (Event × Guard)}
    (h : guard.along events = before ++ (event, here) :: rest) :
    here = guard.after (before.map (·.1) ++ [event]) := by
  induction before generalizing guard events with
  | nil =>
    cases events with
    | nil => cases h
    | cons first events =>
      simp only [along, List.nil_append, List.cons.injEq, Prod.mk.injEq] at h
      obtain ⟨⟨rfl, rfl⟩, -⟩ := h
      rfl
  | cons point before ih =>
    cases events with
    | nil => cases h
    | cons first events =>
      simp only [along, List.cons_append, List.cons.injEq] at h
      obtain ⟨rfl, h⟩ := h
      exact ih h

end

/-! ## Names entered last -/

section
variable {guard : Guard} {events : List Event} {event : Event} {name other : String}

theorem mem_enter : other ∈ (guard.enter name).names ↔ other = name ∨ other ∈ guard.names := by
  unfold enter contains
  split
  next h =>
    have hn : name ∈ guard.names := by simpa using h
    constructor
    · exact .inr
    · rintro (rfl | hm)
      · exact hn
      · exact hm
  next => simp

theorem mem_leave : other ∈ (guard.leave name).names ↔ other ∈ guard.names ∧ other ≠ name := by
  simp [leave]

theorem nodup_on (h : guard.names.Nodup) (event : Event) : (guard.on event).names.Nodup := by
  cases event with
  | entered name =>
    by_cases hn : name ∈ guard.names
    · simpa [on, enter, contains, hn] using h
    · rw [on, names_enter hn]
      exact List.nodup_cons.mpr ⟨hn, h⟩
  | left name => exact h.filter _
  | failed name => exact h.filter _
  | escaped => exact h

theorem nodup_after (h : guard.names.Nodup) (events : List Event) :
    (guard.after events).names.Nodup := by
  induction events generalizing guard with
  | nil => exact h
  | cons event events ih => exact ih (nodup_on h event)

/-- The name was entered, and no block of this name was left since. -/
def EnteredLast (name : String) (events : List Event) : Prop :=
  ∃ earlier since, events = earlier ++ .entered name :: since ∧
    .left name ∉ since ∧ .failed name ∉ since

theorem not_enteredLast_nil : ¬EnteredLast name [] := by
  rintro ⟨earlier, since, h, -⟩
  simp at h

theorem enteredLast_concat : EnteredLast name (events ++ [event]) ↔
    event = .entered name ∨
      EnteredLast name events ∧ event ≠ .left name ∧ event ≠ .failed name := by
  constructor
  · rintro ⟨earlier, since, h, hleft, hfailed⟩
    cases since using List.reverseRecOn with
    | nil => exact .inl (List.singleton_inj.mp (List.append_inj' h rfl).2)
    | append_singleton since last =>
      right
      rw [← List.cons_append, ← List.append_assoc] at h
      obtain ⟨rfl, hlast⟩ := List.append_inj' h rfl
      obtain rfl := List.singleton_inj.mp hlast
      simp only [List.mem_append, List.mem_singleton, not_or] at hleft hfailed
      exact ⟨⟨earlier, since, rfl, hleft.1, hfailed.1⟩, Ne.symm hleft.2, Ne.symm hfailed.2⟩
  · rintro (rfl | ⟨⟨earlier, since, rfl, hleft, hfailed⟩, hl, hf⟩)
    · exact ⟨events, [], rfl, List.not_mem_nil, List.not_mem_nil⟩
    · refine ⟨earlier, since ++ [event], by simp, ?_, ?_⟩
      · simp [hleft, Ne.symm hl]
      · simp [hfailed, Ne.symm hf]

theorem mem_after_iff : name ∈ (empty.after events).names ↔ EnteredLast name events := by
  induction events using List.reverseRecOn with
  | nil => simp [after, empty, not_enteredLast_nil]
  | append_singleton events event ih =>
    rw [enteredLast_concat, ← ih, after_append]
    cases event with
    | entered other => simp [after, on, mem_enter, eq_comm]
    | left other => simp [after, on, mem_leave, eq_comm]
    | failed other => simp [after, on, mem_leave, eq_comm]
    | escaped => simp [after, on]

end

/-! ## Moments of a run -/

/-- How the block of a name ends. -/
def Event.ending (name : String) (raised : Bool) : Event :=
  if raised then .failed name else .left name

@[simp] theorem on_ending (guard : Guard) (name : String) (raised : Bool) :
    guard.on (.ending name raised) = guard.leave name := by
  cases raised <;> rfl

/-- An event, and the names of the blocks that are open then, the innermost first. -/
abbrev Moment := Event × List String

/-- The moments of a block, with those of its body between the two of its own. -/
def block (blocks : List String) (name : String) (inside : List Moment) (raised : Bool) :
    List Moment :=
  (.entered name, name :: blocks) :: inside ++ [(.ending name raised, blocks)]

mutual

/-- The moments of an action inside some blocks, and whether something raised gets out of it. -/
def Action.moments (blocks : List String) : Action → List Moment × Bool
  | .raise => ([], true)
  | .enter name body catches =>
    let inside := Action.allMoments (name :: blocks) body
    (block blocks name inside.1 inside.2, inside.2 && !catches)

def Action.allMoments (blocks : List String) : List Action → List Moment × Bool
  | [] => ([], false)
  | action :: rest =>
    let first := action.moments blocks
    if first.2 then first
    else
      let others := Action.allMoments blocks rest
      (first.1 ++ others.1, others.2)

end

/-- The moments of a whole run. -/
def moments (actions : List Action) : List Moment :=
  let inside := Action.allMoments [] actions
  inside.1 ++ if inside.2 then [(.escaped, [])] else []

def eventsOf (moments : List Moment) : List Event := moments.map (·.1)

@[simp] theorem eventsOf_nil : eventsOf [] = [] := rfl

@[simp] theorem eventsOf_cons (moment : Moment) (rest : List Moment) :
    eventsOf (moment :: rest) = moment.1 :: eventsOf rest := rfl

@[simp] theorem eventsOf_append (xs ys : List Moment) :
    eventsOf (xs ++ ys) = eventsOf xs ++ eventsOf ys := List.map_append

/-! ## Runs through moments -/

/-- The run after some moments, at the end of which something may be on its way out. -/
def Run.through (run : Run) (moments : List Moment) (raised : Bool) : Run :=
  ⟨run.guard.after (eventsOf moments), run.events ++ run.guard.along (eventsOf moments), raised⟩

theorem Run.through_through (run : Run) (xs ys : List Moment) (raised escaped : Bool) :
    (run.through xs raised).through ys escaped = run.through (xs ++ ys) escaped := by
  simp [Run.through, eventsOf]

mutual

/-- An action takes the run through its moments, whatever blocks it stands in. -/
theorem step_eq (action : Action) (blocks : List String) (run : Run) (h : run.raised = false) :
    step run action = run.through (action.moments blocks).1 (action.moments blocks).2 := by
  cases action with
  | raise => simp [step, Action.moments, Run.through, eventsOf, after, along]
  | enter name body catches =>
    have hbody := steps_eq body (name :: blocks)
      (Run.note { run with guard := run.guard.enter name } (.entered name)) h
    simp only [step, hbody, Action.moments]
    cases (Action.allMoments (name :: blocks) body).2 <;>
      simp [block, Event.ending, Run.through, Run.note, along, on]

theorem steps_eq (actions : List Action) (blocks : List String) (run : Run)
    (h : run.raised = false) :
    steps run actions =
      run.through (Action.allMoments blocks actions).1 (Action.allMoments blocks actions).2 := by
  cases actions with
  | nil => simp [steps, Action.allMoments, Run.through, eventsOf, after, along, ← h]
  | cons action rest =>
    rw [steps, step_eq action blocks run h, Action.allMoments]
    cases hr : (action.moments blocks).2 with
    | true => simp [Run.through, hr]
    | false =>
      have hrest := steps_eq rest blocks (run.through (action.moments blocks).1 false) rfl
      rw [Run.through_through] at hrest
      exact hrest

end

theorem trace_eq (actions : List Action) :
    trace actions = empty.along (eventsOf (moments actions)) := by
  have h := steps_eq actions [] ⟨empty, [], false⟩ rfl
  unfold trace moments
  rw [h]
  cases hr : (Action.allMoments [] actions).2 <;>
    simp [hr, Run.through, Run.note, eventsOf, along, on]

/-! ## Guards that hold the open blocks -/

/-- The guard has the names of the blocks, and counts each name once. -/
structure Holds (guard : Guard) (blocks : List String) : Prop where
  contains_iff : ∀ name, guard.contains name ↔ name ∈ blocks
  size_eq : guard.size = blocks.toFinset.card

theorem holds_of_nodup {blocks : List String} (h : blocks.Nodup) : Holds ⟨blocks⟩ blocks where
  contains_iff name := by simp [contains]
  size_eq := (List.toFinset_card_of_nodup h).symm

/-- A guard that a name was left in has none of the blocks of this name. -/
theorem not_mem_of_holds_leave {guard : Guard} {name : String} {blocks : List String}
    (h : (guard.leave name).Holds blocks) : name ∉ blocks := by
  rw [← h.contains_iff name]
  simp [contains, leave]

/-- At each of the moments the guard has just the names of the open blocks. -/
def HoldsAlong (guard : Guard) : List Moment → Prop
  | [] => True
  | (event, blocks) :: rest => (guard.on event).Holds blocks ∧ HoldsAlong (guard.on event) rest

/-- No name is open twice at any of the moments. -/
def OpenOnce (moments : List Moment) : Prop := ∀ moment ∈ moments, moment.2.Nodup

section
variable {guard : Guard} {xs ys : List Moment}

theorem holdsAlong_append : HoldsAlong guard (xs ++ ys) ↔
    HoldsAlong guard xs ∧ HoldsAlong (guard.after (eventsOf xs)) ys := by
  induction xs generalizing guard with
  | nil => simp [HoldsAlong, eventsOf, after]
  | cons moment xs ih => simp [HoldsAlong, ih, eventsOf, and_assoc]

theorem forall₂_along_iff : List.Forall₂ (fun point moment => point.1 = moment.1 ∧
    point.2.Holds moment.2) (guard.along (eventsOf xs)) xs ↔ HoldsAlong guard xs := by
  induction xs generalizing guard with
  | nil => simp [HoldsAlong, eventsOf, along]
  | cons moment xs ih =>
    rw [HoldsAlong, ← ih]
    simp [eventsOf, along]

theorem openOnce_append : OpenOnce (xs ++ ys) ↔ OpenOnce xs ∧ OpenOnce ys :=
  List.forall_mem_append

end

/-- Inside these blocks, whose names it has, the guard has the names of the open blocks at each of
the moments exactly if none is open twice, and is then given back as it was. -/
def Keeps (blocks : List String) (moments : List Moment) : Prop :=
  (HoldsAlong ⟨blocks⟩ moments ↔ OpenOnce moments) ∧
    (OpenOnce moments → (⟨blocks⟩ : Guard).after (eventsOf moments) = ⟨blocks⟩)

section
variable {blocks : List String} {name : String} {inside xs ys : List Moment}

theorem keeps_nil : Keeps blocks [] := by simp [Keeps, HoldsAlong, OpenOnce, eventsOf, after]

theorem Keeps.append (hx : Keeps blocks xs) (hy : Keeps blocks ys) : Keeps blocks (xs ++ ys) := by
  obtain ⟨hxiff, hxback⟩ := hx
  obtain ⟨hyiff, hyback⟩ := hy
  rw [Keeps, holdsAlong_append, openOnce_append, eventsOf_append, after_append, hxiff]
  constructor
  · refine and_congr_right fun ho => ?_
    rw [hxback ho, hyiff]
  · intro ho
    rw [hxback ho.1, hyback ho.2]

theorem holdsAlong_block {guard : Guard} {raised : Bool} :
    HoldsAlong guard (block blocks name inside raised) ↔
      ((guard.enter name).Holds (name :: blocks) ∧ HoldsAlong (guard.enter name) inside) ∧
        (((guard.enter name).after (eventsOf inside)).leave name).Holds blocks := by
  simp [block, holdsAlong_append, HoldsAlong, and_assoc]

theorem openOnce_block {raised : Bool} : OpenOnce (block blocks name inside raised) ↔
    ((name :: blocks).Nodup ∧ OpenOnce inside) ∧ blocks.Nodup := by
  rw [block, openOnce_append]
  simp [OpenOnce]

theorem after_block {guard : Guard} {raised : Bool} :
    guard.after (eventsOf (block blocks name inside raised)) =
      ((guard.enter name).after (eventsOf inside)).leave name := by
  simp [block]

/-- A block of a new name keeps what its body keeps with the name added. -/
theorem Keeps.block (h : blocks.Nodup) (hn : name ∉ blocks) (hi : Keeps (name :: blocks) inside)
    (raised : Bool) : Keeps blocks (block blocks name inside raised) := by
  obtain ⟨hiff, hback⟩ := hi
  have henter : (⟨blocks⟩ : Guard).enter name = ⟨name :: blocks⟩ := by
    simp [enter, contains, hn]
  have hleave : (⟨name :: blocks⟩ : Guard).leave name = ⟨blocks⟩ := by
    rw [← henter, leave_enter hn]
  have hd : (name :: blocks).Nodup := List.nodup_cons.mpr ⟨hn, h⟩
  constructor
  · rw [holdsAlong_block, openOnce_block, henter, hiff]
    constructor
    · intro hl
      exact ⟨⟨hd, hl.1.2⟩, h⟩
    · intro ho
      rw [hback ho.1.2, hleave]
      exact ⟨⟨holds_of_nodup hd, ho.1.2⟩, holds_of_nodup h⟩
  · intro ho
    rw [openOnce_block] at ho
    rw [after_block, henter, hback ho.1.2, hleave]

/-- The end of a block takes its name from the guard, also where a block around has it open. -/
theorem keeps_block_of_mem (hn : name ∈ blocks) (raised : Bool) :
    Keeps blocks (block blocks name inside raised) := by
  have honce : ¬OpenOnce (block blocks name inside raised) := by
    rw [openOnce_block]
    exact fun ho => (List.nodup_cons.mp ho.1.1).1 hn
  refine ⟨?_, fun ho => absurd ho honce⟩
  rw [holdsAlong_block]
  exact ⟨fun hl => absurd hn (not_mem_of_holds_leave hl.2), fun ho => absurd ho honce⟩

end

mutual

theorem Action.keeps (action : Action) {blocks : List String} (h : blocks.Nodup) :
    Keeps blocks (action.moments blocks).1 := by
  cases action with
  | raise => exact keeps_nil
  | enter name body catches =>
    by_cases hn : name ∈ blocks
    · exact keeps_block_of_mem hn _
    · have hbody := Action.allKeep body (List.nodup_cons.mpr ⟨hn, h⟩)
      exact hbody.block h hn _

theorem Action.allKeep (actions : List Action) {blocks : List String} (h : blocks.Nodup) :
    Keeps blocks (Action.allMoments blocks actions).1 := by
  cases actions with
  | nil => exact keeps_nil
  | cons action rest =>
    rw [Action.allMoments]
    split
    · exact action.keeps h
    · exact (action.keeps h).append (Action.allKeep rest h)

end

/-! ## Whole runs -/

theorem holdsAlong_moments_iff (actions : List Action) :
    HoldsAlong empty (moments actions) ↔ OpenOnce (moments actions) := by
  have hend : Keeps [] [(.escaped, [])] := by
    refine ⟨?_, fun _ => rfl⟩
    simp [HoldsAlong, OpenOnce, on, holds_of_nodup List.nodup_nil]
  have hinside := Action.allKeep actions List.nodup_nil
  dsimp only [moments]
  split
  · exact (hinside.append hend).1
  · exact (hinside.append keeps_nil).1

/-- A run notes the events of its tree. At each of them the guard has, once each, the names that no
block of theirs, be it an inner one, has closed since they were last entered. These are the names of
the open blocks at every event exactly if no name is open twice at any. -/
theorem holds_open_blocks_iff (actions : List Action) :
    (trace actions).map (·.1) = eventsOf (moments actions) ∧
    (∀ before event guard rest, trace actions = before ++ (event, guard) :: rest →
      (∀ name, guard.contains name ↔ EnteredLast name (before.map (·.1) ++ [event])) ∧
        guard.size = guard.names.toFinset.card) ∧
    (List.Forall₂ (fun point moment => point.1 = moment.1 ∧ point.2.Holds moment.2)
      (trace actions) (moments actions) ↔ OpenOnce (moments actions)) := by
  rw [trace_eq]
  refine ⟨map_fst_along, fun before event guard rest h => ?_, ?_⟩
  · obtain rfl := eq_after_of_along h
    have hd : (empty.after (before.map (·.1) ++ [event])).names.Nodup := nodup_after .nil _
    refine ⟨fun name => ?_, (List.toFinset_card_of_nodup hd).symm⟩
    rw [← mem_after_iff]
    simp [contains]
  · rw [forall₂_along_iff]
    exact holdsAlong_moments_iff actions

namespace Twice

/-- A node inside itself. -/
def nodes : List Action := [.enter "Node" [.enter "Node" [] false] false]

/-- Where the inner block is left, the outer one is still open, and its name is not in the guard. -/
theorem outer_node_closed :
    (trace nodes)[2]? = some (.left "Node", ⟨[]⟩) ∧
    (moments nodes)[2]? = some (.left "Node", ["Node"]) ∧ ¬Holds ⟨[]⟩ ["Node"] := by
  refine ⟨by decide, by decide, fun h => ?_⟩
  have hsize := h.size_eq
  contradiction

end Twice

end ApiTypings.Guard
