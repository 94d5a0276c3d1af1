import ApiTypings.Proofs.FileTrees
import Mathlib.Data.List.Induction

/-! # A file appears as a whole

Chunks are gathered until a file is ended, and the end alone touches the tree. An end that fails
changes no file and keeps every chunk, so that a later one writes the whole text; and after an end
that succeeds the file is left alone. Others may change the tree between the calls, which is how an
end that has failed comes to succeed. All this is so on a medium that cuts no file off, whatever
else it refuses. -/

namespace ApiTypings

/-- The path leads to a file with this text. Apart from that file and from directories that were
made nothing has changed. -/
def Workspace.Gained (before after : Workspace) (path : Path) (text : String) : Prop :=
  ∃ l, after.locate path = .ok l ∧ before.Puts after l (Utf8.encode text)

namespace Workspace

variable {before mid after : Workspace} {path : Path} {text : String}

theorem Gained.of_extends (hm : before.Extends [] mid) (h : mid.Gained after path text) :
    before.Gained after path text := by
  obtain ⟨l, hl, hp⟩ := h
  exact ⟨l, hl, hp.content, hm.trans hp.others⟩

theorem Gained.read (h : before.Gained after path text) :
    after.read path = .ok (Utf8.encode text) := by
  obtain ⟨l, hl, hp⟩ := h
  rw [Workspace.read, hl]
  simp only [hp.content]

end Workspace

/-- A write that is not kept from beginning goes through. -/
def Medium.Atomic (medium : Medium) : Prop :=
  ∀ w path content fault taken, medium.writing w path content ≠ some (.cut fault taken)

namespace OutputFile

/-- What happens while a file is written. -/
inductive Event where
  | write (chunk : String)
  | finish
  /-- Others leave another tree. -/
  | change (w : Workspace)
deriving DecidableEq

/-- A file being written, and the tree as it stands. -/
structure Writing where
  workspace : Workspace
  file : OutputFile
deriving DecidableEq

namespace Writing

def start (w : Workspace) (path : Path) : Writing := ⟨w, .create path⟩

/-- What an event leaves, and the failure that answers it. -/
def perform (medium : Medium) (s : Writing) : Event → Writing × Option Failure
  | .write chunk =>
    match s.file.write chunk with
    | .ok file => ({ s with file }, none)
    | .error failure => (s, some failure)
  | .finish =>
    let (workspace, file, failure) := s.file.finish medium s.workspace
    (⟨workspace, file⟩, failure)
  | .change w => ({ s with workspace := w }, none)

def after (medium : Medium) (s : Writing) : List Event → Writing
  | [] => s
  | event :: rest => (s.perform medium event).1.after medium rest

/-- Each event with its answer. -/
def answers (medium : Medium) (s : Writing) : List Event → List (Event × Option Failure)
  | [] => []
  | event :: rest =>
    (event, (s.perform medium event).2) :: (s.perform medium event).1.answers medium rest

/-- The chunks of the writes that were answered without a failure. -/
def accepted (answers : List (Event × Option Failure)) : List String :=
  answers.filterMap fun
    | (.write chunk, none) => some chunk
    | _ => none

section
variable {medium : Medium} {s : Writing} {events : List Event} {event : Event}

@[simp] theorem after_concat : s.after medium (events ++ [event]) =
    ((s.after medium events).perform medium event).1 := by
  induction events generalizing s with
  | nil => rfl
  | cons first rest ih => exact ih

@[simp] theorem answers_concat : s.answers medium (events ++ [event]) =
    s.answers medium events ++ [(event, ((s.after medium events).perform medium event).2)] := by
  induction events generalizing s with
  | nil => rfl
  | cons first rest ih =>
    rw [List.cons_append, answers, ih]
    rfl

@[simp] theorem accepted_append (xs ys : List (Event × Option Failure)) :
    accepted (xs ++ ys) = accepted xs ++ accepted ys := List.filterMap_append

end

/-! ## One event -/

/-- What an event leaves of a file and the tree, and its answer. -/
inductive Step (s : Writing) : Event → Writing × Option Failure → Prop
  | accepted {chunk : String} : s.file.closed = false →
      Step s (.write chunk)
        (⟨s.workspace, { s.file with chunks := s.file.chunks ++ [chunk] }⟩, none)
  | refused {chunk : String} : s.file.closed = true →
      Step s (.write chunk)
        (s, some (.output s.file.path.text (some ⟨.invalidValue, "emitter is closed"⟩)))
  | saved {workspace : Workspace} : s.file.closed = false →
      s.workspace.Gained workspace s.file.path s.file.content →
      Step s .finish (⟨workspace, { s.file with closed := true }⟩, none)
  | failed {workspace : Workspace} {cause : Cause} : s.file.closed = false →
      s.workspace.Extends [] workspace →
      Step s .finish (⟨workspace, s.file⟩, some (.output s.file.path.text (some cause)))
  | again : s.file.closed = true → Step s .finish (s, none)
  | changed {w : Workspace} : Step s (.change w) (⟨w, s.file⟩, none)

section
variable {medium : Medium} (whole : medium.Atomic)
include whole

theorem save_atomic (w : Workspace) (path : Path) (text : String) (fault : DeviceFault)
    (taken : Nat) : (save medium w path text).2 ≠ some (.cut fault taken) := by
  unfold save
  generalize w.makeDirectories medium path.parent = outcome
  obtain ⟨made, _ | e⟩ := outcome
  · dsimp only
    unfold Workspace.write
    split
    · exact nofun
    · split
      · exact nofun
      · split
        · exact nofun
        · rintro ⟨⟩
        next hc => exact absurd hc (whole _ _ _ _ _)
  · exact nofun

theorem step_perform (s : Writing) (event : Event) : Step s event (s.perform medium event) := by
  cases event with
  | write chunk =>
    cases hc : s.file.closed with
    | false =>
      rw [perform, write, if_neg (by simp [hc])]
      exact .accepted hc
    | true =>
      rw [perform, write, if_pos hc]
      exact .refused hc
  | finish =>
    rw [perform]
    cases hc : s.file.closed with
    | true => simpa [finish, hc] using Step.again hc
    | false =>
      have hend := save_end medium s.workspace s.file.path s.file.content
      have hatomic := save_atomic whole s.workspace s.file.path s.file.content
      rw [finish, hc, if_neg Bool.false_ne_true]
      generalize save medium s.workspace s.file.path s.file.content = outcome at hend hatomic ⊢
      obtain ⟨left, e?⟩ := outcome
      cases hend with
      | whole hl hp => exact .saved hc ⟨_, hl, hp⟩
      | unopened he => exact .failed hc he
      | cut => exact absurd rfl (hatomic _ _)
  | change w => exact .changed

/-! ## Runs -/

variable (w : Workspace) (path : Path) (past : List Event)

/-- The file after any events: it has the chunks that were accepted, and is closed if an end was
answered without a failure. -/
theorem file_after (s : Writing) : (s.after medium past).file.path = s.file.path ∧
    (s.after medium past).file.chunks = s.file.chunks ++ accepted (s.answers medium past) ∧
    ((s.after medium past).file.closed = true ↔
      s.file.closed = true ∨ (.finish, none) ∈ s.answers medium past) := by
  induction past using List.reverseRecOn with
  | nil => simp [after, answers, accepted]
  | append_singleton past event ih =>
    obtain ⟨hpath, hchunks, hclosed⟩ := ih
    rw [after_concat, answers_concat, accepted_append, ← List.append_assoc, ← hchunks,
      List.mem_append, ← or_assoc, ← hclosed]
    generalize s.after medium past = t at *
    have hstep := step_perform whole t event
    generalize t.perform medium event = result at hstep ⊢
    cases hstep with
    | accepted hc => simp [accepted, hpath]
    | refused hc => simp [accepted, hpath]
    | saved hc _ => simp [accepted, hpath]
    | failed hc _ => simp [accepted, hpath, hc]
    | again hc => simp [accepted, hpath, hc]
    | changed => simp [accepted, hpath]

theorem file_of_start : ((start w path).after medium past).file.path = path ∧
    ((start w path).after medium past).file.chunks =
      accepted ((start w path).answers medium past) ∧
    (((start w path).after medium past).file.closed = true ↔
      (.finish, none) ∈ (start w path).answers medium past) := by
  simpa [start, create] using file_after whole past (start w path)

/-- As long as nobody else changes the tree, it gains the file at the first end that succeeds, and
nothing but directories before. -/
theorem tree_after (h : ∀ x, .change x ∉ past) :
    if ((start w path).after medium past).file.closed then
      w.Gained ((start w path).after medium past).workspace path
        ((start w path).after medium past).file.content
    else w.Extends [] ((start w path).after medium past).workspace := by
  induction past using List.reverseRecOn with
  | nil => exact .refl w
  | append_singleton past event ih =>
    have ih := ih fun x hx => h x (List.mem_append_left _ hx)
    have hchange := fun x => h x ∘ List.mem_append_right past
    have hpath := (file_of_start whole w path past).1
    rw [after_concat]
    generalize (start w path).after medium past = t at ih hpath ⊢
    have hstep := step_perform whole t event
    generalize t.perform medium event = result at hstep ⊢
    cases hstep with
    | accepted hc =>
      rw [hc] at ih
      simpa [hc] using ih
    | refused hc => exact ih
    | saved hc hg =>
      rw [hc, if_neg Bool.false_ne_true] at ih
      exact (hpath ▸ hg).of_extends ih
    | failed hc he =>
      rw [hc, if_neg Bool.false_ne_true] at ih
      simpa [hc] using ih.trans he
    | again hc => exact ih
    | changed => exact absurd (List.mem_singleton_self _) (hchange _)

end

/-- At any point of any run the file has the chunks that were accepted, and is closed exactly if an
end has succeeded. What happens next is one of six steps: an open file takes a chunk and the tree
stays; its end puts the whole text where the path leads, or fails and changes no file and no chunk;
a closed file refuses a chunk and ignores an end. So if nobody else has changed the tree, it has no
file that is new or different until an end succeeds, and the whole text in one from then on. -/
theorem file_appears_whole (medium : Medium) (whole : medium.Atomic) (w : Workspace) (path : Path)
    (past : List Event) (next : Event) :
    let told := (start w path).answers medium past
    let now := (start w path).after medium past
    now.file.path = path ∧ now.file.chunks = accepted told ∧
      (now.file.closed = true ↔ (.finish, none) ∈ told) ∧
      Step now next (now.perform medium next) ∧
      ((∀ x, .change x ∉ past) →
        if now.file.closed then w.Gained now.workspace path now.file.content
        else w.Extends [] now.workspace) := by
  obtain ⟨hpath, hchunks, hclosed⟩ := file_of_start whole w path past
  exact ⟨hpath, hchunks, hclosed, step_perform whole _ _, tree_after whole w path past⟩

def target : Path := ⟨"", ["out", "index.d.ts"]⟩

theorem later_chunk_left_out :
    let calls := [.write "export ", .write "\x7b\x7d", .finish, .write ";", .finish]
    Medium.lasting.Atomic ∧ (∀ x, Event.change x ∉ calls) ∧
      ((start ⟨.empty, []⟩ target).after .lasting calls).workspace.read target =
        .ok (Utf8.encode "export \x7b\x7d") := by
  intro calls
  have hwhole : Medium.lasting.Atomic := fun _ _ _ _ _ => nofun
  have hcalls : ∀ x, Event.change x ∉ calls := by simp [calls]
  obtain ⟨-, -, -, -, hgained⟩ :=
    file_appears_whole .lasting hwhole ⟨.empty, []⟩ target calls .finish
  exact ⟨hwhole, hcalls, (hgained hcalls).read⟩

/-- A file stands in the way of the directory until somebody removes it. -/
example :
    ((start ⟨⟨[(["out"], .file [])]⟩, []⟩ target).answers .lasting
      [.write "a", .finish, .write "b", .change ⟨.empty, []⟩, .finish, .write "c"]).map
        (·.2.isNone) = [true, false, true, true, true, false] := by decide

end Writing

end OutputFile

end ApiTypings
