import ApiTypings.Proofs.StubWriting

/-! # The synthesis of values ends

A step that may open only so many references inside each other has no result once it would open one
more. Every allowance that gives a result gives the same, and an allowance of as many references as
the table has names that are not open yet is never exceeded: the generator ends, with a value or a
fault, whatever circles the references of a table run in. -/

namespace ApiTypings

namespace Synthesis

/-- Where the first step has a result, the second has the same. -/
def Extends (a b : Synthesis) : Prop := ∀ session result, a session = some result →
  b session = some result

theorem Extends.refl (a : Synthesis) : Extends a a := fun _ _ h => h

theorem Extends.andThen {a a' b b' : Synthesis} (ha : Extends a a') (hb : Extends b b') :
    Extends (andThen a b) (andThen a' b') := by
  intro session result h
  simp only [Synthesis.andThen] at h ⊢
  cases hr : a session with
  | none => rw [hr] at h; cases h
  | some r =>
    rw [hr] at h
    rw [ha session r hr]
    obtain ⟨next, fault⟩ := r
    cases fault with
    | none => exact hb next result h
    | some fault => exact h

theorem Extends.nested {a b : Synthesis} (h : Extends a b) : Extends (nested a) (nested b) := by
  intro session result hr
  simp only [Synthesis.nested] at hr ⊢
  cases ha : a { session with page := session.page.shift 1 } with
  | none => rw [ha] at hr; cases hr
  | some r => rw [ha] at hr; rwa [h _ r ha]

theorem Extends.entering {a b : Synthesis} (name : String) (h : Extends a b) :
    Extends (entering name a) (entering name b) := by
  intro session result hr
  simp only [Synthesis.entering] at hr ⊢
  cases ha : a { session with guard := session.guard.enter name } with
  | none => rw [ha] at hr; cases hr
  | some r => rw [ha] at hr; rwa [h _ r ha]

theorem Extends.scope {a b : Synthesis} (h : Extends a b) (opening closing : String) :
    Extends (scope a opening closing) (scope b opening closing) := by
  simp only [Synthesis.scope, all, List.foldr, andThen_done]
  exact (Extends.refl _).andThen (h.nested.andThen (.refl _))

end Synthesis

namespace Stub

open Synthesis SchemaTable

variable {table : SchemaTable}

theorem extends_members {xs ys : Entries Synthesis} (h : Entries.InStep Extends xs ys) :
    Extends (writeMembers xs) (writeMembers ys) := by
  have hs := h.sortByKey
  unfold writeMembers
  generalize Entries.sortByKey xs = us, Entries.sortByKey ys = vs at hs
  induction hs using Entries.InStep.induct with
  | nil => exact .refl _
  | cons hab _ ih =>
    refine Extends.andThen ?_ ih
    simp only [all, List.foldr, andThen_done]
    exact (Extends.refl _).andThen (hab.andThen (.refl _))

/-- Larger allowances for references carry over to schemas. -/
theorem extends_schema {a b : String → Synthesis} (h : ∀ name, Extends (a name) (b name))
    (s : Schema) : Extends (writeSchema a s) (writeSchema b s) := by
  induction s using Schema.shapeInduction with
  | step s ih =>
    rw [writeSchema_eq, writeSchema_eq]
    cases hs : s.shape with
    | error fault => exact .refl _
    | ok shape =>
      have ih := ih shape hs
      cases shape with
      | primitive kind repeated => exact .refl _
      | array item => exact ((Extends.refl _).andThen (ih item (by simp [Shape.parts]))).scope _ _
      | object properties additional =>
        simp only [Except.map, Shape.mapParts, writeShape, Entries.mapValues_mapValues]
        refine (extends_members (Entries.inStep_mapValues₂ fun e he => ?_)).scope _ _
        exact ih e.2 (List.mem_append_left _ (List.mem_map_of_mem he))
      | map values => exact ((Extends.refl _).andThen (ih values (by simp [Shape.parts]))).scope _ _
      | reference name => exact h name

theorem extends_reference (table : SchemaTable) {depth larger : Nat} (h : depth ≤ larger)
    (name : String) :
    Extends (writeReference table depth name) (writeReference table larger name) := by
  intro session result hr
  by_cases hn : name ∈ session.guard.names
  · rwa [writeReference_of_mem hn] at hr ⊢
  cases hl : table.lookup name with
  | none => rwa [writeReference_of_undefined hn hl] at hr ⊢
  | some target =>
    match depth, larger with
    | 0, _ => rw [writeReference_zero hn hl] at hr; cases hr
    | depth + 1, larger + 1 =>
      rw [writeReference_succ hn hl] at hr ⊢
      have ih := extends_reference table (Nat.le_of_succ_le_succ h)
      exact (extends_schema ih target).entering name session result hr

/-- A step that writes what an outcome says has a result, and the same with a larger allowance. -/
theorem result_of_writes {step larger : Synthesis} {session : Session}
    {outcome : Except RenderFault (Code RenderFault)}
    (hw : Writes session.guard.names step outcome) (he : Extends step larger) :
    ∃ result, larger session = some result ∧ step session = some result := by
  have hw := hw session rfl
  cases outcome with
  | error fault =>
    obtain ⟨page, hs⟩ := hw
    exact ⟨_, he _ _ hs, hs⟩
  | ok code =>
    obtain ⟨page, _, hs⟩ := hw
    exact ⟨_, he _ _ hs, hs⟩

/-- The recursion without an allowance: a reference that is not open is written as the value of its
schema, in which references are written in the same way. -/
theorem writeRef_of_lookup {name : String} {target : Schema} {session : Session}
    (hn : name ∉ session.guard.names) (hl : table.lookup name = some target) :
    writeRef table name session = entering name (writeValue table target) session := by
  have hle := table.unopened_le_length session.guard.names
  obtain ⟨result, hr, -⟩ := result_of_writes (writes_reference _ hle name) (.refl _)
  have hpos := (Nat.zero_le _).trans_lt (SchemaTable.unopened_cons hn hl) |>.trans_le hle
  obtain ⟨depth, hd⟩ := Nat.exists_eq_add_of_lt hpos
  rw [Nat.zero_add] at hd
  rw [writeRef, hr]
  rw [hd, writeReference_succ hn hl] at hr
  have hext := extends_reference table (show depth ≤ table.length by omega)
  exact ((extends_schema hext target).entering name session result hr).symm

/-- Whatever names are open at the start, the values of schemas, names and properties have a result,
and have it without more references open inside each other than the table has names that were not
open. No path that an expansion takes is longer. An allowance plays no part in what is written: a
name that is not open is written as the value of its schema. -/
theorem synthesis_ends_within_allowance (table : SchemaTable) (session : Session) :
    (∀ schema, ∃ result, writeValue table schema session = some result ∧
      writeSchema (writeReference table (table.unopened session.guard.names)) schema session =
        some result) ∧
    (∀ name, ∃ result, writeRef table name session = some result ∧
      writeReference table (table.unopened session.guard.names) name session = some result) ∧
    (∀ properties, ∃ result, writeProperties table properties session = some result ∧
      writeMembers (properties.mapValues
        (writeSchema (writeReference table (table.unopened session.guard.names)))) session =
        some result) ∧
    (∀ name target, name ∉ session.guard.names → table.lookup name = some target →
      writeRef table name session = entering name (writeValue table target) session) ∧
    (∀ schema path node, Visits table (session.guard.names, schema) (path, node) →
      path.length ≤ session.guard.names.length + table.unopened session.guard.names) := by
  have hle := table.unopened_le_length session.guard.names
  have href := fun name => writes_reference _ (le_refl (table.unopened session.guard.names)) name
  have hext := extends_reference table hle
  refine ⟨fun schema => ?_, fun name => ?_, fun properties => ?_,
    fun name target hn hl => writeRef_of_lookup hn hl, fun schema path node hv => ?_⟩
  · exact result_of_writes (writes_schema href schema) (extends_schema hext schema)
  · exact result_of_writes (href name) (hext name)
  · exact result_of_writes (writes_mapValues fun e _ => writes_schema href e.2)
      (extends_members (Entries.inStep_mapValues₂ fun e _ => extends_schema hext e.2))
  · have := hv.length_le
    simp only at this
    omega

end Stub

end ApiTypings
