import ApiTypings.Proofs.CodeEffect
import ApiTypings.Proofs.StubExpansion

/-! # What the generator writes

A step of a session is compared with the outcome of an expansion: the code of a value, or a fault.
The comparison passes through each way in which steps are put together, hence holds of the whole
generator, as soon as it may open as many references inside each other as the table has names that
are not open yet. -/

namespace ApiTypings

namespace Guard

theorem names_enter {guard : Guard} {name : String} (h : name ∉ guard.names) :
    (guard.enter name).names = name :: guard.names := by
  simp [enter, contains, h]

/-- A name that was not open before is all that leaving it takes away. -/
theorem leave_enter {guard : Guard} {name : String} (h : name ∉ guard.names) :
    (guard.enter name).leave name = guard := by
  have hf : guard.names.filter (· != name) = guard.names :=
    List.filter_eq_self.mpr fun other ho => by
      simp only [bne_iff_ne, ne_eq]
      exact fun he => h (he ▸ ho)
  simp [leave, names_enter h, hf]

end Guard

namespace Synthesis

theorem andThen_done (step : Synthesis) : andThen step done = step := by
  funext session
  simp only [andThen]
  rcases step session with _ | ⟨s, _ | fault⟩ <;> rfl

/-- With the names of a path open, the step does what an outcome says: it writes the code and
nothing else, or it fails with the fault. The guard is as before. -/
def Writes (path : List String) (step : Synthesis)
    (outcome : Except RenderFault (Code RenderFault)) : Prop :=
  ∀ session : Session, session.guard.names = path →
    match outcome with
    | .ok code => ∃ page, code.run session.page = (page, none) ∧
        step session = some (⟨page, session.guard⟩, none)
    | .error fault => ∃ page, step session = some (⟨page, session.guard⟩, some fault)

variable {path : List String}

theorem writes_text (s : String) : Writes path (emit (.text s)) (.ok (.text s)) :=
  fun session _ => ⟨session.page.append s, rfl, rfl⟩

theorem writes_beginNewLine (s : String) :
    Writes path (emit (.beginNewLine s)) (.ok (.beginNewLine s)) := fun _ _ => ⟨_, rfl, rfl⟩

theorem writes_done : Writes path done (.ok .nil) := fun session _ => ⟨session.page, rfl, rfl⟩

theorem writes_fail (fault : RenderFault) : Writes path (fail fault) (.error fault) :=
  fun session _ => ⟨session.page, rfl⟩

/-- Only the effect of the code counts. -/
theorem Writes.of_run_eq {step : Synthesis} {a b : Code RenderFault}
    (h : Writes path step (.ok a)) (he : ∀ page, a.run page = b.run page) :
    Writes path step (.ok b) := by
  intro session hs
  obtain ⟨page, ha, h⟩ := h session hs
  exact ⟨page, (he _).symm.trans ha, h⟩

theorem Writes.andThen {a b : Synthesis} {ra rb : Except RenderFault (Code RenderFault)}
    (ha : Writes path a ra) (hb : Writes path b rb) :
    Writes path (andThen a b) (do let x ← ra; let y ← rb; return x ++ y) := by
  intro session hs
  cases ra with
  | error fault =>
    obtain ⟨page, h⟩ := ha session hs
    exact ⟨page, by rw [Synthesis.andThen, h]⟩
  | ok x =>
    obtain ⟨page, hx, h⟩ := ha session hs
    have hb := hb ⟨page, session.guard⟩ hs
    cases rb with
    | error fault =>
      obtain ⟨last, hb⟩ := hb
      exact ⟨last, by rw [Synthesis.andThen, h]; exact hb⟩
    | ok y =>
      obtain ⟨last, hy, hb⟩ := hb
      exact ⟨last, (Code.run_append hx).trans hy, by rw [Synthesis.andThen, h]; exact hb⟩

theorem Writes.nested {body : Synthesis} {outcome : Except RenderFault (Code RenderFault)}
    (h : Writes path body outcome) : Writes path (nested body) (outcome.map .nest) := by
  intro session hs
  have h := h { session with page := session.page.shift 1 } hs
  cases outcome with
  | error fault =>
    obtain ⟨page, h⟩ := h
    exact ⟨page, by rw [Synthesis.nested, h]⟩
  | ok code =>
    obtain ⟨page, hc, h⟩ := h
    exact ⟨page.shift (-1), Code.run_nest hc, by rw [Synthesis.nested, h]⟩

theorem Writes.scope {body : Synthesis} {outcome : Except RenderFault (Code RenderFault)}
    (h : Writes path body outcome) (opening closing : String) :
    Writes path (scope body opening closing)
      (outcome.map fun code => .scope code opening closing) := by
  have hw := (writes_text opening).andThen (h.nested.andThen (writes_beginNewLine closing))
  simp only [Synthesis.scope, all, List.foldr, andThen_done]
  cases outcome with
  | error fault => exact hw
  | ok code =>
    refine hw.of_run_eq fun page => ?_
    simp only [Code.scope, Code.beginNewLine, ← Code.run_assoc]

/-- A body with one more name open leaves the guard as it was. -/
theorem Writes.entering {name : String} {body : Synthesis}
    {outcome : Except RenderFault (Code RenderFault)} (h : Writes (name :: path) body outcome)
    (hn : name ∉ path) : Writes path (entering name body) outcome := by
  intro session hs
  rw [← hs] at hn
  have h := h { session with guard := session.guard.enter name }
    (by rw [Guard.names_enter hn, hs])
  cases outcome with
  | error fault =>
    obtain ⟨page, h⟩ := h
    exact ⟨page, by simp only [Synthesis.entering, h, Option.map_some, Guard.leave_enter hn]⟩
  | ok code =>
    obtain ⟨page, hc, h⟩ := h
    exact ⟨page, hc, by simp only [Synthesis.entering, h, Option.map_some, Guard.leave_enter hn]⟩

end Synthesis

namespace Stub

open Synthesis

variable {path : List String}

/-- Members one after another, up to the first that fails. -/
theorem writes_members {steps : Entries Synthesis} {results : Entries (Except RenderFault Value)}
    (h : Entries.InStep (fun step result => Writes path step (result.map Value.code)) steps
      results) :
    Writes path (writeMembers steps)
      ((Entries.collect (Entries.sortByKey results)).map Value.membersCode) := by
  have hs := h.sortByKey
  unfold writeMembers
  generalize Entries.sortByKey steps = steps, Entries.sortByKey results = results at hs
  induction hs using Entries.InStep.induct with
  | nil => exact writes_done
  | @cons key step result steps results hw _ ih =>
    have hm := ((writes_beginNewLine (Naming.memberName key ++ ": ")).andThen
      (hw.andThen (writes_text ","))).andThen ih
    rw [Entries.collect_cons]
    simp only [List.map_cons, all, List.foldr, andThen_done] at hm ⊢
    cases result with
    | error fault => exact hm
    | ok value => cases hc : Entries.collect results <;> rw [hc] at hm <;> exact hm

/-- Members that are made of the same properties, as the writer and as the expansion has them. -/
theorem writes_mapValues {properties : Entries Schema} {write : Schema → Synthesis}
    {value : Schema → Except RenderFault Value}
    (h : ∀ e ∈ properties, Writes path (write e.2) ((value e.2).map Value.code)) :
    Writes path (writeMembers (properties.mapValues write))
      ((Entries.collect ((Entries.sortByKey properties).mapValues value)).map
        Value.membersCode) := by
  rw [← Entries.sortByKey_mapValues]
  exact writes_members (Entries.inStep_mapValues₂ h)

theorem writeSchema_eq (writeRef : String → Synthesis) (s : Schema) :
    writeSchema writeRef s =
      writeShape writeRef (s.shape.map (Shape.mapParts fun t => (t, writeSchema writeRef t))) :=
  Schema.byShape_eq _ s

theorem writes_schema {writeRef : String → Synthesis}
    {expandRef : String → Except RenderFault Value}
    (href : ∀ name, Writes path (writeRef name) ((expandRef name).map Value.code)) (s : Schema) :
    Writes path (writeSchema writeRef s) ((expandSchema expandRef s).map Value.code) := by
  induction s using Schema.shapeInduction with
  | step s ih =>
    rw [writeSchema_eq, expandSchema_eq]
    cases hs : s.shape with
    | error fault => exact writes_fail _
    | ok shape =>
      have ih := ih shape hs
      cases shape with
      | primitive kind repeated =>
        simp only [Except.map, Shape.mapParts, writeShape, expandShape, Literal.literal?_eq]
        cases Literal.ofKind? kind with
        | none => exact writes_fail _
        | some value => exact writes_text _
      | array item =>
        have hi := ih item (by simp [Shape.parts])
        have hw := ((writes_beginNewLine "").andThen hi).scope "[" "]"
        change Writes path _ (((expandSchema expandRef item).map .array).map Value.code)
        cases he : expandSchema expandRef item <;> rw [he] at hw <;> exact hw
      | object properties additional =>
        have hw := (writes_mapValues fun e he => ih e.2
          (List.mem_append_left _ (List.mem_map_of_mem he))).scope "\x7b" "\x7d"
        simp only [Except.map, Shape.mapParts, writeShape, expandShape,
          Entries.mapValues_mapValues, Entries.sortByKey_mapValues]
        cases he : Entries.collect ((Entries.sortByKey properties).mapValues
          (expandSchema expandRef)) <;> rw [he] at hw <;> exact hw
      | map values =>
        have hi := ih values (by simp [Shape.parts])
        have hw := ((writes_beginNewLine (mapKey ++ ": ")).andThen hi).scope "\x7b" "\x7d"
        change Writes path _ (((expandSchema expandRef values).map .entry).map Value.code)
        cases he : expandSchema expandRef values <;> rw [he] at hw <;> exact hw
      | reference name => exact href name

/-! ## References -/

section
variable {table : SchemaTable} {depth : Nat} {name : String} {session : Session}

theorem writeReference_of_mem (h : name ∈ session.guard.names) :
    writeReference table depth name session = emit (.text "undefined") session := by
  rw [writeReference, if_pos (by simpa [Guard.contains] using h)]

theorem writeReference_of_undefined (hn : name ∉ session.guard.names)
    (hl : table.lookup name = none) :
    writeReference table depth name session = fail (.schema (.undefined name)) session := by
  rw [writeReference, if_neg (by simpa [Guard.contains] using hn), SchemaTable.resolve, hl]

theorem writeReference_zero {target : Schema} (hn : name ∉ session.guard.names)
    (hl : table.lookup name = some target) : writeReference table 0 name session = none := by
  rw [writeReference, if_neg (by simpa [Guard.contains] using hn), SchemaTable.resolve, hl]

theorem writeReference_succ {target : Schema} (hn : name ∉ session.guard.names)
    (hl : table.lookup name = some target) :
    writeReference table (depth + 1) name session =
      entering name (writeSchema (writeReference table depth) target) session := by
  rw [writeReference, if_neg (by simpa [Guard.contains] using hn), SchemaTable.resolve, hl]

end

/-- A reference is written as it is expanded, once every name that is not open may be opened. -/
theorem writes_reference {table : SchemaTable} {path : List String} (depth : Nat)
    (h : table.unopened path ≤ depth) (name : String) :
    Writes path (writeReference table depth name)
      ((expandReference table path name).map Value.code) := by
  intro session hs
  by_cases hn : name ∈ path
  · rw [writeReference_of_mem (hs ▸ hn), expandReference_of_mem hn]
    exact writes_text _ session hs
  cases hl : table.lookup name with
  | none =>
    rw [writeReference_of_undefined (hs ▸ hn) hl, expandReference_of_undefined hn hl]
    exact writes_fail _ session hs
  | some target =>
    have hu := SchemaTable.unopened_cons hn hl
    match depth with
    | 0 => omega
    | depth + 1 =>
      rw [writeReference_succ (hs ▸ hn) hl, expandReference_of_lookup hn hl]
      have hr := writes_reference depth (Nat.le_of_lt_succ (hu.trans_le h))
      exact (writes_schema hr target).entering hn session hs

/-- The generator writes the value that the expansion gives, or fails as the expansion does. -/
theorem writes_value (table : SchemaTable) (schema : Schema) :
    Writes path (writeValue table schema) ((expand table path schema).map Value.code) :=
  writes_schema (writes_reference _ (table.unopened_le_length path)) schema

/-- The properties of a schema, each as its own value. -/
theorem writes_properties (table : SchemaTable) (properties : Entries Schema) :
    Writes path (writeProperties table properties)
      ((Entries.collect ((Entries.sortByKey properties).mapValues (expand table path))).map
        Value.membersCode) :=
  writes_mapValues fun e _ => writes_value table e.2

/-- A value is written without a fault if and only if the expansion meets none. -/
theorem writeValue_succeeds_iff {table : SchemaTable} {schema : Schema} {session : Session} :
    (∃ after, writeValue table schema session = some (after, none)) ↔
      ∃ value, expand table session.guard.names schema = .ok value := by
  have hw := writes_value table schema session rfl
  cases he : expand table session.guard.names schema with
  | error fault =>
    rw [he] at hw
    obtain ⟨page, hw⟩ := hw
    simp [hw]
  | ok value =>
    rw [he] at hw
    obtain ⟨page, _, hw⟩ := hw
    simp [hw]

end Stub

end ApiTypings
