import ApiTypings.Proofs.StubWriting

/-! # When a value can be made

A schema that breaks an assumption is a fault of every schema whose value holds its value. The
generator meets that fault although it cuts recursion off, because what can be reached is reached on
a path on which no name is open twice. -/

namespace ApiTypings

/-- What the rules of precedence ask of a schema: an array has items, and where no rule for a type
applies there is a type or a reference. -/
theorem Schema.shape_eq_ok_iff {s : Schema} :
    (∃ shape, s.shape = .ok shape) ↔
      (s.type = some "array" → s.items.isSome) ∧
        ((nonEmpty? s.type).isSome ∨ (nonEmpty? s.ref).isSome) := by
  unfold Schema.shape Shape.ofFields
  by_cases ha : s.type = some "array"
  · have hn : nonEmpty? (some "array") = some "array" := by decide
    cases hi : s.items <;> simp [ha, hn]
  · by_cases ho : s.type = some "object"
    · have hn : nonEmpty? (some "object") = some "object" := by decide
      cases s.properties <;> cases s.additionalProperties <;> simp [ho, hn]
    · have hb : (s.type == some "object") = false := by simpa using ho
      simp only [hb]
      cases ht : nonEmpty? s.type <;> cases hr : nonEmpty? s.ref <;> simp [ha]

namespace Stub

open SchemaTable

/-- The primitive kinds that have a literal. -/
def literalKinds : List String := ["number", "integer", "any", "boolean", "string", "object"]

theorem Literal.ofKind?_isSome_iff {kind : String} :
    (Literal.ofKind? kind).isSome ↔ kind ∈ literalKinds := by
  unfold ofKind? literalKinds
  repeat' split
  all_goals simp_all
  tauto

/-- A schema that has a value as far as the schema alone can tell. -/
structure Sound (table : SchemaTable) (s : Schema) : Prop where
  items : s.type = some "array" → s.items.isSome
  shaped : (nonEmpty? s.type).isSome ∨ (nonEmpty? s.ref).isSome
  kind : ∀ kind repeated, s.shape = .ok (.primitive kind repeated) → kind ∈ literalKinds
  target : ∀ name, s.shape = .ok (.reference name) → table.contains name

variable {table : SchemaTable}

theorem Sound.of_shape {s : Schema} {shape : Shape Schema} (h : s.shape = .ok shape)
    (hk : ∀ kind repeated, shape = .primitive kind repeated → kind ∈ literalKinds)
    (ht : ∀ name, shape = .reference name → table.contains name) : Sound table s := by
  obtain ⟨hi, hs⟩ := Schema.shape_eq_ok_iff.mp ⟨shape, h⟩
  refine ⟨hi, hs, ?_, ?_⟩
  · intro kind repeated hp
    exact hk kind repeated (Except.ok.inj (h.symm.trans hp))
  · intro name hr
    exact ht name (Except.ok.inj (h.symm.trans hr))

/-- Where the shape is no reference, the expansion steps to the parts. -/
theorem forall_opens_iff {path : List String} {s : Schema} {shape : Shape Schema}
    (h : s.shape = .ok shape) (hr : ∀ name, shape ≠ .reference name)
    {P : List String → Schema → Prop} :
    (∀ path' t, Opens table (path, s) (path', t) → P path' t) ↔
      ∀ t ∈ shape.valued, P path t := by
  constructor
  · intro ho t ht
    exact ho path t (.part h ht)
  · intro hv path' t ho
    cases ho with
    | part hs ht =>
      rw [h] at hs
      cases hs
      exact hv t ht
    | reference hs =>
      rw [h] at hs
      cases hs
      exact absurd rfl (hr _)

theorem forall_opens_reference_iff {path : List String} {s : Schema} {name : String}
    (h : s.shape = .ok (.reference name)) {P : List String → Schema → Prop} :
    (∀ path' t, Opens table (path, s) (path', t) → P path' t) ↔
      ∀ t, name ∉ path → table.lookup name = some t → P (name :: path) t := by
  constructor
  · intro ho t hn hl
    exact ho _ t (.reference h hn hl)
  · intro hv path' t ho
    cases ho with
    | part hs ht =>
      rw [h] at hs
      cases hs
      cases ht
    | reference hs hn hl =>
      rw [h] at hs
      cases hs
      exact hv t hn hl

/-- One step of an expansion: it meets no fault if the schema is sound and there is none in what it
steps to. -/
theorem expand_succeeds_iff {path : List String} {s : Schema}
    (hp : ∀ name ∈ path, table.contains name) :
    (∃ value, expand table path s = .ok value) ↔
      Sound table s ∧ ∀ path' t, Opens table (path, s) (path', t) →
        ∃ value, expand table path' t = .ok value := by
  cases hs : s.shape with
  | error fault =>
    rw [expand_of_fault hs]
    simp only [reduceCtorEq, exists_false, false_iff, not_and]
    intro sound
    obtain ⟨shape, h⟩ := Schema.shape_eq_ok_iff.mpr ⟨sound.items, sound.shaped⟩
    rw [hs] at h
    cases h
  | ok shape =>
    cases shape with
    | primitive kind repeated =>
      rw [expand_of_primitive hs, forall_opens_iff hs (by simp)]
      have hk : Sound table s ↔ (Literal.ofKind? kind).isSome := by
        rw [Literal.ofKind?_isSome_iff]
        refine ⟨fun sound => sound.kind kind repeated hs, fun hk => .of_shape hs ?_ ?_⟩
        · rintro _ _ ⟨⟩
          exact hk
        · rintro _ ⟨⟩
      rw [hk]
      cases Literal.ofKind? kind <;> simp [Shape.valued]
    | array item =>
      have hk : Sound table s := .of_shape hs (by simp) (by simp)
      rw [expand_of_array hs, forall_opens_iff hs (by simp), Outcomes.map_succeeds_iff]
      simp [Shape.valued, hk]
    | object properties additional =>
      have hk : Sound table s := .of_shape hs (by simp) (by simp)
      have hc : (∃ values, Entries.collect ((Entries.sortByKey properties).mapValues
          (expand table path)) = .ok values) ↔
          ∀ e ∈ properties, ∃ value, expand table path e.2 = .ok value := by
        simp only [Entries.collect_mapValues_succeeds_iff, Entries.mem_sortByKey]
      rw [expand_of_object hs, forall_opens_iff hs (by simp), Outcomes.map_succeeds_iff, hc]
      simp only [Shape.valued, hk, true_and, List.forall_mem_map]
    | map values =>
      have hk : Sound table s := .of_shape hs (by simp) (by simp)
      rw [expand_of_map hs, forall_opens_iff hs (by simp), Outcomes.map_succeeds_iff]
      simp [Shape.valued, hk]
    | reference name =>
      rw [expand_of_reference hs]
      have hk : Sound table s ↔ table.contains name := by
        refine ⟨fun sound => sound.target name hs, fun hc => .of_shape hs ?_ ?_⟩
        · rintro _ _ ⟨⟩
        · rintro _ ⟨⟩
          exact hc
      rw [forall_opens_reference_iff hs, hk]
      by_cases hn : name ∈ path
      · rw [expandReference_of_mem hn]
        simp [hp name hn, hn]
      cases hl : table.lookup name with
      | none =>
        rw [expandReference_of_undefined hn hl]
        simp [SchemaTable.contains, hl]
      | some target =>
        rw [expandReference_of_lookup hn hl]
        simp [SchemaTable.contains, hl, hn]

/-- An expansion meets no fault if and only if all that it visits is sound. -/
theorem expand_succeeds_iff_forall_visits {path : List String} {s : Schema}
    (hp : ∀ name ∈ path, table.contains name) :
    (∃ value, expand table path s = .ok value) ↔
      ∀ path' t, Visits table (path, s) (path', t) → Sound table t := by
  induction path, s using expansionInduction table with
  | step path s ih =>
    rw [expand_succeeds_iff hp]
    constructor
    · rintro ⟨sound, ho⟩ path' t hv
      rcases hv.cases_head with he | ⟨⟨mid, u⟩, hstep, hrest⟩
      · cases he
        exact sound
      · exact (ih mid u hstep (hstep.contains hp)).mp (ho mid u hstep) path' t hrest
    · intro hv
      refine ⟨hv path s .refl, fun mid u hstep => ?_⟩
      exact (ih mid u hstep (hstep.contains hp)).mpr fun path' t hrest =>
        hv path' t (.head hstep hrest)

/-- A value is made, starting with no open names, exactly if every schema that can be reached is
sound. Cutting recursion off hides no fault. -/
theorem writeValue_succeeds_iff_reachable_sound (table : SchemaTable) (s : Schema) (page : Page) :
    (∃ after, writeValue table s ⟨page, Guard.empty⟩ = some (after, none)) ↔
      ∀ t, Reaches table s t → Sound table t := by
  rw [writeValue_succeeds_iff]
  change (∃ value, expand table [] s = .ok value) ↔ _
  rw [expand_succeeds_iff_forall_visits (by simp)]
  simp only [reaches_iff_visits]
  exact ⟨fun h t ⟨path, hv⟩ => h path t hv, fun h path t hv => h t ⟨path, hv⟩⟩

end Stub

end ApiTypings
