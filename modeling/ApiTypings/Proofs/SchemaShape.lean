import ApiTypings.Proofs.KeyOrder
import ApiTypings.Schema.Shape

/-! # Recursion and induction by shape

`Schema.byShape` hands a step the shape of a schema with the results of its parts. The step sees
nothing of the recursion over the fields, so everything computed from a schema is one equation on
its shape, and what is proved of every schema is proved by cases on the shape, the parts being
smaller schemas. -/

namespace ApiTypings

namespace Shape

variable {α β : Type}

/-- The same shape with other parts. -/
def mapParts (f : α → β) : Shape α → Shape β
  | primitive kind repeated => primitive kind repeated
  | array items => array (f items)
  | object properties additional => object (properties.mapValues f) (additional.map f)
  | map values => map (f values)
  | reference name => reference name

/-- All parts, in the order in which they are declared. -/
def parts : Shape α → List α
  | array items => [items]
  | object properties additional => properties.map (·.2) ++ additional.toList
  | map values => [values]
  | primitive .. | reference _ => []

theorem mapParts_mapParts {γ : Type} (f : α → β) (g : β → γ) (shape : Shape α) :
    (shape.mapParts f).mapParts g = shape.mapParts fun a => g (f a) := by
  cases shape with
  | primitive | array | map | reference => rfl
  | object properties additional => simp [mapParts, Function.comp_def]

/-- Other parts come only of the parts that are there. -/
theorem mapParts_congr {f g : α → β} {shape : Shape α} (h : ∀ part ∈ shape.parts, f part = g part) :
    shape.mapParts f = shape.mapParts g := by
  cases shape with
  | primitive | reference => rfl
  | array items => exact congrArg array (h items (List.mem_singleton_self _))
  | map values => exact congrArg map (h values (List.mem_singleton_self _))
  | object properties additional =>
    have hp : properties.mapValues f = properties.mapValues g :=
      List.map_congr_left fun e he =>
        congrArg (Prod.mk e.1) (h e.2 (List.mem_append_left _ (List.mem_map_of_mem he)))
    have ha : additional.map f = additional.map g := by
      cases additional with
      | none => rfl
      | some part =>
        exact congrArg some (h part (List.mem_append_right _ (List.mem_singleton_self _)))
    rw [mapParts, mapParts, hp, ha]

/-- Which shape the fields add up to depends on the parts being there, not on what they are. -/
theorem ofFields_mapParts (f : α → β) (type ref : Option String) (repeated : Option Bool)
    (items : Option α) (properties : Option (Entries α)) (additional : Option α) :
    ofFields type ref repeated (items.map f) (properties.map (Entries.mapValues f))
        (additional.map f) =
      (ofFields type ref repeated items properties additional).map (mapParts f) := by
  unfold ofFields
  split
  · cases items <;> rfl
  · cases h : type == some "object" <;> cases properties <;> cases additional <;>
      simp only [Option.map_none, Option.map_some]
    all_goals first
      | rfl
      | cases nonEmpty? type <;> cases nonEmpty? ref <;> rfl

/-- A part is one of the schemas the fields hold. -/
theorem mem_parts_ofFields {type ref : Option String} {repeated : Option Bool} {items : Option α}
    {properties : Option (Entries α)} {additional : Option α} {shape : Shape α} {part : α}
    (h : ofFields type ref repeated items properties additional = .ok shape)
    (hp : part ∈ shape.parts) :
    items = some part ∨ (∃ entries name, properties = some entries ∧ (name, part) ∈ entries) ∨
      additional = some part := by
  unfold ofFields at h
  split at h
  · cases items with
    | none => cases h
    | some item =>
      cases h
      exact .inl (by simpa [parts, eq_comm] using hp)
  · split at h
    · cases h
      rcases List.mem_append.mp hp with hm | ha
      · obtain ⟨⟨name, value⟩, he, rfl⟩ := List.mem_map.mp hm
        exact .inr (.inl ⟨_, name, rfl, he⟩)
      · exact .inr (.inr (by simpa using ha))
    · cases h
      exact .inr (.inr (by simpa [parts, eq_comm] using hp))
    · split at h <;> cases h <;> cases hp

end Shape

namespace Schema

/-- A schema of which nothing is known. -/
def blank : Schema :=
  ⟨none, none, none, none, none, none, none, none, none, none, none, none, none, none, none, none,
    none, none, none⟩

/-! ## Recursion -/

section
variable {β : Type} (step : Schema → Except SchemaFault (Shape (Schema × β)) → β)

theorem byShapeOption_eq (s? : Option Schema) :
    byShapeOption step s? = s?.map fun s => (s, byShape step s) := by
  cases s? <;> simp [byShapeOption]

theorem byShapeEntries_eq (entries : List (String × Schema)) :
    byShapeEntries step entries = Entries.mapValues (fun s => (s, byShape step s)) entries := by
  induction entries with
  | nil => simp [byShapeEntries, Entries.mapValues]
  | cons e rest ih =>
    obtain ⟨name, s⟩ := e
    rw [byShapeEntries, ih]
    rfl

theorem byShapeMap_eq (entries? : Option (List (String × Schema))) :
    byShapeMap step entries? =
      entries?.map (Entries.mapValues fun s => (s, byShape step s)) := by
  cases entries? <;> simp [byShapeMap, byShapeEntries_eq]

/-- The recursion by shape as one equation. -/
theorem byShape_eq (s : Schema) :
    byShape step s = step s (s.shape.map (Shape.mapParts fun t => (t, byShape step t))) := by
  obtain ⟨⟩ := s
  rw [byShape, byShapeOption_eq, byShapeOption_eq, byShapeMap_eq, Shape.ofFields_mapParts]
  rfl

end

/-! ## Induction -/

theorem sizeOf_part {s t : Schema} {shape : Shape Schema} (h : s.shape = .ok shape)
    (ht : t ∈ shape.parts) : sizeOf t < sizeOf s := by
  have hf := Shape.mem_parts_ofFields h ht
  obtain ⟨⟩ := s
  simp only at hf
  rcases hf with rfl | ⟨entries, name, rfl, hm⟩ | rfl
  · simp; omega
  · have hs := List.sizeOf_lt_of_mem hm
    simp at hs ⊢
    omega
  · simp; omega

/-- What holds of a schema whenever it holds of all parts of its shape holds of every schema. -/
@[elab_as_elim]
theorem shapeInduction {motive : Schema → Prop}
    (step : ∀ s, (∀ shape, s.shape = .ok shape → ∀ t ∈ shape.parts, motive t) → motive s)
    (s : Schema) : motive s :=
  step s fun _ hs t ht => have := sizeOf_part hs ht; shapeInduction step t
termination_by sizeOf s

/-! ## Fusion -/

/-- A step that makes of the results what `f` makes of another step's result makes it all the way
up. -/
theorem byShape_fusion {β γ : Type} {step : Schema → Except SchemaFault (Shape (Schema × β)) → β}
    {step' : Schema → Except SchemaFault (Shape (Schema × γ)) → γ} {f : β → γ}
    (h : ∀ s shape, step' s (shape.map (Shape.mapParts fun part => (part.1, f part.2))) =
      f (step s shape)) (s : Schema) : byShape step' s = f (byShape step s) := by
  induction s using shapeInduction with
  | step s ih =>
    rw [byShape_eq, byShape_eq, ← h]
    cases hs : s.shape with
    | error fault => rfl
    | ok shape =>
      have hp := Shape.mapParts_congr fun t ht => congrArg (Prod.mk t) (ih shape hs t ht)
      simp only [Except.map, Shape.mapParts_mapParts, hp]

end Schema

end ApiTypings
