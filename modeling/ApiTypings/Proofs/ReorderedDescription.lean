import ApiTypings.Proofs.Reordering
import ApiTypings.Proofs.ResourceTree
import ApiTypings.Proofs.SchemaShape
import ApiTypings.Schema.Table

/-! # Descriptions in another order

Two descriptions are the same up to order if their maps are, at every depth, and all else is equal.
A recursion by shape, or over the tree of resources, comes to the same on both as soon as its step
does. -/

namespace ApiTypings

theorem Entries.Reordered.orEmpty {α β : Type} {R : α → β → Prop} {xs? : Option (Entries α)}
    {ys? : Option (Entries β)} (h : Option.Rel (Entries.Reordered R) xs? ys?) :
    Entries.Reordered R (Entries.orEmpty xs?) (Entries.orEmpty ys?) := by
  cases h with
  | none => exact .nil
  | some h => exact h

section
variable {α β γ δ : Type} {R : α → β → Prop} {S : γ → δ → Prop} {a? : Option α} {b? : Option β}

theorem isSome_eq_of_rel (h : Option.Rel R a? b?) : a?.isSome = b?.isSome := by
  cases h <;> rfl

theorem rel_map {f : α → γ} {g : β → δ} (h : Option.Rel R a? b?)
    (hfg : ∀ a b, R a b → S (f a) (g b)) : Option.Rel S (a?.map f) (b?.map g) := by
  cases h with
  | none => exact .none
  | some h => exact .some (hfg _ _ h)

theorem rel_bind {f : α → Option γ} {g : β → Option δ} (h : Option.Rel R a? b?)
    (hfg : ∀ a b, R a b → Option.Rel S (f a) (g b)) : Option.Rel S (a?.bind f) (b?.bind g) := by
  cases h with
  | none => exact .none
  | some h => exact hfg _ _ h

end

/-! ## Shapes -/

namespace Shape

variable {α β : Type}

inductive Reordered (R : α → β → Prop) : Shape α → Shape β → Prop
  | primitive (kind : String) (repeated : Bool) :
      Reordered R (.primitive kind repeated) (.primitive kind repeated)
  | array {a : α} {b : β} : R a b → Reordered R (.array a) (.array b)
  | object {xs : Entries α} {ys : Entries β} {a? : Option α} {b? : Option β} :
      Entries.Reordered R xs ys → Option.Rel R a? b? → Reordered R (.object xs a?) (.object ys b?)
  | map {a : α} {b : β} : R a b → Reordered R (.map a) (.map b)
  | reference (name : String) : Reordered R (.reference name) (.reference name)

variable {R : α → β → Prop}

theorem reordered_ofFields {items : Option α} {items' : Option β} {properties : Option (Entries α)}
    {properties' : Option (Entries β)} {additional : Option α} {additional' : Option β}
    (type ref : Option String) (repeated : Option Bool) (hi : Option.Rel R items items')
    (hp : Option.Rel (Entries.Reordered R) properties properties')
    (ha : Option.Rel R additional additional') :
    Outcomes.Agree (Reordered R) (ofFields type ref repeated items properties additional)
      (ofFields type ref repeated items' properties' additional') := by
  unfold ofFields
  split
  · cases hi with
    | none => exact .error _
    | some h => exact .ok (.array h)
  by_cases ho : type = some "object"
  · subst ho
    cases hp with
    | some hp => exact .ok (.object hp ha)
    | none =>
      cases ha with
      | none => exact .ok (.primitive "object" _)
      | some ha => exact .ok (.map ha)
  · have hb : (type == some "object") = false := beq_false_of_ne ho
    simp only [hb]
    cases nonEmpty? type with
    | some kind => exact .ok (.primitive kind _)
    | none =>
      cases nonEmpty? ref with
      | none => exact .error _
      | some name => exact .ok (.reference name)

theorem Reordered.mapParts {γ δ : Type} {S : γ → δ → Prop} {f : α → γ} {g : β → δ} {x : Shape α}
    {y : Shape β} (h : Reordered R x y) (hfg : ∀ a ∈ x.parts, ∀ b, R a b → S (f a) (g b)) :
    Reordered S (x.mapParts f) (y.mapParts g) := by
  cases h with
  | primitive => exact .primitive ..
  | array h => exact .array (hfg _ (List.mem_singleton_self _) _ h)
  | object hp ha =>
    refine .object (hp.mapValues fun e he b =>
      hfg e.2 (List.mem_append_left _ (List.mem_map_of_mem he)) b) ?_
    cases ha with
    | none => exact .none
    | some h => exact .some (hfg _ (List.mem_append_right _ (List.mem_singleton_self _)) _ h)
  | map h => exact .map (hfg _ (List.mem_singleton_self _) _ h)
  | reference => exact .reference _

end Shape

/-! ## Schemas -/

namespace Schema

/-- The fields that hold no schemas. A default is left out as well: it may be anything that can be
written down, and nothing that is generated shows it. -/
def withoutParts (s : Schema) : Schema :=
  { s with default := none, items := none, properties := none, additionalProperties := none }

/-- The same schema up to the order of properties, at any depth. -/
inductive Reordered : Schema → Schema → Prop
  | intro {a b : Schema} : a.withoutParts = b.withoutParts → Option.Rel Reordered a.items b.items →
      Option.Rel (Entries.Reordered Reordered) a.properties b.properties →
      Option.Rel Reordered a.additionalProperties b.additionalProperties → Reordered a b

variable {a b : Schema}

theorem Reordered.shape (h : Reordered a b) :
    Outcomes.Agree (Shape.Reordered Reordered) a.shape b.shape := by
  obtain ⟨hw, hi, hp, ha⟩ := h
  have ht : a.type = b.type := (congrArg type hw :)
  have hr : a.ref = b.ref := (congrArg ref hw :)
  have hm : a.repeated = b.repeated := (congrArg repeated hw :)
  rw [Schema.shape, Schema.shape, ht, hr, hm]
  exact Shape.reordered_ofFields _ _ _ hi hp ha

theorem Reordered.required_eq (h : Reordered a b) : a.required = b.required := by
  obtain ⟨hw⟩ := h
  exact (congrArg required hw :)

theorem Reordered.description_eq (h : Reordered a b) : a.description = b.description := by
  obtain ⟨hw⟩ := h
  exact (congrArg description hw :)

theorem Reordered.isEmpty_eq (h : Reordered a b) : a.isEmpty = b.isEmpty := by
  obtain ⟨_, _, hp, ha⟩ := h
  rw [isEmpty, isEmpty, (Entries.Reordered.orEmpty hp).isEmpty_eq, ← Option.not_isSome,
    ← Option.not_isSome, isSome_eq_of_rel ha]

/-- Reordered schemas with the same result. -/
def SameResult {β : Type} (p q : Schema × β) : Prop := p.1.Reordered q.1 ∧ p.2 = q.2

/-- Steps that do not see the order of properties make a recursion that does not. -/
theorem byShape_eq_of_reordered {β : Type}
    {step step' : Schema → Except SchemaFault (Shape (Schema × β)) → β}
    (hstep : ∀ s s' x x', Reordered s s' → Outcomes.Agree (Shape.Reordered SameResult) x x' →
      step s x = step' s' x') (h : Reordered a b) : byShape step a = byShape step' b := by
  induction a using shapeInduction generalizing b with
  | step a ih =>
    rw [byShape_eq, byShape_eq]
    refine hstep a b _ _ h ?_
    have hs := h.shape
    cases ha : a.shape with
    | error fault =>
      rw [ha] at hs
      generalize b.shape = y at hs
      cases hs
      exact .error fault
    | ok shape =>
      rw [ha] at hs
      generalize b.shape = y at hs
      cases hs with
      | ok hs => exact .ok (hs.mapParts fun t ht u hr => ⟨hr, ih shape ha t ht hr⟩)

end Schema

/-! ## Tables -/

namespace SchemaTable

/-- The same schemas up to order, and in any order. -/
abbrev Reordered : SchemaTable → SchemaTable → Prop := Entries.Reordered Schema.Reordered

variable {table table' : SchemaTable}

theorem Reordered.resolve (h : Reordered table table') (name : String) :
    Outcomes.Agree Schema.Reordered (table.resolve name) (table'.resolve name) := by
  have hl := h.lookup name
  unfold SchemaTable.resolve
  generalize table.lookup name = s, table'.lookup name = t at hl
  cases hl with
  | none => exact .error _
  | some h => exact .ok h

theorem Reordered.isEmpty_eq (h : Reordered table table') (name : String) :
    table.isEmpty name = table'.isEmpty name := by
  have hr := h.resolve name
  unfold SchemaTable.isEmpty
  generalize table.resolve name = s, table'.resolve name = t at hr
  cases hr with
  | error => rfl
  | ok h => exact congrArg Except.ok h.isEmpty_eq

theorem Reordered.contains_eq (h : Reordered table table') (name : String) :
    table.contains name = table'.contains name := isSome_eq_of_rel (h.lookup name)

end SchemaTable

/-! ## Methods and resources -/

/-- A method of which nothing is known. -/
def Method.blank : Method :=
  ⟨none, none, none, none, none, none, none, none, none, none, none, none⟩

def Method.withoutParameters (m : Method) : Method := { m with parameters := none }

/-- The same method up to the order of parameters, and of what they hold. -/
structure Method.Reordered (a b : Method) : Prop where
  rest : a.withoutParameters = b.withoutParameters
  parameters : Option.Rel (Entries.Reordered Schema.Reordered) a.parameters b.parameters

namespace Resource

/-- The same tree up to the order of methods and of resources. -/
inductive Reordered : Resource → Resource → Prop
  | intro {a b : Resource} : Option.Rel (Entries.Reordered Method.Reordered) a.methods b.methods →
      Option.Rel (Entries.Reordered Reordered) a.resources b.resources → Reordered a b

/-- Reordered resources with the same result. -/
def SameResult {β : Type} (p q : Resource × β) : Prop := p.1.Reordered q.1 ∧ p.2 = q.2

/-- Steps that do not see the order of children make a recursion that does not. -/
theorem recurse_eq_of_reordered {β : Type} {step step' : Resource → Entries (Resource × β) → β}
    (hstep : ∀ r r' xs ys, Reordered r r' → Entries.Reordered SameResult xs ys →
      step r xs = step' r' ys) {a b : Resource} (h : Reordered a b) :
    recurse step a = recurse step' b := by
  induction a using childInduction generalizing b with
  | step a ih =>
    rw [recurse_eq, recurse_eq]
    refine hstep a b _ _ h ?_
    obtain ⟨_, hr⟩ := h
    exact (Entries.Reordered.orEmpty hr).mapValues fun e he r hr => ⟨hr, ih e he hr⟩

end Resource

/-! ## Descriptions -/

def OAuth2.Reordered (a b : OAuth2) : Prop := Option.Rel (Entries.Reordered Eq) a.scopes b.scopes

def Auth.Reordered (a b : Auth) : Prop := Option.Rel OAuth2.Reordered a.oauth2 b.oauth2

namespace Description

/-- An API of which nothing but the name and the version is known. -/
def blank (name version : String) : Description :=
  ⟨none, none, none, name, version, none, none, none, none, none, none, none, none, none, none,
    none, none, none, none, none, none, none⟩

def withoutMaps (api : Description) : Description :=
  { api with
    parameters := none, auth := none, schemas := none, methods := none, resources := none }

/-- The same description up to the order of the entries of its maps, at any depth. -/
structure Reordered (a b : Description) : Prop where
  rest : a.withoutMaps = b.withoutMaps
  parameters : Option.Rel (Entries.Reordered Schema.Reordered) a.parameters b.parameters
  auth : Option.Rel Auth.Reordered a.auth b.auth
  schemas : Option.Rel SchemaTable.Reordered a.schemas b.schemas
  methods : Option.Rel (Entries.Reordered Method.Reordered) a.methods b.methods
  resources : Option.Rel (Entries.Reordered Resource.Reordered) a.resources b.resources

variable {a b : Description}

theorem Reordered.table (h : Reordered a b) :
    (SchemaTable.ofDescription a).Reordered (SchemaTable.ofDescription b) :=
  Entries.Reordered.orEmpty h.schemas

theorem Reordered.name_eq (h : Reordered a b) : a.name = b.name := (congrArg name h.rest :)

theorem Reordered.version_eq (h : Reordered a b) : a.version = b.version :=
  (congrArg version h.rest :)

theorem Reordered.scopes (h : Reordered a b) : Entries.Reordered Eq a.scopes b.scopes :=
  .orEmpty (rel_bind h.auth fun _ _ ha => rel_bind ha fun _ _ ho => ho)

end Description

end ApiTypings
