import ApiTypings.Proofs.StubConformity
import ApiTypings.Proofs.StubFaults
import ApiTypings.Proofs.TreeCoverage
import ApiTypings.Proofs.TypedParts

/-! # What both files accept

The declaration file refers to a named schema and takes only what its interface declares from it;
the stub gives it a value. So a declaration file may stand where a stub fails: at a schema that
declares nothing, or that declares something and is no object. Every other schema a call comes to is
checked for the declaration file, and with type keywords that have a literal its value can be
given. -/

namespace ApiTypings

open Entries (orEmpty keys)
open SchemaTable (Reaches)

/-- The type keywords of discovery documents. -/
def typeKeywords : List String :=
  ["array", "object", "string", "integer", "number", "boolean", "any"]

/-- Every type keyword in the schema and in all schemas inside it is one of discovery documents. -/
inductive Schema.KnownKinds : Schema → Prop
  | intro {s : Schema} : (∀ kind, s.type = some kind → kind ∈ typeKeywords) →
      (∀ t, s.items = some t → KnownKinds t) →
      (∀ entries, s.properties = some entries → ∀ e ∈ entries, KnownKinds e.2) →
      (∀ t, s.additionalProperties = some t → KnownKinds t) → KnownKinds s

/-- Every type keyword of the description is one of discovery documents. -/
structure Description.KnownKinds (api : Description) : Prop where
  schemas : ∀ e ∈ SchemaTable.ofDescription api, e.2.KnownKinds
  parameters : ∀ e ∈ orEmpty api.parameters, e.2.KnownKinds
  methods : ∀ p, Resource.Place.Within (orEmpty api.resources) [] p → ∀ m ∈ p.methods,
    ∀ e ∈ orEmpty m.2.parameters, e.2.KnownKinds

/-! ## Schemas with a type -/

namespace Schema

variable {s t : Schema}

theorem KnownKinds.part (h : s.KnownKinds) (hp : s.Part t) : t.KnownKinds := by
  obtain ⟨_, hitems, hproperties, hadditional⟩ := h
  obtain ⟨shape, hs, ht⟩ := hp
  rcases Shape.mem_parts_ofFields hs ht with hi | ⟨entries, name, he, hm⟩ | ha
  · exact hitems t hi
  · exact hproperties entries he _ hm
  · exact hadditional t ha

theorem KnownKinds.spans (h : s.KnownKinds) (hs : s.Spans t) : t.KnownKinds := by
  induction hs with
  | refl => exact h
  | tail _ hp ih => exact ih.part hp

/-- A primitive has the kind that stands as its type, and that is not an array. -/
theorem type_of_primitive {kind : String} {repeated : Bool}
    (h : s.shape = .ok (.primitive kind repeated)) : s.type = some kind ∧ kind ≠ "array" := by
  unfold Schema.shape Shape.ofFields at h
  split at h
  · split at h <;> cases h
  next hna =>
    split at h
    · cases h
    · cases h
    split at h
    next hkind =>
      cases h
      have ht : s.type = some kind := by
        unfold nonEmpty? at hkind
        split at hkind
        · split at hkind
          · cases hkind
          · rename_i htype _
            rw [htype, hkind]
        · cases hkind
      refine ⟨ht, fun ha => hna ?_⟩
      rw [ht, ha]
      rfl
    · cases h
    · cases h

/-- A step inwards that a value takes as well. -/
def Valued (s t : Schema) : Prop := ∃ shape, s.shape = .ok shape ∧ t ∈ shape.valued

/-- The schemas whose values the value of a schema is made of, as far as no reference is
followed. -/
abbrev Values : Schema → Schema → Prop := Relation.ReflTransGen Valued

theorem Values.spans (h : s.Values t) : s.Spans t :=
  Relation.ReflTransGen.mono
    (fun _ _ ⟨shape, hs, hm⟩ => ⟨shape, hs, Shape.mem_parts_of_valued hm⟩) _ _ h

end Schema

namespace Stub

variable {table : SchemaTable} {s t : Schema}

theorem sound_of_typed {form : StructuralType} (h : StructuralType.ofSchema table s = .ok form)
    (hk : s.KnownKinds) : Sound table s := by
  obtain ⟨shape, hs, hforms⟩ := StructuralType.forms_of_ofSchema h
  refine .of_shape hs ?_ ?_
  · rintro kind repeated rfl
    obtain ⟨htype, hna⟩ := Schema.type_of_primitive hs
    obtain ⟨hknown, _⟩ := hk
    have hm := hknown kind htype
    simp only [typeKeywords, literalKinds, List.mem_cons, List.not_mem_nil, or_false] at hm ⊢
    tauto
  · rintro name rfl
    obtain ⟨empty, he⟩ : ∃ empty, table.isEmpty name = .ok empty := by
      cases hforms with
      | any he | interface he => exact ⟨_, he⟩
    obtain ⟨target, ht, _⟩ := Outcomes.map_eq_ok_iff.mp he
    unfold SchemaTable.resolve at ht
    split at ht
    next hl => simp [SchemaTable.contains, hl]
    · cases ht

/-- All that is inside a schema with a type is sound. -/
theorem sound_of_values {form : StructuralType} (h : StructuralType.ofSchema table s = .ok form)
    (hk : s.KnownKinds) (hv : s.Values t) : Sound table t := by
  obtain ⟨sub, _, ht⟩ := StructuralType.spans_of_schema h hv.spans
  exact sound_of_typed ht (hk.spans hv.spans)

/-- An object that declares something has a type if its interface has one. -/
theorem typed_of_interface {form : StructuralType} (ho : s.type = some "object")
    (hd : s.isEmpty = false) (h : StructuralType.ofInterface table s = .ok form) :
    ∃ type, StructuralType.ofSchema table s = .ok type := by
  rw [StructuralType.ofSchema_eq]
  rw [StructuralType.ofInterface] at h
  cases hp : s.properties with
  | some properties =>
    rw [hp] at h
    rw [Schema.shape_of_properties ho hp]
    exact ⟨form, h⟩
  | none =>
    cases ha : s.additionalProperties with
    | none => simp [Schema.isEmpty, hp, ha, orEmpty] at hd
    | some values =>
      rw [hp, ha] at h
      rw [Schema.shape_of_values ho hp ha]
      obtain ⟨_, index, _, _, hi⟩ := StructuralType.objectOf_index h
      cases index with
      | none => cases hi
      | some type => exact ⟨.record type, congrArg (Except.map _) (Option.some.inj hi)⟩

/-! ## Schemas that are reached -/

/-- A reference to the name is come to. -/
def Refers (table : SchemaTable) (s : Schema) (name : String) : Prop :=
  ∃ node, Reaches table s node ∧ node.shape = .ok (.reference name)

/-- What is reached is inside the schema itself, or inside a named schema that is referred to. -/
theorem reaches_iff :
    Reaches table s t ↔ s.Values t ∨ ∃ name target, Refers table s name ∧
      table.lookup name = some target ∧ target.Values t := by
  have hlift {a b : Schema} (h : a.Values b) : Reaches table a b :=
    Relation.ReflTransGen.mono (fun _ _ ⟨_, hs, hm⟩ => .part hs hm) _ _ h
  constructor
  · intro h
    induction h with
    | refl => exact .inl .refl
    | @tail node t hnode hstep ih =>
      cases hstep with
      | part hs hm =>
        rcases ih with hv | ⟨name, target, hr, hl, hv⟩
        · exact .inl (hv.tail ⟨_, hs, hm⟩)
        · exact .inr ⟨name, target, hr, hl, hv.tail ⟨_, hs, hm⟩⟩
      | reference hs hl => exact .inr ⟨_, t, ⟨node, hnode, hs⟩, hl, .refl⟩
  · rintro (hv | ⟨name, target, ⟨node, hnode, hs⟩, hl, hv⟩)
    · exact hlift hv
    · exact (hnode.tail (.reference hs hl)).trans (hlift hv)

/-! ## Calls -/

end Stub

/-- The schema that is a reference and nothing else. -/
def Schema.referenceTo (name : String) : Schema := { Schema.blank with ref := some name }

theorem Schema.shape_referenceTo {name : String} (h : name.isEmpty = false) :
    (Schema.referenceTo name).shape = .ok (.reference name) := by
  simp [Schema.shape, Shape.ofFields, Schema.referenceTo, Schema.blank, nonEmpty?, h]

namespace Method

theorem isEmpty_of_bodyRef? {m : Method} {name : String} (h : m.bodyRef? = some name) :
    name.isEmpty = false := by
  unfold bodyRef? at h
  split at h
  · split at h
    · cases h
    next he => cases h; simpa using he
  · cases h

/-- The schemas that a call of the method gives values for: those of its parameters and, if it sends
a body, the one of the body. -/
def valued (m : Method) : List Schema :=
  (orEmpty m.parameters).map Prod.snd ++ m.bodyRef?.toList.map Schema.referenceTo

theorem forall_valued_iff {m : Method} {P : Schema → Prop} :
    (∀ s ∈ m.valued, P s) ↔
      (∀ e ∈ orEmpty m.parameters, P e.2) ∧
        ∀ name, m.bodyRef? = some name → P (Schema.referenceTo name) := by
  rw [valued, List.forall_mem_append, List.forall_mem_map, List.forall_mem_map]
  simp only [Option.mem_toList]

end Method

namespace Stub

variable {table : SchemaTable} {api : Description}

/-- A value is given, with no name open before, exactly if all that is reached is sound. -/
theorem expand_succeeds_iff_forall_reaches {s : Schema} :
    (∃ value, expand table [] s = .ok value) ↔ ∀ t, Reaches table s t → Sound table t := by
  rw [expand_succeeds_iff_forall_visits (by simp)]
  simp only [SchemaTable.reaches_iff_visits]
  exact ⟨fun h t ⟨path, hv⟩ => h path t hv, fun h path t hv => h t ⟨path, hv⟩⟩

theorem bodyValue_succeeds_iff {m : Method} :
    (∃ value, bodyValue table m = .ok value) ↔
      ∀ name, m.bodyRef? = some name →
        ∃ value, expand table [] (.referenceTo name) = .ok value := by
  unfold bodyValue
  cases hb : m.bodyRef? with
  | none => simp
  | some name =>
    have hr := Schema.shape_referenceTo (Method.isEmpty_of_bodyRef? hb)
    simp [Outcomes.map_succeeds_iff, expand_of_reference hr]

theorem call_succeeds_iff {site : CallSite} :
    (∃ call, Call.of table site = .ok call) ↔
      ∀ s ∈ site.method.valued, ∃ value, expand table [] s = .ok value := by
  rw [Method.forall_valued_iff, ← bodyValue_succeeds_iff]
  have ha : (∃ arguments, Entries.collect ((Entries.sortByKey (orEmpty
      site.method.parameters)).mapValues (expand table [])) = .ok arguments) ↔
      ∀ e ∈ orEmpty site.method.parameters, ∃ value, expand table [] e.2 = .ok value := by
    simp only [Entries.collect_mapValues_succeeds_iff, Entries.mem_sortByKey]
  rw [← ha]
  simp only [Call.of, Outcomes.bind_eq_ok_iff]
  constructor
  · rintro ⟨_, arguments, ha, body, hb, _⟩
    exact ⟨⟨arguments, ha⟩, body, hb⟩
  · rintro ⟨⟨arguments, ha⟩, body, hb⟩
    exact ⟨_, arguments, ha, body, hb, rfl⟩

/-- The stub is written exactly if all that its calls come to is sound. -/
theorem render_succeeds_iff :
    (∃ text, render api = .ok text) ↔
      ∀ site ∈ callSites api, ∀ s ∈ site.method.valued,
        ∀ t, Reaches (.ofDescription api) s t → Sound (.ofDescription api) t := by
  rw [render_eq, Outcomes.map_succeeds_iff, calls, Outcomes.mapM_succeeds_iff]
  simp only [call_succeeds_iff, expand_succeeds_iff_forall_reaches]

end Stub

/-! ## What the declarations check -/

namespace Declarations

variable {api : Description} {excluded : List String} {o : Outline}

/-- A body that is declared is a reference with a type. -/
theorem typed_of_bodyType {table : SchemaTable} {m : Method} {body : Option StructuralType}
    (h : bodyType table m = .ok body) {name : String} (hb : m.bodyRef? = some name) :
    ∃ type, StructuralType.ofSchema table (.referenceTo name) = .ok type := by
  rw [bodyType, hb] at h
  obtain ⟨type, ht, _⟩ := Outcomes.map_eq_ok_iff.mp h
  rw [StructuralType.ofSchema_eq, Schema.shape_referenceTo (Method.isEmpty_of_bodyRef? hb)]
  exact ⟨type, ht⟩

/-- The schemas that a call gives values for have types, if the method is declared. -/
theorem typed_of_signature {m : Method} (hm : (keys (orEmpty m.parameters)).Nodup)
    {signature : Signature} (h : Signature.of api m = .ok signature) :
    ∀ s ∈ m.valued, ∃ type, StructuralType.ofSchema (.ofDescription api) s = .ok type := by
  obtain ⟨_, _, _, _, hr, hb, _⟩ := Signature.of_eq_ok h
  rw [Method.forall_valued_iff]
  constructor
  · intro e he
    -- The method's own schema is the one that holds.
    have hl : (requestParameters api m).lookup e.1 = _ := Entries.lookup_merge hm e.1
    rw [Entries.lookup_of_mem hm he, Option.some_or] at hl
    have hmem := Entries.mem_of_lookup hl
    obtain ⟨_, _, type, ht, _⟩ := Outcomes.exists_right_of_mem
      (StructuralType.fieldsOf_eq_ok hr) (Entries.mem_sortByKey.mpr hmem)
    exact ⟨type, ht⟩
  · exact fun name hn => typed_of_bodyType hb hn

theorem typed_of_site (hk : api.DistinctKeys) (ho : Outline.of api excluded = .ok o)
    {site : Stub.CallSite} (hs : site ∈ Stub.callSites api) :
    ∀ s ∈ site.method.valued,
      ∃ type, StructuralType.ofSchema (.ofDescription api) s = .ok type := by
  obtain ⟨p, hp, _, hm⟩ := ((Stub.enumerates_callSites hk.resources).mem_iff site).mp hs
  obtain ⟨i, _, hi⟩ := Outcomes.exists_right_of_mem (Outline.of_eq_ok ho).2.1
    (Resource.mem_places.mpr hp)
  obtain ⟨signature, _, hsig⟩ := Outcomes.exists_right_of_mem (ResourceInterface.of_eq_ok hi).2.1
    (Entries.mem_sortByKey.mpr hm)
  exact typed_of_signature ((hk.resources.of_within hp).2.1 _ hm) hsig

/-- A named object that declares something has a type. -/
theorem typed_of_declared (ho : Outline.of api excluded = .ok o) {name : String}
    {target : Schema} (hl : (SchemaTable.ofDescription api).lookup name = some target)
    (hobject : target.type = some "object") (hd : target.isEmpty = false) :
    ∃ type, StructuralType.ofSchema (.ofDescription api) target = .ok type := by
  have hm : (name, target) ∈ declaredSchemas (.ofDescription api) := by
    rw [declaredSchemas, List.mem_filter, Entries.mem_sortByKey]
    exact ⟨Entries.mem_of_lookup hl, by simp [hd]⟩
  obtain ⟨i, _, hi⟩ := Outcomes.exists_right_of_mem (Outline.of_eq_ok ho).1 hm
  exact Stub.typed_of_interface hobject hd (SchemaInterface.of_eq_ok hi).2

end Declarations

/-! ## Both files -/

/-- The stub of a description comes to a reference to the name. -/
def Stub.Follows (api : Description) (name : String) : Prop :=
  ∃ site ∈ callSites api, ∃ s ∈ site.method.valued, Refers (.ofDescription api) s name

/-- Where there is a declaration file and every type keyword is known, there is a stub exactly if
each named schema that its calls come to is an object that declares something or is sound with all
that is inside it. -/
theorem stub_succeeds_iff {api : Description} {options : DeclarationOptions} {text : String}
    (hk : api.DistinctKeys) (known : api.KnownKinds)
    (h : Declarations.render api options = .ok text) :
    (∃ stub, Stub.render api = .ok stub) ↔
      ∀ name target, Stub.Follows api name →
        (SchemaTable.ofDescription api).lookup name = some target →
        target.type = some "object" ∧ target.isEmpty = false ∨
          ∀ t, target.Values t → Stub.Sound (.ofDescription api) t := by
  rw [Declarations.render_eq] at h
  obtain ⟨o, ho, _⟩ := Outcomes.map_eq_ok_iff.mp h
  rw [Stub.render_succeeds_iff]
  constructor
  · rintro hsound name target ⟨site, hsite, s, hs, hr⟩ hl
    exact .inr fun t ht => hsound site hsite s hs t (Stub.reaches_iff.mpr
      (.inr ⟨name, target, hr, hl, ht⟩))
  · intro hnamed site hsite s hs t ht
    rcases Stub.reaches_iff.mp ht with hv | ⟨name, target, hr, hl, hv⟩
    · -- Inside a parameter or a body, which the signature declares.
      obtain ⟨type, htype⟩ := Declarations.typed_of_site hk ho hsite s hs
      refine Stub.sound_of_values htype ?_ hv
      obtain ⟨p, hp, _, hm⟩ := ((Stub.enumerates_callSites hk.resources).mem_iff site).mp hsite
      have hparameters := known.methods p hp _ hm
      refine Method.forall_valued_iff.mpr ⟨hparameters, fun name _ => ?_⟩ s hs
      exact .intro nofun nofun nofun nofun
    · rcases hnamed name target ⟨site, hsite, s, hs, hr⟩ hl with ⟨hobject, hd⟩ | hall
      · obtain ⟨type, htype⟩ := Declarations.typed_of_declared ho hl hobject hd
        exact Stub.sound_of_values htype (known.schemas _ (Entries.mem_of_lookup hl)) hv
      · exact hall t hv

/-! Notes that refer to a schema of tags, which declares nothing whatever it is. -/

namespace Notes

def note : Schema :=
  { Schema.blank with
    type := some "object"
    properties := some [("parent", .referenceTo "Note"), ("tags", .referenceTo "Tags")] }

def create : Method :=
  { Method.blank with id := some "notes.notes.create", request := some ⟨some "Note", none⟩ }

def api (tags : Schema) : Description :=
  { Description.blank "notes" "v1" with
    schemas := some [("Note", note), ("Tags", tags)]
    resources := some [("notes", ⟨some [("create", create)], none⟩)] }

def words : Schema :=
  { Schema.blank with
    type := some "array"
    items := some { Schema.blank with type := some "string" } }

theorem distinctKeys (tags : Schema) : (api tags).DistinctKeys where
  schemas := show ["Note", "Tags"].Nodup by decide
  parameters := .nil
  resources := by
    refine .intro (show ["notes"].Nodup by decide) ?_ ?_ fun e he => ?_
    · intro e he
      cases List.mem_singleton.mp he
      decide
    · intro e he m hm
      cases List.mem_singleton.mp he
      cases List.mem_singleton.mp hm
      exact .nil
    · cases List.mem_singleton.mp he
      exact .intro .nil nofun nofun nofun

theorem knownKinds_referenceTo (name : String) : (Schema.referenceTo name).KnownKinds :=
  .intro nofun nofun nofun nofun

theorem knownKinds_words : words.KnownKinds := by
  refine .intro (by simp [words, typeKeywords]) (fun t ht => ?_) nofun nofun
  cases ht
  exact .intro (by simp [typeKeywords]) nofun nofun nofun

theorem knownKinds {tags : Schema} (h : tags.KnownKinds) : (api tags).KnownKinds where
  schemas := by
    rintro e he
    rcases List.mem_cons.mp he with rfl | he
    · refine .intro (by simp [note, typeKeywords]) nofun (fun entries hp e he => ?_) nofun
      cases hp
      rcases List.mem_cons.mp he with rfl | he
      · exact knownKinds_referenceTo _
      · cases List.mem_singleton.mp he
        exact knownKinds_referenceTo _
    · cases List.mem_singleton.mp he
      exact h
  parameters := nofun
  methods := by
    intro p hp m hm e he
    have hmem : p ∈ Declarations.resourcePlaces (api tags) .childrenFirst :=
      Resource.mem_places.mpr hp
    cases List.mem_singleton.mp hmem
    cases List.mem_singleton.mp hm
    cases he

theorem words_written :
    ∃ declarations stub, Declarations.render (api words) Drive.options = .ok declarations ∧
      Stub.render (api words) = .ok stub := by
  obtain ⟨o, ho⟩ : ∃ o, Declarations.Outline.of (api words) Drive.options.excludedResources =
      .ok o := ⟨_, rfl⟩
  have hd : Declarations.render (api words) Drive.options =
      .ok (o.text (api words) Drive.options) := by
    rw [Declarations.render_eq, ho]; rfl
  have hiff := stub_succeeds_iff (distinctKeys words) (knownKinds knownKinds_words) hd
  obtain ⟨stub, hs⟩ := hiff.mpr fun name target _ hl => by
    rcases List.mem_cons.mp (Entries.mem_of_lookup hl) with he | he
    · cases he
      exact .inl ⟨rfl, rfl⟩
    · cases List.mem_singleton.mp he
      exact .inr fun t => Stub.sound_of_values rfl knownKinds_words
  exact ⟨_, stub, hd, hs⟩

/-- A value of the note comes to its tags, and there is nothing to go by. -/
theorem expandReference_note :
    Stub.expandReference (SchemaTable.ofDescription (api Schema.blank)) [] "Note" =
      .error (.schema .shapeless) := by
  have hp : Stub.expand (SchemaTable.ofDescription (api Schema.blank)) ["Note"]
      (.referenceTo "Note") = .ok .undefined := by
    rw [Stub.expand_of_reference rfl, Stub.expandReference_of_mem (by simp)]
  have ht : Stub.expand (SchemaTable.ofDescription (api Schema.blank)) ["Note"]
      (.referenceTo "Tags") = .error (.schema .shapeless) := by
    rw [Stub.expand_of_reference rfl, Stub.expandReference_of_lookup (by simp) rfl,
      Stub.expand_of_fault rfl]
  rw [Stub.expandReference_of_lookup (by simp) rfl, Stub.expand_of_object rfl]
  change Except.map _ (Entries.collect [("parent", Stub.expand _ _ (.referenceTo "Note")),
    ("tags", Stub.expand _ _ (.referenceTo "Tags"))]) = _
  rw [hp, ht]
  rfl

/-- Tags of which nothing is said are free to be anything, and have no value. -/
theorem shapeless_tags_declared_only :
    (∃ text, Declarations.render (api Schema.blank) Drive.options = .ok text) ∧
      (api Schema.blank).KnownKinds ∧
      Stub.render (api Schema.blank) = .error (.schema .shapeless) := by
  obtain ⟨o, ho⟩ : ∃ o, Declarations.Outline.of (api Schema.blank)
      Drive.options.excludedResources = .ok o := ⟨_, rfl⟩
  have hb : Stub.bodyValue (SchemaTable.ofDescription (api Schema.blank)) create =
      .error (.schema .shapeless) := by
    change Except.map some (Stub.expandReference _ [] "Note") = _
    rw [expandReference_note]
    rfl
  have hc : Stub.calls (api Schema.blank) = .error (.schema .shapeless) := by
    change (Stub.bodyValue _ create >>= _) >>= _ = _
    rw [hb]
    rfl
  have hd : Declarations.render (api Schema.blank) Drive.options =
      .ok (o.text (api Schema.blank) Drive.options) := by
    rw [Declarations.render_eq, ho]; rfl
  refine ⟨⟨_, hd⟩, knownKinds (.intro nofun nofun nofun nofun), ?_⟩
  rw [Stub.render_eq, hc]; rfl

end Notes

end ApiTypings
