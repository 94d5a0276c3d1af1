import ApiTypings.Proofs.DeclarationOutline
import ApiTypings.Proofs.ReorderedDescription
import ApiTypings.Proofs.SchemaReach

/-! # Declaration files are closed

A name is printed where a type refers to a schema, where a method sends one or answers with one, and
where a resource has children. Whether it is printed is decided by the lookup of the name, and
whether an interface is declared by the schema itself; a file declares every interface it names
because the two tests are about one entry of the table. -/

namespace ApiTypings

namespace SchemaTable

/-- A schema of this name declares something. -/
def Declares (table : SchemaTable) (name : String) : Prop :=
  ∃ schema, (name, schema) ∈ table ∧ schema.isEmpty = false

theorem declares_of_isEmpty {table : SchemaTable} {name : String}
    (h : table.isEmpty name = .ok false) : table.Declares name := by
  obtain ⟨schema, hs, he⟩ := Outcomes.map_eq_ok_iff.mp h
  unfold resolve at hs
  split at hs
  next hl => cases hs; exact ⟨_, Entries.mem_of_lookup hl, he⟩
  next => cases hs

end SchemaTable

/-! ## Names in types -/

namespace StructuralType

/-- The type names the interface of a schema. -/
inductive Mentions (name : String) : StructuralType → Prop
  | interface : Mentions name (.interface name)
  | item {item : StructuralType} : Mentions name item → Mentions name (.array item)
  | field {fields : List (Field StructuralType)} {index : Option StructuralType}
      {field : Field StructuralType} : field ∈ fields → Mentions name field.type →
      Mentions name (.object fields index)
  | index {fields : List (Field StructuralType)} {type : StructuralType} : Mentions name type →
      Mentions name (.object fields (some type))
  | value {value : StructuralType} : Mentions name value → Mentions name (.record value)

variable {table : SchemaTable} {name : String} {type : StructuralType}

theorem not_mentions_primitiveOf (kind : String) (repeated : Bool) :
    ¬ (primitiveOf kind repeated).Mentions name := by
  cases repeated <;> exact nofun

/-- A reference is printed by its name only where the schema declares something. -/
theorem declares_of_reference {target : String} (h : reference table target = .ok type)
    (hm : type.Mentions name) : table.Declares name := by
  obtain ⟨empty, he, rfl⟩ := Outcomes.map_eq_ok_iff.mp h
  cases empty with
  | true => cases hm
  | false => cases hm; exact SchemaTable.declares_of_isEmpty he

theorem declares_of_fields {properties : Entries Schema} {fields : List (Field StructuralType)}
    (hp : ∀ e ∈ properties, ∀ t, ofSchema table e.2 = .ok t → t.Mentions name →
      table.Declares name)
    (h : fieldsOfProperties table properties = .ok fields) {field : Field StructuralType}
    (hf : field ∈ fields) (hm : field.type.Mentions name) : table.Declares name := by
  obtain ⟨e, he, t, ht, rfl⟩ := Outcomes.exists_right_of_mem (fieldsOf_eq_ok h).flip hf
  exact hp e (Entries.mem_sortByKey.mp he) t ht hm

theorem declares_of_object {properties : Entries Schema} {additional : Option Schema}
    (hp : ∀ e ∈ properties, ∀ t, ofSchema table e.2 = .ok t → t.Mentions name →
      table.Declares name)
    (ha : ∀ s ∈ additional, ∀ t, ofSchema table s = .ok t → t.Mentions name → table.Declares name)
    (h : objectOf (properties.mapValues fun s => (s, ofSchema table s))
      (additional.map fun s => (s, ofSchema table s)) = .ok type)
    (hm : type.Mentions name) : table.Declares name := by
  rw [objectOf] at h
  cases hf : fieldsOf (properties.mapValues fun s => (s, ofSchema table s)) with
  | error fault => rw [hf] at h; cases h
  | ok fields =>
    rw [hf] at h
    cases additional with
    | none =>
      cases h
      cases hm with
      | field hmem hm => exact declares_of_fields hp hf hmem hm
    | some s =>
      cases ht : ofSchema table s with
      | error fault => rw [Option.map_some, ht] at h; cases h
      | ok t =>
        rw [Option.map_some, ht] at h
        cases h
        cases hm with
        | field hmem hm => exact declares_of_fields hp hf hmem hm
        | index hm => exact ha s rfl t ht hm

theorem declares_of_schema {s : Schema} (h : ofSchema table s = .ok type)
    (hm : type.Mentions name) : table.Declares name := by
  induction s using Schema.shapeInduction generalizing type with
  | step s ih =>
    rw [ofSchema_eq] at h
    cases hs : s.shape with
    | error fault => rw [hs] at h; cases h
    | ok shape =>
      rw [hs] at h
      cases shape with
      | primitive kind repeated => cases h; exact absurd hm (not_mentions_primitiveOf kind repeated)
      | array item =>
        obtain ⟨t, ht, rfl⟩ := Outcomes.map_eq_ok_iff.mp h
        cases hm with
        | item hm => exact ih _ hs item (List.mem_singleton_self _) ht hm
      | object properties additional =>
        refine declares_of_object (fun e he t => ?_) (fun p hp t => ?_) h hm
        · exact ih _ hs e.2 (List.mem_append_left _ (List.mem_map_of_mem he))
        · exact ih _ hs p (List.mem_append_right _ (Option.mem_toList.mpr hp))
      | map values =>
        obtain ⟨t, ht, rfl⟩ := Outcomes.map_eq_ok_iff.mp h
        cases hm with
        | value hm => exact ih _ hs values (List.mem_singleton_self _) ht hm
      | reference target => exact declares_of_reference h hm

theorem declares_of_interface {s : Schema} (h : ofInterface table s = .ok type)
    (hm : type.Mentions name) : table.Declares name :=
  declares_of_object (fun _ _ _ => declares_of_schema) (fun _ _ _ => declares_of_schema) h hm

end StructuralType

/-! ## Names in a file -/

namespace Declarations

inductive Signature.Mentions (name : String) (s : Signature) : Prop
  | request {field : Field StructuralType} : field ∈ s.request → field.type.Mentions name →
      Mentions name s
  | body {type : StructuralType} : s.body = some type → type.Mentions name → Mentions name s
  | answer : s.answer = .interface name → Mentions name s

/-- The file names the interface of a schema. -/
inductive Outline.Mentions (name : String) (o : Outline) : Prop
  | schema {i : SchemaInterface} : i ∈ o.schemas → i.type.Mentions name → Mentions name o
  | method {i : ResourceInterface} {s : Signature} : i ∈ o.resources → s ∈ i.methods →
      s.Mentions name → Mentions name o

structure Outline.Closed (o : Outline) : Prop where
  named : ∀ name, o.Mentions name → name ∈ o.schemas.map SchemaInterface.name
  children : ∀ i ∈ o.resources, ∀ child ∈ i.children,
    child.2 ∈ o.resources.map ResourceInterface.name
  constants : ∀ constant ∈ o.constants, constant.2 ∈ o.resources.map ResourceInterface.name

theorem Signature.declares_of_mentions {api : Description} {method : Method} {s : Signature}
    {name : String} (h : Signature.of api method = .ok s) (hm : s.Mentions name) :
    (SchemaTable.ofDescription api).Declares name := by
  obtain ⟨_, _, _, _, hr, hb, ha⟩ := Signature.of_eq_ok h
  cases hm with
  | request hf hm =>
    refine StructuralType.declares_of_fields (fun e _ t => ?_) hr hf hm
    exact StructuralType.declares_of_schema
  | body hs hm =>
    rw [hs, bodyType] at hb
    split at hb
    · cases hb
    · obtain ⟨type, ht, he⟩ := Outcomes.map_eq_ok_iff.mp hb
      cases he
      exact StructuralType.declares_of_reference ht hm
  | answer hs =>
    rw [hs] at ha
    unfold Answer.of at ha
    split at ha
    · cases ha
    split at ha
    · cases ha
    obtain ⟨empty, he, hn⟩ := Outcomes.map_eq_ok_iff.mp ha
    cases empty with
    | true => cases hn
    | false => cases hn; exact SchemaTable.declares_of_isEmpty he

section
variable {api : Description} {excluded : List String} {o : Outline}

theorem Outline.declares_of_mentions {name : String} (h : Outline.of api excluded = .ok o)
    (hm : o.Mentions name) : (SchemaTable.ofDescription api).Declares name := by
  obtain ⟨hs, hr, _⟩ := Outline.of_eq_ok h
  cases hm with
  | schema hi hm =>
    obtain ⟨e, _, he⟩ := Outcomes.exists_right_of_mem hs.flip hi
    exact StructuralType.declares_of_interface (SchemaInterface.of_eq_ok he).2 hm
  | method hi hmem hm =>
    obtain ⟨p, _, hp⟩ := Outcomes.exists_right_of_mem hr.flip hi
    obtain ⟨_, hmethods, _⟩ := ResourceInterface.of_eq_ok hp
    obtain ⟨e, _, he⟩ := Outcomes.exists_right_of_mem hmethods.flip hmem
    exact Signature.declares_of_mentions he hm

theorem Outline.schema_names (h : Outline.of api excluded = .ok o) :
    o.schemas.map SchemaInterface.name =
      Entries.keys (declaredSchemas (SchemaTable.ofDescription api)) := by
  exact Outcomes.map_eq_of_forall₂
    ((Outline.of_eq_ok h).1.imp fun _ _ he => (SchemaInterface.of_eq_ok he).1)

theorem Outline.resource_names (h : Outline.of api excluded = .ok o) :
    o.resources.map ResourceInterface.name =
      (resourcePlaces api .childrenFirst).map fun p => Naming.resourceInterface p.name :=
  Outcomes.map_eq_of_forall₂
    ((Outline.of_eq_ok h).2.1.imp fun _ _ hp => (ResourceInterface.of_eq_ok hp).1)

/-- A resource that stands in the tree has its interface in the file. -/
theorem Outline.declares_of_within (h : Outline.of api excluded = .ok o) {above : List String}
    {name : String} {r : Resource}
    (hp : Resource.Place.Within (Entries.orEmpty api.resources) [] ⟨above, name, r⟩) :
    Naming.resourceInterface name ∈ o.resources.map ResourceInterface.name := by
  rw [resource_names h]
  exact List.mem_map.mpr ⟨_, Resource.mem_places.mpr hp, rfl⟩

theorem mem_declaredSchemas {table : SchemaTable} {name : String} :
    name ∈ Entries.keys (declaredSchemas table) ↔ table.Declares name := by
  simp [declaredSchemas, Entries.keys, Entries.mem_sortByKey, SchemaTable.Declares]

theorem Outline.closed (h : Outline.of api excluded = .ok o) : o.Closed := by
  obtain ⟨_, hr, hc⟩ := Outline.of_eq_ok h
  constructor
  case named =>
    intro name hm
    rw [schema_names h, mem_declaredSchemas]
    exact declares_of_mentions h hm
  case children =>
    intro i hi child hchild
    obtain ⟨p, hp, he⟩ := Outcomes.exists_right_of_mem hr.flip hi
    rw [(ResourceInterface.of_eq_ok he).2.2] at hchild
    obtain ⟨e, hmem, rfl⟩ := List.mem_map.mp hchild
    exact declares_of_within h
      ((Resource.mem_places.mp hp).child (Entries.mem_sortByKey.mp hmem))
  case constants =>
    intro constant hconstant
    rw [hc] at hconstant
    obtain ⟨e, hmem, rfl⟩ := List.mem_map.mp hconstant
    exact declares_of_within h
      (.top (Entries.mem_sortByKey.mp (List.mem_filter.mp hmem).1))

end

/-- A declaration file is the print of an outline that declares what it names. Its schema interfaces
are those of the schemas that declare something, each once. -/
theorem render_closed {api : Description} {options : DeclarationOptions} {text : String}
    (h : render api options = .ok text) :
    ∃ o, Outline.of api options.excludedResources = .ok o ∧ o.text api options = text ∧ o.Closed ∧
      (o.schemas.map SchemaInterface.name).Perm (Entries.keys
        ((SchemaTable.ofDescription api).filter fun (_, schema) => !schema.isEmpty)) := by
  rw [render_eq] at h
  obtain ⟨o, ho, ht⟩ := Outcomes.map_eq_ok_iff.mp h
  refine ⟨o, ho, ht, Outline.closed ho, ?_⟩
  rw [Outline.schema_names ho]
  exact ((Entries.sortByKey_perm _).filter _).map _

end Declarations

/-! Folders and files that name each other, and a schema that declares nothing. -/

namespace Drive

def text : Schema := { Schema.blank with type := some "string" }

def reference (name : String) : Schema := { Schema.blank with ref := some name }

def schemas : Entries Schema :=
  [("Folder", { Schema.blank with
      type := some "object"
      properties := some [("files", { Schema.blank with
        type := some "array"
        items := some (reference "File") })] }),
    ("File", { Schema.blank with
      type := some "object"
      properties := some [("name", text), ("parent", reference "Folder")] }),
    ("Nothing", text)]

def list : Method :=
  { Method.blank with
    id := some "drive.files.list"
    parameters := some [("q", text)]
    response := some ⟨some "Folder", none⟩ }

def get : Method :=
  { Method.blank with
    id := some "drive.files.comments.get"
    parameters := some [("key", text), ("id", text)] }

def api : Description :=
  { Description.blank "drive" "v3" with
    parameters := some [("key", text)]
    schemas := some schemas
    resources := some [("files",
      ⟨some [("list", list)], some [("comments", ⟨some [("get", get)], none⟩)]⟩)] }

def options : DeclarationOptions := ⟨"https://drive.example/rest", [], "4.1", []⟩

open Declarations

theorem folder_declared :
    ∃ (text : String) (o : Outline), render api options = .ok text ∧
      o.text api options = text ∧ o.Closed ∧ o.Mentions "Folder" ∧
      o.schemas.map SchemaInterface.name = ["File", "Folder"] := by
  obtain ⟨o, ho, hn, hm⟩ : ∃ o, Outline.of api options.excludedResources = .ok o ∧
      o.schemas.map SchemaInterface.name = ["File", "Folder"] ∧
      ∃ i ∈ o.resources, ∃ s ∈ i.methods, s.answer = .interface "Folder" :=
    ⟨_, rfl, rfl, _, .tail _ (.head _), _, .head _, rfl⟩
  have hr : render api options = .ok (o.text api options) := by rw [render_eq, ho]; rfl
  obtain ⟨o', ho', ht, hc, _⟩ := render_closed hr
  cases ho.symm.trans ho'
  obtain ⟨i, hi, s, hs, ha⟩ := hm
  exact ⟨_, o, hr, ht, hc, .method hi hs (.answer ha), hn⟩

end Drive

end ApiTypings
