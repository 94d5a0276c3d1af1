import ApiTypings.Proofs.TreeCoverage

/-! # Interfaces of one name

Interfaces of one name are one interface to whoever reads a declaration file. A schema gives its
interface its key, a resource the last step of the path that leads to it, so schemas never meet each
other, while resources meet wherever two paths end alike. -/

namespace ApiTypings

open Entries (orEmpty keys)

namespace Naming

/-- The interface of a resource tells its name but for the case of the first letter. -/
theorem resourceInterface_eq_iff {a b : String} :
    resourceInterface a = resourceInterface b ↔ capitalize a = capitalize b := by
  unfold resourceInterface
  constructor
  · intro h
    have hl := congrArg String.toList h
    simp only [String.toList_append] at hl
    exact String.toList_inj.mp (List.append_cancel_right hl)
  · intro h
    rw [h]

end Naming

namespace Resource

/-- Two resources that give the same name to their interfaces are one. -/
def NamedApart (resources : Entries Resource) : Prop :=
  ∀ p q, Place.Within resources [] p → Place.Within resources [] q →
    Naming.capitalize p.name = Naming.capitalize q.name → p.path = q.path

/-- In a list of all places no interface is named twice exactly if the tree names its resources
apart. -/
theorem nodup_names_iff {order : Order} {resources : Entries Resource} {ps : List Place}
    (h : Enumerates order resources ps) :
    (ps.map fun p => Naming.resourceInterface p.name).Nodup ↔ NamedApart resources := by
  have hp : ps.Nodup := h.nodup.of_map
  rw [List.nodup_map_iff_inj_on hp]
  simp only [h.mem_iff, Naming.resourceInterface_eq_iff]
  constructor
  · intro hinj p q hpw hqw hn
    rw [hinj p hpw q hqw hn]
  · intro hn p hpw q hqw he
    have hpath := hn p q hpw hqw he
    exact List.inj_on_of_nodup_map h.nodup ((h.mem_iff p).mpr hpw) ((h.mem_iff q).mpr hqw) hpath

end Resource

namespace Declarations

/-- The names of all interfaces of a file, in the order of the file. -/
def Outline.interfaceNames (o : Outline) : List String :=
  o.schemas.map SchemaInterface.name ++ o.resources.map ResourceInterface.name

section
variable {api : Description} {excluded : List String} {o : Outline}

theorem nodup_declaredSchemas {table : SchemaTable} (h : (keys table).Nodup) :
    (keys (declaredSchemas table)).Nodup :=
  (Entries.nodup_sortByKey h).sublist (List.filter_sublist.map Prod.fst)

/-- No two schemas have one interface. -/
theorem nodup_schema_names (hk : api.DistinctKeys) (h : Outline.of api excluded = .ok o) :
    (o.schemas.map SchemaInterface.name).Nodup := by
  rw [Outline.schema_names h]
  exact nodup_declaredSchemas hk.schemas

theorem nodup_resource_names_iff (hk : api.DistinctKeys) (h : Outline.of api excluded = .ok o) :
    (o.resources.map ResourceInterface.name).Nodup ↔
      Resource.NamedApart (orEmpty api.resources) := by
  rw [Outline.resource_names h]
  exact Resource.nodup_names_iff (Resource.enumerates_places .childrenFirst hk.resources)

/-- Where a schema and a resource have one interface, the schema has the name that is given to the
interface of the resource. -/
theorem disjoint_names_iff (h : Outline.of api excluded = .ok o) :
    (∀ a ∈ o.schemas.map SchemaInterface.name, ∀ b ∈ o.resources.map ResourceInterface.name,
        a ≠ b) ↔
      ∀ p, Resource.Place.Within (orEmpty api.resources) [] p →
        ¬ (SchemaTable.ofDescription api).Declares (Naming.resourceInterface p.name) := by
  rw [Outline.schema_names h, Outline.resource_names h]
  constructor
  · intro hd p hp hs
    have hm := mem_declaredSchemas.mpr hs
    exact hd _ hm _ (List.mem_map.mpr ⟨p, Resource.mem_places.mpr hp, rfl⟩) rfl
  · intro hd a ha b hb he
    obtain ⟨p, hp, rfl⟩ := List.mem_map.mp hb
    subst he
    exact hd p (Resource.mem_places.mp hp) (mem_declaredSchemas.mp ha)

end

/-- All interfaces of a declaration file have names of their own exactly if the tree names its
resources apart and no schema that declares something is called as the interface of a resource
is. -/
theorem interfaces_distinct_iff {api : Description} {options : DeclarationOptions} {text : String}
    (hk : api.DistinctKeys) (h : render api options = .ok text) :
    ∃ o, Outline.of api options.excludedResources = .ok o ∧ o.text api options = text ∧
      (o.schemas.map SchemaInterface.name).Nodup ∧
      (o.interfaceNames.Nodup ↔ Resource.NamedApart (orEmpty api.resources) ∧
        ∀ p, Resource.Place.Within (orEmpty api.resources) [] p →
          ¬ (SchemaTable.ofDescription api).Declares (Naming.resourceInterface p.name)) := by
  rw [render_eq] at h
  obtain ⟨o, ho, ht⟩ := Outcomes.map_eq_ok_iff.mp h
  have hs := nodup_schema_names hk ho
  refine ⟨o, ho, ht, hs, ?_⟩
  rw [Outline.interfaceNames, List.nodup_append, nodup_resource_names_iff hk ho,
    disjoint_names_iff ho]
  exact ⟨fun ⟨_, hr, hd⟩ => ⟨hr, hd⟩, fun ⟨hr, hd⟩ => ⟨hs, hr, hd⟩⟩

end Declarations

namespace Drive

open Declarations

theorem interfaces_apart :
    ∃ (text : String) (o : Outline), render api options = .ok text ∧ o.text api options = text ∧
      o.interfaceNames.Nodup := by
  obtain ⟨o, ho⟩ : ∃ o, Outline.of api options.excludedResources = .ok o := ⟨_, rfl⟩
  have hr : render api options = .ok (o.text api options) := by rw [render_eq, ho]; rfl
  obtain ⟨o', _, ht, _, hiff⟩ := interfaces_distinct_iff distinctKeys hr
  -- The tree has two places: the comments of files, and the files themselves.
  have hplaces : ∀ p, Resource.Place.Within (orEmpty api.resources) [] p →
      p.path = ["files", "comments"] ∧ p.name = "comments" ∨
        p.path = ["files"] ∧ p.name = "files" := by
    intro p hp
    have hmem : p ∈ resourcePlaces api .childrenFirst := Resource.mem_places.mpr hp
    rcases List.mem_cons.mp hmem with rfl | hp
    · exact .inl ⟨rfl, rfl⟩
    · cases List.mem_singleton.mp hp
      exact .inr ⟨rfl, rfl⟩
  refine ⟨_, o', hr, ht, hiff.mpr ⟨?_, ?_⟩⟩
  · intro p q hp hq hn
    rcases hplaces p hp with ⟨hp, hpn⟩ | ⟨hp, hpn⟩ <;>
      rcases hplaces q hq with ⟨hq, hqn⟩ | ⟨hq, hqn⟩
    · rw [hp, hq]
    · rw [hpn, hqn] at hn
      exact absurd hn (by decide)
    · rw [hpn, hqn] at hn
      exact absurd hn (by decide)
    · rw [hp, hq]
  · rintro p hp ⟨schema, hs, _⟩
    have hk : Naming.resourceInterface p.name ∈ ["Folder", "File", "Nothing"] :=
      List.mem_map_of_mem (f := Prod.fst) hs
    rcases hplaces p hp with ⟨_, hn⟩ | ⟨_, hn⟩ <;> rw [hn] at hk <;> exact absurd hk (by decide)

end Drive

/-! Files of an archive, and the files of its drafts. -/

namespace Archive

def files (method : String) : Resource :=
  ⟨some [(method, { Method.blank with id := some ("archive.files." ++ method) })], none⟩

def api : Description :=
  { Description.blank "archive" "v1" with
    resources := some [("drafts", ⟨none, some [("files", files "get")]⟩), ("files", files "list")] }

open Declarations

theorem files_interface_declared_twice :
    ∃ (text : String) (o : Outline), render api Drive.options = .ok text ∧
      Outline.of api Drive.options.excludedResources = .ok o ∧ o.text api Drive.options = text ∧
      o.interfaceNames = ["FilesResource", "DraftsResource", "FilesResource"] ∧
      ¬ o.interfaceNames.Nodup := by
  obtain ⟨o, ho, hn⟩ : ∃ o, Outline.of api Drive.options.excludedResources = .ok o ∧
    o.interfaceNames = ["FilesResource", "DraftsResource", "FilesResource"] := ⟨_, rfl, by decide⟩
  have hr : render api Drive.options = .ok (o.text api Drive.options) := by rw [render_eq, ho]; rfl
  exact ⟨_, o, hr, ho, rfl, hn, by rw [hn]; decide⟩

end Archive

end ApiTypings
