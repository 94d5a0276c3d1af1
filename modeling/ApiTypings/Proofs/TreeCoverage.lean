import ApiTypings.Proofs.DeclarationClosure
import ApiTypings.Proofs.StubCalls

/-! # Both files cover the tree

The declaration file takes a resource after those below it and the usage stub before them. Each
takes every resource, and every method of it, exactly once: no place of the tree and no key of a map
is lost or met again, however deep the tree and wherever a map is missing. -/

namespace ApiTypings

open Entries (InKeyOrder orEmpty keys)

/-- No map has a key twice: neither those of schemas and of common parameters, nor those of the
tree. It is so for every description that is loaded. -/
structure Description.DistinctKeys (api : Description) : Prop where
  schemas : (keys (SchemaTable.ofDescription api)).Nodup
  parameters : (keys (orEmpty api.parameters)).Nodup
  resources : Resource.DistinctKeys (orEmpty api.resources)

/-! ## Declarations -/

namespace Declarations

/-- What a method takes is declared with one field for each name that it has or that all methods
have, in ascending order; where both have it, the field is that of the method's own schema. -/
structure Signature.Declares (api : Description) (m : Method) (s : Signature) : Prop where
  name : ∃ id, nonEmpty? m.id = some id ∧ s.name = Naming.lastSegment id
  ascending : s.request.Pairwise fun a b => a.name < b.name
  names : ∀ name, name ∈ s.request.map Field.name ↔
    name ∈ keys (orEmpty api.parameters) ∨ name ∈ keys (orEmpty m.parameters)
  fields : ∀ field ∈ s.request, ∃ schema type,
    ((orEmpty m.parameters).lookup field.name).or ((orEmpty api.parameters).lookup field.name) =
        some schema ∧
      StructuralType.ofSchema (SchemaTable.ofDescription api) schema = .ok type ∧
      StructuralType.fieldOf field.name schema type = field

/-- The interface of a resource has its methods and its children, both in key order. -/
structure ResourceInterface.Declares (api : Description) (p : Resource.Place)
    (i : ResourceInterface) : Prop where
  name : i.name = Naming.resourceInterface p.name
  methods : ∃ ms, InKeyOrder p.methods ms ∧
    List.Forall₂ (fun e s => Signature.Declares api e.2 s) ms i.methods
  children : ∃ cs, InKeyOrder p.children cs ∧
    i.children = cs.map fun e => (e.1, Naming.resourceInterface e.1)

/-- The interfaces of the schemas that declare something, in key order, and those of all resources,
each after those below it. -/
structure Outline.Covers (api : Description) (o : Outline) : Prop where
  schemas : ∃ ss, InKeyOrder ((SchemaTable.ofDescription api).filter fun e => !e.2.isEmpty) ss ∧
    List.Forall₂ (fun e i => i.name = e.1 ∧
      StructuralType.ofInterface (SchemaTable.ofDescription api) e.2 = .ok i.type) ss o.schemas
  resources : ∃ ps, Resource.Enumerates .childrenFirst (orEmpty api.resources) ps ∧
    List.Forall₂ (ResourceInterface.Declares api) ps o.resources

variable {api : Description}

theorem nodup_requestParameters (h : api.DistinctKeys) (m : Method) :
    (keys (requestParameters api m)).Nodup := Entries.nodup_merge h.parameters

theorem signature_declares (h : api.DistinctKeys) {m : Method}
    (hm : (keys (orEmpty m.parameters)).Nodup) {s : Signature}
    (hs : Signature.of api m = .ok s) : Signature.Declares api m s := by
  obtain ⟨id, hid, hn, _, hr, _⟩ := Signature.of_eq_ok hs
  have hf := StructuralType.fieldsOf_eq_ok hr
  have hnames : s.request.map Field.name =
      (Entries.sortByKey (requestParameters api m)).map Prod.fst :=
    Outcomes.map_eq_of_forall₂ (hf.imp fun e field he => by obtain ⟨_, _, rfl⟩ := he; rfl)
  constructor
  case name => exact ⟨id, hid, hn⟩
  case ascending =>
    have ha := List.pairwise_map.mpr (Entries.sortByKey_strict (nodup_requestParameters h m))
    rw [← hnames] at ha
    exact List.pairwise_map.mp ha
  case names =>
    intro name
    rw [hnames, ((Entries.sortByKey_perm _).map Prod.fst).mem_iff]
    exact Entries.mem_keys_merge hm
  case fields =>
    intro field hfield
    obtain ⟨e, he, type, ht, rfl⟩ := Outcomes.exists_right_of_mem hf.flip hfield
    refine ⟨e.2, type, ?_, ht, rfl⟩
    rw [← Entries.lookup_of_mem (nodup_requestParameters h m) (Entries.mem_sortByKey.mp he)]
    exact (Entries.lookup_merge hm e.1).symm

theorem resourceInterface_declares (h : api.DistinctKeys) {p : Resource.Place}
    (hp : Resource.Place.Within (orEmpty api.resources) [] p) {i : ResourceInterface}
    (hi : ResourceInterface.of api p = .ok i) : ResourceInterface.Declares api p i := by
  obtain ⟨hm, hq, hc⟩ := h.resources.of_within hp
  obtain ⟨hn, hmethods, hchildren⟩ := ResourceInterface.of_eq_ok hi
  refine ⟨hn, ⟨_, Entries.inKeyOrder_sortByKey hm, ?_⟩,
    ⟨_, Entries.inKeyOrder_sortByKey hc.keys, hchildren⟩⟩
  refine Outcomes.forall₂_imp_mem hmethods fun e he s hs => ?_
  exact signature_declares h (hq e (Entries.mem_sortByKey.mp he)) hs

theorem outline_covers (h : api.DistinctKeys) {excluded : List String} {o : Outline}
    (ho : Outline.of api excluded = .ok o) : o.Covers api := by
  obtain ⟨hs, hr, _⟩ := Outline.of_eq_ok ho
  refine ⟨⟨_, (Entries.inKeyOrder_sortByKey h.schemas).filter _, ?_⟩,
    ⟨_, Resource.enumerates_places _ h.resources, ?_⟩⟩
  · exact hs.imp fun e i he => SchemaInterface.of_eq_ok he
  · exact Outcomes.forall₂_imp_mem hr fun p hp i hi =>
      resourceInterface_declares h (Resource.mem_places.mp hp) hi

end Declarations

/-! ## Calls -/

namespace Stub

/-- The methods of a resource come before those of the resources below it, and in the order of their
keys. -/
def CallSite.Before (a b : CallSite) : Prop :=
  Resource.Order.parentFirst.Before a.path b.path ∨ a.path = b.path ∧ a.name < b.name

/-- All methods of a tree, each once. -/
structure EnumeratesSites (resources : Entries Resource) (sites : List CallSite) : Prop where
  mem_iff : ∀ site, site ∈ sites ↔ ∃ p, Resource.Place.Within resources [] p ∧
    site.path = p.path ∧ (site.name, site.method) ∈ p.methods
  ordered : sites.Pairwise CallSite.Before
  nodup : (sites.map fun site => (site.path, site.name)).Nodup

theorem CallSite.Before.ne {a b : CallSite} (h : a.Before b) :
    (a.path, a.name) ≠ (b.path, b.name) := by
  intro he
  obtain ⟨hp, hn⟩ := Prod.mk.inj he
  rcases h with h | ⟨_, h⟩
  · exact h.ne hp
  · exact String.lt_irrefl _ (hn ▸ h)

theorem mem_sitesAt {p : Resource.Place} {site : CallSite} :
    site ∈ sitesAt p ↔ site.path = p.path ∧ (site.name, site.method) ∈ p.methods := by
  rw [sitesAt, List.mem_map]
  constructor
  · rintro ⟨e, he, rfl⟩
    exact ⟨rfl, Entries.mem_sortByKey.mp he⟩
  · rintro ⟨hp, hm⟩
    exact ⟨_, Entries.mem_sortByKey.mpr hm, by rw [← hp]⟩

theorem sitesAt_ordered {p : Resource.Place} (h : (keys p.methods).Nodup) :
    (sitesAt p).Pairwise CallSite.Before :=
  List.pairwise_map.mpr ((Entries.sortByKey_strict h).imp fun hab => .inr ⟨rfl, hab⟩)

theorem enumerates_callSites {api : Description}
    (h : Resource.DistinctKeys (orEmpty api.resources)) :
    EnumeratesSites (orEmpty api.resources) (callSites api) := by
  have hp := Resource.enumerates_places .parentFirst h
  have ho : (callSites api).Pairwise CallSite.Before := by
    refine List.pairwise_flatMap.mpr ⟨fun p hm => ?_, hp.ordered.imp fun {p q} hpq a ha b hb => ?_⟩
    · exact sitesAt_ordered (h.of_within ((hp.mem_iff p).mp hm)).1
    · rw [CallSite.Before, (mem_sitesAt.mp ha).1, (mem_sitesAt.mp hb).1]
      exact .inl hpq
  refine ⟨fun site => ?_, ho, List.pairwise_map.mpr (ho.imp CallSite.Before.ne)⟩
  rw [callSites, List.mem_flatMap]
  simp only [hp.mem_iff, mem_sitesAt]

/-- One call for each method of the tree. -/
def Covers (api : Description) (calls : List Call) : Prop :=
  ∃ sites, EnumeratesSites (orEmpty api.resources) sites ∧
    List.Forall₂ (fun site call => Call.of (SchemaTable.ofDescription api) site = .ok call ∧
      call.path = site.path ∧ call.name = site.name) sites calls

theorem Call.of_eq_ok {table : SchemaTable} {site : CallSite} {call : Call}
    (h : Call.of table site = .ok call) : call.path = site.path ∧ call.name = site.name := by
  simp only [Call.of, Outcomes.bind_eq_ok_iff] at h
  obtain ⟨_, _, _, _, h⟩ := h
  cases h
  exact ⟨rfl, rfl⟩

theorem calls_cover {api : Description} (h : api.DistinctKeys) {cs : List Call}
    (hc : calls api = .ok cs) : Covers api cs := by
  have hs := Outcomes.mapM_eq_ok_iff.mp hc
  exact ⟨_, enumerates_callSites h.resources, hs.imp fun _ _ hc => ⟨hc, Call.of_eq_ok hc⟩⟩

end Stub

/-! ## Both files -/

/-- Declarations and calls cover the whole tree, each once and in its own order. -/
theorem rendered_files_cover {api : Description} {options : DeclarationOptions}
    {declarations stub : String} (hk : api.DistinctKeys)
    (hd : Declarations.render api options = .ok declarations) (hs : Stub.render api = .ok stub) :
    (∃ o : Declarations.Outline, o.text api options = declarations ∧ o.Covers api) ∧
      ∃ calls, Stub.text api calls = stub ∧ Stub.Covers api calls := by
  rw [Declarations.render_eq] at hd
  rw [Stub.render_eq] at hs
  obtain ⟨o, ho, hd⟩ := Outcomes.map_eq_ok_iff.mp hd
  obtain ⟨calls, hc, hs⟩ := Outcomes.map_eq_ok_iff.mp hs
  exact ⟨⟨o, hd, Declarations.outline_covers hk ho⟩, calls, hs, Stub.calls_cover hk hc⟩

namespace Drive

theorem distinctKeys : api.DistinctKeys where
  schemas := by decide
  parameters := by decide
  resources := by
    refine .intro (by decide) (by decide) (by decide) fun e he => ?_
    cases List.mem_singleton.mp he
    refine .intro (by decide) (by decide) (by decide) fun e he => ?_
    cases List.mem_singleton.mp he
    exact .intro .nil nofun nofun nofun

theorem files_covered :
    ∃ (o : Declarations.Outline) (calls : List Stub.Call),
      Declarations.render api options = .ok (o.text api options) ∧
      Stub.render api = .ok (Stub.text api calls) ∧ o.Covers api ∧ Stub.Covers api calls := by
  obtain ⟨o, ho⟩ : ∃ o, Declarations.Outline.of api options.excludedResources = .ok o := ⟨_, rfl⟩
  obtain ⟨calls, hc⟩ : ∃ calls, Stub.calls api = .ok calls := ⟨_, rfl⟩
  have hd : Declarations.render api options = .ok (o.text api options) := by
    rw [Declarations.render_eq, ho]; rfl
  have hs : Stub.render api = .ok (Stub.text api calls) := by rw [Stub.render_eq, hc]; rfl
  obtain ⟨⟨o', hd', ho'⟩, calls', hs', hc'⟩ := rendered_files_cover distinctKeys hd hs
  exact ⟨o', calls', hd'.symm ▸ hd, hs'.symm ▸ hs, ho', hc'⟩

end Drive

end ApiTypings
