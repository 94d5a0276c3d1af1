import ApiTypings.Proofs.TreeCoverage

/-! # Where calls start

A call goes down the tree from a top-level resource, and so it starts from the constant of that
resource, if there is one. Declarations give none to a resource that is excluded, while calls are
made of all resources. -/

namespace ApiTypings

open Entries (orEmpty keys)

/-- What leads to a place of a tree starts with a key of its topmost map. -/
theorem Resource.Place.Within.top_mem {resources : Entries Resource} {above : List String}
    {p : Place} (h : Within resources above p) :
    ∃ name rest, p.path = above ++ name :: rest ∧ name ∈ keys resources := by
  cases h with
  | top he => exact ⟨_, [], rfl, List.mem_map_of_mem he⟩
  | deeper he hp =>
    obtain ⟨child, rest, hpath⟩ := hp.path_eq
    refine ⟨_, child :: rest, ?_, List.mem_map_of_mem he⟩
    rw [hpath, List.append_assoc]
    rfl

namespace Stub

variable {api : Description} {cs : List Call}

/-- Calls are made of the methods of the tree. -/
theorem place_of_call (hc : calls api = .ok cs) {call : Call} (h : call ∈ cs) :
    ∃ p, Resource.Place.Within (orEmpty api.resources) [] p ∧ call.path = p.path ∧
      p.methods ≠ [] := by
  obtain ⟨site, hs, hcall⟩ := Outcomes.exists_right_of_mem (Outcomes.mapM_eq_ok_iff.mp hc).flip h
  obtain ⟨p, hp, hs⟩ := List.mem_flatMap.mp hs
  obtain ⟨hpath, hm⟩ := mem_sitesAt.mp hs
  exact ⟨p, Resource.mem_places.mp hp, (Call.of_eq_ok hcall).1.trans hpath, List.ne_nil_of_mem hm⟩

theorem call_of_place (hc : calls api = .ok cs) {p : Resource.Place}
    (hp : Resource.Place.Within (orEmpty api.resources) [] p) (hm : p.methods ≠ []) :
    ∃ call ∈ cs, call.path = p.path := by
  obtain ⟨e, he⟩ := List.exists_mem_of_ne_nil _ hm
  have hs : (⟨p.path, e.1, e.2⟩ : CallSite) ∈ callSites api :=
    List.mem_flatMap.mpr ⟨p, Resource.mem_places.mpr hp, mem_sitesAt.mpr ⟨rfl, he⟩⟩
  obtain ⟨call, hcall, h⟩ := Outcomes.exists_right_of_mem (Outcomes.mapM_eq_ok_iff.mp hc) hs
  exact ⟨call, hcall, (Call.of_eq_ok h).1⟩

end Stub

namespace Declarations

theorem mem_keys_exposedResources {api : Description} {excluded : List String} {name : String} :
    name ∈ keys (exposedResources api excluded) ↔
      name ∈ keys (orEmpty api.resources) ∧ name ∉ excluded := by
  simp only [keys, exposedResources, List.map_map, List.mem_map, List.mem_filter,
    Entries.mem_sortByKey, Function.comp_apply]
  constructor
  · rintro ⟨e, ⟨he, hx⟩, rfl⟩
    exact ⟨⟨e, he, rfl⟩, by simpa using hx⟩
  · rintro ⟨⟨e, he, rfl⟩, hx⟩
    exact ⟨e, ⟨he, by simpa using hx⟩, rfl⟩

/-- The call goes through a resource that has a constant. -/
def Outline.Exposes (o : Outline) (call : Stub.Call) : Prop :=
  ∃ name rest, call.path = name :: rest ∧ name ∈ keys o.constants

theorem exposes_all_iff {api : Description} {excluded : List String} {o : Outline}
    {cs : List Stub.Call} (ho : Outline.of api excluded = .ok o) (hc : Stub.calls api = .ok cs) :
    (∀ call ∈ cs, o.Exposes call) ↔
      ∀ p, Resource.Place.Within (orEmpty api.resources) [] p → p.methods ≠ [] →
        ∀ name ∈ p.path.head?, name ∉ excluded := by
  obtain ⟨_, _, hconstants⟩ := Outline.of_eq_ok ho
  constructor
  · intro h p hp hm name hname
    obtain ⟨call, hcall, hpath⟩ := Stub.call_of_place hc hp hm
    obtain ⟨top, rest, hcp, htop⟩ := h call hcall
    rw [← hpath, hcp] at hname
    cases hname
    rw [hconstants] at htop
    exact (mem_keys_exposedResources.mp htop).2
  · intro h call hcall
    obtain ⟨p, hp, hpath, hm⟩ := Stub.place_of_call hc hcall
    obtain ⟨name, rest, hpp, hname⟩ := hp.top_mem
    have hx : name ∉ excluded := h p hp hm name (by rw [hpp]; rfl)
    refine ⟨name, rest, hpath.trans hpp, ?_⟩
    rw [hconstants]
    exact mem_keys_exposedResources.mpr ⟨hname, hx⟩

end Declarations

/-- A call starts from a top-level resource, which has a constant unless it is excluded. All calls
start from constants exactly if no method is called below a resource that is excluded. -/
theorem calls_exposed_iff {api : Description} {options : DeclarationOptions}
    {declarations stub : String} (hd : Declarations.render api options = .ok declarations)
    (hs : Stub.render api = .ok stub) :
    ∃ (o : Declarations.Outline) (calls : List Stub.Call),
      Declarations.Outline.of api options.excludedResources = .ok o ∧
      o.text api options = declarations ∧
      Stub.calls api = .ok calls ∧ Stub.text api calls = stub ∧
      (∀ call ∈ calls, ∃ name rest, call.path = name :: rest ∧
        Stub.dotted ("gapi.client." ++ api.name) call.path =
          Stub.dotted ("gapi.client." ++ api.name ++ "." ++ name) rest ∧
        name ∈ keys (orEmpty api.resources) ∧
        (name ∈ keys o.constants ↔ name ∉ options.excludedResources)) ∧
      ((∀ call ∈ calls, o.Exposes call) ↔
        ∀ p, Resource.Place.Within (orEmpty api.resources) [] p → p.methods ≠ [] →
          ∀ name ∈ p.path.head?, name ∉ options.excludedResources) := by
  rw [Declarations.render_eq] at hd
  rw [Stub.render_eq] at hs
  obtain ⟨o, ho, hd⟩ := Outcomes.map_eq_ok_iff.mp hd
  obtain ⟨calls, hc, hs⟩ := Outcomes.map_eq_ok_iff.mp hs
  refine ⟨o, calls, ho, hd, hc, hs, fun call hcall => ?_, Declarations.exposes_all_iff ho hc⟩
  obtain ⟨p, hp, hpath, _⟩ := Stub.place_of_call hc hcall
  obtain ⟨name, rest, hpp, hname⟩ := hp.top_mem
  have hcp : call.path = name :: rest := hpath.trans hpp
  refine ⟨name, rest, hcp, by rw [hcp]; rfl, hname, ?_⟩
  rw [(Declarations.Outline.of_eq_ok ho).2.2, Declarations.mem_keys_exposedResources]
  exact and_iff_right hname

namespace Drive

open Declarations

/-- The options under which a top-level resource has no constant. -/
def without (resource : String) : DeclarationOptions :=
  { options with excludedResources := [resource] }

/-- Comments are not at the top, so nothing is left out. -/
theorem calls_exposed :
    ∃ (o : Outline) (calls : List Stub.Call),
      render api (without "comments") = .ok (o.text api (without "comments")) ∧
      Stub.render api = .ok (Stub.text api calls) ∧ ∀ call ∈ calls, o.Exposes call := by
  obtain ⟨o, ho⟩ : ∃ o, Outline.of api (without "comments").excludedResources = .ok o := ⟨_, rfl⟩
  obtain ⟨calls, hc⟩ : ∃ calls, Stub.calls api = .ok calls := ⟨_, rfl⟩
  have hd : render api (without "comments") = .ok (o.text api (without "comments")) := by
    rw [render_eq, ho]; rfl
  have hs : Stub.render api = .ok (Stub.text api calls) := by rw [Stub.render_eq, hc]; rfl
  obtain ⟨o', calls', _, hd', _, hs', _, hiff⟩ := calls_exposed_iff hd hs
  refine ⟨o', calls', hd'.symm ▸ hd, hs'.symm ▸ hs, hiff.mpr fun p hp _ => ?_⟩
  have hplaces : ∀ p ∈ resourcePlaces api .childrenFirst, ∀ name ∈ p.path.head?,
      name ∉ (without "comments").excludedResources := by decide
  exact hplaces p (Resource.mem_places.mpr hp)

theorem files_called_without_constant :
    ∃ (o : Outline) (calls : List Stub.Call),
      render api (without "files") = .ok (o.text api (without "files")) ∧
      Stub.render api = .ok (Stub.text api calls) ∧
      Outline.of api (without "files").excludedResources = .ok o ∧ Stub.calls api = .ok calls ∧
      o.constants = [] ∧
      calls.map (fun call => Stub.dotted "gapi.client.drive" call.path ++ "." ++ call.name) =
        ["gapi.client.drive.files.list", "gapi.client.drive.files.comments.get"] ∧
      ∀ call ∈ calls, ¬ o.Exposes call := by
  obtain ⟨o, ho, hn⟩ : ∃ o, Outline.of api (without "files").excludedResources = .ok o ∧
      o.constants = [] := ⟨_, rfl, by decide⟩
  obtain ⟨calls, hc, hcalls⟩ : ∃ calls, Stub.calls api = .ok calls ∧
      calls.map (fun call => Stub.dotted "gapi.client.drive" call.path ++ "." ++ call.name) =
        ["gapi.client.drive.files.list", "gapi.client.drive.files.comments.get"] :=
    ⟨_, rfl, by decide⟩
  have hd : render api (without "files") = .ok (o.text api (without "files")) := by
    rw [render_eq, ho]; rfl
  have hs : Stub.render api = .ok (Stub.text api calls) := by rw [Stub.render_eq, hc]; rfl
  refine ⟨o, calls, hd, hs, ho, hc, hn, hcalls, ?_⟩
  rintro call _ ⟨name, rest, _, hname⟩
  rw [hn] at hname
  cases hname

end Drive

end ApiTypings
