import ApiTypings.Proofs.TreeCoverage

/-! # Names of methods

A method is declared under the last segment of its id and called under its key in the resource. The
stub calls what is declared exactly where the two agree. -/

namespace ApiTypings

open Entries (InKeyOrder orEmpty keys)

/-- The name under which a method is declared. -/
def Method.declaredName? (m : Method) : Option String := (nonEmpty? m.id).map Naming.lastSegment

namespace Stub

/-- The names by which the methods of the resource at a path are called, in the order of the
calls. -/
def calledAt (calls : List Call) (path : List String) : List String :=
  (calls.filter fun call => call.path == path).map Call.name

/-- Of the sites of several places, those at the path of one are its own. -/
theorem filter_sites {ps : List Resource.Place} (hn : (ps.map Resource.Place.path).Nodup)
    {p : Resource.Place} (hp : p ∈ ps) :
    (ps.flatMap sitesAt).filter (fun site => site.path == p.path) = sitesAt p := by
  induction ps with
  | nil => cases hp
  | cons q rest ih =>
    obtain ⟨hq, hrest⟩ := List.nodup_cons.mp hn
    rw [List.flatMap_cons, List.filter_append]
    by_cases he : q.path = p.path
    · -- The place itself: no other has its path.
      have hpq : p = q := by
        rcases List.mem_cons.mp hp with h | h
        · exact h
        · exact absurd (List.mem_map.mpr ⟨p, h, he.symm⟩) hq
      subst hpq
      have hown : (sitesAt p).filter (fun site => site.path == p.path) = sitesAt p :=
        List.filter_eq_self.mpr fun site hs => by simpa using (mem_sitesAt.mp hs).1
      have hothers : (rest.flatMap sitesAt).filter (fun site => site.path == p.path) = [] := by
        refine List.filter_eq_nil_iff.mpr fun site hs => ?_
        obtain ⟨r, hr, hs⟩ := List.mem_flatMap.mp hs
        simp only [beq_iff_eq, (mem_sitesAt.mp hs).1]
        exact fun hpath => hq (List.mem_map.mpr ⟨r, hr, hpath⟩)
      rw [hown, hothers, List.append_nil]
    · have hpr : p ∈ rest := by
        rcases List.mem_cons.mp hp with rfl | h
        · exact absurd rfl he
        · exact h
      have hnone : (sitesAt q).filter (fun site => site.path == p.path) = [] := by
        refine List.filter_eq_nil_iff.mpr fun site hs => ?_
        simpa only [beq_iff_eq, (mem_sitesAt.mp hs).1] using he
      rw [hnone, ih hrest hpr, List.nil_append]

theorem calledAt_eq_of_sites {table : SchemaTable} {sites : List CallSite} {cs : List Call}
    (h : List.Forall₂ (fun site call => Call.of table site = .ok call) sites cs)
    (path : List String) :
    calledAt cs path = (sites.filter fun site => site.path == path).map CallSite.name := by
  induction h with
  | nil => rfl
  | @cons site call sites cs hc _ ih =>
    obtain ⟨hp, hn⟩ := Call.of_eq_ok hc
    rw [calledAt] at ih ⊢
    rw [List.filter_cons, List.filter_cons, hp]
    split
    · rw [List.map_cons, List.map_cons, hn, ih]
    · exact ih

/-- The methods of a resource are called by their keys, in key order. -/
theorem calledAt_eq_keys {api : Description} (hk : api.DistinctKeys) {cs : List Call}
    (hc : calls api = .ok cs) {p : Resource.Place}
    (hp : Resource.Place.Within (orEmpty api.resources) [] p) :
    calledAt cs p.path = keys (Entries.sortByKey p.methods) := by
  have he := Resource.enumerates_places .parentFirst hk.resources
  rw [calledAt_eq_of_sites (Outcomes.mapM_eq_ok_iff.mp hc), callSites,
    filter_sites he.nodup ((he.mem_iff p).mpr hp), sitesAt, List.map_map]
  rfl

end Stub

namespace Declarations

theorem Signature.declaredName?_of_eq_ok {api : Description} {m : Method} {s : Signature}
    (h : Signature.of api m = .ok s) : m.declaredName? = some s.name := by
  obtain ⟨id, hid, hn, _⟩ := Signature.of_eq_ok h
  rw [Method.declaredName?, hid, hn]
  rfl

/-- The names of signatures are the keys of their methods exactly if every method is declared under
its key. -/
theorem names_eq_keys_iff {ms : Entries Method} {ss : List Signature}
    (h : List.Forall₂ (fun e s => e.2.declaredName? = some s.name) ms ss) :
    keys ms = ss.map Signature.name ↔ ∀ e ∈ ms, e.2.declaredName? = some e.1 := by
  induction h with
  | nil => simp [keys]
  | @cons e s ms ss hes _ ih =>
    rw [keys] at ih ⊢
    rw [List.map_cons, List.map_cons, List.cons.injEq, List.forall_mem_cons, ih, hes,
      Option.some.injEq]
    exact and_congr_left fun _ => eq_comm

/-- How the methods of one resource are called, beside the names its interface has for them. -/
structure ResourceInterface.CalledAs (p : Resource.Place) (i : ResourceInterface)
    (called : List String) : Prop where
  /-- By their keys; declared they are under the last segments of their ids. -/
  byKey : ∃ ms, InKeyOrder p.methods ms ∧ called = keys ms ∧
    List.Forall₂ (fun e s => e.2.declaredName? = some s.name) ms i.methods
  agree : called = i.methods.map Signature.name ↔ ∀ e ∈ p.methods, e.2.declaredName? = some e.1
  distinct : called = i.methods.map Signature.name → (i.methods.map Signature.name).Nodup

theorem resourceInterface_calledAs {api : Description} (hk : api.DistinctKeys)
    {cs : List Stub.Call} (hc : Stub.calls api = .ok cs) {p : Resource.Place}
    (hp : Resource.Place.Within (orEmpty api.resources) [] p) {i : ResourceInterface}
    (hi : ResourceInterface.of api p = .ok i) : i.CalledAs p (Stub.calledAt cs p.path) := by
  obtain ⟨hm, _, _⟩ := hk.resources.of_within hp
  obtain ⟨_, hmethods, _⟩ := ResourceInterface.of_eq_ok hi
  have hnames := hmethods.imp fun _ _ => Signature.declaredName?_of_eq_ok
  rw [Stub.calledAt_eq_keys hk hc hp]
  constructor
  case byKey => exact ⟨_, Entries.inKeyOrder_sortByKey hm, rfl, hnames⟩
  case agree =>
    rw [names_eq_keys_iff hnames]
    simp only [Entries.mem_sortByKey]
  case distinct =>
    intro h
    rw [← h]
    exact Entries.nodup_sortByKey hm

end Declarations

/-- The calls of a resource use the names that its interface declares, in the same order and each
once, exactly if the id of every method ends in the key of the method. -/
theorem called_as_declared_iff {api : Description} {options : DeclarationOptions}
    {declarations stub : String} (hk : api.DistinctKeys)
    (hd : Declarations.render api options = .ok declarations) (hs : Stub.render api = .ok stub) :
    ∃ (o : Declarations.Outline) (calls : List Stub.Call) (ps : List Resource.Place),
      o.text api options = declarations ∧ Stub.text api calls = stub ∧
      Resource.Enumerates .childrenFirst (orEmpty api.resources) ps ∧
      List.Forall₂ (fun p (i : Declarations.ResourceInterface) =>
        i.name = Naming.resourceInterface p.name ∧ i.CalledAs p (Stub.calledAt calls p.path))
        ps o.resources := by
  rw [Declarations.render_eq] at hd
  rw [Stub.render_eq] at hs
  obtain ⟨o, ho, hd⟩ := Outcomes.map_eq_ok_iff.mp hd
  obtain ⟨calls, hc, hs⟩ := Outcomes.map_eq_ok_iff.mp hs
  have he := Resource.enumerates_places .childrenFirst hk.resources
  refine ⟨o, calls, _, hd, hs, he, ?_⟩
  refine Outcomes.forall₂_imp_mem (Declarations.Outline.of_eq_ok ho).2.1 fun p hp i hi => ?_
  exact ⟨(Declarations.ResourceInterface.of_eq_ok hi).1,
    Declarations.resourceInterface_calledAs hk hc ((he.mem_iff p).mp hp) hi⟩

theorem Drive.methods_called_as_declared :
    ∃ (o : Declarations.Outline) (calls : List Stub.Call) (ps : List Resource.Place),
      Declarations.render api options = .ok (o.text api options) ∧
      Stub.render api = .ok (Stub.text api calls) ∧
      List.Forall₂ (fun p (i : Declarations.ResourceInterface) =>
        Stub.calledAt calls p.path = i.methods.map Declarations.Signature.name) ps o.resources := by
  obtain ⟨o, ho⟩ : ∃ o, Declarations.Outline.of api options.excludedResources = .ok o := ⟨_, rfl⟩
  obtain ⟨calls, hc⟩ : ∃ calls, Stub.calls api = .ok calls := ⟨_, rfl⟩
  have hd : Declarations.render api options = .ok (o.text api options) := by
    rw [Declarations.render_eq, ho]; rfl
  have hs : Stub.render api = .ok (Stub.text api calls) := by rw [Stub.render_eq, hc]; rfl
  obtain ⟨o', calls', ps, hd', hs', hp, hn⟩ := called_as_declared_iff distinctKeys hd hs
  have hkeys : ∀ p ∈ Declarations.resourcePlaces api .childrenFirst, ∀ e ∈ p.methods,
      e.2.declaredName? = some e.1 := by decide
  refine ⟨o', calls', ps, hd'.symm ▸ hd, hs'.symm ▸ hs, ?_⟩
  refine Outcomes.forall₂_imp_mem hn fun p hm i ⟨_, hi⟩ => hi.agree.mpr fun e he => ?_
  exact hkeys p (Resource.mem_places.mpr ((hp.mem_iff p).mp hm)) e he

/-! A store that lists its orders in two ways. -/

namespace Store

def listing : Method := { Method.blank with id := some "store.orders.list" }

def api : Description :=
  { Description.blank "store" "v1" with
    resources := some [("orders", ⟨some [("all", listing), ("list", listing)], none⟩)] }

theorem all_called_but_not_declared :
    ∃ (o : Declarations.Outline) (calls : List Stub.Call),
      Declarations.render api Drive.options = .ok (o.text api Drive.options) ∧
      Stub.render api = .ok (Stub.text api calls) ∧
      Declarations.Outline.of api Drive.options.excludedResources = .ok o ∧
      Stub.calls api = .ok calls ∧
      Stub.calledAt calls ["orders"] = ["all", "list"] ∧
      (o.resources.map fun i => (i.name, i.methods.map Declarations.Signature.name)) =
        [("OrdersResource", ["list", "list"])] := by
  obtain ⟨o, ho, hn⟩ : ∃ o, Declarations.Outline.of api Drive.options.excludedResources = .ok o ∧
      (o.resources.map fun i => (i.name, i.methods.map Declarations.Signature.name)) =
        [("OrdersResource", ["list", "list"])] := ⟨_, rfl, by decide⟩
  obtain ⟨calls, hc, hcalled⟩ : ∃ calls, Stub.calls api = .ok calls ∧
      Stub.calledAt calls ["orders"] = ["all", "list"] := ⟨_, rfl, by decide⟩
  have hd : Declarations.render api Drive.options = .ok (o.text api Drive.options) := by
    rw [Declarations.render_eq, ho]; rfl
  have hs : Stub.render api = .ok (Stub.text api calls) := by rw [Stub.render_eq, hc]; rfl
  exact ⟨o, calls, hd, hs, ho, hc, hcalled, hn⟩

end Store

end ApiTypings
