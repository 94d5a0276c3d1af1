import ApiTypings.Proofs.MethodNames

/-! # What calls pass

A signature asks for the parameters that every method takes and for those of the method itself, a
call passes those of the method alone. So what a call leaves out is what all methods have to be
given and the method does not list once more. A body is passed wherever one is declared. -/

namespace ApiTypings

open Entries (InKeyOrder orEmpty keys)

namespace Stub

/-- The calls of the methods of the resource at a path. -/
def callsAt (calls : List Call) (path : List String) : List Call :=
  calls.filter fun call => call.path == path

/-- The calls of a resource are those of its methods, in key order. -/
theorem callsAt_of_place {api : Description} (hk : api.DistinctKeys) {cs : List Call}
    (hc : calls api = .ok cs) {p : Resource.Place}
    (hp : Resource.Place.Within (orEmpty api.resources) [] p) :
    List.Forall₂ (fun e call =>
      Call.of (SchemaTable.ofDescription api) ⟨p.path, e.1, e.2⟩ = .ok call)
      (Entries.sortByKey p.methods) (callsAt cs p.path) := by
  have he := Resource.enumerates_places .parentFirst hk.resources
  have hsites : (callSites api).filter (fun site => site.path == p.path) = sitesAt p :=
    filter_sites he.nodup ((he.mem_iff p).mpr hp)
  have hf := List.rel_filter (p := fun site : CallSite => site.path == p.path)
    (q := fun call : Call => call.path == p.path)
    (fun site call hc => by dsimp only; rw [(Call.of_eq_ok hc).1]) (Outcomes.mapM_eq_ok_iff.mp hc)
  rw [hsites, sitesAt, List.forall₂_map_left_iff] at hf
  exact hf

theorem Call.values_of_eq_ok {table : SchemaTable} {site : CallSite} {call : Call}
    (h : Call.of table site = .ok call) :
    keys call.arguments = keys (Entries.sortByKey (orEmpty site.method.parameters)) ∧
      bodyValue table site.method = .ok call.body := by
  simp only [Call.of, Outcomes.bind_eq_ok_iff] at h
  obtain ⟨arguments, ha, body, hb, h⟩ := h
  cases h
  exact ⟨(Entries.collect_mapValues_eq_ok_iff.mp ha).keys_eq.symm, hb⟩

theorem isSome_of_bodyValue {table : SchemaTable} {m : Method} {body : Option Value}
    (h : bodyValue table m = .ok body) : body.isSome = m.bodyRef?.isSome := by
  unfold bodyValue at h
  cases hr : m.bodyRef? with
  | none => rw [hr] at h; cases h; rfl
  | some name =>
    rw [hr] at h
    obtain ⟨value, _, rfl⟩ := Outcomes.map_eq_ok_iff.mp h
    rfl

end Stub

namespace Declarations

theorem isSome_of_bodyType {table : SchemaTable} {m : Method} {body : Option StructuralType}
    (h : bodyType table m = .ok body) : body.isSome = m.bodyRef?.isSome := by
  unfold bodyType at h
  cases hr : m.bodyRef? with
  | none => rw [hr] at h; cases h; rfl
  | some name =>
    rw [hr] at h
    obtain ⟨type, _, rfl⟩ := Outcomes.map_eq_ok_iff.mp h
    rfl

/-- The members that have to be passed with the request. -/
def Signature.required (s : Signature) : List String :=
  (s.request.filter Field.required).map Field.name

/-- A member has to be passed if the schema that holds for it says so: the method's own, or else
that of the parameters of all methods. -/
theorem mem_required_iff {api : Description} (hk : api.DistinctKeys) {m : Method}
    (hm : (keys (orEmpty m.parameters)).Nodup) {s : Signature} (hs : Signature.of api m = .ok s)
    {name : String} :
    name ∈ s.required ↔ ∃ schema,
      ((orEmpty m.parameters).lookup name).or ((orEmpty api.parameters).lookup name) =
        some schema ∧ schema.required = some true := by
  have hd := signature_declares hk hm hs
  rw [Signature.required, List.mem_map]
  constructor
  · rintro ⟨field, hf, rfl⟩
    obtain ⟨hf, hr⟩ := List.mem_filter.mp hf
    obtain ⟨schema, type, hl, _, he⟩ := hd.fields field hf
    rw [← he] at hr
    exact ⟨schema, hl, eq_of_beq hr⟩
  · rintro ⟨schema, hl, hr⟩
    have hname : name ∈ s.request.map Field.name := by
      refine (hd.names name).mpr ?_
      by_contra hn
      obtain ⟨ha, hm⟩ := not_or.mp hn
      rw [Entries.lookup_eq_none_iff.mpr ha, Entries.lookup_eq_none_iff.mpr hm] at hl
      cases hl
    obtain ⟨field, hf, rfl⟩ := List.mem_map.mp hname
    obtain ⟨other, type, hl', _, he⟩ := hd.fields field hf
    cases hl.symm.trans hl'
    refine ⟨field, List.mem_filter.mpr ⟨hf, ?_⟩, rfl⟩
    rw [← he]
    exact beq_iff_eq.mpr hr

/-- What the call of a method passes, beside what the signature of the method asks for. -/
structure Signature.PassedBy (api : Description) (m : Method) (s : Signature)
    (call : Stub.Call) : Prop where
  /-- The object has the method's own parameters, whether they have to be passed or not. -/
  arguments : ∃ ps, InKeyOrder (orEmpty m.parameters) ps ∧ keys call.arguments = keys ps
  /-- What has to be passed and is not are parameters of all methods. -/
  missing : ∀ name, name ∈ s.required ∧ name ∉ keys call.arguments ↔
    name ∉ keys (orEmpty m.parameters) ∧
      ∃ schema, (name, schema) ∈ orEmpty api.parameters ∧ schema.required = some true
  complete : (∀ name ∈ s.required, name ∈ keys call.arguments) ↔
    ∀ e ∈ orEmpty api.parameters, e.2.required = some true → e.1 ∈ keys (orEmpty m.parameters)
  body : call.body.isSome = s.body.isSome

theorem signature_passedBy {api : Description} (hk : api.DistinctKeys) {m : Method}
    (hm : (keys (orEmpty m.parameters)).Nodup) {s : Signature} (hs : Signature.of api m = .ok s)
    {path : List String} {name : String} {call : Stub.Call}
    (hc : Stub.Call.of (SchemaTable.ofDescription api) ⟨path, name, m⟩ = .ok call) :
    s.PassedBy api m call := by
  obtain ⟨ha, hb⟩ := Stub.Call.values_of_eq_ok hc
  obtain ⟨_, _, _, _, _, ht, _⟩ := Signature.of_eq_ok hs
  have hkeys : ∀ name, name ∈ keys call.arguments ↔ name ∈ keys (orEmpty m.parameters) := by
    intro name
    rw [ha]
    exact ((Entries.sortByKey_perm _).map Prod.fst).mem_iff
  have hmissing : ∀ name, name ∈ s.required ∧ name ∉ keys call.arguments ↔
      name ∉ keys (orEmpty m.parameters) ∧
        ∃ schema, (name, schema) ∈ orEmpty api.parameters ∧ schema.required = some true := by
    intro name
    rw [hkeys, and_comm, mem_required_iff hk hm hs]
    refine and_congr_right fun hn => exists_congr fun schema => and_congr_left fun _ => ?_
    rw [Entries.lookup_eq_none_iff.mpr hn, Option.none_or]
    exact ⟨Entries.mem_of_lookup, Entries.lookup_of_mem hk.parameters⟩
  constructor
  case arguments => exact ⟨_, Entries.inKeyOrder_sortByKey hm, ha⟩
  case missing => exact hmissing
  case complete =>
    constructor
    · intro h e he hr
      by_contra hn
      obtain ⟨hreq, hpass⟩ := (hmissing e.1).mpr ⟨hn, e.2, he, hr⟩
      exact hpass (h e.1 hreq)
    · intro h name hreq
      by_contra hpass
      obtain ⟨hn, schema, he, hr⟩ := (hmissing name).mp ⟨hreq, hpass⟩
      exact hn (h _ he hr)
  case body => rw [Stub.isSome_of_bodyValue hb, isSome_of_bodyType ht]

/-- The signatures of a resource beside the calls of its methods, one call for each signature. -/
structure ResourceInterface.PassedBy (api : Description) (p : Resource.Place)
    (i : ResourceInterface) (calls : List Stub.Call) : Prop where
  name : i.name = Naming.resourceInterface p.name
  methods : ∃ ms, InKeyOrder p.methods ms ∧ calls.map Stub.Call.name = keys ms
  inStep : List.Forall₂ (fun s (call : Stub.Call) => ∃ m, (call.name, m) ∈ p.methods ∧
    Signature.of api m = .ok s ∧ s.PassedBy api m call) i.methods calls

theorem resourceInterface_passedBy {api : Description} (hk : api.DistinctKeys)
    {cs : List Stub.Call} (hc : Stub.calls api = .ok cs) {p : Resource.Place}
    (hp : Resource.Place.Within (orEmpty api.resources) [] p) {i : ResourceInterface}
    (hi : ResourceInterface.of api p = .ok i) : i.PassedBy api p (Stub.callsAt cs p.path) := by
  obtain ⟨hm, hq, _⟩ := hk.resources.of_within hp
  obtain ⟨hn, hmethods, _⟩ := ResourceInterface.of_eq_ok hi
  have hcalls := Stub.callsAt_of_place hk hc hp
  constructor
  case name => exact hn
  case methods =>
    refine ⟨_, Entries.inKeyOrder_sortByKey hm, Outcomes.map_eq_of_forall₂ (hcalls.imp ?_)⟩
    exact fun e call hc => (Stub.Call.of_eq_ok hc).2
  case inStep =>
    refine (Outcomes.forall₂_of_common hmethods hcalls).imp ?_
    rintro s call ⟨e, he, hs, hc⟩
    have he := Entries.mem_sortByKey.mp he
    have hname : call.name = e.1 := (Stub.Call.of_eq_ok hc).2
    exact ⟨e.2, hname ▸ he, hs, signature_passedBy hk (hq e he) hs hc⟩

end Declarations

/-- The call of a method passes all that its signature requires exactly if the method lists every
parameter that all methods have to be given. It passes a body exactly if one is declared. -/
theorem required_passed_iff {api : Description} {options : DeclarationOptions}
    {declarations stub : String} (hk : api.DistinctKeys)
    (hd : Declarations.render api options = .ok declarations) (hs : Stub.render api = .ok stub) :
    ∃ (o : Declarations.Outline) (calls : List Stub.Call) (ps : List Resource.Place),
      Declarations.Outline.of api options.excludedResources = .ok o ∧
      o.text api options = declarations ∧
      Stub.calls api = .ok calls ∧ Stub.text api calls = stub ∧
      Resource.Enumerates .childrenFirst (orEmpty api.resources) ps ∧
      List.Forall₂ (fun p (i : Declarations.ResourceInterface) =>
        i.PassedBy api p (Stub.callsAt calls p.path)) ps o.resources := by
  rw [Declarations.render_eq] at hd
  rw [Stub.render_eq] at hs
  obtain ⟨o, ho, hd⟩ := Outcomes.map_eq_ok_iff.mp hd
  obtain ⟨calls, hc, hs⟩ := Outcomes.map_eq_ok_iff.mp hs
  have he := Resource.enumerates_places .childrenFirst hk.resources
  refine ⟨o, calls, _, ho, hd, hc, hs, he, ?_⟩
  refine Outcomes.forall₂_imp_mem (Declarations.Outline.of_eq_ok ho).2.1 fun p hp i hi => ?_
  exact Declarations.resourceInterface_passedBy hk hc ((he.mem_iff p).mp hp) hi

/-! Places on a map, with a key that every request needs. -/

namespace Maps

def text : Schema := { Schema.blank with type := some "string" }

def needed : Schema := { text with required := some true }

/-- The key is listed once more, and need not be given here. -/
def create : Method :=
  { Method.blank with
    id := some "maps.places.create"
    parameters := some [("key", text), ("city", needed)]
    request := some ⟨some "Name", none⟩ }

def list : Method := { Method.blank with id := some "maps.places.list" }

def api : Description :=
  { Description.blank "maps" "v1" with
    parameters := some [("key", needed)]
    schemas := some [("Name", text)]
    resources := some [("places", ⟨some [("create", create), ("list", list)], none⟩)] }

theorem distinctKeys : api.DistinctKeys where
  schemas := by decide
  parameters := by decide
  resources := by
    refine .intro (by decide) (by decide) (by decide) fun e he => ?_
    cases List.mem_singleton.mp he
    exact .intro .nil nofun nofun nofun

def calls : List Stub.Call :=
  [⟨["places"], "create", none, [("city", .literal .string), ("key", .literal .string)],
      some (.literal .string)⟩,
    ⟨["places"], "list", none, [], none⟩]

theorem calls_eq : Stub.calls api = .ok calls := by
  have hname : Stub.expandReference (SchemaTable.ofDescription api) [] "Name" =
      .ok (.literal .string) := by
    rw [Stub.expandReference_of_lookup (by simp) rfl, Stub.expand_of_primitive rfl]
    rfl
  have hbody : Stub.bodyValue (SchemaTable.ofDescription api) create =
      .ok (some (.literal .string)) := congrArg (Except.map some) hname
  change ((Stub.bodyValue (SchemaTable.ofDescription api) create >>= _) >>= _) = _
  rw [hbody]
  rfl

open Declarations

theorem stub_eq : Stub.render api = .ok (Stub.text api calls) := by
  rw [Stub.render_eq, calls_eq]
  rfl

/-- All that has to be passed to make a place is passed. -/
theorem city_passed :
    ∃ (o : Outline) (ps : List Resource.Place),
      render api Drive.options = .ok (o.text api Drive.options) ∧
      List.Forall₂ (fun p (i : ResourceInterface) =>
        i.PassedBy api p (Stub.callsAt calls p.path)) ps o.resources ∧
      (o.resources.map fun i => i.methods.map fun s => (s.name, s.required, s.body.isSome)) =
        [[("create", ["city"], true), ("list", ["key"], false)]] ∧
      (calls.map fun call => (call.name, keys call.arguments, call.body.isSome)) =
        [("create", ["city", "key"], true), ("list", [], false)] := by
  obtain ⟨o, ho, hn⟩ : ∃ o, Outline.of api Drive.options.excludedResources = .ok o ∧
      (o.resources.map fun i => i.methods.map fun s => (s.name, s.required, s.body.isSome)) =
        [[("create", ["city"], true), ("list", ["key"], false)]] := ⟨_, rfl, by decide⟩
  have hd : render api Drive.options = .ok (o.text api Drive.options) := by rw [render_eq, ho]; rfl
  obtain ⟨o', calls', ps, ho', _, hc', _, _, hp⟩ := required_passed_iff distinctKeys hd stub_eq
  cases ho.symm.trans ho'
  cases calls_eq.symm.trans hc'
  exact ⟨o, ps, hd, hp, hn, by decide⟩

theorem key_required_but_not_passed :
    ∃ o : Outline,
      render api Drive.options = .ok (o.text api Drive.options) ∧
      Stub.render api = .ok (Stub.text api calls) ∧
      Outline.of api Drive.options.excludedResources = .ok o ∧ Stub.calls api = .ok calls ∧
      (∃ i ∈ o.resources, i.name = "PlacesResource" ∧
        ∃ s ∈ i.methods, s.name = "list" ∧ "key" ∈ s.required) ∧
      ∀ call ∈ calls, call.path = ["places"] → call.name = "list" →
        "key" ∉ keys call.arguments := by
  obtain ⟨o, ho, hn⟩ : ∃ o, Outline.of api Drive.options.excludedResources = .ok o ∧
      ∃ i ∈ o.resources, i.name = "PlacesResource" ∧
        ∃ s ∈ i.methods, s.name = "list" ∧ "key" ∈ s.required :=
    ⟨_, rfl, _, .head _, by decide, _, .tail _ (.head _), by decide, by decide⟩
  have hd : render api Drive.options = .ok (o.text api Drive.options) := by rw [render_eq, ho]; rfl
  exact ⟨o, hd, stub_eq, ho, calls_eq, hn, by decide⟩

end Maps

end ApiTypings
