import ApiTypings.Loading
import ApiTypings.Proofs.KeyOrderIndependence
import ApiTypings.Proofs.Outcomes
import ApiTypings.Proofs.TreeCoverage

/-! # Keys of documents

An object of a document has a key once, because a repeated name takes the place of the one before it
when the object is read. The maps of a description are objects whose values passed a check, so that
they have their keys once as well, and in key order they have the same ones. -/

namespace ApiTypings

open Entries (keys orEmpty)

namespace Entries

variable {α : Type} {P : α → Prop}

theorem forall_mem_set {key : String} {value : α} {entries : Entries α}
    (h : ∀ e ∈ entries, P e.2) (hv : P value) : ∀ e ∈ set key value entries, P e.2 := by
  induction entries with
  | nil => exact List.forall_mem_singleton.mpr hv
  | cons e rest ih =>
    obtain ⟨he, hr⟩ := List.forall_mem_cons.mp h
    rw [set]
    split
    · exact List.forall_mem_cons.mpr ⟨hv, hr⟩
    · exact List.forall_mem_cons.mpr ⟨he, ih hr⟩

theorem forall_mem_merge {base added : Entries α} (hb : ∀ e ∈ base, P e.2)
    (ha : ∀ e ∈ added, P e.2) : ∀ e ∈ merge base added, P e.2 := by
  induction added generalizing base with
  | nil => exact hb
  | cons e rest ih =>
    obtain ⟨he, hr⟩ := List.forall_mem_cons.mp ha
    exact ih (forall_mem_set hb he) hr

theorem nodup_ofList (pairs : List (String × α)) : (keys (ofList pairs)).Nodup :=
  nodup_merge .nil

end Entries

/-! ## Documents -/

namespace Json

/-- No object has a key twice, at any depth. -/
inductive DistinctKeys : Json → Prop
  | null : DistinctKeys .null
  | bool (b : Bool) : DistinctKeys (.bool b)
  | number (n : Number) : DistinctKeys (.number n)
  | string (s : String) : DistinctKeys (.string s)
  | array {items : List Json} : (∀ item ∈ items, DistinctKeys item) → DistinctKeys (.array items)
  | object {fields : List (String × Json)} : (Entries.keys fields).Nodup →
      (∀ e ∈ fields, DistinctKeys e.2) → DistinctKeys (.object fields)

theorem DistinctKeys.ofList {pairs : List (String × Json)} (h : ∀ e ∈ pairs, e.2.DistinctKeys) :
    (Json.object (Entries.ofList pairs)).DistinctKeys :=
  .object (Entries.nodup_ofList pairs) (Entries.forall_mem_merge nofun h)

theorem distinctKeys_of_readWord? {c after : Cursor} {json : Json}
    (h : readWord? c = some (json, after)) : json.DistinctKeys := by
  obtain ⟨e, he, hw⟩ := List.exists_of_findSome?_eq_some h
  have hd : ∀ e ∈ words, e.2.DistinctKeys := by
    simp [words, DistinctKeys.null, DistinctKeys.bool, DistinctKeys.number]
  dsimp only at hw
  split at hw
  · cases hw; exact hd e he
  · cases hw

/-- What is read with so much fuel has distinct keys, and so has what is read on to the end of an
object or an array. -/
structure ReadsDistinct (fuel : Nat) : Prop where
  value : ∀ {c after json}, readValue fuel c = .ok (json, after) → json.DistinctKeys
  members : ∀ {read c after json}, (∀ e ∈ read, e.2.DistinctKeys) →
    readMembers fuel read c = .ok (json, after) → json.DistinctKeys
  items : ∀ {read c after json}, (∀ item ∈ read, item.DistinctKeys) →
    readItems fuel read c = .ok (json, after) → json.DistinctKeys

section
variable {fuel : Nat} (hr : ReadsDistinct fuel) {c after : Cursor} {json : Json}
include hr

theorem ReadsDistinct.readValue_succ (h : readValue (fuel + 1) c = .ok (json, after)) :
    json.DistinctKeys := by
  rw [readValue] at h
  split at h
  · obtain ⟨⟨s, _⟩, _, h⟩ := Outcomes.bind_eq_ok_iff.mp h
    cases h
    exact .string s
  · dsimp only at h
    split at h
    · cases h; exact .object .nil nofun
    · exact hr.members (List.forall_mem_nil _) h
  · dsimp only at h
    split at h
    · cases h; exact .array nofun
    · exact hr.items (List.forall_mem_nil _) h
  · split at h
    next hw => cases h; exact distinctKeys_of_readWord? hw
    next =>
      split at h
      next hn =>
        cases h
        obtain ⟨⟨n, _⟩, _, hn⟩ := Option.map_eq_some_iff.mp hn
        cases hn
        exact .number n
      next => cases h

theorem ReadsDistinct.readMembers_succ {read : List (String × Json)}
    (hread : ∀ e ∈ read, e.2.DistinctKeys)
    (h : readMembers (fuel + 1) read c = .ok (json, after)) : json.DistinctKeys := by
  rw [readMembers] at h
  split at h
  next =>
    obtain ⟨⟨name, _⟩, _, h⟩ := Outcomes.bind_eq_ok_iff.mp h
    dsimp only at h
    split at h
    next =>
      obtain ⟨⟨value, _⟩, hv, h⟩ := Outcomes.bind_eq_ok_iff.mp h
      have hread : ∀ e ∈ (name, value) :: read, e.2.DistinctKeys :=
        List.forall_mem_cons.mpr ⟨hr.value hv, hread⟩
      dsimp only at h
      split at h
      · cases h
        exact .ofList fun e he => hread e (List.mem_reverse.mp he)
      · exact hr.members hread h
      · cases h
    next => cases h
  next => cases h

theorem ReadsDistinct.readItems_succ {read : List Json} (hread : ∀ item ∈ read, item.DistinctKeys)
    (h : readItems (fuel + 1) read c = .ok (json, after)) : json.DistinctKeys := by
  rw [readItems] at h
  obtain ⟨⟨value, _⟩, hv, h⟩ := Outcomes.bind_eq_ok_iff.mp h
  have hread : ∀ item ∈ value :: read, item.DistinctKeys :=
    List.forall_mem_cons.mpr ⟨hr.value hv, hread⟩
  dsimp only at h
  split at h
  · cases h
    exact .array fun item hi => hread item (List.mem_reverse.mp hi)
  · exact hr.items hread h
  · cases h

end

theorem readsDistinct (fuel : Nat) : ReadsDistinct fuel := by
  induction fuel with
  | zero => exact ⟨nofun, fun _ => nofun, fun _ => nofun⟩
  | succ fuel ih => exact ⟨ih.readValue_succ, ih.readMembers_succ, ih.readItems_succ⟩

/-- A repeated name does not survive in an object, so every document has distinct keys. -/
theorem distinctKeys_of_parse {text : List Char} {json : Json} (h : parse text = .ok json) :
    json.DistinctKeys := by
  unfold parse at h
  split at h
  · cases h
  · obtain ⟨⟨value, _⟩, hv, h⟩ := Outcomes.bind_eq_ok_iff.mp h
    dsimp only at h
    split at h
    · cases h; exact (readsDistinct _).value hv
    · cases h

end Json

/-! ## Checks -/

namespace Checked

variable {α β : Type} {P : β → Prop} {Q : α → Prop}

/-- The value has the property, if the check finds no fault. -/
def Yields (P : α → Prop) (x : Checked α) : Prop := ∀ a, x = .valid a → P a

theorem yields_any (x : Checked α) : x.Yields fun _ => True := fun _ _ => trivial

theorem yields_fault (cause : FaultCause) : (Checked.fault cause : Checked α).Yields Q := nofun

theorem Yields.map {f : α → β} {x : Checked α} (hx : x.Yields Q) (hf : ∀ a, Q a → P (f a)) :
    (f <$> x).Yields P := by
  intro b hb
  cases x with
  | valid a => cases hb; exact hf a (hx a rfl)
  | invalid faults => cases hb

theorem Yields.seq {f : Checked (α → β)} {x : Checked α}
    (hf : f.Yields fun g => ∀ a, Q a → P (g a)) (hx : x.Yields Q) : (f <*> x).Yields P := by
  intro b hb
  cases f with
  | invalid faults => cases x <;> cases hb
  | valid g =>
    cases x with
    | invalid faults => cases hb
    | valid a => cases hb; exact hf g rfl a (hx a rfl)

theorem Yields.within {x : Checked α} (h : x.Yields Q) (step : PathStep) :
    (x.within step).Yields Q := by
  intro a ha
  cases x with
  | valid a => cases ha; exact h a rfl
  | invalid faults => cases ha

end Checked

namespace Json

open Checked (Yields)

variable {α : Type} {P : α → Prop} {check : Json → Checked α} {fields : List (String × Json)}

/-- Checked entries have the keys that they had, whatever is made of their values. -/
theorem checkEntries_yields (h : ∀ e ∈ fields, (check e.2).Yields P) :
    (checkEntries check fields).Yields fun es =>
      Entries.keys es = Entries.keys fields ∧ ∀ e ∈ es, P e.2 := by
  induction fields with
  | nil => intro es hes; cases hes; exact ⟨rfl, nofun⟩
  | cons e rest ih =>
    obtain ⟨he, hr⟩ := List.forall_mem_cons.mp h
    refine .seq (.map (he.within _) fun a ha es hes => ?_) (ih hr)
    exact ⟨congrArg _ hes.1, List.forall_mem_cons.mpr ⟨ha, hes.2⟩⟩

theorem asMapOf_object_yields (hk : (Entries.keys fields).Nodup)
    (h : ∀ e ∈ fields, (check e.2).Yields P) :
    (asMapOf check (.object fields)).Yields fun es =>
      (Entries.keys es).Nodup ∧ ∀ e ∈ es, P e.2 := by
  intro es hes
  obtain ⟨he, hp⟩ := checkEntries_yields h es hes
  exact ⟨he ▸ hk, hp⟩

theorem asMapOf_yields {json : Json} (hj : json.DistinctKeys)
    (h : ∀ value, value.DistinctKeys → (check value).Yields P) :
    (asMapOf check json).Yields fun es => (Entries.keys es).Nodup ∧ ∀ e ∈ es, P e.2 := by
  cases hj with
  | object hk hv => exact asMapOf_object_yields hk fun e he => h e.2 (hv e he)
  | _ => exact Checked.yields_fault _

theorem optionalField_eq (key : String) : optionalField key check fields =
    match fields.lookup key with
    | none => .valid none
    | some value =>
      if value.isNull then .valid none else (some <$> check value).within (.field key) := by
  unfold optionalField
  cases fields.lookup key with
  | none => rfl
  | some value => cases value <;> rfl

/-- The first field of a name is the one that is read. -/
theorem optionalField_cons (key k : String) (value : Json) :
    optionalField key check ((k, value) :: fields) =
      if k == key then
        if value.isNull then .valid none else (some <$> check value).within (.field key)
      else optionalField key check fields := by
  rw [optionalField_eq, optionalField_eq, Entries.lookup_cons]
  by_cases hk : key = k
  · rw [if_pos hk, if_pos (beq_iff_eq.mpr hk.symm)]
  · rw [if_neg hk, if_neg (mt beq_iff_eq.mp (Ne.symm hk))]

theorem optionalField_yields (key : String) (h : ∀ e ∈ fields, (check e.2).Yields P) :
    (optionalField key check fields).Yields fun value? => ∀ a ∈ value?, P a := by
  unfold optionalField
  split
  · intro value? hv; cases hv; exact nofun
  · intro value? hv; cases hv; exact nofun
  next value _ hl =>
    refine (Yields.map (h _ (Entries.mem_of_lookup hl)) fun a ha b hb => ?_).within _
    cases hb
    exact ha

/-- A field with a map, which has no entries where it is missing. -/
theorem mapField_yields {P : Entries α → Prop} {check : Json → Checked (Entries α)} (key : String)
    (hn : P []) (h : ∀ e ∈ fields, (check e.2).Yields P) :
    (optionalField key check fields).Yields fun es? => P (Entries.orEmpty es?) := by
  intro es? hes
  have hp := optionalField_yields key h es? hes
  cases es? with
  | none => exact hn
  | some es => exact hp es rfl

end Json

/-! ## Descriptions -/

open Checked (Yields)

theorem Schema.mapOfJson_eq : mapOfJson = Json.asMapOf ofJson := by
  have he : ∀ fields, schemaEntries fields = Json.checkEntries ofJson fields := by
    intro fields
    induction fields with
    | nil => rw [schemaEntries]; rfl
    | cons e rest ih => rw [schemaEntries, ih]; rfl
  funext json
  cases json with
  | object fields => exact he fields
  | _ => rfl

theorem Schema.mapOfJson_yields {json : Json} (h : json.DistinctKeys) :
    (mapOfJson json).Yields fun es => (keys es).Nodup := by
  intro es hes
  rw [mapOfJson_eq] at hes
  exact (Json.asMapOf_yields h (fun _ _ => Checked.yields_any _) es hes).1

/-- No parameter of the method is named twice. -/
def Method.OwnDistinctKeys (m : Method) : Prop := (keys (orEmpty m.parameters)).Nodup

theorem Method.ofJson_yields {json : Json} (h : json.DistinctKeys) :
    (ofJson json).Yields OwnDistinctKeys := by
  cases h with
  | object _ hv =>
    have hp := Json.mapField_yields "parameters" .nil fun e he => Schema.mapOfJson_yields (hv e he)
    -- Six fields follow the parameters, and five stand before them.
    iterate 6 refine .seq ?_ (Checked.yields_any _)
    refine .seq ?_ hp
    iterate 4 refine .seq ?_ (Checked.yields_any _)
    exact .map (Checked.yields_any _) (by intros; assumption)
  | _ => exact Checked.yields_fault _

namespace Resource

theorem resourceEntries_eq (fields : List (String × Json)) :
    resourceEntries fields = Json.checkEntries ofJson fields := by
  induction fields with
  | nil => rw [resourceEntries]; rfl
  | cons e rest ih => rw [resourceEntries, ih]; rfl

theorem mapOfJson_eq : mapOfJson = Json.asMapOf ofJson := by
  funext json
  cases json with
  | object fields => exact resourceEntries_eq fields
  | _ => rfl

theorem childrenField_eq (fields : List (String × Json)) :
    childrenField fields = Json.optionalField "resources" mapOfJson fields := by
  induction fields with
  | nil => rw [childrenField]; rfl
  | cons e rest ih =>
    obtain ⟨key, value⟩ := e
    unfold childrenField
    rw [Json.optionalField_cons, ih]
    split
    next hk =>
      cases beq_iff_eq.mp hk
      cases value <;> rfl
    next => rfl

/-- No map of the resource has a key twice, and none below it. -/
structure OwnDistinctKeys (r : Resource) : Prop where
  methods : (keys (orEmpty r.methods)).Nodup
  parameters : ∀ m ∈ orEmpty r.methods, m.2.OwnDistinctKeys
  below : DistinctKeys (orEmpty r.resources)

theorem distinctKeys_iff {resources : Entries Resource} :
    DistinctKeys resources ↔
      (keys resources).Nodup ∧ ∀ e ∈ resources, e.2.OwnDistinctKeys := by
  constructor
  · rintro ⟨hn, hm, hp, hb⟩
    exact ⟨hn, fun e he => ⟨hm e he, hp e he, hb e he⟩⟩
  · rintro ⟨hn, h⟩
    exact .intro hn (fun e he => (h e he).methods) (fun e he => (h e he).parameters)
      fun e he => (h e he).below

/-- A resource holds a map of resources under one of its fields, and a map is checked entry by
entry: the two go together down the document. -/
theorem ofJson_yields {json : Json} (h : json.DistinctKeys) :
    (ofJson json).Yields OwnDistinctKeys ∧ (mapOfJson json).Yields DistinctKeys := by
  induction h with
  | @object fields hk hv ih =>
    constructor
    · have hm := Json.mapField_yields "methods" ⟨.nil, List.forall_mem_nil _⟩ fun e he =>
        Json.asMapOf_yields (hv e he) fun _ => Method.ofJson_yields
      have hb := Json.mapField_yields "resources" (distinctKeys_iff.mpr
        ⟨.nil, List.forall_mem_nil _⟩) fun e he => (ih e he).2
      rw [← childrenField_eq] at hb
      rw [ofJson]
      exact .seq (.map hm fun _ hm _ hb => ⟨hm.1, hm.2, hb⟩) hb
    · rw [mapOfJson_eq]
      intro es hes
      exact distinctKeys_iff.mpr
        (Json.asMapOf_object_yields hk (fun e he => (ih e he).1) es hes)
  | _ =>
    refine ⟨?_, Checked.yields_fault _⟩
    unfold ofJson
    exact Checked.yields_fault _

theorem orEmpty_resources_sorted (r : Resource) :
    orEmpty r.sorted.resources =
      Entries.sortByKey (Entries.mapValues sorted (orEmpty r.resources)) := by
  obtain ⟨methods, resources⟩ := r
  rw [sorted, orEmpty_sortedChildren?]

/-- Sorting keeps the keys, at every depth. -/
theorem DistinctKeys.sorted {resources : Entries Resource} (h : DistinctKeys resources) :
    DistinctKeys (Entries.sortByKey (Entries.mapValues Resource.sorted resources)) := by
  induction h with
  | @intro resources hn hm hp _ ih =>
    refine distinctKeys_iff.mpr ⟨Entries.nodup_sortByKey ?_, fun e he => ?_⟩
    · rwa [Entries.keys_mapValues]
    obtain ⟨a, ha, rfl⟩ := List.mem_map.mp (Entries.mem_sortByKey.mp he)
    constructor
    case methods =>
      rw [orEmpty_methods_sorted]
      exact Entries.nodup_sortByKey (hm a ha)
    case parameters =>
      rw [orEmpty_methods_sorted]
      exact fun m hmem => hp a ha m (Entries.mem_sortByKey.mp hmem)
    case below =>
      rw [orEmpty_resources_sorted]
      exact ih a ha

end Resource

/-- No scope is offered twice. -/
def OAuth2.OwnDistinctKeys (o : OAuth2) : Prop := (keys (orEmpty o.scopes)).Nodup

theorem OAuth2.ofJson_yields {json : Json} (h : json.DistinctKeys) :
    (ofJson json).Yields OwnDistinctKeys := by
  cases h with
  | object _ hv =>
    have hs := Json.mapField_yields "scopes" ⟨.nil, List.forall_mem_nil _⟩ fun e he =>
      Json.asMapOf_yields (hv e he) fun value _ => Checked.yields_any (Scope.ofJson value)
    exact .map hs fun _ hn => hn.1
  | _ => exact Checked.yields_fault _

theorem Auth.ofJson_yields {json : Json} (h : json.DistinctKeys) :
    (ofJson json).Yields fun auth => ∀ o ∈ auth.oauth2, o.OwnDistinctKeys := by
  cases h with
  | object _ hv =>
    exact .map (Json.optionalField_yields "oauth2" fun e he => OAuth2.ofJson_yields (hv e he))
      fun _ ho => ho
  | _ => exact Checked.yields_fault _

namespace Description

theorem ofJson_yields {json : Json} (h : json.DistinctKeys) :
    (ofJson json).Yields DistinctKeys := by
  cases h with
  | object _ hv =>
    have hm (key : String) := Json.mapField_yields key .nil fun e he =>
      Schema.mapOfJson_yields (hv e he)
    have hr := Json.mapField_yields "resources" (.intro .nil nofun nofun nofun) fun e he =>
      (Resource.ofJson_yields (hv e he)).2
    -- Three of the last five fields hold maps that matter; nothing is asked of any other.
    refine .seq (.seq (.seq (.seq (.seq ?_ (hm "parameters")) (Checked.yields_any _))
      (hm "schemas")) (Checked.yields_any _)) hr
    iterate 16 refine .seq ?_ (Checked.yields_any _)
    refine .map (Checked.yields_any _) ?_
    intros
    constructor <;> assumption
  | _ => exact Checked.yields_fault _

theorem nodup_scopes_iff {api : Description} :
    (keys api.scopes).Nodup ↔ ∀ auth ∈ api.auth, ∀ o ∈ auth.oauth2, o.OwnDistinctKeys := by
  unfold scopes
  cases ha : api.auth with
  | none => simp [orEmpty, keys]
  | some auth =>
    cases ho : auth.oauth2 with
    | none => simp [ho, orEmpty, keys]
    | some o => simp [ho, OAuth2.OwnDistinctKeys]

theorem ofJson_yields_scopes {json : Json} (h : json.DistinctKeys) :
    (ofJson json).Yields fun api => (keys api.scopes).Nodup := by
  cases h with
  | object _ hv =>
    have ha := Json.optionalField_yields "auth" fun e he => Auth.ofJson_yields (hv e he)
    -- Three fields follow the scopes, and eighteen stand before them.
    iterate 3 refine .seq ?_ (Checked.yields_any _)
    refine .seq ?_ ha
    iterate 17 refine .seq ?_ (Checked.yields_any _)
    refine .map (Checked.yields_any _) ?_
    intros
    exact nodup_scopes_iff.mpr (by assumption)
  | _ => exact Checked.yields_fault _

/-- What normalizing sorts keeps its keys. -/
theorem DistinctKeys.normalize {api : Description} (h : api.DistinctKeys) :
    api.normalize.DistinctKeys := by
  constructor
  case schemas =>
    change (keys (orEmpty (api.schemas.map Entries.sortByKey))).Nodup
    rw [Entries.orEmpty_sortByKey]
    exact Entries.nodup_sortByKey h.schemas
  case parameters =>
    change (keys (orEmpty (api.parameters.map Entries.sortByKey))).Nodup
    rw [Entries.orEmpty_sortByKey]
    exact Entries.nodup_sortByKey h.parameters
  case resources =>
    change Resource.DistinctKeys (orEmpty (Resource.sortedChildren? api.resources))
    rw [Resource.orEmpty_sortedChildren?]
    exact h.resources.sorted

end Description

namespace Loader

theorem distinctKeys_of_parse {text : List Char} {json : Json} (h : parse text = .ok json) :
    json.DistinctKeys := by
  unfold parse at h
  cases hp : Json.parse text with
  | error e => rw [hp] at h; cases h
  | ok value => rw [hp] at h; cases h; exact Json.distinctKeys_of_parse hp

theorem distinctKeys_of_read {l : Loader} {w : Workspace} {source : String} {json : Json}
    (h : l.read w source = .ok json) : json.DistinctKeys := by
  unfold read at h
  split at h
  · obtain ⟨_, _, h⟩ := Outcomes.bind_eq_ok_iff.mp h
    exact distinctKeys_of_parse h
  · unfold fromFile at h
    dsimp only at h
    split at h
    · obtain ⟨_, _, h⟩ := Outcomes.bind_eq_ok_iff.mp h
      exact distinctKeys_of_parse h
    · cases h

/-- A description is loaded from a document, and every document has distinct keys. -/
theorem exists_document_of_description {l : Loader} {w : Workspace} {source : String}
    {api : Description} (h : l.description w source = .ok api) :
    ∃ json : Json, json.DistinctKeys ∧ Description.ofJson json = .valid api := by
  unfold description load at h
  split at h
  · cases h
  next json hread =>
    split at h
    next hvalid =>
      cases h
      exact ⟨json, distinctKeys_of_read hread, hvalid⟩
    next => cases h

/-- Whatever a description is loaded from, its maps have each key once. -/
theorem distinctKeys_of_description {l : Loader} {w : Workspace} {source : String}
    {api : Description} (h : l.description w source = .ok api) :
    api.DistinctKeys ∧ api.normalize.DistinctKeys := by
  obtain ⟨json, hjson, hvalid⟩ := exists_document_of_description h
  have hd := Description.ofJson_yields hjson api hvalid
  exact ⟨hd, hd.normalize⟩

end Loader

end ApiTypings
