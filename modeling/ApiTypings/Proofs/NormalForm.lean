import ApiTypings.Proofs.DocumentKeys
import ApiTypings.Proofs.LowerCase

/-! # Normalized descriptions

Normalizing a description puts name and version in lower case and sorts its maps, down the tree of
resources. All else stays as it is, so that normalizing once more changes nothing. -/

namespace ApiTypings

open Entries (keys orEmpty)

namespace Entries

variable {α : Type}

/-- What is in order is sorted. -/
theorem sortByKey_of_ascending {entries : Entries α} (h : Ascending entries) :
    sortByKey entries = entries := by
  induction entries with
  | nil => rfl
  | cons e rest ih =>
    obtain ⟨hle, hrest⟩ := List.pairwise_cons.mp h
    change insertByKey e.1 e.2 (sortByKey rest) = e :: rest
    rw [ih hrest]
    cases rest with
    | nil => rfl
    | cons next rest =>
      exact if_neg fun hlt => String.not_le.mpr hlt (hle next (List.mem_cons_self ..))

theorem sortByKey_sortByKey (entries : Entries α) :
    sortByKey (sortByKey entries) = sortByKey entries :=
  sortByKey_of_ascending (sortByKey_ascending entries)

theorem map_sortByKey_twice (entries? : Option (Entries α)) :
    (entries?.map sortByKey).map sortByKey = entries?.map sortByKey := by
  rw [Option.map_map]
  exact congrArg (Option.map · entries?) (funext sortByKey_sortByKey)

/-- A map that may be missing, and the same map in key order: it is there if it was, and empty if it
was. -/
abbrev InKeyOrder? : Option (Entries α) → Option (Entries α) → Prop := Option.Rel InKeyOrder

theorem inKeyOrder?_map {entries? : Option (Entries α)} (h : (keys (orEmpty entries?)).Nodup) :
    InKeyOrder? entries? (entries?.map sortByKey) := by
  cases entries? with
  | none => exact .none
  | some entries => exact .some (inKeyOrder_sortByKey h)

end Entries

/-! ## Trees -/

namespace Resource

/-- The same tree, with the methods and the children of every resource in key order. -/
inductive InKeyOrder : Resource → Resource → Prop
  | intro {a b : Resource} : Entries.InKeyOrder? a.methods b.methods →
      Option.Rel (Entries.Reordered InKeyOrder) a.resources b.resources →
      (orEmpty b.resources).Pairwise (fun c d => c.1 < d.1) → InKeyOrder a b

theorem sortedChildren?_eq (children? : Option (Entries Resource)) :
    sortedChildren? children? =
      children?.map fun children => Entries.sortByKey (children.mapValues sorted) := by
  cases children? with
  | none => rw [sortedChildren?]; rfl
  | some children => rw [sortedChildren?, sortedChildren_eq]; rfl

theorem ascending_sortedChildren? {children? : Option (Entries Resource)}
    (hn : (keys (orEmpty children?)).Nodup) :
    (orEmpty (sortedChildren? children?)).Pairwise fun c d => c.1 < d.1 := by
  rw [orEmpty_sortedChildren?]
  refine Entries.sortByKey_strict ?_
  rwa [Entries.keys_mapValues]

theorem reordered_sortedChildren? {R : Resource → Resource → Prop}
    {children? : Option (Entries Resource)} (hn : (keys (orEmpty children?)).Nodup)
    (h : ∀ e ∈ orEmpty children?, R e.2 e.2.sorted) :
    Option.Rel (Entries.Reordered R) children? (sortedChildren? children?) := by
  rw [sortedChildren?_eq]
  cases children? with
  | none => exact .none
  | some children =>
    have hs : Entries.InStep R children (children.mapValues sorted) :=
      List.forall₂_map_right_iff.mpr (List.forall₂_same.mpr fun e he => ⟨rfl, h e he⟩)
    exact .some (Entries.reordered_iff.mpr ⟨hn, _, hs, (Entries.sortByKey_perm _).symm⟩)

theorem inKeyOrder_sorted {r : Resource} (h : r.OwnDistinctKeys) : InKeyOrder r r.sorted := by
  induction r using childInduction with
  | step r ih =>
    obtain ⟨hn, hbelow⟩ := distinctKeys_iff.mp h.below
    have hm := Entries.inKeyOrder?_map h.methods
    have hr := reordered_sortedChildren? hn fun e he => ih e he (hbelow e he)
    have ha := ascending_sortedChildren? hn
    obtain ⟨methods, resources⟩ := r
    rw [sorted]
    exact .intro hm hr ha

theorem sortedChildren?_twice {children? : Option (Entries Resource)}
    (h : ∀ e ∈ orEmpty children?, e.2.sorted.sorted = e.2.sorted) :
    sortedChildren? (sortedChildren? children?) = sortedChildren? children? := by
  rw [sortedChildren?_eq, sortedChildren?_eq, Option.map_map]
  cases children? with
  | none => rfl
  | some children =>
    have hc : children.mapValues (fun r => r.sorted.sorted) = children.mapValues sorted :=
      List.map_congr_left fun e he => congrArg _ (h e he)
    simp only [Option.map_some, Function.comp_apply, ← Entries.sortByKey_mapValues,
      Entries.mapValues_mapValues, hc, Entries.sortByKey_sortByKey]

theorem sorted_sorted (r : Resource) : r.sorted.sorted = r.sorted := by
  induction r using childInduction with
  | step r ih =>
    have hr := sortedChildren?_twice ih
    obtain ⟨methods, resources⟩ := r
    simp only [sorted, Entries.map_sortByKey_twice, hr]

end Resource

/-! ## Descriptions -/

def OAuth2.InKeyOrder (a b : OAuth2) : Prop := Entries.InKeyOrder? a.scopes b.scopes

def Auth.InKeyOrder (a b : Auth) : Prop := Option.Rel OAuth2.InKeyOrder a.oauth2 b.oauth2

namespace Description

/-- The form of a description in which name and version are in lower case, every map that is sorted
has its entries in key order, and nothing else is changed. Sorted are the maps of schemas, common
parameters, scopes and resources, and of the methods and children of every resource: the entries
are the same, those of resources up to the order of what is below them. The methods of the API
itself stay in their order, and so do the properties of a schema. -/
structure IsNormalForm (api normal : Description) : Prop where
  name : normal.name = Text.lower api.name
  version : normal.version = Text.lower api.version
  schemas : Entries.InKeyOrder? api.schemas normal.schemas
  parameters : Entries.InKeyOrder? api.parameters normal.parameters
  auth : Option.Rel Auth.InKeyOrder api.auth normal.auth
  resources : Option.Rel (Entries.Reordered Resource.InKeyOrder) api.resources normal.resources
  ascending : (orEmpty normal.resources).Pairwise fun a b => a.1 < b.1
  rest : { normal with
    name := api.name, version := api.version, schemas := api.schemas,
    parameters := api.parameters, auth := api.auth, resources := api.resources } = api

variable {api : Description}

theorem inKeyOrder_sortScopes (h : (keys api.scopes).Nodup) :
    Option.Rel Auth.InKeyOrder api.auth (api.auth.map sortScopes) := by
  have hown := nodup_scopes_iff.mp h
  cases ha : api.auth with
  | none => exact .none
  | some auth =>
    obtain ⟨_ | oauth2⟩ := auth
    · exact .some .none
    · exact .some (.some (Entries.inKeyOrder?_map (hown _ ha _ rfl)))

theorem sortScopes_sortScopes (auth : Auth) : sortScopes (sortScopes auth) = sortScopes auth := by
  obtain ⟨_ | oauth2⟩ := auth
  · rfl
  · simp only [sortScopes, Option.map_some, Entries.map_sortByKey_twice]

theorem normalize_normalize (api : Description) : api.normalize.normalize = api.normalize := by
  have ha : (api.auth.map sortScopes).map sortScopes = api.auth.map sortScopes := by
    rw [Option.map_map]
    exact congrArg (Option.map · api.auth) (funext sortScopes_sortScopes)
  simp only [normalize, Text.lower_lower, Entries.map_sortByKey_twice, ha,
    Resource.sortedChildren?_twice fun e _ => Resource.sorted_sorted e.2]

theorem isNormalForm_normalize (hk : api.DistinctKeys) (hs : (keys api.scopes).Nodup) :
    IsNormalForm api api.normalize := by
  obtain ⟨hn, hr⟩ := Resource.distinctKeys_iff.mp hk.resources
  exact {
    name := rfl
    version := rfl
    schemas := Entries.inKeyOrder?_map hk.schemas
    parameters := Entries.inKeyOrder?_map hk.parameters
    auth := inKeyOrder_sortScopes hs
    resources := Resource.reordered_sortedChildren? hn fun e he =>
      Resource.inKeyOrder_sorted (hr e he)
    ascending := Resource.ascending_sortedChildren? hn
    rest := rfl }

/-- Normalizing a description gives its normal form, from which nothing is left to change. -/
theorem normalize_reaches_normal_form (hk : api.DistinctKeys) (hs : (keys api.scopes).Nodup) :
    IsNormalForm api api.normalize ∧ api.normalize.normalize = api.normalize :=
  ⟨isNormalForm_normalize hk hs, normalize_normalize api⟩

end Description

/-- Every description that is loaded has a normal form. -/
theorem Loader.isNormalForm_of_description {l : Loader} {w : Workspace} {source : String}
    {api : Description} (h : l.description w source = .ok api) :
    api.IsNormalForm api.normalize := by
  obtain ⟨json, hjson, hvalid⟩ := exists_document_of_description h
  exact Description.isNormalForm_normalize (Description.ofJson_yields hjson api hvalid)
    (Description.ofJson_yields_scopes hjson api hvalid)

/-! An API whose maps are all out of order. -/

namespace Calendar

def event : Schema :=
  { Schema.blank with
    properties := some [("summary", Schema.blank), ("end", Schema.blank)] }

def api : Description :=
  { Description.blank "Calendar" "V3" with
    parameters := some []
    auth := some ⟨some ⟨some [("write", ⟨none⟩), ("read", ⟨none⟩)]⟩⟩
    schemas := some [("Event", event), ("Acl", Schema.blank)]
    resources := some [
      ("events", ⟨some [("list", Method.blank), ("get", Method.blank)],
        some [("rules", ⟨none, none⟩), ("attachments", ⟨some [], none⟩)]⟩),
      ("acl", ⟨none, some []⟩)] }

theorem distinctKeys : api.DistinctKeys where
  schemas := by decide
  parameters := by decide
  resources := by
    refine .intro (by decide) (by decide) (by decide) fun e he => ?_
    rcases List.mem_pair.mp he with rfl | rfl
    · refine .intro (by decide) (by decide) (by decide) fun e he => ?_
      rcases List.mem_pair.mp he with rfl | rfl
      all_goals exact .intro .nil nofun nofun nofun
    · exact .intro .nil nofun nofun nofun

theorem normal_form_reached :
    api.IsNormalForm api.normalize ∧ api.normalize.normalize = api.normalize ∧
      api.normalize.name = "calendar" ∧ api.normalize.parameters.map keys = some [] ∧
      keys api.normalize.scopes = ["read", "write"] ∧
      (orEmpty api.normalize.schemas).map (fun e => (e.1, keys (orEmpty e.2.properties))) =
        [("Acl", []), ("Event", ["summary", "end"])] ∧
      (orEmpty api.normalize.resources).map (fun e =>
          (e.1, e.2.methods.map keys, e.2.resources.map keys)) =
        [("acl", none, some []),
          ("events", some ["get", "list"], some ["attachments", "rules"])] := by
  have ⟨hform, hfixed⟩ := Description.normalize_reaches_normal_form distinctKeys (by decide)
  exact ⟨hform, hfixed, by decide, by decide, by decide, by decide, by decide⟩

end Calendar

end ApiTypings
