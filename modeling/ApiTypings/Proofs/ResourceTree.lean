import ApiTypings.Description
import ApiTypings.Proofs.KeyOrder

/-! # The tree of resources

A resource stands in the tree at the end of a path of names. The tree is written down in one of two
orders, a resource before what is below it or after; either way every resource is taken once. -/

namespace ApiTypings.Resource

open Entries

/-! ## Recursion and induction -/

section
variable {β : Type} (step : Resource → Entries (Resource × β) → β)

theorem recurseEntries_eq (entries : List (String × Resource)) :
    recurseEntries step entries = Entries.mapValues (fun r => (r, recurse step r)) entries := by
  induction entries with
  | nil => simp [recurseEntries, Entries.mapValues]
  | cons e rest ih =>
    obtain ⟨name, r⟩ := e
    rw [recurseEntries, ih]
    rfl

/-- The recursion over the tree as one equation. -/
theorem recurse_eq (r : Resource) :
    recurse step r =
      step r
        ((Entries.orEmpty r.resources).mapValues fun child => (child, recurse step child)) := by
  obtain ⟨methods, resources⟩ := r
  cases resources with
  | none => rw [recurse, recurseChildren]; rfl
  | some entries => rw [recurse, recurseChildren, recurseEntries_eq]; rfl

end

theorem sizeOf_child {r : Resource} {e : String × Resource}
    (he : e ∈ Entries.orEmpty r.resources) : sizeOf e.2 < sizeOf r := by
  obtain ⟨methods, _ | entries⟩ := r
  · cases he
  · obtain ⟨name, child⟩ := e
    have hs := List.sizeOf_lt_of_mem he
    simp [Entries.orEmpty] at hs ⊢
    omega

/-- What holds of a resource whenever it holds of its children holds of every resource. -/
@[elab_as_elim]
theorem childInduction {motive : Resource → Prop}
    (step : ∀ r, (∀ e ∈ Entries.orEmpty r.resources, motive e.2) → motive r) (r : Resource) :
    motive r :=
  step r fun e he => have := sizeOf_child he; childInduction step e.2
termination_by sizeOf r

/-! ## Places -/

/-- A resource with the names that lead to it: those of the resources above it, the topmost first,
and its own. -/
structure Place where
  above : List String
  name : String
  resource : Resource

namespace Place

def path (p : Place) : List String := p.above ++ [p.name]

def methods (p : Place) : Entries Method := orEmpty p.resource.methods

def children (p : Place) : Entries Resource := orEmpty p.resource.resources

/-- The place is one of those that a map of resources makes up below `above`. -/
inductive Within : Entries Resource → List String → Place → Prop
  | top {resources : Entries Resource} {above : List String} {name : String} {r : Resource} :
      (name, r) ∈ resources → Within resources above ⟨above, name, r⟩
  | deeper {resources : Entries Resource} {above : List String} {name : String} {r : Resource}
      {p : Place} : (name, r) ∈ resources →
      Within (orEmpty r.resources) (above ++ [name]) p → Within resources above p

theorem within_iff {resources : Entries Resource} {above : List String} {p : Place} :
    Within resources above p ↔ ∃ e ∈ resources, p = ⟨above, e.1, e.2⟩ ∨
      Within (orEmpty e.2.resources) (above ++ [e.1]) p := by
  constructor
  · intro h
    cases h with
    | top he => exact ⟨_, he, .inl rfl⟩
    | deeper he hp => exact ⟨_, he, .inr hp⟩
  · rintro ⟨e, he, rfl | hp⟩
    · exact .top he
    · exact .deeper he hp

/-- A child of a place is a place. -/
theorem Within.child {resources : Entries Resource} {above : List String} {p : Place}
    (h : Within resources above p) {e : String × Resource} (he : e ∈ p.children) :
    Within resources above ⟨p.path, e.1, e.2⟩ := by
  induction h with
  | top hr => exact .deeper hr (.top he)
  | deeper hr _ ih => exact .deeper hr (ih he)

/-- Every path below a path is longer. -/
theorem Within.path_eq {resources : Entries Resource} {above : List String} {p : Place}
    (h : Within resources above p) :
    ∃ name rest, p.path = above ++ name :: rest := by
  induction h with
  | @top _ above name r _ => exact ⟨name, [], rfl⟩
  | @deeper _ above name r p _ _ ih =>
    obtain ⟨child, rest, hp⟩ := ih
    exact ⟨name, child :: rest, by rw [hp, List.append_assoc]; rfl⟩

end Place

/-! ## Orders -/

/-- When a resource is taken: before what is below it, or after. -/
inductive Order where
  | parentFirst
  | childrenFirst

namespace Order

def arrange : Order → Place → List Place → List Place
  | parentFirst, p, below => p :: below
  | childrenFirst, p, below => below ++ [p]

/-- Which of two paths comes first. Where neither goes through the other, the smaller name at the
first difference decides. -/
inductive Before : Order → List String → List String → Prop
  | parent {above rest : List String} {name : String} :
      Before parentFirst above (above ++ name :: rest)
  | child {above rest : List String} {name : String} :
      Before childrenFirst (above ++ name :: rest) above
  | sibling {order : Order} {above left right : List String} {a b : String} : a < b →
      Before order (above ++ a :: left) (above ++ b :: right)

theorem Before.ne {order : Order} {p q : List String} (h : Before order p q) : p ≠ q := by
  intro he
  cases h with
  | parent => simpa using congrArg List.length he
  | child => simpa using congrArg List.length he
  | sibling hab =>
    obtain ⟨rfl, _⟩ := List.cons.inj (List.append_cancel_left he)
    exact String.lt_irrefl _ hab

theorem arrange_perm (order : Order) (p : Place) (below : List Place) :
    (order.arrange p below).Perm (p :: below) := by
  cases order with
  | parentFirst => exact .refl _
  | childrenFirst => exact List.perm_append_singleton p below

end Order

/-- A resource and all that is below it, siblings in key order. -/
def placesFrom (order : Order) : Resource → List String → String → List Place :=
  recurse fun r children above name =>
    order.arrange ⟨above, name, r⟩ ((sortByKey children).flatMap fun (child, _, places) =>
      places (above ++ [name]) child)

/-- All places that a map of resources makes up below `above`. -/
def places (order : Order) (resources : Entries Resource) (above : List String) : List Place :=
  (sortByKey resources).flatMap fun (name, r) => placesFrom order r above name

theorem placesFrom_eq (order : Order) (r : Resource) (above : List String) (name : String) :
    placesFrom order r above name =
      order.arrange ⟨above, name, r⟩ (places order (orEmpty r.resources) (above ++ [name])) := by
  rw [placesFrom, recurse_eq, sortByKey_mapValues]
  simp only [mapValues, List.flatMap_map]
  rfl

/-! ## Every place once -/

theorem mem_placesFrom {order : Order} {r : Resource} {above : List String} {name : String}
    {p : Place} : p ∈ placesFrom order r above name ↔
      p = ⟨above, name, r⟩ ∨ Place.Within (orEmpty r.resources) (above ++ [name]) p := by
  induction r using childInduction generalizing above name with
  | step r ih =>
    rw [placesFrom_eq, (order.arrange_perm _ _).mem_iff, List.mem_cons, places,
      List.mem_flatMap, Place.within_iff]
    refine or_congr_right (exists_congr fun e => ?_)
    rw [mem_sortByKey]
    exact and_congr_right fun he => ih e he

theorem mem_places {order : Order} {resources : Entries Resource} {above : List String}
    {p : Place} : p ∈ places order resources above ↔ Place.Within resources above p := by
  rw [places, List.mem_flatMap, Place.within_iff]
  simp only [mem_sortByKey, mem_placesFrom]

/-- No map of the tree has a key twice: neither those of resources, nor those of methods, nor those
of a method's parameters. -/
inductive DistinctKeys : Entries Resource → Prop
  | intro {resources : Entries Resource} : (keys resources).Nodup →
      (∀ e ∈ resources, (keys (orEmpty e.2.methods)).Nodup) →
      (∀ e ∈ resources, ∀ m ∈ orEmpty e.2.methods, (keys (orEmpty m.2.parameters)).Nodup) →
      (∀ e ∈ resources, DistinctKeys (orEmpty e.2.resources)) → DistinctKeys resources

theorem DistinctKeys.keys {resources : Entries Resource} (h : DistinctKeys resources) :
    (keys resources).Nodup := by
  cases h
  assumption

theorem DistinctKeys.of_within {resources : Entries Resource} {above : List String} {p : Place}
    (h : DistinctKeys resources) (hp : Place.Within resources above p) :
    (Entries.keys p.methods).Nodup ∧
      (∀ m ∈ p.methods, (Entries.keys (orEmpty m.2.parameters)).Nodup) ∧
      DistinctKeys p.children := by
  induction hp with
  | top he =>
    obtain ⟨_, hm, hq, hc⟩ := h
    exact ⟨hm _ he, hq _ he, hc _ he⟩
  | deeper he _ ih =>
    obtain ⟨_, _, _, hc⟩ := h
    exact ih (hc _ he)

theorem placesFrom_path {order : Order} {r : Resource} {above : List String} {name : String}
    {p : Place} (h : p ∈ placesFrom order r above name) :
    ∃ rest, p.path = above ++ name :: rest := by
  rcases mem_placesFrom.mp h with rfl | h
  · exact ⟨[], rfl⟩
  · obtain ⟨child, rest, hp⟩ := h.path_eq
    exact ⟨child :: rest, by rw [hp, List.append_assoc]; rfl⟩

/-- The places of siblings come in the order of their names. -/
theorem places_before (order : Order) {resources : Entries Resource} (above : List String)
    (hn : (keys resources).Nodup)
    (h : ∀ e ∈ resources, (placesFrom order e.2 above e.1).Pairwise fun p q =>
      order.Before p.path q.path) :
    (places order resources above).Pairwise fun p q => order.Before p.path q.path := by
  rw [places, List.pairwise_flatMap]
  refine ⟨fun e he => h e (mem_sortByKey.mp he), (sortByKey_strict hn).imp ?_⟩
  intro a b hab p hp q hq
  obtain ⟨left, hp⟩ := placesFrom_path hp
  obtain ⟨right, hq⟩ := placesFrom_path hq
  rw [hp, hq]
  exact .sibling hab

theorem placesFrom_before {order : Order} {r : Resource}
    (h : DistinctKeys (orEmpty r.resources)) (above : List String) (name : String) :
    (placesFrom order r above name).Pairwise fun p q => order.Before p.path q.path := by
  induction r using childInduction generalizing above name with
  | step r ih =>
    obtain ⟨hn, _, _, hc⟩ := h
    have hb := places_before order (above ++ [name]) hn
      fun e he => ih e he (hc e he) (above ++ [name]) e.1
    rw [placesFrom_eq]
    cases order with
    | parentFirst =>
      refine List.pairwise_cons.mpr ⟨fun q hq => ?_, hb⟩
      obtain ⟨child, rest, hp⟩ := (mem_places.mp hq).path_eq
      rw [hp]
      exact .parent
    | childrenFirst =>
      refine List.pairwise_append.mpr ⟨hb, List.pairwise_singleton _ _, fun q hq p hp => ?_⟩
      obtain ⟨child, rest, hq⟩ := (mem_places.mp hq).path_eq
      rw [List.mem_singleton.mp hp, hq]
      exact .child

/-- The places of a tree in an order: all of them, each once. -/
structure Enumerates (order : Order) (resources : Entries Resource) (ps : List Place) : Prop where
  mem_iff : ∀ p, p ∈ ps ↔ Place.Within resources [] p
  ordered : ps.Pairwise fun p q => order.Before p.path q.path
  nodup : (ps.map Place.path).Nodup

theorem enumerates_places (order : Order) {resources : Entries Resource}
    (h : DistinctKeys resources) : Enumerates order resources (places order resources []) := by
  obtain ⟨hn, _, _, hc⟩ := h
  have ho := places_before order [] hn fun e he => placesFrom_before (hc e he) [] e.1
  exact ⟨fun _ => mem_places, ho, List.pairwise_map.mpr (ho.imp Order.Before.ne)⟩

end ApiTypings.Resource
