import ApiTypings.Generation
import Mathlib.Data.List.Count
import Mathlib.Data.List.Forall2
import Mathlib.Data.List.Perm.Basic

/-! # The plan of a run

The items of a listing are taken group by group. Each group is split by the item that stands for it,
which is taken first; where the others are asked for, they are those before it and those after it.
Items are told apart by their places alone, so that equal ones are all taken. -/

namespace ApiTypings.DirectoryItem

/-! ## Names in order of appearance -/

section
variable {names : List String} {name : String}

theorem mem_distinct : name ∈ distinct names ↔ name ∈ names := by
  induction names with
  | nil => rfl
  | cons first rest ih =>
    rw [distinct, List.mem_cons, List.mem_cons, List.mem_filter, ih]
    by_cases h : name = first <;> simp [h]

theorem nodup_distinct (names : List String) : (distinct names).Nodup := by
  induction names with
  | nil => exact .nil
  | cons first rest ih =>
    refine List.nodup_cons.mpr ⟨fun hm => ?_, ih.filter _⟩
    simpa using (List.mem_filter.mp hm).2

/-- A name that appears first comes first. -/
theorem distinct_ordered (names : List String) :
    (distinct names).Pairwise fun a b => names.idxOf a < names.idxOf b := by
  induction names with
  | nil => exact .nil
  | cons first rest ih =>
    have hne : ∀ name ∈ (distinct rest).filter (· != first), first ≠ name := fun name hm =>
      (bne_iff_ne.mp (List.mem_filter.mp hm).2).symm
    refine List.pairwise_cons.mpr ⟨fun b hb => ?_, (ih.filter _).imp_of_mem fun ha hb hab => ?_⟩
    · rw [List.idxOf_cons_self, List.idxOf_cons_ne _ (hne b hb)]
      exact Nat.succ_pos _
    · rw [List.idxOf_cons_ne _ (hne _ ha), List.idxOf_cons_ne _ (hne _ hb)]
      exact Nat.succ_lt_succ hab

end

/-! ## The item that stands for a group -/

/-- The item stands for those before it, itself and those after it: it is the first preferred one,
or none is preferred and it is the first of the lowest version. -/
inductive StandsFor (before : List DirectoryItem) (item : DirectoryItem)
    (after : List DirectoryItem) : Prop
  | preferred : item.preferred = true → (∀ other ∈ before, other.preferred = false) →
      StandsFor before item after
  | lowest : (∀ other ∈ before ++ item :: after, other.preferred = false) →
      (∀ other ∈ before, item.version < other.version) →
      (∀ other ∈ after, item.version ≤ other.version) → StandsFor before item after

theorem split_of_findIdx? {α : Type} {p : α → Bool} {xs : List α} {i : Nat}
    (h : xs.findIdx? p = some i) :
    ∃ before x after, xs = before ++ x :: after ∧ before.length = i ∧ p x = true ∧
      ∀ y ∈ before, p y = false := by
  induction xs generalizing i with
  | nil => cases h
  | cons x rest ih =>
    rw [List.findIdx?_cons] at h
    split at h
    next hx =>
      cases h
      exact ⟨[], x, rest, rfl, rfl, hx, nofun⟩
    next hx =>
      obtain ⟨j, hj, rfl⟩ := Option.map_eq_some_iff.mp h
      obtain ⟨before, y, after, rfl, rfl, hy, hb⟩ := ih hj
      refine ⟨x :: before, y, after, rfl, rfl, hy, ?_⟩
      exact List.forall_mem_cons.mpr ⟨by simpa using hx, hb⟩

theorem lowest?_spec {items : List DirectoryItem} (h : items ≠ []) :
    ∃ item, lowest? items = some item ∧ item ∈ items ∧
      ∀ other ∈ items, item.version ≤ other.version := by
  induction items with
  | nil => exact absurd rfl h
  | cons item rest ih =>
    by_cases hr : rest = []
    · subst hr
      exact ⟨item, rfl, List.mem_singleton_self _, by simp⟩
    · obtain ⟨low, hl, hm, hle⟩ := ih hr
      rw [lowest?, hl]
      dsimp only
      split
      next hlt =>
        refine ⟨low, rfl, List.mem_cons_of_mem _ hm, List.forall_mem_cons.mpr ⟨?_, hle⟩⟩
        exact String.not_lt.mp fun hgt => String.lt_irrefl _ (String.lt_trans hlt hgt)
      next hnlt =>
        refine ⟨item, rfl, List.mem_cons_self .., List.forall_mem_cons.mpr ⟨String.le_refl _, ?_⟩⟩
        exact fun other ho => String.le_trans (String.not_lt.mp hnlt) (hle other ho)

theorem split_of_selectedIndex? {items : List DirectoryItem} (h : items ≠ []) :
    ∃ before item after, items = before ++ item :: after ∧
      selectedIndex? items = some before.length ∧ StandsFor before item after := by
  unfold selectedIndex?
  cases hp : items.findIdx? (·.preferred) with
  | some i =>
    obtain ⟨before, item, after, rfl, rfl, hi, hb⟩ := split_of_findIdx? hp
    exact ⟨before, item, after, rfl, rfl, .preferred hi hb⟩
  | none =>
    have hn := List.findIdx?_eq_none_iff.mp hp
    obtain ⟨low, hl, hm, hle⟩ := lowest?_spec h
    have hf : items.findIdx? (·.version == low.version) ≠ none := fun hf => by
      simpa using List.findIdx?_eq_none_iff.mp hf low hm
    obtain ⟨i, hi⟩ := Option.ne_none_iff_exists'.mp hf
    obtain ⟨before, item, after, rfl, rfl, hv, hb⟩ := split_of_findIdx? hi
    have hv : item.version = low.version := eq_of_beq hv
    refine ⟨before, item, after, rfl, by rw [hl]; exact hi, .lowest hn ?_ ?_⟩ <;> rw [hv]
    · intro other ho
      refine String.not_le.mp fun hge => beq_eq_false_iff_ne.mp (hb other ho) ?_
      exact String.le_antisymm hge (hle other (List.mem_append_left _ ho))
    · intro other ho
      exact hle other (List.mem_append_right _ (List.mem_cons_of_mem _ ho))

/-- What is taken of a group, first the item that stands for it. -/
theorem chosen_spec (all : Bool) {group : List DirectoryItem} (h : group ≠ []) :
    ∃ before item after, group = before ++ item :: after ∧ StandsFor before item after ∧
      chosen all group = item :: if all then before ++ after else [] := by
  obtain ⟨before, item, after, rfl, hs, hi⟩ := split_of_selectedIndex? h
  refine ⟨before, item, after, rfl, hi, ?_⟩
  rw [chosen, hs]
  simp [List.eraseIdx_append_of_length_le]

/-! ## The plan -/

/-- The calls for some items. The names of the items come in the order of their first appearance,
each once, and for each name there are the calls for the items of that name. -/
def IsPlan (all : Bool) (items calls : List DirectoryItem) : Prop :=
  ∃ names : List String, names.Nodup ∧ (∀ name, name ∈ names ↔ ∃ item ∈ items, item.name = name) ∧
    names.Pairwise (fun a b =>
      (items.map (·.name)).idxOf a < (items.map (·.name)).idxOf b) ∧
    ∃ parts : List (List DirectoryItem), calls = parts.flatten ∧
      List.Forall₂ (fun name part => ∃ before item after,
        items.filter (·.name == name) = before ++ item :: after ∧ StandsFor before item after ∧
        part = item :: if all then before ++ after else []) names parts

theorem plan_isPlan (all : Bool) (items : List DirectoryItem) :
    IsPlan all items (plan all items) := by
  refine ⟨distinct (items.map (·.name)), nodup_distinct _, fun name => ?_, distinct_ordered _,
    (groups items).map (chosen all), List.flatMap_def .., ?_⟩
  · rw [mem_distinct, List.mem_map]
  · rw [groups, List.map_map, List.forall₂_map_right_iff, List.forall₂_same]
    intro name hm
    refine chosen_spec all fun he => ?_
    obtain ⟨item, hi, rfl⟩ := List.mem_map.mp (mem_distinct.mp hm)
    exact List.filter_eq_nil_iff.mp he item hi (beq_self_eq_true _)

theorem chosen_all_perm (group : List DirectoryItem) : (chosen true group).Perm group := by
  by_cases h : group = []
  · subst h; exact .refl _
  · obtain ⟨before, item, after, rfl, _, hc⟩ := chosen_spec true h
    rw [hc, if_pos rfl]
    exact List.perm_middle.symm

/-- An item is in the group of its name and in no other. -/
theorem count_groups (items : List DirectoryItem) {names : List String} (hn : names.Nodup)
    (item : DirectoryItem) :
    (names.flatMap fun name => items.filter (·.name == name)).count item =
      if item.name ∈ names then items.count item else 0 := by
  induction names with
  | nil => rfl
  | cons name rest ih =>
    obtain ⟨hr, hn⟩ := List.nodup_cons.mp hn
    rw [List.flatMap_cons, List.count_append, ih hn]
    by_cases h : item.name = name
    · have hc : (items.filter (·.name == name)).count item = items.count item :=
        List.count_filter (by simpa using h)
      rw [hc, h, if_neg hr, if_pos (List.mem_cons_self ..), Nat.add_zero]
    · have hc : (items.filter (·.name == name)).count item = 0 :=
        List.count_eq_zero.mpr fun hm => h (by simpa using (List.mem_filter.mp hm).2)
      simp only [hc, Nat.zero_add, List.mem_cons, h, false_or]

/-- With all versions, the calls are all items, each as often as it is listed. -/
theorem plan_all_perm (items : List DirectoryItem) : (plan true items).Perm items := by
  have hg : (plan true items).Perm ((groups items).flatMap fun group => group) :=
    List.Perm.flatMap_left _ fun group _ => chosen_all_perm group
  refine hg.trans (List.perm_iff_count.mpr fun item => ?_)
  rw [groups, List.flatMap_map]
  have hc := count_groups items (nodup_distinct (items.map (·.name))) item
  refine hc.trans ?_
  split
  · rfl
  next hm =>
    refine (List.count_eq_zero.mpr fun hi => hm ?_).symm
    exact mem_distinct.mpr (List.mem_map_of_mem hi)

end ApiTypings.DirectoryItem
