import ApiTypings.KeyOrder
import ApiTypings.Proofs.Outcomes
import Mathlib.Data.List.Nodup

/-! # Key order

Sorting moves entries and loses none, and it depends on the keys alone. With distinct keys there is
only one sorted order, so two orders of the same entries sort to the same list. -/

namespace ApiTypings.Entries

variable {α β : Type}

theorem mem_of_lookup {entries : Entries α} {key : String} {value : α}
    (h : entries.lookup key = some value) : (key, value) ∈ entries := by
  obtain ⟨before, after, rfl, _⟩ := List.lookup_eq_some_iff.mp h
  exact List.mem_append_right _ (List.mem_cons_self ..)

theorem insertByKey_perm (key : String) (value : α) (entries : Entries α) :
    (insertByKey key value entries).Perm ((key, value) :: entries) := by
  induction entries with
  | nil => exact .refl _
  | cons e rest ih =>
    obtain ⟨k, v⟩ := e
    simp only [insertByKey]
    split
    · exact (ih.cons (k, v)).trans (.swap ..)
    · exact .refl _

theorem sortByKey_perm (entries : Entries α) : (sortByKey entries).Perm entries := by
  induction entries with
  | nil => exact .refl _
  | cons e rest ih => exact (insertByKey_perm e.1 e.2 _).trans (ih.cons e)

theorem mem_sortByKey {entries : Entries α} {e : String × α} :
    e ∈ sortByKey entries ↔ e ∈ entries := (sortByKey_perm entries).mem_iff

theorem nodup_sortByKey {entries : Entries α} (h : (keys entries).Nodup) :
    (keys (sortByKey entries)).Nodup :=
  ((sortByKey_perm entries).map Prod.fst).nodup_iff.mpr h

/-- Ascending keys; equal ones may follow each other. -/
def Ascending (entries : Entries α) : Prop := entries.Pairwise fun a b => a.1 ≤ b.1

theorem insertByKey_ascending (key : String) (value : α) {entries : Entries α}
    (h : Ascending entries) : Ascending (insertByKey key value entries) := by
  induction entries with
  | nil => exact List.pairwise_singleton ..
  | cons e rest ih =>
    obtain ⟨k, v⟩ := e
    obtain ⟨hk, hrest⟩ := List.pairwise_cons.mp h
    simp only [insertByKey]
    split
    next hlt =>
      refine List.pairwise_cons.mpr ⟨?_, ih hrest⟩
      intro other member
      rcases List.mem_cons.mp ((insertByKey_perm key value rest).mem_iff.mp member) with rfl | hm
      · exact String.not_lt.mp fun hgt => String.lt_irrefl _ (String.lt_trans hlt hgt)
      · exact hk other hm
    next hnot =>
      have hle : key ≤ k := String.not_lt.mp hnot
      refine List.pairwise_cons.mpr ⟨?_, h⟩
      intro other member
      rcases List.mem_cons.mp member with rfl | hm
      · exact hle
      · exact String.le_trans hle (hk other hm)

theorem sortByKey_ascending (entries : Entries α) : Ascending (sortByKey entries) := by
  induction entries with
  | nil => exact .nil
  | cons e rest ih => exact insertByKey_ascending e.1 e.2 ih

/-- An entry is determined by its key where no key stands twice. -/
theorem eq_of_key_eq {entries : Entries α} (h : (keys entries).Nodup) {a b : String × α}
    (ha : a ∈ entries) (hb : b ∈ entries) (he : a.1 = b.1) : a = b :=
  List.inj_on_of_nodup_map h ha hb he

theorem sortByKey_eq_of_perm {xs ys : Entries α} (h : (keys xs).Nodup) (hp : xs.Perm ys) :
    sortByKey xs = sortByKey ys := by
  have hs : (sortByKey xs).Perm (sortByKey ys) :=
    (sortByKey_perm xs).trans (hp.trans (sortByKey_perm ys).symm)
  refine hs.eq_of_pairwise ?_ (sortByKey_ascending xs) (sortByKey_ascending ys)
  intro a b ha hb hab hba
  exact eq_of_key_eq h (mem_sortByKey.mp ha) (hp.mem_iff.mpr (mem_sortByKey.mp hb))
    (String.le_antisymm hab hba)

theorem sortByKey_strict {entries : Entries α} (h : (keys entries).Nodup) :
    (sortByKey entries).Pairwise fun a b => a.1 < b.1 := by
  have hn := nodup_sortByKey h
  refine (sortByKey_ascending entries).imp₂ ?_ (List.pairwise_map.mp hn)
  intro a b hle hne
  exact String.not_le.mp fun hge => hne (String.le_antisymm hle hge)

/-- The entries of a map, each once and in ascending order of their keys. -/
structure InKeyOrder (entries sorted : Entries α) : Prop where
  perm : sorted.Perm entries
  ascending : sorted.Pairwise fun a b => a.1 < b.1

theorem inKeyOrder_sortByKey {entries : Entries α} (h : (keys entries).Nodup) :
    InKeyOrder entries (sortByKey entries) := ⟨sortByKey_perm entries, sortByKey_strict h⟩

theorem InKeyOrder.filter {entries sorted : Entries α} (h : InKeyOrder entries sorted)
    (p : String × α → Bool) : InKeyOrder (entries.filter p) (sorted.filter p) :=
  ⟨h.perm.filter p, h.ascending.filter p⟩

/-! ## Entries in step

Two lists are in step when they have the same keys at the same places and related values. -/

/-- The same keys in the same order, with related values. -/
abbrev InStep (R : α → β → Prop) : Entries α → Entries β → Prop :=
  List.Forall₂ fun a b => a.1 = b.1 ∧ R a.2 b.2

variable {R : α → β → Prop}

/-- Entries in step are paired off, each pair under one key. -/
@[elab_as_elim]
theorem InStep.induct {motive : ∀ xs ys, InStep R xs ys → Prop} (nil : motive [] [] .nil)
    (cons : ∀ {key a b xs ys} (hab : R a b) (h : InStep R xs ys), motive xs ys h →
      motive ((key, a) :: xs) ((key, b) :: ys) (.cons ⟨rfl, hab⟩ h))
    {xs : Entries α} {ys : Entries β} (h : InStep R xs ys) : motive xs ys h := by
  induction h with
  | nil => exact nil
  | @cons x y xs ys hxy h ih =>
    obtain ⟨k, a⟩ := x
    obtain ⟨l, b⟩ := y
    have hk : k = l := hxy.1
    subst hk
    exact cons hxy.2 h ih

theorem InStep.insertByKey (key : String) {a : α} {b : β} (hv : R a b) {xs : Entries α}
    {ys : Entries β} (h : InStep R xs ys) :
    InStep R (insertByKey key a xs) (insertByKey key b ys) := by
  induction h using InStep.induct with
  | nil => exact .cons ⟨rfl, hv⟩ .nil
  | cons hvw hrest ih =>
    simp only [Entries.insertByKey]
    split
    · exact .cons ⟨rfl, hvw⟩ ih
    · exact .cons ⟨rfl, hv⟩ (.cons ⟨rfl, hvw⟩ hrest)

theorem InStep.sortByKey {xs : Entries α} {ys : Entries β} (h : InStep R xs ys) :
    InStep R (sortByKey xs) (sortByKey ys) := by
  induction h using InStep.induct with
  | nil => exact .nil
  | cons hvw _ ih => exact ih.insertByKey _ hvw

section
variable {γ : Type} {xs : Entries α} {ys : Entries β}

theorem InStep.keys_eq (h : InStep R xs ys) : keys xs = keys ys := by
  induction h using InStep.induct with
  | nil => rfl
  | cons _ _ ih => exact congrArg _ ih

theorem InStep.filter {p : String × α → Bool} {q : String × β → Bool} (h : InStep R xs ys)
    (hpq : ∀ key a b, R a b → p (key, a) = q (key, b)) :
    InStep R (xs.filter p) (ys.filter q) := by
  induction h using InStep.induct with
  | nil => exact .nil
  | @cons key a b xs ys hab _ ih =>
    rw [List.filter_cons, List.filter_cons, hpq key a b hab]
    split
    · exact .cons ⟨rfl, hab⟩ ih
    · exact ih

theorem InStep.map_eq {f : String × α → γ} {g : String × β → γ} (h : InStep R xs ys)
    (hfg : ∀ key a b, R a b → f (key, a) = g (key, b)) : xs.map f = ys.map g := by
  induction h using InStep.induct with
  | nil => rfl
  | @cons key a b xs ys hab _ ih => rw [List.map_cons, List.map_cons, hfg key a b hab, ih]

theorem InStep.mapM_eq {ε : Type} {f : String × α → Except ε γ} {g : String × β → Except ε γ}
    (h : InStep R xs ys) (hfg : ∀ key a b, R a b → f (key, a) = g (key, b)) :
    xs.mapM f = ys.mapM g := by
  induction h using InStep.induct with
  | nil => rfl
  | @cons key a b xs ys hab _ ih => rw [List.mapM_cons, List.mapM_cons, hfg key a b hab, ih]

end

theorem InStep.eq_of_eq {xs ys : Entries α} (h : InStep Eq xs ys) : xs = ys := by
  induction h using InStep.induct with
  | nil => rfl
  | cons hab _ ih => rw [hab, ih]

theorem inStep_mapValues (f : α → β) (entries : Entries α) :
    InStep (fun a b => b = f a) entries (mapValues f entries) := by
  induction entries with
  | nil => exact .nil
  | cons e rest ih => exact .cons ⟨rfl, rfl⟩ ih

theorem InStep.eq_mapValues {f : α → β} {xs : Entries α} {ys : Entries β}
    (h : InStep (fun a b => b = f a) xs ys) : ys = mapValues f xs := by
  induction h using InStep.induct with
  | nil => rfl
  | cons hab _ ih => rw [hab, ih]; rfl

theorem keys_mapValues (f : α → β) (entries : Entries α) :
    keys (mapValues f entries) = keys entries := by
  simp [keys, mapValues]

theorem sortByKey_mapValues (f : α → β) (entries : Entries α) :
    sortByKey (mapValues f entries) = mapValues f (sortByKey entries) :=
  (inStep_mapValues f entries).sortByKey.eq_mapValues

theorem inStep_mapValues₂ {γ : Type} {f : γ → α} {g : γ → β} {entries : Entries γ}
    (h : ∀ e ∈ entries, R (f e.2) (g e.2)) :
    InStep R (mapValues f entries) (mapValues g entries) := by
  induction entries with
  | nil => exact .nil
  | cons e rest ih =>
    exact .cons ⟨rfl, h e (List.mem_cons_self ..)⟩
      (ih fun e he => h e (List.mem_cons_of_mem _ he))

@[simp] theorem mapValues_mapValues {γ : Type} (f : α → β) (g : β → γ) (entries : Entries α) :
    mapValues g (mapValues f entries) = mapValues (fun a => g (f a)) entries := by
  simp [mapValues]

/-! ## Results under keys -/

/-- The values in their order, or the first fault among them. -/
def collect {ε : Type} (entries : Entries (Except ε α)) : Except ε (Entries α) :=
  entries.mapM fun (name, result) => result.map fun value => (name, value)

theorem collect_cons {ε : Type} (name : String) (result : Except ε α)
    (rest : Entries (Except ε α)) :
    collect ((name, result) :: rest) =
      (do let value ← result; let values ← collect rest; return (name, value) :: values) := by
  cases result <;> simp [collect, Except.map] <;> rfl

theorem collect_mapValues_eq_ok_iff {ε : Type} {f : α → Except ε β} {entries : Entries α}
    {values : Entries β} :
    collect (entries.mapValues f) = .ok values ↔
      InStep (fun a b => f a = .ok b) entries values := by
  rw [collect, Outcomes.mapM_eq_ok_iff, mapValues, List.forall₂_map_left_iff]
  constructor <;> intro h <;> refine h.imp ?_
  · intro e value he
    obtain ⟨b, hb, rfl⟩ := Outcomes.map_eq_ok_iff.mp he
    exact ⟨rfl, hb⟩
  · intro e value he
    exact Outcomes.map_eq_ok_iff.mpr ⟨value.2, he.2, Prod.ext he.1 rfl⟩

theorem collect_mapValues_succeeds_iff {ε : Type} {f : α → Except ε β} {entries : Entries α} :
    (∃ values, collect (entries.mapValues f) = .ok values) ↔
      ∀ e ∈ entries, ∃ value, f e.2 = .ok value := by
  rw [collect, Outcomes.mapM_succeeds_iff]
  simp only [mapValues, List.forall_mem_map, Outcomes.map_succeeds_iff]

end ApiTypings.Entries
