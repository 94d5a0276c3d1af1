import ApiTypings.Proofs.KeyOrder

/-! # Maps in another order

Two lists of entries that hold one map may differ in the order of the entries. Sorted by key they
are in step, and looking up a key or laying one map on another does not see the order either. -/

namespace ApiTypings.Entries

variable {α β : Type}

/-- The same keys, none of them twice, as in any map, with related values. The first entry of one
list may stand anywhere in the other. -/
inductive Reordered (R : α → β → Prop) : Entries α → Entries β → Prop
  | nil : Reordered R [] []
  | cons {key : String} {a : α} {b : β} {xs : Entries α} {before after : Entries β} :
      key ∉ keys xs → R a b → Reordered R xs (before ++ after) →
      Reordered R ((key, a) :: xs) (before ++ (key, b) :: after)

variable {R : α → β → Prop} {xs : Entries α} {ys : Entries β}

/-- A reordering is a permutation of values that are related in their places. -/
theorem reordered_iff :
    Reordered R xs ys ↔ (keys xs).Nodup ∧ ∃ zs, InStep R xs zs ∧ zs.Perm ys := by
  constructor
  · intro h
    induction h with
    | nil => exact ⟨.nil, [], .nil, .refl _⟩
    | cons hk hab _ ih =>
      obtain ⟨hn, zs, hs, hp⟩ := ih
      exact ⟨List.nodup_cons.mpr ⟨hk, hn⟩, _ :: zs, .cons ⟨rfl, hab⟩ hs,
        (hp.cons _).trans List.perm_middle.symm⟩
  · rintro ⟨hn, zs, hs, hp⟩
    induction hs using InStep.induct generalizing ys with
    | nil => cases hp.nil_eq; exact .nil
    | cons hab hs ih =>
      obtain ⟨hk, hn⟩ := List.nodup_cons.mp hn
      obtain ⟨before, after, rfl⟩ := List.append_of_mem (hp.subset (List.mem_cons_self ..))
      exact .cons hk hab (ih hn (hp.trans List.perm_middle).cons_inv)

namespace Reordered

theorem nodup_left (h : Reordered R xs ys) : (keys xs).Nodup := (reordered_iff.mp h).1

theorem keys_perm (h : Reordered R xs ys) : (keys xs).Perm (keys ys) := by
  obtain ⟨_, zs, hs, hp⟩ := reordered_iff.mp h
  rw [hs.keys_eq]
  exact hp.map _

theorem nodup_right (h : Reordered R xs ys) : (keys ys).Nodup :=
  h.keys_perm.nodup_iff.mp h.nodup_left

/-- In key order the entries of both lists stand in the same places. -/
theorem sortByKey (h : Reordered R xs ys) :
    InStep R (Entries.sortByKey xs) (Entries.sortByKey ys) := by
  obtain ⟨hn, zs, hs, hp⟩ := reordered_iff.mp h
  rw [← sortByKey_eq_of_perm (hs.keys_eq ▸ hn) hp]
  exact hs.sortByKey

theorem sortByKey_eq {xs ys : Entries α} (h : Reordered Eq xs ys) :
    Entries.sortByKey xs = Entries.sortByKey ys := h.sortByKey.eq_of_eq

theorem length_eq (h : Reordered R xs ys) : xs.length = ys.length := by
  obtain ⟨_, zs, hs, hp⟩ := reordered_iff.mp h
  exact hs.length_eq.trans hp.length_eq

theorem isEmpty_eq (h : Reordered R xs ys) : xs.isEmpty = ys.isEmpty := by
  cases h with
  | nil => rfl
  | cons => simp

theorem single {key : String} {a : α} {b : β} (h : R a b) : Reordered R [(key, a)] [(key, b)] :=
  @cons _ _ R key a b [] [] [] List.not_mem_nil h .nil

/-- Two entries may change places. -/
theorem swap {k l : String} {a c : α} {b d : β} (hkl : k ≠ l) (hab : R a b) (hcd : R c d) :
    Reordered R [(k, a), (l, c)] [(l, d), (k, b)] :=
  @cons _ _ R k a b [(l, c)] [(l, d)] [] (by simpa [keys] using hkl) hab (single hcd)

theorem mapValues {γ δ : Type} {S : γ → δ → Prop} {f : α → γ} {g : β → δ} (h : Reordered R xs ys)
    (hfg : ∀ e ∈ xs, ∀ b, R e.2 b → S (f e.2) (g b)) :
    Reordered S (Entries.mapValues f xs) (Entries.mapValues g ys) := by
  induction h with
  | nil => exact .nil
  | cons hk hab _ ih =>
    simp only [Entries.mapValues, List.map_append, List.map_cons] at ih ⊢
    refine .cons (by simpa [keys] using hk) (hfg _ (List.mem_cons_self ..) _ hab) (ih ?_)
    exact fun e he => hfg e (List.mem_cons_of_mem _ he)

end Reordered

/-! ## Looking up -/

theorem lookup_eq_none_iff {key : String} : xs.lookup key = none ↔ key ∉ keys xs := by
  rw [List.lookup_eq_none_iff, keys, List.mem_map]
  constructor
  · rintro h ⟨e, he, rfl⟩
    exact bne_iff_ne.mp (h e he) rfl
  · intro h e he
    exact bne_iff_ne.mpr fun hk => h ⟨e, he, hk.symm⟩

theorem lookup_cons {key k : String} {a : α} :
    List.lookup key ((k, a) :: xs) = if key = k then some a else xs.lookup key := by
  rw [List.lookup_cons]
  by_cases he : key = k
  · rw [if_pos he, he, beq_self_eq_true]
  · rw [if_neg he, beq_false_of_ne he]

/-- Where an entry stands does not matter if it is the only one of its key. -/
theorem lookup_middle {key k : String} {b : β} {before after : Entries β}
    (hk : k ∉ keys (before ++ after)) :
    (before ++ (k, b) :: after).lookup key =
      if key = k then some b else (before ++ after).lookup key := by
  rw [List.lookup_append, List.lookup_append, lookup_cons]
  by_cases he : key = k
  · have hb : before.lookup k = none :=
      lookup_eq_none_iff.mpr fun hm => hk (List.map_subset _ (List.subset_append_left ..) hm)
    rw [he, if_pos rfl, if_pos rfl, hb, Option.none_or]
  · rw [if_neg he, if_neg he]

theorem lookup_of_mem {e : String × α} (hn : (keys xs).Nodup) (he : e ∈ xs) :
    xs.lookup e.1 = some e.2 := by
  obtain ⟨before, after, rfl⟩ := List.append_of_mem he
  have hp : (keys (before ++ e :: after)).Perm (e.1 :: keys (before ++ after)) :=
    List.perm_middle.map Prod.fst
  rw [lookup_middle (List.nodup_cons.mp (hp.nodup_iff.mp hn)).1, if_pos rfl]

theorem Reordered.lookup (h : Reordered R xs ys) (key : String) :
    Option.Rel R (xs.lookup key) (ys.lookup key) := by
  induction h with
  | nil => exact .none
  | @cons k a b xs before after hk hab hrest ih =>
    have hm : k ∉ keys (before ++ after) := fun hm => hk (hrest.keys_perm.mem_iff.mpr hm)
    rw [lookup_cons, lookup_middle hm]
    split
    · exact .some hab
    · exact ih

/-- A map is what it gives for each key. -/
theorem reordered_of_lookup (hx : (keys xs).Nodup) (hy : (keys ys).Nodup)
    (h : ∀ key, Option.Rel R (xs.lookup key) (ys.lookup key)) : Reordered R xs ys := by
  induction xs generalizing ys with
  | nil =>
    cases ys with
    | nil => exact .nil
    | cons e rest =>
      have he := h e.1
      rw [lookup_cons, if_pos rfl] at he
      cases he
  | cons e xs ih =>
    obtain ⟨k, a⟩ := e
    obtain ⟨hk, hx⟩ := List.nodup_cons.mp hx
    have he := h k
    rw [lookup_cons, if_pos rfl] at he
    cases hb : ys.lookup k with
    | none => rw [hb] at he; cases he
    | some b =>
      rw [hb] at he
      cases he with
      | some hab =>
        obtain ⟨before, after, rfl, _⟩ := List.lookup_eq_some_iff.mp hb
        have hp : (keys (before ++ (k, b) :: after)).Perm (k :: keys (before ++ after)) :=
          List.perm_middle.map Prod.fst
        obtain ⟨hm, hy⟩ := List.nodup_cons.mp (hp.nodup_iff.mp hy)
        refine .cons hk hab (ih hx hy fun key => ?_)
        have hkey := h key
        rw [lookup_cons, lookup_middle hm] at hkey
        by_cases hek : key = k
        · rw [hek, lookup_eq_none_iff.mpr hk, lookup_eq_none_iff.mpr hm]
          exact .none
        · rwa [if_neg hek, if_neg hek] at hkey

/-! ## Laying one map on another -/

theorem mem_keys_set {key k : String} {value : α} {entries : Entries α}
    (h : k ∈ keys (set key value entries)) : k = key ∨ k ∈ keys entries := by
  induction entries with
  | nil => exact .inl (List.mem_singleton.mp h)
  | cons e rest ih =>
    simp only [set] at h
    split at h
    · exact .inr h
    · rcases List.mem_cons.mp h with rfl | h
      · exact .inr (List.mem_cons_self ..)
      · exact (ih h).imp_right (List.mem_cons_of_mem _)

theorem nodup_set {entries : Entries α} (h : (keys entries).Nodup) (key : String) (value : α) :
    (keys (set key value entries)).Nodup := by
  induction entries with
  | nil => exact List.nodup_singleton key
  | cons e rest ih =>
    obtain ⟨hk, hrest⟩ := List.nodup_cons.mp h
    simp only [set]
    split
    · exact h
    next hne =>
      refine List.nodup_cons.mpr ⟨fun hm => ?_, ih hrest⟩
      rcases mem_keys_set hm with he | hm
      · exact hne (beq_iff_eq.mpr he)
      · exact hk hm

theorem lookup_set (key k : String) (value : α) (entries : Entries α) :
    (set k value entries).lookup key = if key = k then some value else entries.lookup key := by
  induction entries with
  | nil => exact lookup_cons
  | cons e rest ih =>
    obtain ⟨l, v⟩ := e
    simp only [set]
    split
    next he =>
      rw [lookup_cons, lookup_cons, eq_of_beq he]
      split <;> rfl
    next he =>
      rw [lookup_cons, lookup_cons, ih]
      by_cases hk : key = k <;> by_cases hl : key = l <;> simp_all

theorem nodup_merge {base added : Entries α} (h : (keys base).Nodup) :
    (keys (merge base added)).Nodup := by
  induction added generalizing base with
  | nil => exact h
  | cons e rest ih => exact ih (nodup_set h e.1 e.2)

/-- What is added covers what it is laid on. -/
theorem lookup_merge {base added : Entries α} (h : (keys added).Nodup) (key : String) :
    (merge base added).lookup key = (added.lookup key).or (base.lookup key) := by
  induction added generalizing base with
  | nil => rfl
  | cons e rest ih =>
    obtain ⟨k, v⟩ := e
    obtain ⟨hk, hn⟩ := List.nodup_cons.mp h
    change (merge (set k v base) rest).lookup key = _
    rw [ih hn, lookup_set, lookup_cons]
    by_cases he : key = k
    · rw [if_pos he, if_pos he, he, lookup_eq_none_iff.mpr hk]
      rfl
    · rw [if_neg he, if_neg he]

theorem mem_keys_merge {base added : Entries α} (h : (keys added).Nodup) {key : String} :
    key ∈ keys (merge base added) ↔ key ∈ keys base ∨ key ∈ keys added := by
  have hm : (merge base added).lookup key = _ := lookup_merge h key
  rw [← not_iff_not, not_or, ← lookup_eq_none_iff, ← lookup_eq_none_iff, ← lookup_eq_none_iff, hm,
    Option.or_eq_none_iff, and_comm]

theorem Reordered.merge {base added : Entries α} {base' added' : Entries β}
    (hb : Reordered R base base') (ha : Reordered R added added') :
    Reordered R (Entries.merge base added) (Entries.merge base' added') := by
  refine reordered_of_lookup (nodup_merge hb.nodup_left) (nodup_merge hb.nodup_right) fun key => ?_
  rw [lookup_merge ha.nodup_left, lookup_merge ha.nodup_right]
  have hkey := ha.lookup key
  generalize added.lookup key = u, added'.lookup key = v at hkey
  cases hkey with
  | none => exact hb.lookup key
  | some h => exact .some h

end ApiTypings.Entries
