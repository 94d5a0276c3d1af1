import ApiTypings.Proofs.FileTrees
import Mathlib.Data.List.Infix

/-! # Where paths lead

A path that leads somewhere in a tree of files leads to the one location that its names spell out,
two dots taking back the name before them. Names below a directory end inside of it, whatever the
directory is, exactly if no beginning of them goes up more often than it goes down. -/

namespace ApiTypings

/-! ## Names followed one by one -/

namespace Location

variable {base here deep : Location} {names : List String} {name : String}

/-- Where a name leads from a location, whatever is there. -/
def step (here : Location) (name : String) : Location :=
  if name = ".." then here.dropLast else here ++ [name]

def follow (here : Location) (names : List String) : Location := names.foldl step here

theorem follow_cons (here : Location) (name : String) (rest : List String) :
    follow here (name :: rest) = follow (step here name) rest := rfl

theorem follow_append (here : Location) (names others : List String) :
    follow here (names ++ others) = follow (follow here names) others := List.foldl_append

theorem follow_concat (h : name ≠ "..") :
    follow here (names ++ [name]) = follow here names ++ [name] := by
  rw [follow_append, follow_cons, step, if_neg h]
  rfl

theorem follow_of_not_mem (h : ".." ∉ names) : follow here names = here ++ names := by
  induction names generalizing here with
  | nil => exact (List.append_nil here).symm
  | cons name rest ih =>
    obtain ⟨hn, hr⟩ := not_or.mp (mt List.mem_cons.mpr h)
    rw [follow_cons, ih hr, step, if_neg (Ne.symm hn), List.append_assoc, List.singleton_append]

/-- Nothing comes into a location but the names that are followed. -/
theorem mem_follow (h : name ∈ follow here names) : name ∈ here ∨ name ∈ names := by
  induction names generalizing here with
  | nil => exact .inl h
  | cons first rest ih =>
    have hrest : name ∈ step here first ∨ name ∈ rest := ih h
    rcases hrest with hm | hm
    · unfold step at hm
      split at hm
      · exact .inl (List.mem_of_mem_dropLast hm)
      · rcases List.mem_append.mp hm with hm | hm
        · exact .inl hm
        · exact .inr (List.mem_singleton.mp hm ▸ List.mem_cons_self)
    · exact .inr (List.mem_cons_of_mem _ hm)

/-! ## Names that stay inside -/

/-- From some levels down, no beginning of the names goes up further than to where these began. -/
def StaysWithin (levels : Nat) (names : List String) : Prop :=
  ∀ front ∈ names.inits, 2 * front.count ".." ≤ levels + front.length

/-- No beginning of the names goes up more often than it goes down. -/
abbrev Inward (names : List String) : Prop := StaysWithin 0 names

instance (levels : Nat) (names : List String) : Decidable (StaysWithin levels names) :=
  inferInstanceAs (Decidable (∀ front ∈ names.inits, _))

variable {levels : Nat} {others : List String}

theorem StaysWithin.of_prefix (h : StaysWithin levels names) (hp : others <+: names) :
    StaysWithin levels others := by
  intro front hf
  exact h front ((List.mem_inits ..).mpr (((List.mem_inits ..).mp hf).trans hp))

theorem staysWithin_nil : StaysWithin levels [] := by simp [StaysWithin]

theorem staysWithin_up :
    StaysWithin levels (".." :: others) ↔ 1 ≤ levels ∧ StaysWithin (levels - 1) others := by
  simp only [StaysWithin, List.inits_cons, List.forall_mem_cons, List.forall_mem_map,
    List.count_cons_self, List.length_cons]
  constructor
  · rintro ⟨-, h⟩
    have hone := h [] ((List.mem_inits ..).mpr List.nil_prefix)
    rw [List.count_nil, List.length_nil] at hone
    refine ⟨by omega, fun front hf => ?_⟩
    have hc := h front hf
    omega
  · rintro ⟨hone, h⟩
    refine ⟨by simp, fun front hf => ?_⟩
    have hc := h front hf
    omega

theorem staysWithin_down (hn : name ≠ "..") :
    StaysWithin levels (name :: others) ↔ StaysWithin (levels + 1) others := by
  simp only [StaysWithin, List.inits_cons, List.forall_mem_cons, List.forall_mem_map,
    List.count_cons_of_ne hn, List.length_cons]
  constructor
  · rintro ⟨-, h⟩ front hf
    have hc := h front hf
    omega
  · intro h
    refine ⟨by simp, fun front hf => ?_⟩
    have hc := h front hf
    omega

/-- Names that stay within the levels below a location end at it or below it. -/
theorem prefix_follow (h : StaysWithin deep.length names) :
    base <+: follow (base ++ deep) names := by
  induction names generalizing deep with
  | nil => exact List.prefix_append ..
  | cons name rest ih =>
    rw [follow_cons]
    by_cases hn : name = ".."
    · subst hn
      obtain ⟨hone, hrest⟩ := staysWithin_up.mp h
      have hdeep : deep ≠ [] := List.ne_nil_of_length_pos hone
      rw [step, if_pos rfl, List.dropLast_append_of_ne_nil hdeep]
      exact ih (by rwa [List.length_dropLast])
    · rw [step, if_neg hn, List.append_assoc]
      refine ih ?_
      rw [List.length_append, List.length_singleton]
      exact (staysWithin_down hn).mp h

/-- A directory that has been left is not come back to by other names. -/
theorem staysWithin_of_prefix_follow {fresh : String} (hfresh : fresh ∉ names)
    (h : [fresh] <+: follow (fresh :: deep) names) : StaysWithin deep.length names := by
  induction names generalizing deep with
  | nil => exact staysWithin_nil
  | cons name rest ih =>
    have hrest : fresh ∉ rest := fun hm => hfresh (List.mem_cons_of_mem _ hm)
    rw [follow_cons] at h
    by_cases hn : name = ".."
    · subst hn
      cases deep with
      | nil =>
        rcases mem_follow (h.subset List.mem_cons_self) with hm | hm
        · cases hm
        · exact absurd hm hrest
      | cons first later =>
        have hup : step (fresh :: first :: later) ".." = fresh :: (first :: later).dropLast := rfl
        rw [hup] at h
        refine staysWithin_up.mpr ⟨Nat.le_add_left .., ?_⟩
        have hs := ih hrest h
        rwa [List.length_dropLast] at hs
    · rw [step, if_neg hn, List.cons_append] at h
      have hs := ih hrest h
      rw [List.length_append, List.length_singleton] at hs
      exact (staysWithin_down hn).mpr hs

/-- The location is inside of another and not the other itself. -/
def StrictlyBelow (base l : Location) : Prop := base <+: l ∧ l ≠ base

instance (base l : Location) : Decidable (StrictlyBelow base l) :=
  inferInstanceAs (Decidable (_ ∧ _))

theorem strictlyBelow_concat_iff {l : Location} :
    StrictlyBelow base (l ++ [name]) ↔ base <+: l := by
  rw [StrictlyBelow, List.prefix_concat_iff]
  constructor
  · rintro ⟨rfl | h, hne⟩
    · exact absurd rfl hne
    · exact h
  · intro h
    refine ⟨.inr h, fun he => ?_⟩
    have hl := h.length_le
    rw [← he, List.length_append, List.length_singleton] at hl
    omega

end Location

/-! ## Paths -/

namespace Path

variable {start : Location}

/-- The location that a path spells out, for one who stands at another. -/
def resolve (start : Location) (p : Path) : Location :=
  Location.follow (if p.isAbsolute then [] else start) p.parts

theorem resolve_of_relative {p : Path} (h : p.isAbsolute = false) :
    p.resolve start = Location.follow start p.parts := by
  rw [resolve, h, if_neg Bool.false_ne_true]

/-- A path below another starts where the other one leads to. -/
theorem resolve_join (base p : Path) :
    (base.join p).resolve start = p.resolve (base.resolve start) := by
  unfold join
  split
  next h => rw [resolve, resolve, if_pos h, if_pos h]
  next h =>
    have hbase : isAbsolute ⟨base.root, base.parts ++ p.parts⟩ = base.isAbsolute := rfl
    rw [resolve, resolve, if_neg h, resolve, hbase, Location.follow_append]

theorem join_assoc (a b c : Path) : (a.join b).join c = a.join (b.join c) := by
  by_cases hc : c.isAbsolute = true
  · simp only [join, if_pos hc]
  · by_cases hb : b.isAbsolute = true
    · have hbc : isAbsolute ⟨b.root, b.parts ++ c.parts⟩ = true := hb
      simp only [join, if_neg hc, if_pos hb, if_pos hbc]
    · have hbc : ¬ isAbsolute ⟨b.root, b.parts ++ c.parts⟩ = true := hb
      simp only [join, if_neg hc, if_neg hb, if_neg hbc, List.append_assoc]

/-- Where one stands. -/
def here : Path := ⟨"", []⟩

theorem here_join (p : Path) : here.join p = p := by
  unfold join
  split
  · rfl
  next h =>
    obtain ⟨root, parts⟩ := p
    have hroot : root = "" := by simpa [isAbsolute] using h
    rw [hroot]
    rfl

theorem child_eq_join (base p : Path) (name : String) :
    (base.join p).child name = base.join (p.child name) := join_assoc ..

end Path

namespace FileTree

variable {t : FileTree}

theorem walk_eq_follow {here l : Location} {names : List String}
    (h : t.walk here names = .ok l) : l = Location.follow here names := by
  induction names generalizing here with
  | nil => cases h; rfl
  | cons name rest ih =>
    rw [walk] at h
    split at h
    · rw [ih h, Location.follow_cons, Location.step]
      simp only [beq_iff_eq]
    · cases h
    · cases h

end FileTree

/-- A path that leads somewhere leads to the location that it spells out. -/
theorem Workspace.locate_eq_resolve {w : Workspace} {p : Path} {l : Location}
    (h : w.locate p = .ok l) : l = p.resolve w.directory := FileTree.walk_eq_follow h

end ApiTypings
