import Mathlib.Data.List.Forall2

/-! # Outcomes of lists

A step over a list that may fail at any element gives the results in order, or the fault of the
first element that has one. -/

namespace ApiTypings.Outcomes

variable {ε α β γ : Type}

/-- Related results, or the same fault. -/
inductive Agree (R : α → β → Prop) : Except ε α → Except ε β → Prop
  | ok {a : α} {b : β} : R a b → Agree R (.ok a) (.ok b)
  | error (fault : ε) : Agree R (.error fault) (.error fault)

theorem Agree.bind {δ : Type} {R : α → β → Prop} {S : γ → δ → Prop} {x : Except ε α}
    {y : Except ε β} {f : α → Except ε γ} {g : β → Except ε δ} (h : Agree R x y)
    (hfg : ∀ a b, R a b → Agree S (f a) (g b)) : Agree S (x >>= f) (y >>= g) := by
  cases h with
  | ok hab => exact hfg _ _ hab
  | error fault => exact .error fault

/-- An outcome made from another agrees with it. -/
theorem agree_of_eq_map {x : Except ε α} {y : Except ε β} {f : β → α} (h : x = y.map f) :
    Agree (fun a b => a = f b) x y := by
  subst h
  cases y with
  | ok b => exact .ok rfl
  | error fault => exact .error fault

theorem map_eq_ok_iff {f : α → β} {outcome : Except ε α} {b : β} :
    outcome.map f = .ok b ↔ ∃ a, outcome = .ok a ∧ f a = b := by
  cases outcome <;> simp [Except.map]

theorem bind_eq_ok_iff {x : Except ε α} {f : α → Except ε β} {b : β} :
    x >>= f = .ok b ↔ ∃ a, x = .ok a ∧ f a = .ok b := by
  cases x <;> simp [bind, Except.bind]

theorem bind_eq_error_iff {x : Except ε α} {f : α → Except ε β} {fault : ε} :
    x >>= f = .error fault ↔ x = .error fault ∨ ∃ a, x = .ok a ∧ f a = .error fault := by
  cases x <;> simp [bind, Except.bind]

theorem mapError_eq_ok_iff {f : ε → γ} {outcome : Except ε α} {a : α} :
    outcome.mapError f = .ok a ↔ outcome = .ok a := by
  cases outcome <;> simp [Except.mapError]

theorem mapError_eq_error_iff {f : ε → γ} {outcome : Except ε α} {fault : γ} :
    outcome.mapError f = .error fault ↔ ∃ cause, outcome = .error cause ∧ f cause = fault := by
  cases outcome <;> simp [Except.mapError]

theorem map_succeeds_iff {f : α → β} {outcome : Except ε α} :
    (∃ b, outcome.map f = .ok b) ↔ ∃ a, outcome = .ok a := by
  cases outcome <;> simp [Except.map]

theorem mapM_eq_ok_iff {f : α → Except ε β} {xs : List α} {ys : List β} :
    xs.mapM f = .ok ys ↔ List.Forall₂ (fun x y => f x = .ok y) xs ys := by
  induction xs generalizing ys with
  | nil => exact ⟨fun h => by cases h; exact .nil, fun h => by cases h; rfl⟩
  | cons x rest ih =>
    rw [List.mapM_cons]
    constructor
    · intro h
      cases hx : f x with
      | error fault => rw [hx] at h; cases h
      | ok y =>
        cases hr : rest.mapM f with
        | error fault => rw [hx, hr] at h; cases h
        | ok rest' => rw [hx, hr] at h; cases h; exact .cons hx (ih.mp hr)
    · intro h
      cases h with
      | cons hx hrest => rw [hx, ih.mpr hrest]; rfl

theorem mapM_succeeds_iff {f : α → Except ε β} {xs : List α} :
    (∃ ys, xs.mapM f = .ok ys) ↔ ∀ x ∈ xs, ∃ y, f x = .ok y := by
  simp only [mapM_eq_ok_iff]
  induction xs with
  | nil => simp
  | cons x rest ih =>
    rw [List.forall_mem_cons, ← ih]
    constructor
    · rintro ⟨ys, h⟩
      cases h with
      | cons hx hrest => exact ⟨⟨_, hx⟩, _, hrest⟩
    · rintro ⟨⟨y, hx⟩, ys, hrest⟩
      exact ⟨y :: ys, .cons hx hrest⟩

/-- What is made of each result may be made of all results at the end. -/
theorem mapM_map_results {f : α → Except ε β} {g : α → Except ε γ} {h : γ → β} {xs : List α}
    (hf : ∀ x ∈ xs, f x = (g x).map h) : xs.mapM f = (xs.mapM g).map (List.map h) := by
  induction xs with
  | nil => rfl
  | cons x rest ih =>
    rw [List.mapM_cons, List.mapM_cons, hf x (List.mem_cons_self ..),
      ih fun y hy => hf y (List.mem_cons_of_mem _ hy)]
    cases g x with
    | error fault => rfl
    | ok y => cases rest.mapM g <;> rfl

/-- Two lists made from one: what stands at the same place comes from one element. -/
theorem forall₂_of_common {R : α → β → Prop} {S : α → γ → Prop} {xs : List α} {ys : List β}
    {zs : List γ} (hy : List.Forall₂ R xs ys) (hz : List.Forall₂ S xs zs) :
    List.Forall₂ (fun y z => ∃ x ∈ xs, R x y ∧ S x z) ys zs := by
  induction hy generalizing zs with
  | nil => cases hz; exact .nil
  | cons hxy _ ih =>
    cases hz with
    | cons hxz hrest =>
      refine .cons ⟨_, List.mem_cons_self .., hxy, hxz⟩ ((ih hrest).imp ?_)
      rintro y z ⟨x, hx, h⟩
      exact ⟨x, List.mem_cons_of_mem _ hx, h⟩

theorem exists_right_of_mem {R : α → β → Prop} {xs : List α} {ys : List β}
    (h : List.Forall₂ R xs ys) {x : α} (hx : x ∈ xs) : ∃ y ∈ ys, R x y := by
  induction h with
  | nil => cases hx
  | cons hxy _ ih =>
    rcases List.mem_cons.mp hx with rfl | hx
    · exact ⟨_, List.mem_cons_self .., hxy⟩
    · obtain ⟨y, hy, hr⟩ := ih hx
      exact ⟨y, List.mem_cons_of_mem _ hy, hr⟩

theorem forall₂_imp_mem {R S : α → β → Prop} {xs : List α} {ys : List β}
    (h : List.Forall₂ R xs ys) (hi : ∀ x ∈ xs, ∀ y, R x y → S x y) : List.Forall₂ S xs ys := by
  induction h with
  | nil => exact .nil
  | cons hxy _ ih =>
    exact .cons (hi _ (List.mem_cons_self ..) _ hxy)
      (ih fun x hx => hi x (List.mem_cons_of_mem _ hx))

theorem map_eq_of_forall₂ {f : α → γ} {g : β → γ} {xs : List α} {ys : List β}
    (h : List.Forall₂ (fun x y => g y = f x) xs ys) : ys.map g = xs.map f := by
  induction h with
  | nil => rfl
  | cons hxy _ ih => rw [List.map_cons, List.map_cons, hxy, ih]

/-! ## Faults -/

def fault? : Except ε α → Option ε
  | .ok _ => none
  | .error fault => some fault

theorem fault?_eq_some_iff {outcome : Except ε α} {fault : ε} :
    fault? outcome = some fault ↔ outcome = .error fault := by
  cases outcome <;> simp [fault?]

theorem fault?_map (f : α → β) (outcome : Except ε α) :
    fault? (outcome.map f) = fault? outcome := by
  cases outcome <;> rfl

/-- A step that follows another is reached if the first has no fault. -/
theorem fault?_bind {x : Except ε α} {f : α → Except ε β} {next : Option ε}
    (h : ∀ a, fault? (f a) = next) : fault? (x >>= f) = (fault? x).or next := by
  cases x with
  | error fault => rfl
  | ok a => exact h a

/-- The first fault in the order of the list comes out. -/
theorem fault?_mapM (f : α → Except ε β) (xs : List α) :
    fault? (xs.mapM f) = xs.findSome? fun x => fault? (f x) := by
  induction xs with
  | nil => rfl
  | cons x rest ih =>
    rw [List.mapM_cons, List.findSome?_cons]
    cases f x with
    | error fault => rfl
    | ok y =>
      have hrest : fault? (rest.mapM f >>= fun ys => pure (y :: ys)) =
          (fault? (rest.mapM f)).or none := fault?_bind fun _ => rfl
      rw [Option.or_none, ih] at hrest
      exact hrest

theorem findSome?_flatMap (f : α → List β) (p : β → Option γ) (xs : List α) :
    (xs.flatMap f).findSome? p = xs.findSome? fun x => (f x).findSome? p := by
  induction xs with
  | nil => rfl
  | cons x rest ih =>
    rw [List.flatMap_cons, List.findSome?_append, ih, List.findSome?_cons]
    cases (f x).findSome? p <;> rfl

end ApiTypings.Outcomes
