import ApiTypings.Text.Case

/-! # Lower case twice

What lower case makes of a text is left alone by it. Most of this is about the table: no run moves a
character to one that a run moves. -/

namespace ApiTypings.Text

/-! ## Runs -/

namespace CaseRun

/-- The run has none of the code points from `low` to `high` that are a multiple of `step` away from
`low`. Steps are one or two, so beside the bounds only odd and even count. -/
def misses (r : CaseRun) (low high step : Nat) : Bool :=
  -- Every run is compared with every other: these comparisons take one step each on numerals.
  r.last.blt low || high.blt r.first ||
    (r.step.beq 2 && (step.beq 2 || low.beq high) && ((low + r.first) % 2).beq 1)

/-- The code points to which the run moves its own are in none of the runs. -/
def leaves (r : CaseRun) (runs : List CaseRun) : Bool :=
  0 ≤ r.first + r.shift &&
    runs.all (·.misses (r.first + r.shift).toNat (r.last + r.shift).toNat r.step)

variable {r q : CaseRun} {n m : Nat}

theorem image?_eq_some_iff : r.image? n = some m ↔
    r.first ≤ n ∧ n ≤ r.last ∧ (n - r.first) % r.step = 0 ∧ (n + r.shift).toNat = m := by
  simp [image?, and_assoc]

theorem image?_eq_none_iff :
    r.image? n = none ↔ ¬ (r.first ≤ n ∧ n ≤ r.last ∧ (n - r.first) % r.step = 0) := by
  simp [image?, and_assoc]

theorem image?_of_misses (h : r.image? n = some m) (hlow : 0 ≤ r.first + r.shift)
    (hq : q.misses (r.first + r.shift).toNat (r.last + r.shift).toNat r.step) :
    q.image? m = none := by
  obtain ⟨hfirst, hlast, hstep, rfl⟩ := image?_eq_some_iff.mp h
  simp only [misses, Bool.or_eq_true, Bool.and_eq_true, Nat.blt_eq, Nat.beq_eq] at hq
  rw [image?_eq_none_iff]
  rintro ⟨hge, hle, hmod⟩
  rcases hq with (hbelow | habove) | ⟨⟨htwo, hsteps⟩, hodd⟩
  · omega
  · omega
  rw [htwo] at hmod
  rcases hsteps with htwo | hsingle
  · rw [htwo] at hstep
    omega
  · omega

end CaseRun

/-! ## Characters -/

/-- The runs of lower case, and the one capital that becomes two characters. -/
def capitalRuns : List CaseRun := ⟨0x130, 0x130, 1, 0⟩ :: lowerRuns

/-- The character is no capital. -/
def IsLow (c : Char) : Prop := ∀ r ∈ capitalRuns, r.image? c.toNat = none

instance (c : Char) : Decidable (IsLow c) :=
  inferInstanceAs (Decidable (∀ r ∈ capitalRuns, r.image? c.toNat = none))

theorem lowerRuns_leave : lowerRuns.all (·.leaves capitalRuns) := by decide +kernel

theorem applyRuns_of_isLow {c : Char} (h : IsLow c) : applyRuns lowerRuns c = c := by
  have hn : lowerRuns.findSome? (·.image? c.toNat) = none :=
    List.findSome?_eq_none_iff.mpr fun r hr => h r (List.mem_cons_of_mem _ hr)
  rw [applyRuns, hn]

theorem isLow_applyRuns {c : Char} (h : c ≠ '\u0130') : IsLow (applyRuns lowerRuns c) := by
  unfold applyRuns
  split
  next n hn =>
    obtain ⟨r, hr, hrn⟩ := List.exists_of_findSome?_eq_some hn
    have hl := List.all_eq_true.mp lowerRuns_leave r hr
    simp only [CaseRun.leaves, Bool.and_eq_true, decide_eq_true_eq, List.all_eq_true] at hl
    unfold IsLow Char.ofNat
    by_cases hv : n.isValidChar
    · rw [dif_pos hv]
      exact fun q hq => CaseRun.image?_of_misses hrn hl.1 (hl.2 q hq)
    · rw [dif_neg hv]
      decide +kernel
  next hn =>
    intro r hr
    rcases List.mem_cons.mp hr with rfl | hr
    · rw [CaseRun.image?_eq_none_iff]
      rintro ⟨hge, hle, _⟩
      exact h (Char.toNat_inj.mp (Nat.le_antisymm hle hge))
    · exact List.findSome?_eq_none_iff.mp hn r hr

/-- Below U+0080 the table says what the simple mapping says. -/
theorem toLower_eq_applyRuns {c : Char} (h : c.toNat < 0x80) :
    c.toLower = applyRuns lowerRuns c := by
  have hrest : lowerRuns.tail.findSome? (·.image? c.toNat) = none := by
    refine List.findSome?_eq_none_iff.mpr fun r hr => CaseRun.image?_eq_none_iff.mpr fun hin => ?_
    have hr : 0x80 ≤ r.first := by
      have ht : ∀ r ∈ lowerRuns.tail, 0x80 ≤ r.first := by decide +kernel
      exact ht r hr
    omega
  have hletters : ∀ n < 0x80, (Char.ofNat n).toLower =
      applyRuns [⟨0x41, 0x5A, 1, 32⟩] (Char.ofNat n) := by decide
  have hc := hletters c.toNat h
  rw [Char.ofNat_toNat] at hc
  rw [hc, applyRuns, applyRuns, show lowerRuns = ⟨0x41, 0x5A, 1, 32⟩ :: lowerRuns.tail from rfl,
    List.findSome?_cons, List.findSome?_cons, hrest]
  rfl

theorem lowerBetween_of_isLow {c : Char} (h : IsLow c) (before after : List Char) :
    lowerBetween before c after = [c] := by
  have hr : applyRuns lowerRuns c = c := applyRuns_of_isLow h
  have hsigma : c ≠ '\u03a3' := by rintro rfl; exact absurd h (by decide +kernel)
  have hi : c ≠ '\u0130' := by rintro rfl; exact absurd h (by decide +kernel)
  unfold lowerBetween
  split
  next ha => rw [toLower_eq_applyRuns ha, hr]
  next => rw [if_neg (mt beq_iff_eq.mp hsigma), if_neg (mt beq_iff_eq.mp hi), hr]

theorem isLow_lowerBetween (before : List Char) (c : Char) (after : List Char) :
    ∀ d ∈ lowerBetween before c after, IsLow d := by
  unfold lowerBetween
  split
  next ha =>
    rw [toLower_eq_applyRuns ha]
    refine List.forall_mem_singleton.mpr (isLow_applyRuns ?_)
    rintro rfl
    exact absurd ha (by decide)
  next =>
    split
    · split <;> exact List.forall_mem_singleton.mpr (by decide +kernel)
    split
    · exact List.forall_mem_cons.mpr
        ⟨by decide +kernel, List.forall_mem_singleton.mpr (by decide +kernel)⟩
    next hi => exact List.forall_mem_singleton.mpr (isLow_applyRuns (mt beq_iff_eq.mpr hi))

/-! ## Texts -/

theorem lowerAfter_of_isLow {cs : List Char} (h : ∀ c ∈ cs, IsLow c) (before : List Char) :
    lowerAfter before cs = cs := by
  induction cs generalizing before with
  | nil => rfl
  | cons c cs ih =>
    have ⟨hc, hcs⟩ := List.forall_mem_cons.mp h
    rw [lowerAfter, lowerBetween_of_isLow hc, ih hcs]
    rfl

theorem isLow_lowerAfter (before cs : List Char) : ∀ d ∈ lowerAfter before cs, IsLow d := by
  induction cs generalizing before with
  | nil => exact List.forall_mem_nil _
  | cons c cs ih =>
    exact List.forall_mem_append.mpr ⟨isLow_lowerBetween before c cs, ih (c :: before)⟩

theorem lower_lower (s : String) : lower (lower s) = lower s := by
  unfold lower
  rw [String.toList_ofList, lowerAfter_of_isLow (isLow_lowerAfter [] s.toList)]

end ApiTypings.Text
