import ApiTypings.Proofs.DirectoryPlan
import Mathlib.Algebra.Group.Nat.Defs

/-! # Numbered versions

Versions compare as texts. Where each is a `v` and a number, a text that precedes another one of at
least as many digits has no larger number. So the item that stands for an API has the lowest number
unless a version with fewer digits has a lower one, as `v2` has beside `v10`. -/

namespace ApiTypings

namespace Version

/-- The label is a `v` and a decimal number, which may have zeros in front. -/
def isNumbered (label : String) : Bool :=
  match label.toList with
  | 'v' :: digits => !digits.isEmpty && digits.all Char.isDigit
  | _ => false

/-- The number of a numbered label. -/
def number (label : String) : Nat := Nat.ofDigitChars 10 (label.toList.drop 1) 0

/-- The number of the label has no zeros in front. -/
def IsPlain (label : String) : Prop := label = "v" ++ toString (number label)

instance (label : String) : Decidable (IsPlain label) :=
  decEq label ("v" ++ toString (number label))

/-! ## Digits in text order -/

theorem digit_bounds {c : Char} (h : c.isDigit) : '0'.toNat ≤ c.toNat ∧ c.toNat ≤ '9'.toNat := by
  simpa [Char.isDigit, UInt32.le_iff_toNat_le] using h

theorem digit_lt_of_lt {a b : Char} (ha : a.isDigit) (h : a < b) :
    a.toNat - '0'.toNat < b.toNat - '0'.toNat := by
  have hzero := (digit_bounds ha).1
  rw [Char.lt_def, UInt32.lt_iff_toNat_lt] at h
  simp only [Char.toNat_val] at h
  omega

theorem ofDigitChars_cons_eq (c : Char) (cs : List Char) : Nat.ofDigitChars 10 (c :: cs) 0 =
    (c.toNat - '0'.toNat) * 10 ^ cs.length + Nat.ofDigitChars 10 cs 0 := by
  rw [Nat.ofDigitChars_cons, Nat.ofDigitChars_eq_ofDigitChars_zero, Nat.mul_comm]
  simp

theorem ofDigitChars_lt {cs : List Char} (h : ∀ c ∈ cs, c.isDigit) :
    Nat.ofDigitChars 10 cs 0 < 10 ^ cs.length := by
  induction cs with
  | nil => simp
  | cons c cs ih =>
    obtain ⟨hc, hcs⟩ := List.forall_mem_cons.mp h
    have hrest := ih hcs
    have hdigit : c.toNat - '0'.toNat + 1 ≤ 10 := by
      have hnine := (digit_bounds hc).2
      simp at hnine ⊢
      omega
    rw [ofDigitChars_cons_eq, List.length_cons, Nat.pow_succ]
    calc _ < (c.toNat - '0'.toNat) * 10 ^ cs.length + 10 ^ cs.length := by omega
      _ = (c.toNat - '0'.toNat + 1) * 10 ^ cs.length := by rw [Nat.succ_mul]
      _ ≤ 10 * 10 ^ cs.length := Nat.mul_le_mul_right _ hdigit
      _ = _ := Nat.mul_comm ..

/-- Digits that precede no fewer digits as a text have no larger number. -/
theorem ofDigitChars_le_of_lt {as bs : List Char} (ha : ∀ c ∈ as, c.isDigit)
    (hlt : as < bs) (hl : as.length ≤ bs.length) :
    Nat.ofDigitChars 10 as 0 ≤ Nat.ofDigitChars 10 bs 0 := by
  induction as generalizing bs with
  | nil => simp
  | cons a as ih =>
    cases bs with
    | nil => simp at hl
    | cons b bs =>
      obtain ⟨hdigit, has⟩ := List.forall_mem_cons.mp ha
      have hle : as.length ≤ bs.length := Nat.le_of_succ_le_succ hl
      have hpow : 10 ^ as.length ≤ 10 ^ bs.length := Nat.pow_le_pow_right (by decide) hle
      rw [ofDigitChars_cons_eq, ofDigitChars_cons_eq]
      rcases List.cons_lt_cons_iff.mp hlt with hab | ⟨rfl, hrest⟩
      · have hrest := ofDigitChars_lt has
        calc _ ≤ (a.toNat - '0'.toNat) * 10 ^ as.length + 10 ^ as.length := by omega
          _ = (a.toNat - '0'.toNat + 1) * 10 ^ as.length := by rw [Nat.succ_mul]
          _ ≤ (b.toNat - '0'.toNat) * 10 ^ bs.length :=
            Nat.mul_le_mul (digit_lt_of_lt hdigit hab) hpow
          _ ≤ _ := Nat.le_add_right ..
      · exact Nat.add_le_add (Nat.mul_le_mul_left _ hpow) (ih has hrest hle)

/-! ## Labels in text order -/

section
variable {label other : String}

theorem digits_of_isNumbered (h : isNumbered label) :
    ∃ digits, label.toList = 'v' :: digits ∧ ∀ c ∈ digits, c.isDigit := by
  unfold isNumbered at h
  split at h
  next digits hd =>
    simp only [Bool.and_eq_true, List.all_eq_true] at h
    exact ⟨digits, hd, h.2⟩
  next => cases h

theorem number_le_of_le (h : isNumbered label) (ho : isNumbered other) (hle : label ≤ other)
    (hl : label.length ≤ other.length) : number label ≤ number other := by
  by_cases he : label = other
  · exact he ▸ Nat.le_refl _
  · obtain ⟨as, has, hdigits⟩ := digits_of_isNumbered h
    obtain ⟨bs, hbs, -⟩ := digits_of_isNumbered ho
    have hlt : label < other := String.not_le.mp fun hge => he (String.le_antisymm hle hge)
    rw [String.lt_iff, has, hbs, List.cons_lt_cons_iff] at hlt
    rw [← String.length_toList, ← String.length_toList, has, hbs] at hl
    unfold number
    rw [has, hbs]
    refine ofDigitChars_le_of_lt hdigits ?_ (by simpa using hl)
    simpa using hlt

theorem IsPlain.length_eq (h : IsPlain label) :
    label.length = (Nat.toDigits 10 (number label)).length + 1 := by
  have hl : label.length = ("v" ++ toString (number label)).length := congrArg String.length h
  have hmarker : "v".length = 1 := by decide
  rw [String.length_append, hmarker, Nat.toString_eq_ofList_toDigits, String.length_ofList,
    Nat.add_comm] at hl
  exact hl

/-- Without zeros in front, fewer digits make a lower number. -/
theorem number_lt_of_length_lt (h : IsPlain label) (ho : IsPlain other)
    (hl : label.length < other.length) : number label < number other := by
  rw [h.length_eq, ho.length_eq, Nat.succ_lt_succ_iff] at hl
  have hpos : 0 < (Nat.toDigits 10 (number label)).length := Nat.length_toDigits_pos
  have hlow : number label < 10 ^ (Nat.toDigits 10 (number label)).length :=
    (Nat.length_toDigits_le_iff (by decide) hpos).mp (Nat.le_refl _)
  have hhigh : ¬number other < 10 ^ (Nat.toDigits 10 (number label)).length := by
    rw [← Nat.length_toDigits_le_iff (by decide) hpos]
    omega
  omega

end

end Version

namespace DirectoryItem

open Version

section
variable {α : Type} [LT α] [LE α] {before after : List DirectoryItem} {item other : DirectoryItem}

/-- No item has a lower key, and none of those before has the same. -/
structure FirstLowest (key : DirectoryItem → α) (before : List DirectoryItem)
    (item : DirectoryItem) (after : List DirectoryItem) : Prop where
  before : ∀ other ∈ before, key item < key other
  after : ∀ other ∈ after, key item ≤ key other

theorem StandsFor.firstLowest (h : StandsFor before item after)
    (hn : ∀ other ∈ before ++ item :: after, other.preferred = false) :
    FirstLowest (·.version) before item after := by
  cases h with
  | preferred hp _ => simp [hn item (by simp)] at hp
  | lowest _ hb ha => exact ⟨hb, ha⟩

theorem FirstLowest.key_le [Std.LawfulOrderLT α] [Std.IsPreorder α] {key : DirectoryItem → α}
    (h : FirstLowest key before item after) (ho : other ∈ before ++ item :: after) :
    key item ≤ key other := by
  rw [List.mem_append, List.mem_cons] at ho
  rcases ho with ho | rfl | ho
  · exact Std.le_of_lt (h.before other ho)
  · exact Std.le_refl _
  · exact h.after other ho

/-- The lowest text has the lowest number if no label with fewer digits has a lower one, and none
before it has the same with zeros in front. -/
theorem FirstLowest.number_iff (h : FirstLowest (·.version) before item after)
    (hn : ∀ other ∈ before ++ item :: after, isNumbered other.version) :
    FirstLowest (number ·.version) before item after ↔
      (∀ other ∈ before ++ item :: after, other.version.length < item.version.length →
        number item.version ≤ number other.version) ∧
      ∀ other ∈ before, number other.version ≠ number item.version := by
  constructor
  · intro hl
    exact ⟨fun other ho _ => hl.key_le ho, fun other ho => Nat.ne_of_gt (hl.before other ho)⟩
  · rintro ⟨hshort, hne⟩
    have hle : ∀ other ∈ before ++ item :: after,
        number item.version ≤ number other.version := by
      intro other ho
      by_cases hl : other.version.length < item.version.length
      · exact hshort other ho hl
      · exact number_le_of_le (hn item (by simp)) (hn other ho) (h.key_le ho) (by omega)
    constructor
    · intro other ho
      have := hle other (List.mem_append_left _ ho)
      have := hne other ho
      omega
    · intro other ho
      exact hle other (by simp [ho])

theorem FirstLowest.number_iff_of_isPlain (h : FirstLowest (·.version) before item after)
    (hn : ∀ other ∈ before ++ item :: after, isNumbered other.version)
    (hp : ∀ other ∈ before ++ item :: after, IsPlain other.version) :
    FirstLowest (number ·.version) before item after ↔
      ∀ other ∈ before ++ item :: after, item.version.length ≤ other.version.length := by
  have hitem : item ∈ before ++ item :: after := by simp
  rw [h.number_iff hn]
  constructor
  · intro hl other ho
    by_contra hshort
    have hlt := number_lt_of_length_lt (hp other ho) (hp item hitem) (by omega)
    have hle := hl.1 other ho (by omega)
    omega
  · intro hl
    refine ⟨fun other ho hshort => ?_, fun other ho he => ?_⟩
    · have := hl other ho
      omega
    · -- The same number without zeros in front is the same label.
      have hlabel : other.version = item.version := by
        rw [hp other (by simp [ho]), hp item hitem, he]
      have hlt := h.before other ho
      exact absurd hlabel (String.ne_of_lt hlt).symm

end

/-- An item is selected from any that there are: the first preferred one, or else the first whose
version is the lowest text. Of numbered versions this is the first with the lowest number exactly if
none with fewer digits is lower and none before it has the same number; and where no number has
zeros in front, exactly if no version has fewer digits. -/
theorem select?_lowest_iff {items : List DirectoryItem} (h : items ≠ []) :
    ∃ before item after, items = before ++ item :: after ∧
      selectedIndex? items = some before.length ∧ select? items = some item ∧
      StandsFor before item after ∧
      ((∀ other ∈ items, other.preferred = false) →
        (∀ other ∈ items, isNumbered other.version) →
        (FirstLowest (number ·.version) before item after ↔
          (∀ other ∈ items, other.version.length < item.version.length →
            number item.version ≤ number other.version) ∧
          ∀ other ∈ before, number other.version ≠ number item.version) ∧
        ((∀ other ∈ items, IsPlain other.version) →
          (FirstLowest (number ·.version) before item after ↔
            ∀ other ∈ items, item.version.length ≤ other.version.length))) := by
  obtain ⟨before, item, after, rfl, hindex, hstands⟩ := split_of_selectedIndex? h
  refine ⟨before, item, after, rfl, hindex, by simp [select?, hindex], hstands, fun hnot hn => ?_⟩
  have hlowest := hstands.firstLowest hnot
  exact ⟨hlowest.number_iff hn, hlowest.number_iff_of_isPlain hn⟩

namespace Listed

/-- A version that is not preferred. -/
def item (version : String) : DirectoryItem :=
  { kind := none, id := none, name := "drive", version, title := none, description := none,
    discoveryRestUrl := "drive-" ++ version ++ ".json", documentationLink := none,
    preferred := false }

theorem tenth_before_twelfth :
    select? [item "v12", item "v10", item "v11", item "v10"] = some (item "v10") ∧
    FirstLowest (number ·.version) [item "v12"] (item "v10") [item "v11", item "v10"] := by
  have hne : [item "v12", item "v10", item "v11", item "v10"] ≠ [] := by decide
  obtain ⟨before, low, after, hsplit, hindex, hselect, -, hlowest⟩ := select?_lowest_iff hne
  have hlength : before.length = 1 := Option.some.inj (hindex.symm.trans (by decide))
  match before, hlength with
  | [_], _ =>
    cases hsplit
    exact ⟨hselect, ((hlowest (by decide) (by decide)).2 (by decide)).mpr (by decide)⟩

/-- The tenth version is taken, though the second one is lower. -/
theorem tenth_before_second :
    select? [item "v2", item "v10"] = some (item "v10") ∧
    (∀ other ∈ [item "v2", item "v10"], other.preferred = false ∧ isNumbered other.version) ∧
    number (item "v2").version < number (item "v10").version := by
  decide

end Listed

end DirectoryItem

end ApiTypings
