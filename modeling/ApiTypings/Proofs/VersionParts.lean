import ApiTypings.Version
import Mathlib.Data.List.Infix
import Mathlib.Data.List.TakeWhile

/-! # The parts of a version label

A label with a `v` is divided in one way: behind its first `v` stands the longest run of digits,
then a point with the longest run of digits if there is one, then what is left of the line. The
version of a package and the version of a header are both written from these parts, so that they
have the same major and minor number. -/

namespace ApiTypings.Version

open Text

/-! ## Runs -/

/-- The longest run of characters of a kind at the front of a text. -/
structure LongestRun (p : Char → Bool) (cs run : List Char) : Prop where
  front : run <+: cs
  all : ∀ c ∈ run, p c
  longest : ∀ other, other <+: cs → (∀ c ∈ other, p c) → other.length ≤ run.length

section
variable {p : Char → Bool} {cs run other : List Char}

theorem front_takeWhile (h : other <+: cs) (hp : ∀ c ∈ other, p c) : other <+: cs.takeWhile p := by
  obtain ⟨rest, rfl⟩ := h
  rw [List.takeWhile_append_of_pos hp]
  exact List.prefix_append ..

theorem longestRun_iff : LongestRun p cs run ↔ run = cs.takeWhile p := by
  constructor
  · intro h
    have hle := h.longest _ (List.takeWhile_prefix p) fun c hc => List.mem_takeWhile_imp hc
    exact (front_takeWhile h.front h.all).eq_of_length_le hle
  · rintro rfl
    exact ⟨List.takeWhile_prefix p, fun c hc => List.mem_takeWhile_imp hc,
      fun other ho hp => (front_takeWhile ho hp).length_le⟩

end

/-! ## Parts -/

/-- What a label says behind its first `v`. A minor number without digits is none. -/
structure Parts where
  major : List Char
  minor : List Char
  rest : List Char
deriving DecidableEq, Repr

/-- The point in front of a minor number, if there is one. -/
def pointed (digits : List Char) : List Char := if digits.isEmpty then [] else '.' :: digits

/-- The hyphen in front of what is left, if there is anything. -/
def hyphened (rest : List Char) : List Char := if rest.isEmpty then [] else '-' :: rest

/-- The minor number of what follows the major one. -/
inductive MinorNumber : List Char → List Char → Prop
  | behindPoint {cs digits : List Char} :
      LongestRun isDecimalDigit cs digits → MinorNumber ('.' :: cs) digits
  | absent {cs : List Char} : cs.head? ≠ some '.' → MinorNumber cs []

/-- The label has these parts. -/
inductive Divides (label : String) (parts : Parts) : Prop
  | intro (before behind afterMajor afterMinor : List Char) :
      label.toList = before ++ 'v' :: behind → 'v' ∉ before →
      LongestRun isDecimalDigit behind parts.major → behind = parts.major ++ afterMajor →
      MinorNumber afterMajor parts.minor → afterMajor = pointed parts.minor ++ afterMinor →
      LongestRun (· != '\n') afterMinor parts.rest → Divides label parts

/-- The digits behind a point at the front. -/
def minorOf : List Char → List Char
  | '.' :: rest => rest.takeWhile isDecimalDigit
  | _ => []

/-- The parts of what follows the first `v`. -/
def partsOf (behind : List Char) : Parts :=
  let afterMajor := behind.dropWhile isDecimalDigit
  let minor := minorOf afterMajor
  ⟨behind.takeWhile isDecimalDigit, minor,
    (afterMajor.drop (pointed minor).length).takeWhile (· != '\n')⟩

section
variable {label : String} {parts : Parts} {cs behind digits : List Char}

theorem minorOf_of_head (h : cs.head? ≠ some '.') : minorOf cs = [] := by
  unfold minorOf
  split
  · exact absurd rfl h
  · rfl

theorem minorNumber_iff : MinorNumber cs digits ↔ digits = minorOf cs := by
  constructor
  · rintro (h | h)
    · exact longestRun_iff.mp h
    · exact (minorOf_of_head h).symm
  · rintro rfl
    by_cases h : cs.head? = some '.'
    · obtain ⟨rest, rfl⟩ := List.head?_eq_some_iff.mp h
      exact .behindPoint (longestRun_iff.mpr rfl)
    · exact minorOf_of_head h ▸ .absent h

/-- The point and the digits behind it stand at the front. -/
theorem pointed_minorOf (cs : List Char) :
    cs = pointed (minorOf cs) ++ cs.drop (pointed (minorOf cs)).length := by
  unfold pointed
  split
  · rfl
  next hd =>
    unfold minorOf at hd ⊢
    split at hd
    next rest =>
      have hfront : '.' :: rest.takeWhile isDecimalDigit <+: '.' :: rest :=
        List.cons_prefix_cons.mpr ⟨rfl, List.takeWhile_prefix _⟩
      exact (List.prefix_append_drop hfront)
    next => exact absurd rfl hd

theorem afterMarker?_eq_some_iff :
    afterMarker? cs = some behind ↔ ∃ before, cs = before ++ 'v' :: behind ∧ 'v' ∉ before := by
  induction cs with
  | nil => simp [afterMarker?]
  | cons c rest ih =>
    rw [afterMarker?]
    by_cases hc : c = 'v'
    · subst hc
      constructor
      · intro h
        exact ⟨[], by simpa using h, nofun⟩
      · rintro ⟨_ | ⟨d, before⟩, h, hb⟩
        · simpa using h
        · exact absurd (List.cons.inj h).1 (List.ne_of_not_mem_cons hb)
    · rw [if_neg (by simpa using hc), ih]
      constructor
      · rintro ⟨before, rfl, hb⟩
        exact ⟨c :: before, rfl, by simp [hb, Ne.symm hc]⟩
      · rintro ⟨_ | ⟨d, before⟩, h, hb⟩
        · exact absurd (List.cons.inj h).1 hc
        · exact ⟨before, (List.cons.inj h).2, fun hm => hb (List.mem_cons_of_mem _ hm)⟩

theorem afterMarker?_eq_none_iff : afterMarker? cs = none ↔ 'v' ∉ cs := by
  induction cs with
  | nil => simp [afterMarker?]
  | cons c rest ih =>
    rw [afterMarker?]
    by_cases hc : c = 'v'
    · simp [hc]
    · rw [if_neg (by simpa using hc), ih, List.mem_cons, not_or]
      exact ⟨fun h => ⟨Ne.symm hc, h⟩, fun h => h.2⟩

/-- There is one way to divide a label. -/
theorem divides_iff :
    Divides label parts ↔ ∃ behind, afterMarker? label.toList = some behind ∧
      parts = partsOf behind := by
  constructor
  · rintro ⟨before, behind, afterMajor, afterMinor, hl, hb, hmajor, rfl, hminor, rfl, hrest⟩
    refine ⟨_, afterMarker?_eq_some_iff.mpr ⟨before, hl, hb⟩, ?_⟩
    have hmajor := longestRun_iff.mp hmajor
    have hdrop : (parts.major ++ (pointed parts.minor ++ afterMinor)).dropWhile isDecimalDigit =
        pointed parts.minor ++ afterMinor := by
      have hsplit := List.takeWhile_append_dropWhile (p := isDecimalDigit)
        (l := parts.major ++ (pointed parts.minor ++ afterMinor))
      rw [← hmajor] at hsplit
      exact List.append_cancel_left hsplit
    have hminor := minorNumber_iff.mp hminor
    simp only [partsOf, ← hmajor, hdrop, ← hminor, List.drop_left, ← longestRun_iff.mp hrest]
  · rintro ⟨behind, ha, rfl⟩
    obtain ⟨before, hl, hb⟩ := afterMarker?_eq_some_iff.mp ha
    exact ⟨before, behind, _, _, hl, hb, longestRun_iff.mpr rfl,
      List.takeWhile_append_dropWhile.symm, minorNumber_iff.mpr rfl, pointed_minorOf _,
      longestRun_iff.mpr rfl⟩

end

/-! ## Written versions -/

section
variable {cs digits rest : List Char}

theorem splitMinor?_eq (cs : List Char) :
    splitMinor? cs = if (minorOf cs).isEmpty then none
      else some (minorOf cs, cs.drop (pointed (minorOf cs)).length) := by
  unfold minorOf
  split
  next rest =>
    rw [splitMinor?, splitDigits]
    have hsplit : rest.takeWhile isDecimalDigit ++ rest.dropWhile isDecimalDigit = rest :=
      List.takeWhile_append_dropWhile
    generalize rest.takeWhile isDecimalDigit = digits at hsplit ⊢
    generalize rest.dropWhile isDecimalDigit = after at hsplit ⊢
    subst hsplit
    cases digits <;> simp [pointed]
  next hp =>
    unfold splitMinor?
    split
    · exact absurd rfl (hp _)
    · rfl

/-- The version of a package is the major number, the minor number if there is one, and what is
left. -/
theorem package?_of_afterMarker? {label : String} {behind : List Char}
    (h : afterMarker? label.toList = some behind) :
    package? label = some (String.ofList (orZero (partsOf behind).major ++
      pointed (partsOf behind).minor ++ hyphened (partsOf behind).rest)) := by
  rw [package?, h, Option.map_some]
  simp only [splitDigits, splitMinor?_eq, partsOf, hyphened]
  split
  next hm =>
    split at hm
    · cases hm
    next hd =>
      cases hm
      simp [pointed, hd]
  next hm =>
    split at hm
    next hd => simp [pointed, hd]
    next => cases hm

theorem display_of_afterMarker? {label : String} {behind : List Char}
    (h : afterMarker? label.toList = some behind) :
    display label = String.ofList
      (orZero (partsOf behind).major ++ '.' :: orZero (partsOf behind).minor) := by
  rw [display, h]
  rfl

/-- The major and minor number that a version in writing begins with. One without a minor number
has zero for it. -/
def numbers (version : String) : List Char × List Char :=
  (version.toList.takeWhile isDecimalDigit,
    orZero (minorOf (version.toList.dropWhile isDecimalDigit)))

theorem isDecimalDigit_of_mem_orZero (h : ∀ c ∈ digits, isDecimalDigit c) :
    ∀ c ∈ orZero digits, isDecimalDigit c := by
  unfold orZero
  split
  · exact List.forall_mem_singleton.mpr rfl
  · exact h

theorem isDecimalDigit_of_mem_minorOf (cs : List Char) : ∀ c ∈ minorOf cs, isDecimalDigit c := by
  unfold minorOf
  split
  · exact fun c hc => List.mem_takeWhile_imp hc
  · exact nofun

theorem takeWhile_of_head (hd : ∀ c ∈ digits, isDecimalDigit c)
    (hr : ∀ c ∈ rest.head?, isDecimalDigit c = false) :
    (digits ++ rest).takeWhile isDecimalDigit = digits ∧
      (digits ++ rest).dropWhile isDecimalDigit = rest := by
  rw [List.takeWhile_append_of_pos hd, List.dropWhile_append_of_pos hd]
  cases rest with
  | nil => simp
  | cons c rest =>
    have hc : ¬isDecimalDigit c := by simp [hr c rfl]
    rw [List.takeWhile_cons_of_neg hc, List.dropWhile_cons_of_neg hc, List.append_nil]
    exact ⟨rfl, rfl⟩

theorem head_hyphened (rest : List Char) :
    ∀ c ∈ (hyphened rest).head?, isDecimalDigit c = false := by
  unfold hyphened
  split
  · exact nofun
  · rintro _ ⟨⟩
    decide

theorem head_pointed (digits rest : List Char) :
    ∀ c ∈ (pointed digits ++ hyphened rest).head?, isDecimalDigit c = false := by
  unfold pointed
  split
  · exact head_hyphened rest
  · rintro _ ⟨⟩
    decide

theorem minorOf_pointed (hd : ∀ c ∈ digits, isDecimalDigit c) (rest : List Char) :
    minorOf (pointed digits ++ hyphened rest) = digits := by
  unfold pointed
  split
  next he =>
    rw [List.isEmpty_iff.mp he]
    refine minorOf_of_head ?_
    unfold hyphened
    split <;> simp
  next => exact (takeWhile_of_head hd (head_hyphened rest)).1

theorem numbers_package {major minor : List Char} (hmajor : ∀ c ∈ major, isDecimalDigit c)
    (hminor : ∀ c ∈ minor, isDecimalDigit c) (rest : List Char) :
    numbers (String.ofList (orZero major ++ pointed minor ++ hyphened rest)) =
      (orZero major, orZero minor) := by
  obtain ⟨ht, hd⟩ := takeWhile_of_head (isDecimalDigit_of_mem_orZero hmajor)
    (head_pointed minor rest)
  rw [numbers, String.toList_ofList, List.append_assoc, ht, hd, minorOf_pointed hminor]

theorem numbers_display {major minor : List Char} (hmajor : ∀ c ∈ major, isDecimalDigit c)
    (hminor : ∀ c ∈ minor, isDecimalDigit c) :
    numbers (String.ofList (orZero major ++ '.' :: orZero minor)) =
      (orZero major, orZero minor) := by
  have hne : ∀ digits, orZero digits ≠ [] := by
    intro digits
    unfold orZero
    split
    · exact nofun
    next h => simpa using h
  have hp : '.' :: orZero minor = pointed (orZero minor) ++ hyphened [] := by
    simp [pointed, hyphened, hne]
  have hz : ∀ digits, orZero (orZero digits) = orZero digits := fun digits =>
    if_neg (by simpa using hne digits)
  have h := numbers_package hmajor (isDecimalDigit_of_mem_orZero hminor) []
  rwa [List.append_assoc, ← hp, hz] at h

end

/-- A label without a `v` has no package version and is shown as `0.0`. Any other is divided into a
major number, a minor number and what is left of the line, in one way. The package version says all
three, where a missing major number is zero and what is left follows a hyphen; a header shows the
two numbers, either of them zero if it is missing. Both begin with the same numbers. -/
theorem package?_agrees_with_display (label : String) :
    if 'v' ∈ label.toList then
      ∃ parts package, Divides label parts ∧ (∀ other, Divides label other → other = parts) ∧
        package? label = some package ∧
        package = String.ofList
          (orZero parts.major ++ pointed parts.minor ++ hyphened parts.rest) ∧
        display label = String.ofList (orZero parts.major ++ '.' :: orZero parts.minor) ∧
        numbers package = (orZero parts.major, orZero parts.minor) ∧
        numbers (display label) = numbers package
    else package? label = none ∧ display label = "0.0" := by
  split
  next hv =>
    cases ha : afterMarker? label.toList with
    | none => exact absurd hv (afterMarker?_eq_none_iff.mp ha)
    | some behind =>
      have hdisplay := display_of_afterMarker? ha
      have hmajor : ∀ c ∈ (partsOf behind).major, isDecimalDigit c :=
        fun c hc => List.mem_takeWhile_imp hc
      have hminor := isDecimalDigit_of_mem_minorOf (behind.dropWhile isDecimalDigit)
      have hpackage := numbers_package hmajor hminor (partsOf behind).rest
      refine ⟨partsOf behind, _, divides_iff.mpr ⟨behind, ha, rfl⟩, ?_,
        package?_of_afterMarker? ha, rfl, hdisplay, hpackage, ?_⟩
      · intro other ho
        obtain ⟨_, hb, rfl⟩ := divides_iff.mp ho
        cases ha.symm.trans hb
        rfl
      · rw [hdisplay]
        exact (numbers_display hmajor hminor).trans hpackage.symm
  next hv =>
    have ha := afterMarker?_eq_none_iff.mpr hv
    rw [package?, display, ha]
    exact ⟨rfl, rfl⟩

example : package? "v1.2beta3\nv4" = some "1.2-beta3" ∧ display "v1.2beta3\nv4" = "1.2" := by
  decide

end ApiTypings.Version
