import ApiTypings.Proofs.CommentLines

/-! # The width of comment lines

A line of a comment should not be wider than `maxWidth` unless it is one word. Wrapping sees to that
but for the space that joins a word to the pending line, which it does not count. What comes after
it may widen a line too: an asterisk takes five characters, and an irregular space, at which no line
is wrapped, becomes a plain one. -/

namespace ApiTypings.DocComment

open Text

/-! ## Wrapping -/

/-- A pending line and the word that joins it are not wider than `maxWidth` together, and the space
between them is one more. -/
theorem length_le_of_mem_fill {pending : List Char} {ws : List (List Char)}
    (hp : ' ' ∈ pending → pending.length ≤ maxWidth + 1) (hw : ∀ word ∈ ws, ' ' ∉ word) :
    ∀ piece ∈ fill pending ws, ' ' ∈ piece → piece.length ≤ maxWidth + 1 := by
  fun_induction fill pending ws with
  | case1 pending => exact List.forall_mem_singleton.mpr hp
  | case2 pending word rest _ ih =>
    obtain ⟨hword, hrest⟩ := List.forall_mem_cons.mp hw
    exact List.forall_mem_cons.mpr ⟨hp, ih (fun hs => absurd hs hword) hrest⟩
  | case3 pending word rest _ _ ih =>
    obtain ⟨hword, hrest⟩ := List.forall_mem_cons.mp hw
    exact ih (fun hs => absurd hs hword) hrest
  | case4 pending word rest hfits _ ih =>
    obtain ⟨hword, hrest⟩ := List.forall_mem_cons.mp hw
    refine ih (fun _ => ?_) hrest
    rw [List.length_append, List.length_cons]
    omega

theorem length_le_of_mem_wrap {line : List Char} :
    ∀ piece ∈ wrap line, ' ' ∈ piece → piece.length ≤ maxWidth + 1 := by
  unfold wrap
  split
  next hshort => exact List.forall_mem_singleton.mpr fun _ => Nat.le_succ_of_le hshort
  next =>
    have hwords : ∀ word ∈ splitWords line, ' ' ∉ word := fun word hw hs =>
      (mem_split (P := fun _ => True) (fun _ _ => trivial) word hw ' ' hs).1 rfl
    exact length_le_of_mem_fill (fun hs => absurd hs List.not_mem_nil) hwords

theorem length_le_of_mem_pieces {text : String} :
    ∀ piece ∈ pieces text, ' ' ∈ piece → piece.length ≤ maxWidth + 1 := by
  intro piece hp
  obtain ⟨line, _, hp⟩ := List.mem_flatMap.mp hp
  exact length_le_of_mem_wrap piece hp

/-! ## Polish -/

theorem dropWhile_flatMap {p : Char → Bool} {f : Char → List Char}
    (h : ∀ c, f c = [c] ∨ p c = false ∧ ∃ d ds, f c = d :: ds ∧ p d = false) (cs : List Char) :
    (cs.flatMap f).dropWhile p = (cs.dropWhile p).flatMap f := by
  induction cs with
  | nil => rfl
  | cons c cs ih =>
    rw [List.flatMap_cons]
    rcases h c with hc | ⟨hc, d, ds, hf, hd⟩
    · rw [hc, List.singleton_append, List.dropWhile_cons, List.dropWhile_cons]
      split
      · exact ih
      · rw [List.flatMap_cons, hc, List.singleton_append]
    · rw [hf, List.cons_append, List.dropWhile_cons_of_neg (Bool.eq_false_iff.mp hd),
        List.dropWhile_cons_of_neg (Bool.eq_false_iff.mp hc), List.flatMap_cons, hf,
        List.cons_append]

/-- An escaped asterisk has a blank at neither end, and the asterisk was none. -/
theorem trim_flatMap_escape (cs : List Char) :
    trim (cs.flatMap escape) = (trim cs).flatMap escape := by
  have hfront : ∀ c, escape c = [c] ∨ isBlank c = false ∧
      ∃ d ds, escape c = d :: ds ∧ isBlank d = false := by
    intro c
    refine (escape_cases c).imp And.right ?_
    rintro ⟨rfl, he⟩
    exact ⟨by decide, _, _, he, by decide⟩
  have hback : ∀ c, (List.reverse ∘ escape) c = [c] ∨ isBlank c = false ∧
      ∃ d ds, (List.reverse ∘ escape) c = d :: ds ∧ isBlank d = false := by
    intro c
    refine (escape_cases c).imp (fun ⟨_, he⟩ => congrArg List.reverse he) ?_
    rintro ⟨rfl, he⟩
    exact ⟨by decide, _, _, congrArg List.reverse he, by decide⟩
  unfold trim trimWhile dropEndWhile
  rw [dropWhile_flatMap hfront, List.reverse_flatMap, dropWhile_flatMap hback, List.flatMap_reverse]

theorem length_flatMap_escape (cs : List Char) :
    (cs.flatMap escape).length = cs.length + 4 * cs.count '*' := by
  induction cs with
  | nil => rfl
  | cons c cs ih =>
    rw [List.flatMap_cons, List.length_append, ih, List.length_cons]
    rcases escape_cases c with ⟨hc, he⟩ | ⟨rfl, he⟩
    · rw [he, List.count_cons_of_ne hc, List.length_singleton]
      omega
    · rw [he, List.count_cons_self]
      simp only [List.length_cons, List.length_nil]
      omega

theorem length_polish (piece : List Char) :
    (polish piece).length = (trim piece).length + 4 * (trim piece).count '*' := by
  rw [polish, List.length_map, trim_flatMap_escape, length_flatMap_escape]

theorem plainSpace_eq_space_iff {c : Char} :
    plainSpace c = ' ' ↔ c = ' ' ∨ isIrregularSpace c := by
  unfold plainSpace
  split
  next h => simp [h]
  next h => simp [h]

/-- A line has a space where what is shown has one of any kind. -/
theorem space_mem_polish_iff {piece : List Char} :
    ' ' ∈ polish piece ↔ ∃ c ∈ trim piece, c = ' ' ∨ isIrregularSpace c := by
  rw [polish, trim_flatMap_escape, List.mem_map]
  constructor
  · rintro ⟨d, hd, hplain⟩
    obtain ⟨c, hc, hd⟩ := List.mem_flatMap.mp hd
    rcases mem_escape hd with hd | ⟨_, rfl⟩
    · have hreference : ['&', '#', '4', '2', ';'].all (plainSpace · != ' ') := by decide
      exact absurd hplain (bne_iff_ne.mp (List.all_eq_true.mp hreference d hd))
    · exact ⟨d, hc, plainSpace_eq_space_iff.mp hplain⟩
  · rintro ⟨c, hc, hspace⟩
    refine ⟨c, List.mem_flatMap.mpr ⟨c, hc, ?_⟩, plainSpace_eq_space_iff.mpr hspace⟩
    rcases escape_cases c with ⟨_, he⟩ | ⟨rfl, _⟩
    · exact he ▸ List.mem_singleton_self c
    · exact absurd hspace (by decide)

/-! ## Lines -/

/-- What is shown of a piece gets too wide in one of three ways. -/
inductive Overfull (shown : List Char) : Prop
  /-- The space that joined the last word was one too many. -/
  | joined : ' ' ∈ shown → shown.length = maxWidth + 1 → Overfull shown
  /-- It is one word for wrapping, but an irregular space in it becomes a plain one. -/
  | unbroken : ' ' ∉ shown → (∃ c ∈ shown, isIrregularSpace c) → maxWidth < shown.length →
      Overfull shown
  /-- It is not too wide before its asterisks are escaped. -/
  | escaped : (∃ c ∈ shown, c = ' ' ∨ isIrregularSpace c) → shown.length ≤ maxWidth →
      maxWidth < shown.length + 4 * shown.count '*' → Overfull shown

theorem overfull_iff {text : String} {piece : List Char} (h : piece ∈ pieces text) :
    ' ' ∈ polish piece ∧ maxWidth < (polish piece).length ↔ Overfull (trim piece) := by
  have hjoined : ' ' ∈ trim piece → (trim piece).length ≤ maxWidth + 1 := fun hs =>
    have hi := trim_isInfix piece
    hi.length_le.trans (length_le_of_mem_pieces piece h (hi.subset hs))
  rw [space_mem_polish_iff, length_polish]
  constructor
  · rintro ⟨hspace, hwide⟩
    by_cases hlong : maxWidth < (trim piece).length
    · by_cases hplain : ' ' ∈ trim piece
      · exact .joined hplain (Nat.le_antisymm (hjoined hplain) hlong)
      · obtain ⟨c, hc, hspace⟩ := hspace
        exact .unbroken hplain ⟨c, hc, hspace.resolve_left fun he => hplain (he ▸ hc)⟩ hlong
    · exact .escaped hspace (Nat.le_of_not_lt hlong) hwide
  · rintro (⟨hplain, hlength⟩ | ⟨_, ⟨c, hc, hspace⟩, hlong⟩ | ⟨hspace, _, hwide⟩)
    · exact ⟨⟨' ', hplain, .inl rfl⟩, by omega⟩
    · exact ⟨⟨c, hc, .inr hspace⟩, by omega⟩
    · exact ⟨hspace, hwide⟩

theorem not_overfull_nil : ¬ Overfull [] := by
  intro h
  cases h with
  | joined _ h => cases h
  | unbroken _ _ h => cases h
  | escaped _ _ h => cases h

/-- The lines of a text keep the width if none of its pieces is overfull, and only then. -/
theorem lines_fit_iff (text : String) :
    (∀ line ∈ lines text, ' ' ∈ line.toList → line.length ≤ maxWidth) ↔
      ∀ piece ∈ pieces text, ¬ Overfull (trim piece) := by
  by_cases ht : text = ""
  · subst ht
    exact iff_of_true (List.forall_mem_nil _) (List.forall_mem_singleton.mpr not_overfull_nil)
  · rw [lines_eq ht, List.forall_mem_map]
    refine forall₂_congr fun piece hp => ?_
    rw [String.toList_ofList, String.length_ofList, ← overfull_iff hp, not_and, Nat.not_lt]

namespace Halves

def half : List Char := List.replicate 75 'x'

/-- Two words of half the width each: they fit together but for the space between them. -/
def text : String := String.ofList (half ++ ' ' :: half)

theorem joined_too_wide :
    lines text = [text] ∧ ¬ ∀ line ∈ lines text, ' ' ∈ line.toList → line.length ≤ maxWidth := by
  have hpieces : pieces text = [half ++ ' ' :: half] := by
    rw [pieces, text, String.toList_ofList]
    decide +kernel
  have hpolish : polish (half ++ ' ' :: half) = half ++ ' ' :: half := by decide +kernel
  have hlines : lines text = [text] := by
    rw [lines_eq (by simp [text]), hpieces, List.map_singleton, hpolish, text]
  have hspace : ' ' ∈ text.toList := by simp [text]
  have hlength : text.length = 151 := by
    rw [text, String.length_ofList]
    rfl
  refine ⟨hlines, fun h => ?_⟩
  have hfits := h text (hlines ▸ List.mem_singleton_self text) hspace
  rw [hlength] at hfits
  exact absurd hfits (by decide)

end Halves

end ApiTypings.DocComment
