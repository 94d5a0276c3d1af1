import ApiTypings.Proofs.CommentWidth
import Mathlib.Data.List.DropRight

/-! # The ends of comment lines

A line is trimmed, and only then do its irregular spaces become plain ones. Trimming takes white
space away, and three of the irregular spaces are no white space. So a line of a comment begins or
ends with a space if, and only if, one of these three is left at that end. -/

namespace ApiTypings

namespace Text

/-- The first character or the last one. -/
def IsEnd (c : Char) (cs : List Char) : Prop := cs.head? = some c ∨ cs.getLast? = some c

theorem isBlank_of_head?_trim {cs : List Char} {c : Char} (h : (trim cs).head? = some c) :
    isBlank c = false := by
  -- The back is trimmed last, which leaves the front as it is.
  obtain ⟨rest, hrest⟩ : trim cs <+: cs.dropWhile isBlank := List.rdropWhile_prefix ..
  have hfront : (cs.dropWhile isBlank).head? = some c := by
    rw [← hrest, List.head?_append, h, Option.some_or]
  have hnot := List.head?_dropWhile_not isBlank cs
  rw [hfront] at hnot
  exact hnot

theorem isBlank_of_getLast?_trim {cs : List Char} {c : Char} (h : (trim cs).getLast? = some c) :
    isBlank c = false := by
  have hback := List.head?_dropWhile_not isBlank (cs.dropWhile isBlank).reverse
  rw [trim, trimWhile, dropEndWhile, List.getLast?_reverse] at h
  rw [h] at hback
  exact hback

/-- No blank is at an end of what was trimmed. -/
theorem isBlank_of_isEnd_trim {cs : List Char} {c : Char} (h : IsEnd c (trim cs)) :
    isBlank c = false :=
  h.elim isBlank_of_head?_trim isBlank_of_getLast?_trim

/-- The irregular spaces that trimming does not take away. -/
def isInvisible (c : Char) : Bool := c == '\u180e' || c == '\u200b' || c == '\ufeff'

theorem isInvisible_iff {c : Char} :
    isInvisible c ↔ isIrregularSpace c ∧ isBlank c = false := by
  constructor
  · intro h
    simp only [isInvisible, Bool.or_eq_true, beq_iff_eq] at h
    rcases h with (rfl | rfl) | rfl <;> decide
  · rintro ⟨hi, hb⟩
    have hc : c.toNat = 0x180E ∨ c.toNat = 0x200B ∨ c.toNat = 0xFEFF := by
      simp [isIrregularSpace, isBlank, inRanges, irregularSpaceRanges, blankRanges] at hi hb
      omega
    rcases hc with hc | hc | hc <;> rw [← Char.ofNat_toNat c, hc] <;> decide

end Text

namespace DocComment

open Text

/-! ## Polish -/

/-- What a character is shown as. -/
def shown (c : Char) : List Char := (escape c).map plainSpace

theorem polish_eq (piece : List Char) : polish piece = (trim piece).flatMap shown := by
  rw [polish, trim_flatMap_escape, List.map_flatMap]
  rfl

theorem shown_cases (c : Char) :
    c ≠ '*' ∧ shown c = [plainSpace c] ∨ c = '*' ∧ shown c = ['&', '#', '4', '2', ';'] := by
  rcases escape_cases c with ⟨hc, he⟩ | ⟨hc, he⟩
  · exact .inl ⟨hc, by rw [shown, he]; rfl⟩
  · exact .inr ⟨hc, by rw [shown, he]; decide⟩

/-- Only a space of some kind is shown with a space in front or behind. -/
theorem head?_shown_iff {c : Char} :
    (shown c).head? = some ' ' ↔ c = ' ' ∨ isIrregularSpace c := by
  rcases shown_cases c with ⟨_, hs⟩ | ⟨rfl, hs⟩
  · simp [hs, plainSpace_eq_space_iff]
  · rw [hs]
    decide

theorem getLast?_shown_iff {c : Char} :
    (shown c).getLast? = some ' ' ↔ c = ' ' ∨ isIrregularSpace c := by
  rcases shown_cases c with ⟨_, hs⟩ | ⟨rfl, hs⟩
  · simp [hs, plainSpace_eq_space_iff]
  · rw [hs]
    decide

theorem head?_flatMap_shown (cs : List Char) :
    (cs.flatMap shown).head? = cs.head?.bind fun c => (shown c).head? := by
  cases cs with
  | nil => rfl
  | cons c cs => rcases shown_cases c with ⟨_, hs⟩ | ⟨_, hs⟩ <;> simp [hs]

theorem getLast?_flatMap_shown (cs : List Char) :
    (cs.flatMap shown).getLast? = cs.getLast?.bind fun c => (shown c).getLast? := by
  rw [List.getLast?_flatMap, ← List.head?_reverse]
  cases cs.reverse with
  | nil => rfl
  | cons c cs => rcases shown_cases c with ⟨_, hs⟩ | ⟨_, hs⟩ <;> simp [hs]

/-- A piece is shown with a space at an end if trimming left an irregular space there. -/
theorem isEnd_polish_iff {piece : List Char} :
    IsEnd ' ' (polish piece) ↔ ∃ c, IsEnd c (trim piece) ∧ isInvisible c := by
  simp only [IsEnd, polish_eq, head?_flatMap_shown, getLast?_flatMap_shown,
    Option.bind_eq_some_iff, head?_shown_iff, getLast?_shown_iff, ← exists_or, ← or_and_right]
  refine exists_congr fun c => and_congr_right fun hend => ?_
  have hblank := isBlank_of_isEnd_trim hend
  constructor
  · rintro (rfl | hi)
    · exact absurd hblank (by decide)
    · exact isInvisible_iff.mpr ⟨hi, hblank⟩
  · exact fun h => .inr (isInvisible_iff.mp h).1

/-! ## Lines -/

theorem isEnd_nil (c : Char) : ¬IsEnd c [] := by simp [IsEnd]

theorem mem_of_isEnd {c : Char} {cs : List Char} (h : IsEnd c cs) : c ∈ cs :=
  h.elim List.mem_of_head? List.mem_of_getLast?

/-- No line of a comment begins or ends with a space of any kind exactly if no piece of the text
does so with a vowel separator, a zero width space or a byte order mark, once it is trimmed. -/
theorem lines_trimmed_iff (text : String) :
    (∀ line ∈ lines text, ∀ c, IsEnd c line.toList → c ≠ ' ' ∧ isIrregularSpace c = false) ↔
      ∀ piece ∈ pieces text, ∀ c, IsEnd c (trim piece) → ¬isInvisible c := by
  by_cases ht : text = ""
  · subst ht
    have hpieces : ∀ piece ∈ pieces "", trim piece = [] := by decide
    refine iff_of_true (List.forall_mem_nil _) fun piece hp c hend => ?_
    rw [hpieces piece hp] at hend
    exact absurd hend (isEnd_nil c)
  · have hplain : ∀ line ∈ lines text,
        (∀ c, IsEnd c line.toList → c ≠ ' ' ∧ isIrregularSpace c = false) ↔
          ¬IsEnd ' ' line.toList := by
      intro line hl
      constructor
      · exact fun h hend => (h ' ' hend).1 rfl
      · intro h c hend
        refine ⟨?_, (clean_of_mem_lines hl c (mem_of_isEnd hend)).2.2⟩
        rintro rfl
        exact h hend
    rw [forall₂_congr hplain, lines_eq ht, List.forall_mem_map]
    refine forall₂_congr fun piece _ => ?_
    rw [String.toList_ofList, isEnd_polish_iff, not_exists]
    exact forall_congr' fun c => not_and

namespace Hidden

/-- A zero width space, which cannot be seen, in front of a word. -/
def text : String := "\u200bGets"

theorem shown_behind_space :
    lines text = [" Gets"] ∧
      ¬∀ line ∈ lines text, ∀ c, IsEnd c line.toList → c ≠ ' ' ∧ isIrregularSpace c = false := by
  have hlines : lines text = [" Gets"] := by decide
  refine ⟨hlines, fun h => ?_⟩
  have hfirst := h " Gets" (by simp [hlines]) ' ' (.inl (by decide))
  exact hfirst.1 rfl

end Hidden

end DocComment

end ApiTypings
