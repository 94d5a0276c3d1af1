import ApiTypings.Proofs.CommentEnds
import Mathlib.Algebra.Ring.Nat

/-! # Blank lines of a comment

A comment should have the blank lines of its text and no others. Wrapping adds more, as it writes a
pending line even where nothing is on it: in front of a first word that is too wide, and where words
that consist of spacing fill a line of their own. And one kind of blank line is lost, because white
space between irregular spaces may be shown as something else than spaces. -/

namespace ApiTypings.DocComment

open Text

/-! ## Spacing -/

/-- White space or an irregular space. -/
def isSpacing (c : Char) : Bool := isBlank c || isIrregularSpace c

/-- Made of spacing only. -/
def isHollow (cs : List Char) : Bool := cs.all isSpacing

/-- Empty or only spaces. -/
def isBare (cs : List Char) : Bool := cs.all (· == ' ')

theorem isBare_shown_iff {c : Char} : isBare (shown c) ↔ c = ' ' ∨ isIrregularSpace c := by
  rcases shown_cases c with ⟨_, hs⟩ | ⟨rfl, hs⟩
  · simp [isBare, hs, plainSpace_eq_space_iff]
  · rw [hs]
    decide

theorem isBare_polish_iff {piece : List Char} :
    isBare (polish piece) ↔ ∀ c ∈ trim piece, c = ' ' ∨ isIrregularSpace c := by
  simp only [← isBare_shown_iff, polish_eq, isBare, List.all_flatMap, List.all_eq_true]

/-- What is shown as spaces is spacing. -/
theorem isHollow_of_isBare {piece : List Char} (h : isBare (polish piece)) : isHollow piece := by
  obtain ⟨front, back, hpiece, hf, hb⟩ := trimWhile_parts isBlank piece
  have hmid : ∀ c ∈ trim piece, isSpacing c := by
    intro c hc
    rcases isBare_polish_iff.mp h c hc with rfl | hi
    · decide
    · simp [isSpacing, hi]
  have hblank {c : Char} (hc : isBlank c) : isSpacing c := by simp [isSpacing, hc]
  rw [isHollow, List.all_eq_true, hpiece]
  intro c hc
  rcases List.mem_append.mp hc with hc | hc
  · exact (List.mem_append.mp hc).elim (fun hc => hblank (hf c hc)) (hmid c)
  · exact hblank (hb c hc)

/-- A piece of spacing that is shown as more than spaces. -/
def isMarked (piece : List Char) : Bool := isHollow piece && !isBare (polish piece)

/-- White space is shown as more than spaces only behind an irregular space that trimming leaves. -/
theorem not_isMarked {piece : List Char} (h : ∀ c ∈ piece, ¬isInvisible c) : ¬isMarked piece := by
  intro hm
  obtain ⟨hh, hbare⟩ : isHollow piece ∧ ¬isBare (polish piece) := by simpa [isMarked] using hm
  refine hbare (isBare_polish_iff.mpr ?_)
  rcases htrim : trim piece with _ | ⟨d, ds⟩
  · exact List.forall_mem_nil _
  · have hd : isBlank d = false := isBlank_of_isEnd_trim (.inl (by rw [htrim]; rfl))
    have hmem : d ∈ piece := (trim_isInfix piece).subset (by simp [htrim])
    have hs : isSpacing d := List.all_eq_true.mp hh d hmem
    exact absurd (isInvisible_iff.mpr ⟨by simpa [isSpacing, hd] using hs, hd⟩) (h d hmem)

/-! ## Pieces -/

/-- The lines of a text, which are wrapped to pieces. -/
def sourceLines (text : String) : List (List Char) := splitLines (trim text.toList)

theorem countP_isHollow (pieces : List (List Char)) :
    pieces.countP isHollow =
      pieces.countP (fun piece => isBare (polish piece)) + pieces.countP isMarked := by
  induction pieces with
  | nil => rfl
  | cons piece rest ih =>
    have hpiece : (if isHollow piece then 1 else 0) =
        (if isBare (polish piece) then 1 else 0) + if isMarked piece then 1 else 0 := by
      by_cases hb : isBare (polish piece)
      · simp [isMarked, hb, isHollow_of_isBare hb]
      · simp [isMarked, hb]
    simp only [List.countP_cons, ih, hpiece]
    omega

/-- The hollow pieces of a line beyond the one that a hollow line has to have. -/
def stranded (line : List Char) : Nat :=
  (wrap line).countP isHollow - if isHollow line then 1 else 0

theorem isHollow_of_mem_wrap {line : List Char} (h : isHollow line) :
    ∀ piece ∈ wrap line, isHollow piece := by
  intro piece hp
  rw [isHollow, List.all_eq_true] at h ⊢
  exact forall_mem_wrap (by decide) h piece hp

theorem countP_wrap (line : List Char) :
    (wrap line).countP isHollow = (if isHollow line then 1 else 0) + stranded line := by
  unfold stranded
  split
  next h =>
    have hall := List.countP_eq_length.mpr (isHollow_of_mem_wrap h)
    have hpos := List.length_pos_iff.mpr (wrap_ne_nil line)
    omega
  next => omega

theorem countP_pieces (text : String) :
    (pieces text).countP isHollow =
      (sourceLines text).countP isHollow + ((sourceLines text).map stranded).sum := by
  change ((sourceLines text).flatMap wrap).countP isHollow = _
  induction sourceLines text with
  | nil => rfl
  | cons line rest ih =>
    rw [List.flatMap_cons, List.countP_append, countP_wrap, ih, List.countP_cons, List.map_cons,
      List.sum_cons]
    omega

/-! ## Wrapping -/

theorem stranded_of_short {line : List Char} (h : line.length ≤ maxWidth) : stranded line = 0 := by
  rw [stranded, wrap, if_pos h, List.countP_singleton, Nat.sub_self]

/-- A line that begins with more than spacing stays so, and so do those that follow it. -/
theorem not_isHollow_of_mem_fill {pending : List Char} {ws : List (List Char)}
    (hp : ¬isHollow pending) (hw : ∀ word ∈ ws, ¬isHollow word) :
    ∀ piece ∈ fill pending ws, ¬isHollow piece := by
  fun_induction fill pending ws with
  | case1 pending => exact List.forall_mem_singleton.mpr hp
  | case2 pending word rest _ ih =>
    obtain ⟨hword, hrest⟩ := List.forall_mem_cons.mp hw
    exact List.forall_mem_cons.mpr ⟨hp, ih hword hrest⟩
  | case3 pending word rest _ _ ih =>
    obtain ⟨hword, hrest⟩ := List.forall_mem_cons.mp hw
    exact ih hword hrest
  | case4 pending word rest _ _ ih =>
    obtain ⟨hword, hrest⟩ := List.forall_mem_cons.mp hw
    refine ih (fun h => hp ?_) hrest
    rw [isHollow, List.all_append, Bool.and_eq_true] at h
    exact h.1

theorem split_eq_cons (separator : Char) (cs : List Char) :
    ∃ rest, split separator cs = cs.takeWhile (· != separator) :: rest := by
  induction cs with
  | nil => exact ⟨[], rfl⟩
  | cons c cs ih =>
    obtain ⟨rest, hr⟩ := ih
    by_cases hc : c = separator
    · exact ⟨split separator cs, by simp [split, hc]⟩
    · exact ⟨rest, by simp [split, hc, hr, consFirst]⟩

/-- The first word of a line. -/
def firstWord (line : List Char) : List Char := line.takeWhile (· != ' ')

/-- Where every word is more than spacing, a blank line is added only above a first word that is too
wide. -/
theorem stranded_of_words {line : List Char} (h : ∀ word ∈ splitWords line, ¬isHollow word) :
    stranded line = if maxWidth < (firstWord line).length then 1 else 0 := by
  obtain ⟨rest, hwords⟩ := split_eq_cons ' ' line
  change splitWords line = firstWord line :: rest at hwords
  rw [hwords] at h
  obtain ⟨hfirst, hrest⟩ := List.forall_mem_cons.mp h
  have hfront : firstWord line <+: line := List.takeWhile_prefix _
  have hline : ¬isHollow line := fun hh =>
    hfirst (List.all_eq_true.mpr fun c hc => List.all_eq_true.mp hh c (hfront.subset hc))
  have hfill : (fill (firstWord line) rest).countP isHollow = 0 :=
    List.countP_eq_zero.mpr (not_isHollow_of_mem_fill hfirst hrest)
  by_cases hshort : line.length ≤ maxWidth
  · rw [stranded_of_short hshort, if_neg (by have := hfront.length_le; omega)]
  · rw [stranded, wrap, if_neg hshort, hwords, fill, if_neg hline, Nat.sub_zero]
    by_cases hwide : maxWidth < (firstWord line).length
    · have hempty : isHollow ([] : List Char) := rfl
      simp [hwide, hfill, hempty]
    · simp [hwide, hfill]

/-! ## Lines -/

/-- The blank lines of a comment are those of the text and the ones that wrapping strands, without
those that are shown as more than spaces. None is shown so unless an irregular space that is no
white space stands in the text. A line that is not wrapped strands none, and one whose words are all
more than spacing strands one exactly if the first of them is too wide. -/
theorem blank_lines_eq {text : String} (h : text ≠ "") :
    (lines text).countP (fun line => isBare line.toList) + (pieces text).countP isMarked =
      (sourceLines text).countP isHollow + ((sourceLines text).map stranded).sum ∧
    ((∀ c ∈ text.toList, ¬isInvisible c) → (pieces text).countP isMarked = 0) ∧
    ∀ line, (line.length ≤ maxWidth → stranded line = 0) ∧
      ((∀ word ∈ splitWords line, ¬isHollow word) →
        stranded line = if maxWidth < (firstWord line).length then 1 else 0) := by
  refine ⟨?_, fun hv => ?_, fun _ => ⟨stranded_of_short, stranded_of_words⟩⟩
  · have hlines : (lines text).countP (fun line => isBare line.toList) =
        (pieces text).countP fun piece => isBare (polish piece) := by
      rw [lines_eq h, List.countP_map]
      simp only [Function.comp_def, String.toList_ofList]
    rw [hlines, ← countP_isHollow, countP_pieces]
  · have hpieces : ∀ piece ∈ pieces text, ∀ c ∈ piece, ¬isInvisible c := by
      intro piece hp
      obtain ⟨line, hl, hp⟩ := List.mem_flatMap.mp hp
      refine forall_mem_wrap (by decide) (forall_mem_splitLines (fun c hc _ => ?_) line hl) piece hp
      exact hv c ((trim_isInfix _).subset hc)
    exact List.countP_eq_zero.mpr fun piece hp => not_isMarked (hpieces piece hp)

namespace Links

/-- An address that is one character too wide. -/
def address : List Char := List.replicate 151 'x'

def heading : List Char := ['S', 'e', 'e', ':']

/-- A heading, an empty line, and the address. -/
def listed : String := String.ofList (heading ++ '\n' :: '\n' :: address)

theorem blank_above_address :
    listed ≠ "" ∧ (lines listed).countP (fun line => isBare line.toList) = 2 := by
  have hlisted : listed ≠ "" := by simp [listed]
  have hsource : sourceLines listed = [heading, [], address] := by
    rw [sourceLines, listed, String.toList_ofList]
    decide +kernel
  have hvisible : ∀ c ∈ listed.toList, ¬isInvisible c := by
    have hfront : ∀ c ∈ heading ++ ['\n', '\n'], ¬isInvisible c := by simp [heading, isInvisible]
    have hback : ∀ c ∈ address, ¬isInvisible c := by
      intro c hc
      rw [List.eq_of_mem_replicate hc]
      decide
    have hlist : listed.toList = heading ++ ['\n', '\n'] ++ address := by
      rw [listed, String.toList_ofList, List.append_assoc, List.cons_append, List.singleton_append]
    rw [hlist]
    exact List.forall_mem_append.mpr ⟨hfront, hback⟩
  have hheading : heading.length ≤ maxWidth := by decide
  have hempty : ([] : List Char).length ≤ maxWidth := by decide
  have hwords : ∀ word ∈ splitWords address, ¬isHollow word := by decide +kernel
  have hwide : maxWidth < (firstWord address).length := by decide +kernel
  have hhollow : [heading, [], address].countP isHollow = 1 := by decide +kernel
  obtain ⟨heq, hmarked, hlines⟩ := blank_lines_eq hlisted
  have haddress := (hlines address).2 hwords
  rw [if_pos hwide] at haddress
  rw [hmarked hvisible, hsource, hhollow, List.map_cons, List.map_cons, List.map_singleton,
    (hlines heading).1 hheading, (hlines []).1 hempty, haddress, Nat.add_zero] at heq
  exact ⟨hlisted, heq⟩

/-- The address alone. -/
def text : String := String.ofList address

theorem blank_line_added :
    lines text = ["", text] ∧
      (lines text).countP (fun line => isBare line.toList) ≠
        (sourceLines text).countP isHollow := by
  have hpieces : pieces text = [[], address] := by
    rw [pieces, text, String.toList_ofList]
    decide +kernel
  have hpolish : polish address = address := by decide +kernel
  have hlines : lines text = ["", text] := by
    rw [lines_eq (by simp [text, address]), hpieces, List.map_cons, List.map_singleton, hpolish,
      text]
    rfl
  have hsource : (sourceLines text).countP isHollow = 0 := by
    rw [sourceLines, text, String.toList_ofList]
    decide +kernel
  have hcount : (lines text).countP (fun line => isBare line.toList) ≠ 0 :=
    (List.countP_pos_iff.mpr ⟨"", by rw [hlines]; exact List.mem_cons_self .., by decide⟩).ne'
  rw [hsource]
  exact ⟨hlines, hcount⟩

end Links

end ApiTypings.DocComment
