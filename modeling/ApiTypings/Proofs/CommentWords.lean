import ApiTypings.Proofs.CommentLines

/-! # The words of a comment

Spaces of all kinds and line breaks separate words. Every stage on the way to the lines of a comment
only replaces, adds or takes away separators, beside escaping asterisks; so the lines have the words
of the text, in their order. -/

namespace ApiTypings.DocComment

open Text

/-! ## Words -/

/-- White space, the irregular spaces and the symbol for a line break. -/
def isSeparator (c : Char) : Bool := isBlank c || isIrregularSpace c || c == '\u240a'

/-- The longest runs of characters without a separator. -/
def words (cs : List Char) : List (List Char) :=
  (cs.splitOnP isSeparator).filter fun word => !word.isEmpty

variable {c : Char} {cs : List Char} {pieces : List (List Char)}

theorem words_append_separator (hc : isSeparator c) (xs ys : List Char) :
    words (xs ++ c :: ys) = words xs ++ words ys := by
  rw [words, List.splitOnP_append_cons xs ys hc, List.filter_append]
  rfl

theorem words_of_letters (h : ∀ c ∈ cs, isSeparator c = false) :
    words cs = if cs.isEmpty then [] else [cs] := by
  rw [words, List.splitOnP_eq_singleton h]
  cases cs <;> rfl

@[simp] theorem words_nil : words [] = [] := words_of_letters (List.forall_mem_nil _)

theorem words_separators_append {xs : List Char} (h : ∀ c ∈ xs, isSeparator c) (ys : List Char) :
    words (xs ++ ys) = words ys := by
  induction xs with
  | nil => rfl
  | cons c xs ih =>
    have ⟨hc, hxs⟩ := List.forall_mem_cons.mp h
    exact (words_append_separator hc [] _).trans (ih hxs)

theorem words_append_separators (xs : List Char) {ys : List Char} (h : ∀ c ∈ ys, isSeparator c) :
    words (xs ++ ys) = words xs := by
  cases ys with
  | nil => rw [List.append_nil]
  | cons c ys =>
    have ⟨hc, hys⟩ := List.forall_mem_cons.mp h
    rw [words_append_separator hc, ← List.append_nil ys, words_separators_append hys, words_nil,
      List.append_nil]

/-- Where separators become separators and no other character becomes one, words are changed
character by character. -/
theorem words_flatMap {f g : Char → List Char}
    (hseparator : ∀ c, isSeparator c → ∃ d, isSeparator d ∧ f c = [d])
    (hletter : ∀ c, isSeparator c = false →
      f c = g c ∧ g c ≠ [] ∧ ∀ d ∈ g c, isSeparator d = false) (cs : List Char) :
    words (cs.flatMap f) = (words cs).map (·.flatMap g) := by
  -- What has been read of a word stands in front of the rest.
  suffices h : ∀ word, (∀ c ∈ word, isSeparator c = false) →
      words ((word ++ cs).flatMap f) = (words (word ++ cs)).map (·.flatMap g) from
    h [] (List.forall_mem_nil _)
  have hword : ∀ word, (∀ c ∈ word, isSeparator c = false) →
      words (word.flatMap f) = (words word).map (·.flatMap g) := by
    intro word hw
    have hfg : word.flatMap f = word.flatMap g := by
      rw [List.flatMap_def, List.flatMap_def,
        List.map_congr_left fun c hc => (hletter c (hw c hc)).1]
    have hg : ∀ d ∈ word.flatMap g, isSeparator d = false := by
      intro d hd
      obtain ⟨c, hc, hd⟩ := List.mem_flatMap.mp hd
      exact (hletter c (hw c hc)).2.2 d hd
    rw [hfg, words_of_letters hg, words_of_letters hw]
    cases word with
    | nil => rfl
    | cons c word => simp [(hletter c (hw c (List.mem_cons_self ..))).2.1]
  induction cs with
  | nil =>
    intro word hw
    rw [List.append_nil]
    exact hword word hw
  | cons c cs ih =>
    intro word hw
    by_cases hc : isSeparator c
    · obtain ⟨d, hd, hfc⟩ := hseparator c hc
      have hrest := ih [] (List.forall_mem_nil _)
      rw [List.nil_append] at hrest
      rw [List.flatMap_append, List.flatMap_cons, hfc, List.singleton_append,
        words_append_separator hd, words_append_separator hc, hword word hw, hrest, List.map_append]
    · rw [List.append_cons]
      exact ih (word ++ [c]) (List.forall_mem_append.mpr
        ⟨hw, List.forall_mem_singleton.mpr (Bool.eq_false_iff.mpr hc)⟩)

/-! ## Pieces -/

/-- The words of a text are those of its pieces. Whatever stands in front of the text may belong to
the first of them. -/
def Cuts (cs : List Char) (pieces : List (List Char)) : Prop :=
  ∃ first rest, pieces = first :: rest ∧
    ∀ front, words (front ++ cs) = words (front ++ first) ++ rest.flatMap words

namespace Cuts

theorem words_eq (h : Cuts cs pieces) : pieces.flatMap words = words cs := by
  obtain ⟨first, rest, rfl, h⟩ := h
  exact (h []).symm

theorem nil : Cuts [] [[]] := ⟨[], [], rfl, fun front => by simp⟩

theorem letter (h : Cuts cs pieces) (c : Char) : Cuts (c :: cs) (consFirst c pieces) := by
  obtain ⟨first, rest, rfl, h⟩ := h
  exact ⟨c :: first, rest, rfl, fun front => by simpa using h (front ++ [c])⟩

theorem separators (h : Cuts cs pieces) (cut : List Char) (hn : cut ≠ [])
    (hc : ∀ c ∈ cut, isSeparator c) : Cuts (cut ++ cs) ([] :: pieces) := by
  refine ⟨[], pieces, rfl, fun front => ?_⟩
  obtain ⟨c, cut, rfl⟩ := List.exists_cons_of_ne_nil hn
  have ⟨hc, hcut⟩ := List.forall_mem_cons.mp hc
  rw [List.cons_append, words_append_separator hc, words_separators_append hcut, List.append_nil,
    h.words_eq]

end Cuts

theorem isSeparator_of_isBreak (h : isBreak c) : isSeparator c := by
  simp only [isBreak, Bool.or_eq_true, beq_iff_eq] at h
  rcases h with (rfl | rfl) | rfl <;> decide

theorem cuts_splitLines (cs : List Char) : Cuts cs (splitLines cs) := by
  fun_induction splitLines cs with
  | case1 => exact .nil
  | case2 rest ih => exact ih.separators ['\r', '\n'] (by decide) (List.all_eq_true.mp (by decide))
  | case3 c rest _ hb ih =>
    exact ih.separators [c] (List.cons_ne_nil c [])
      (List.forall_mem_singleton.mpr (isSeparator_of_isBreak hb))
  | case4 c rest _ _ ih => exact ih.letter c

theorem cuts_splitWords (line : List Char) : Cuts line (splitWords line) := by
  unfold splitWords
  induction line with
  | nil => exact .nil
  | cons c line ih =>
    rw [split]
    split
    next hc =>
      rw [eq_of_beq hc]
      exact ih.separators [' '] (by decide) (List.forall_mem_singleton.mpr (by decide))
    · exact ih.letter c

theorem words_fill (pending : List Char) (ws : List (List Char)) :
    (fill pending ws).flatMap words = words pending ++ ws.flatMap words := by
  fun_induction fill pending ws with
  | case1 pending => simp
  | case2 pending word rest _ ih => rw [List.flatMap_cons, ih, List.flatMap_cons]
  | case3 pending word rest _ hp ih =>
    rw [ih, List.flatMap_cons, List.isEmpty_iff.mp hp, words_nil, List.nil_append]
  | case4 pending word rest _ _ ih =>
    rw [ih, words_append_separator (by decide), List.flatMap_cons, List.append_assoc]

theorem words_wrap (line : List Char) : (wrap line).flatMap words = words line := by
  unfold wrap
  split
  · simp
  · rw [words_fill, words_nil, List.nil_append, (cuts_splitWords line).words_eq]

theorem words_trim (cs : List Char) : words (trim cs) = words cs := by
  have hblank (c : Char) (hc : isBlank c) : isSeparator c := by simp [isSeparator, hc]
  obtain ⟨front, back, hcs, hf, hb⟩ := trimWhile_parts isBlank cs
  calc words (trim cs)
      = words (front ++ trim cs) :=
        (words_separators_append (fun c hc => hblank c (hf c hc)) _).symm
    _ = words (front ++ trim cs ++ back) :=
        (words_append_separators _ fun c hc => hblank c (hb c hc)).symm
    _ = words cs := congrArg words hcs.symm

theorem words_pieces (text : String) :
    (DocComment.pieces text).flatMap words = words text.toList := by
  rw [DocComment.pieces, List.flatMap_assoc]
  simp only [words_wrap]
  rw [(cuts_splitLines _).words_eq, words_trim]

/-! ## Polish -/

theorem words_escape (cs : List Char) :
    words (cs.flatMap escape) = (words cs).map (·.flatMap escape) := by
  refine words_flatMap (f := escape) (g := escape) (fun c hc => ⟨c, hc, if_neg fun he => ?_⟩)
    (fun c hc => ⟨rfl, ?_, ?_⟩) cs
  · rw [eq_of_beq he] at hc
    exact absurd hc (by decide)
  · unfold escape
    split <;> exact List.cons_ne_nil _ _
  · intro d hd
    rcases mem_escape hd with hd | ⟨_, rfl⟩
    · have hreference : ['&', '#', '4', '2', ';'].all (!isSeparator ·) := by decide
      simpa using List.all_eq_true.mp hreference d hd
    · exact hc

theorem words_plainSpace (cs : List Char) : words (cs.map plainSpace) = words cs := by
  rw [List.map_eq_flatMap,
    words_flatMap (g := fun c => [c]) (fun c hc => ⟨_, ?_, rfl⟩) fun c hc => ?_]
  · simp
  · unfold plainSpace
    split
    · decide
    · exact hc
  · have hp : isIrregularSpace c = false := by simp_all [isSeparator]
    simp [plainSpace, hp, hc]

theorem words_polish (piece : List Char) :
    words (polish piece) = (words piece).map (·.flatMap escape) := by
  rw [polish, words_plainSpace, words_trim, words_escape]

/-- The words of the lines, line by line, are the words of the text with every asterisk escaped. -/
theorem words_of_lines (text : String) :
    (lines text).flatMap (fun line => words line.toList) =
      (words text.toList).map (·.flatMap escape) := by
  by_cases ht : text = ""
  · simp [ht, lines]
  · rw [lines_eq ht, List.flatMap_map, ← words_pieces, List.map_flatMap]
    simp only [String.toList_ofList, words_polish]

end ApiTypings.DocComment
