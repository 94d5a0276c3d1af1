import ApiTypings.DocComment
import Mathlib.Data.String.Basic

/-! # The lines of a comment

A text becomes the lines of a comment in stages: it is trimmed and cut at its line breaks, long
lines are wrapped, and each piece is polished. The stages bring in no character but spaces and those
of an escaped asterisk, and the last leaves none that ends a line or begins the end of a comment. -/

namespace ApiTypings

namespace Text

/-- Trimming takes an end away on either side. -/
theorem trimWhile_parts (p : Char → Bool) (cs : List Char) :
    ∃ front back, cs = front ++ trimWhile p cs ++ back ∧ (∀ c ∈ front, p c) ∧ ∀ c ∈ back, p c := by
  refine ⟨cs.takeWhile p, ((cs.dropWhile p).reverse.takeWhile p).reverse, ?_, ?_, ?_⟩
  · have hback := congrArg List.reverse
      (List.takeWhile_append_dropWhile (p := p) (l := (cs.dropWhile p).reverse))
    rw [List.reverse_append, List.reverse_reverse] at hback
    rw [trimWhile, dropEndWhile, List.append_assoc, hback, List.takeWhile_append_dropWhile]
  · exact List.all_eq_true.mp List.all_takeWhile
  · exact fun c hc => List.all_eq_true.mp List.all_takeWhile c (List.mem_reverse.mp hc)

theorem trim_isInfix (cs : List Char) : trim cs <:+: cs := by
  obtain ⟨front, back, hcs, _⟩ := trimWhile_parts isBlank cs
  exact ⟨front, back, hcs.symm⟩

section
variable {P : Char → Prop} {c : Char} {pieces : List (List Char)}

theorem forall_mem_consFirst (hc : P c) (h : ∀ piece ∈ pieces, ∀ d ∈ piece, P d) :
    ∀ piece ∈ consFirst c pieces, ∀ d ∈ piece, P d := by
  cases pieces with
  | nil => exact List.forall_mem_singleton.mpr (List.forall_mem_singleton.mpr hc)
  | cons first rest =>
    have ⟨hf, hr⟩ := List.forall_mem_cons.mp h
    exact List.forall_mem_cons.mpr ⟨List.forall_mem_cons.mpr ⟨hc, hf⟩, hr⟩

/-- The pieces of a text are made of its characters, without the separator. -/
theorem mem_split {separator : Char} {cs : List Char} (h : ∀ d ∈ cs, P d) :
    ∀ piece ∈ split separator cs, ∀ d ∈ piece, d ≠ separator ∧ P d := by
  induction cs with
  | nil => exact List.forall_mem_singleton.mpr (List.forall_mem_nil _)
  | cons c cs ih =>
    have ⟨hc, hcs⟩ := List.forall_mem_cons.mp h
    rw [split]
    split
    · exact List.forall_mem_cons.mpr ⟨List.forall_mem_nil _, ih hcs⟩
    next hs => exact forall_mem_consFirst ⟨mt beq_iff_eq.mpr hs, hc⟩ (ih hcs)

end

end Text

namespace DocComment

open Text

/-! ## Pieces -/

/-- The pieces of a text, each of which becomes a line. -/
def pieces (text : String) : List (List Char) := (splitLines (trim text.toList)).flatMap wrap

theorem lines_eq {text : String} (h : text ≠ "") :
    lines text = (pieces text).map fun piece => String.ofList (polish piece) := by
  rw [lines, if_neg (by simpa using h), List.map_map]
  rfl

theorem splitLines_ne_nil (cs : List Char) : splitLines cs ≠ [] := by
  fun_induction splitLines cs with
  | case1 | case2 | case3 => exact List.cons_ne_nil _ _
  | case4 c rest => cases splitLines rest <;> exact List.cons_ne_nil _ _

theorem fill_ne_nil (pending : List Char) (words : List (List Char)) : fill pending words ≠ [] := by
  fun_induction fill pending words with
  | case1 | case2 => exact List.cons_ne_nil _ _
  | case3 _ _ _ _ _ ih | case4 _ _ _ _ _ ih => exact ih

theorem wrap_ne_nil (line : List Char) : wrap line ≠ [] := by
  unfold wrap
  split
  · exact List.cons_ne_nil _ _
  · exact fill_ne_nil _ _

/-- Every text makes a comment, even where nothing is left of it. -/
theorem lines_ne_nil {text : String} (h : text ≠ "") : lines text ≠ [] := by
  obtain ⟨line, hl⟩ := List.exists_mem_of_ne_nil _ (splitLines_ne_nil (trim text.toList))
  obtain ⟨piece, hp⟩ := List.exists_mem_of_ne_nil _ (wrap_ne_nil line)
  rw [lines_eq h]
  exact List.ne_nil_of_mem (List.mem_map_of_mem (List.mem_flatMap.mpr ⟨line, hl, hp⟩))

theorem exists_piece {text line : String} (h : line ∈ lines text) :
    ∃ piece ∈ pieces text, line.toList = polish piece := by
  by_cases ht : text = ""
  · simp [lines, ht] at h
  · rw [lines_eq ht] at h
    obtain ⟨piece, hp, rfl⟩ := List.mem_map.mp h
    exact ⟨piece, hp, String.toList_ofList⟩

section
variable {P : Char → Prop}

theorem forall_mem_splitLines {cs : List Char} (h : ∀ c ∈ cs, isBreak c = false → P c) :
    ∀ piece ∈ splitLines cs, ∀ c ∈ piece, P c := by
  fun_induction splitLines cs with
  | case1 => exact List.forall_mem_singleton.mpr (List.forall_mem_nil _)
  | case2 rest ih =>
    have ⟨_, h⟩ := List.forall_mem_cons.mp h
    have ⟨_, h⟩ := List.forall_mem_cons.mp h
    exact List.forall_mem_cons.mpr ⟨List.forall_mem_nil _, ih h⟩
  | case3 c rest _ hb ih =>
    have ⟨_, h⟩ := List.forall_mem_cons.mp h
    exact List.forall_mem_cons.mpr ⟨List.forall_mem_nil _, ih h⟩
  | case4 c rest _ hb ih =>
    have ⟨hc, h⟩ := List.forall_mem_cons.mp h
    exact forall_mem_consFirst (hc (Bool.eq_false_iff.mpr hb)) (ih h)

theorem forall_mem_fill {pending : List Char} {words : List (List Char)} (hspace : P ' ')
    (hp : ∀ c ∈ pending, P c) (hw : ∀ word ∈ words, ∀ c ∈ word, P c) :
    ∀ piece ∈ fill pending words, ∀ c ∈ piece, P c := by
  fun_induction fill pending words with
  | case1 pending => exact List.forall_mem_singleton.mpr hp
  | case2 pending word rest _ ih =>
    have ⟨hword, hrest⟩ := List.forall_mem_cons.mp hw
    exact List.forall_mem_cons.mpr ⟨hp, ih hword hrest⟩
  | case3 pending word rest _ _ ih =>
    have ⟨hword, hrest⟩ := List.forall_mem_cons.mp hw
    exact ih hword hrest
  | case4 pending word rest _ _ ih =>
    have ⟨hword, hrest⟩ := List.forall_mem_cons.mp hw
    exact ih (List.forall_mem_append.mpr ⟨hp, List.forall_mem_cons.mpr ⟨hspace, hword⟩⟩) hrest

/-- Wrapping brings in nothing but spaces. -/
theorem forall_mem_wrap {line : List Char} (hspace : P ' ') (h : ∀ c ∈ line, P c) :
    ∀ piece ∈ wrap line, ∀ c ∈ piece, P c := by
  unfold wrap
  split
  · exact List.forall_mem_singleton.mpr h
  · exact forall_mem_fill hspace (List.forall_mem_nil _)
      fun word hw c hc => (mem_split h word hw c hc).2

/-- No break of the text is left in a piece. -/
theorem isBreak_of_mem_pieces {text : String} :
    ∀ piece ∈ pieces text, ∀ c ∈ piece, isBreak c = false := by
  intro piece hp
  obtain ⟨line, hl, hp⟩ := List.mem_flatMap.mp hp
  exact forall_mem_wrap (by decide) (forall_mem_splitLines (fun _ _ hb => hb) line hl) piece hp

end

/-! ## Polish -/

theorem escape_cases (c : Char) :
    c ≠ '*' ∧ escape c = [c] ∨ c = '*' ∧ escape c = ['&', '#', '4', '2', ';'] := by
  unfold escape
  split
  next hc => exact .inr ⟨eq_of_beq hc, rfl⟩
  next hc => exact .inl ⟨mt beq_iff_eq.mpr hc, rfl⟩

theorem mem_escape {c d : Char} (h : d ∈ escape c) :
    d ∈ ['&', '#', '4', '2', ';'] ∨ c ≠ '*' ∧ d = c := by
  rcases escape_cases c with ⟨hc, he⟩ | ⟨_, he⟩ <;> rw [he] at h
  · exact .inr ⟨hc, List.mem_singleton.mp h⟩
  · exact .inl h

/-- A polished character is a plain space, one of an escaped asterisk, or one of the piece that is
neither an irregular space nor an asterisk. -/
theorem mem_polish {piece : List Char} {c : Char} (h : c ∈ polish piece) :
    c ∈ [' ', '&', '#', '4', '2', ';'] ∨ c ∈ piece ∧ c ≠ '*' ∧ isIrregularSpace c = false := by
  obtain ⟨d, hd, rfl⟩ := List.mem_map.mp h
  obtain ⟨e, he, hd⟩ := List.mem_flatMap.mp ((trim_isInfix _).subset hd)
  unfold plainSpace
  split
  · exact .inl (List.mem_cons_self ..)
  next hplain =>
    rcases mem_escape hd with hd | ⟨hstar, rfl⟩
    · exact .inl (List.mem_cons_of_mem _ hd)
    · exact .inr ⟨he, hstar, Bool.eq_false_iff.mpr hplain⟩

/-- No line holds an asterisk, a line break or an irregular space. -/
theorem clean_of_mem_lines {text line : String} (h : line ∈ lines text) :
    ∀ c ∈ line.toList, c ≠ '*' ∧ isBreak c = false ∧ isIrregularSpace c = false := by
  obtain ⟨piece, hp, hl⟩ := exists_piece h
  intro c hc
  rw [hl] at hc
  rcases mem_polish hc with hc | ⟨hmem, hstar, hplain⟩
  · have hadded : [' ', '&', '#', '4', '2', ';'].all fun c =>
        c != '*' && !isBreak c && !isIrregularSpace c := by decide
    simpa [and_assoc] using List.all_eq_true.mp hadded c hc
  · exact ⟨hstar, isBreak_of_mem_pieces piece hp c hmem, hplain⟩

end DocComment
end ApiTypings
