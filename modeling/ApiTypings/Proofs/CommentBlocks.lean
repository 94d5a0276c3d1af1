import ApiTypings.Proofs.CodeEffect
import ApiTypings.Proofs.CommentLines
import Mathlib.Data.List.Chain

/-! # Comments stay closed

A description is written as one block comment, or not at all. No text ends the comment that holds
it: its closing mark is the only one, and every line of code within it shows that it belongs to the
comment. -/

namespace ApiTypings

namespace DocComment

/-! ## Lines of code -/

/-- Lines of code end at a line feed, a carriage return, U+2028 or U+2029. -/
def endsCodeLine (c : Char) : Bool := c == '\n' || c == '\r' || c == '\u2028' || c == '\u2029'

def codeLines (cs : List Char) : List (List Char) := cs.splitOnP endsCodeLine

/-- The rows, each behind the margin and ended by a line feed. -/
def block (margin : List Char) (rows : List (List Char)) : List Char :=
  rows.flatMap fun row => margin ++ row ++ ['\n']

theorem forall_mem_block {P : Char → Prop} {margin : List Char} {rows : List (List Char)}
    (hn : P '\n') (hm : ∀ c ∈ margin, P c) (hrows : ∀ row ∈ rows, ∀ c ∈ row, P c) :
    ∀ c ∈ block margin rows, P c := by
  intro c hc
  obtain ⟨row, hr, hc⟩ := List.mem_flatMap.mp hc
  simp only [List.mem_append, List.mem_singleton] at hc
  rcases hc with (hc | hc) | rfl
  · exact hm c hc
  · exact hrows row hr c hc
  · exact hn

/-- The text stays on its line of code. -/
def OneLine (cs : List Char) : Prop := ∀ c ∈ cs, endsCodeLine c = false

instance (cs : List Char) : Decidable (OneLine cs) :=
  List.decidableBAll (fun c => endsCodeLine c = false) cs

section
variable {margin last : List Char} {rows : List (List Char)}

theorem OneLine.append {xs ys : List Char} (hx : OneLine xs) (hy : OneLine ys) :
    OneLine (xs ++ ys) := List.forall_mem_append.mpr ⟨hx, hy⟩

theorem codeLines_block_append (hm : OneLine margin) (hrows : ∀ row ∈ rows, OneLine row)
    (hlast : OneLine last) :
    codeLines (block margin rows ++ last) = rows.map (margin ++ ·) ++ [last] := by
  induction rows with
  | nil => exact List.splitOnP_eq_singleton hlast
  | cons row rows ih =>
    have ⟨hrow, hrows⟩ := List.forall_mem_cons.mp hrows
    have hsplit : block margin (row :: rows) ++ last =
        (margin ++ row) ++ '\n' :: (block margin rows ++ last) := by simp [block]
    rw [hsplit, codeLines, List.splitOnP_append_cons _ _ (by decide),
      List.splitOnP_eq_singleton (hm.append hrow)]
    exact congrArg _ (ih hrows)

end

/-! ## Closing marks -/

/-- No closing mark stands in the text. -/
def Unclosed (cs : List Char) : Prop := cs.IsChain fun a b => a = '*' → b ≠ '/'

instance (cs : List Char) : Decidable (Unclosed cs) :=
  inferInstanceAs (Decidable (cs.IsChain fun a b => a = '*' → b ≠ '/'))

/-- No closing mark stands in the text, nor does one begin at its end. -/
structure Sealed (cs : List Char) : Prop where
  unclosed : Unclosed cs
  last : cs.getLast? ≠ some '*'

instance (cs : List Char) : Decidable (Sealed cs) :=
  decidable_of_iff (Unclosed cs ∧ cs.getLast? ≠ some '*') ⟨fun h => ⟨h.1, h.2⟩, fun h => ⟨h.1, h.2⟩⟩

section
variable {xs ys : List Char}

theorem sealed_of_not_mem (h : '*' ∉ xs) : Sealed xs where
  unclosed := by
    refine (List.pairwise_of_forall_mem_list ?_).isChain
    rintro _ hm _ _ rfl
    exact absurd hm h
  last := fun hl => h (List.mem_of_getLast? hl)

theorem Sealed.append (hx : Sealed xs) (hy : Sealed ys) : Sealed (xs ++ ys) where
  unclosed := by
    refine List.isChain_append.mpr ⟨hx.unclosed, hy.unclosed, ?_⟩
    rintro _ hl _ _ rfl
    exact absurd hl hx.last
  last := by
    rw [List.getLast?_append, ne_eq, Option.or_eq_some_iff]
    rintro (hl | ⟨_, hl⟩)
    · exact hy.last hl
    · exact hx.last hl

theorem sealed_block {margin : List Char} {rows : List (List Char)} (hm : Sealed margin)
    (hrows : ∀ row ∈ rows, Sealed (row ++ ['\n'])) : Sealed (block margin rows) := by
  induction rows with
  | nil => exact sealed_of_not_mem List.not_mem_nil
  | cons row rows ih =>
    have ⟨hrow, hrows⟩ := List.forall_mem_cons.mp hrows
    have hfirst := hm.append hrow
    rw [← List.append_assoc] at hfirst
    exact hfirst.append (ih hrows)

/-- A closing mark that begins no earlier than another one is that one or stands behind it. -/
theorem mark_eq_append_mark {mid zs : List Char}
    (h : '*' :: '/' :: ys = mid ++ '*' :: '/' :: zs) :
    mid = [] ∧ ys = zs ∨ ∃ rest, mid = '*' :: '/' :: rest ∧ ys = rest ++ '*' :: '/' :: zs := by
  match mid, h with
  | [], h => cases h; exact .inl ⟨rfl, rfl⟩
  | [_], h => cases h
  | _ :: _ :: rest, h => cases h; exact .inr ⟨rest, rfl, rfl⟩

/-- Behind an unclosed text, the only closing mark is the one that is put there. -/
theorem Unclosed.after_eq (h : Unclosed xs) (hy : '*' ∉ ys) {before after : List Char}
    (heq : xs ++ '*' :: '/' :: ys = before ++ '*' :: '/' :: after) : after = ys := by
  rcases List.append_eq_append_iff.mp heq with ⟨mid, _, hmid⟩ | ⟨mid, hxs, hmid⟩
  · -- The other mark does not begin before this one.
    obtain ⟨_, rfl⟩ | ⟨rest, _, rfl⟩ := mark_eq_append_mark hmid
    · rfl
    · exact absurd (List.mem_append_right _ (List.mem_cons_self ..)) hy
  · -- It does not begin behind this one.
    obtain ⟨_, rfl⟩ | ⟨rest, rfl, _⟩ := mark_eq_append_mark hmid
    · rfl
    · rw [hxs] at h
      exact absurd rfl ((List.isChain_append_cons_cons.mp h).2.1 rfl)

end

/-! ## Block comments -/

/-- The text is a block comment at this indentation, and this ending behind it. -/
structure IsBlock (indentation ending cs : List Char) : Prop where
  marked : ∃ body, cs = indentation ++ "/**".toList ++ body ++ "*/".toList ++ ending
  closed_once : ∀ before after, cs = before ++ "*/".toList ++ after → after = ending
  /-- What stands before the ending takes one line of code, or all its lines but the first have the
  margin. -/
  margin : ∀ comment, cs = comment ++ ending →
    ∀ line ∈ (codeLines comment).tail, indentation ++ " *".toList <+: line
  /-- No carriage return is in it, and neither U+2028 nor U+2029. -/
  feeds : ∀ c ∈ cs, endsCodeLine c → c = '\n'

section
variable {indentation ending : List Char}

/-- The rows above the last are sealed by their line feeds, and the last up to its closing mark. -/
theorem isBlock_of_rows (above : List (List Char)) (last : List Char)
    (hi : ∀ c ∈ indentation, c = ' ') (he : ∀ c ∈ ending, c = '\n')
    (hopen : ∃ body, block indentation above ++ (indentation ++ last) =
      indentation ++ "/**".toList ++ body)
    (habove : ∀ row ∈ above, OneLine row ∧ Sealed (row ++ ['\n']))
    (hlast : OneLine last ∧ Sealed last)
    (hmargin : ∀ line ∈
      (above.map (indentation ++ ·) ++ [indentation ++ (last ++ "*/".toList)]).tail,
      indentation ++ " *".toList <+: line) :
    IsBlock indentation ending
      (block indentation above ++ (indentation ++ last) ++ "*/".toList ++ ending) := by
  have hio : OneLine indentation := fun c hc => hi c hc ▸ rfl
  have hend : OneLine "*/".toList := by decide
  have his : Sealed indentation := sealed_of_not_mem fun h => absurd (hi _ h) (by decide)
  constructor
  case marked =>
    obtain ⟨body, hbody⟩ := hopen
    exact ⟨body, by rw [hbody]⟩
  case closed_once =>
    intro before after heq
    have hrows := sealed_block his fun row hr => (habove row hr).2
    have hending : '*' ∉ ending := fun h => absurd (he _ h) (by decide)
    have hmark : block indentation above ++ (indentation ++ last) ++ '*' :: '/' :: ending =
        before ++ '*' :: '/' :: after := by simpa using heq
    exact (hrows.append (his.append hlast.2)).unclosed.after_eq hending hmark
  case margin =>
    intro comment hc
    have hlines := codeLines_block_append hio (fun row hr => (habove row hr).1)
      ((hio.append hlast.1).append hend)
    rw [← List.append_cancel_right hc, List.append_assoc, List.append_assoc,
      ← List.append_assoc indentation, hlines, List.append_assoc]
    exact hmargin
  case feeds =>
    have hfeeds {cs : List Char} (h : OneLine cs) : ∀ c ∈ cs, endsCodeLine c → c = '\n' :=
      fun c hc hb => absurd hb (Bool.eq_false_iff.mp (h c hc))
    have hblock := forall_mem_block (P := fun c => endsCodeLine c → c = '\n') (fun _ => rfl)
      (hfeeds hio) fun row hr => hfeeds (habove row hr).1
    exact List.forall_mem_append.mpr ⟨List.forall_mem_append.mpr
      ⟨List.forall_mem_append.mpr ⟨hblock, hfeeds (hio.append hlast.1)⟩, hfeeds hend⟩,
        fun c hc _ => he c hc⟩

/-- The line keeps to one line of code and holds no asterisk. -/
structure Tame (line : List Char) : Prop where
  oneLine : OneLine line
  no_asterisk : '*' ∉ line

theorem tame_of_mem_lines {text line : String} (h : line ∈ lines text) : Tame line.toList := by
  have hclean := clean_of_mem_lines h
  constructor
  case oneLine =>
    refine fun c hc => Bool.eq_false_iff.mpr fun hb => ?_
    simp only [endsCodeLine, Bool.or_eq_true, beq_iff_eq] at hb
    rcases hb with ((rfl | rfl) | rfl) | rfl
    all_goals exact absurd (hclean _ hc) (by decide)
  case no_asterisk => exact fun hs => (hclean _ hs).1 rfl

theorem Tame.sealed {line : List Char} (h : Tame line) : Sealed line :=
  sealed_of_not_mem h.no_asterisk

theorem isBlock_of_line (hi : ∀ c ∈ indentation, c = ' ') (he : ∀ c ∈ ending, c = '\n')
    {line : List Char} (h : Tame line) :
    IsBlock indentation ending
      (indentation ++ ("/** ".toList ++ line ++ " */".toList) ++ ending) := by
  have hopen : OneLine "/** ".toList ∧ Sealed "/** ".toList := by decide
  have hspace : OneLine [' '] ∧ Sealed [' '] := by decide
  have hblock := isBlock_of_rows [] ("/** ".toList ++ line ++ [' ']) hi he
    ⟨[' '] ++ line ++ [' '], by simp [block]⟩ (List.forall_mem_nil _)
    ⟨(hopen.1.append h.oneLine).append hspace.1,
      (hopen.2.append h.sealed).append hspace.2⟩ (List.forall_mem_nil _)
  simpa [block] using hblock

/-- The row of a line that stands between the marks. -/
def row (line : List Char) : List Char := if line.isEmpty then " *".toList else " * ".toList ++ line

theorem row_of_tame {line : List Char} (h : Tame line) :
    OneLine (row line) ∧ Sealed (row line ++ ['\n']) ∧ " *".toList <+: row line := by
  unfold row
  split
  · decide
  · have hmargin : OneLine " * ".toList ∧ Sealed " * ".toList := by decide
    have hend : Sealed ['\n'] := by decide
    exact ⟨hmargin.1.append h.oneLine, (hmargin.2.append h.sealed).append hend,
      [' '] ++ line, rfl⟩

theorem isBlock_of_lines (hi : ∀ c ∈ indentation, c = ' ') (he : ∀ c ∈ ending, c = '\n')
    {ls : List (List Char)} (h : ∀ line ∈ ls, Tame line) :
    IsBlock indentation ending
      (block indentation ("/**".toList :: ls.map row) ++ (indentation ++ " */".toList) ++
        ending) := by
  have hblock := isBlock_of_rows ("/**".toList :: ls.map row) [' '] hi he
    ⟨'\n' :: block indentation (ls.map row) ++ (indentation ++ [' ']), by simp [block]⟩
    (List.forall_mem_cons.mpr ⟨by decide, List.forall_mem_map.mpr fun line hl =>
      have hr := row_of_tame (h line hl)
      ⟨hr.1, hr.2.1⟩⟩) (by decide) ?_
  · simpa using hblock
  · rw [List.map_cons, List.cons_append, List.tail_cons, List.map_map]
    refine List.forall_mem_append.mpr ⟨List.forall_mem_map.mpr fun line hl => ?_,
      List.forall_mem_singleton.mpr ?_⟩
    · exact (List.prefix_append_right_inj _).mpr (row_of_tame (h line hl)).2.2
    · exact (List.prefix_append_right_inj _).mpr (by decide)

end

end DocComment

/-! ## Comments -/

namespace Page

/-- A page with the line ends and the indentation of typings. -/
def typings (text : String) (level : Int) : Page := { empty with text, level }

theorem eq_space_of_mem_indentation (text : String) (level : Int) :
    ∀ c ∈ (typings text level).indentation.toList, c = ' ' := by
  intro c hc
  have htab : ∀ c ∈ "    ".toList, c = ' ' := by simp
  exact htab c (mem_tab_of_mem_indentation hc)

end Page

namespace Code

open DocComment

variable {ε : Type}

/-- What stands behind a comment: the end of its line, unless the line is left open. -/
def commentEnding (closed : Bool) : String := if closed then "\n" else ""

theorem addsText_lastCommentLine {page : Page} (h : page.newLine = "\n") (s : String)
    (closed : Bool) :
    (lastCommentLine s closed : Code ε).AddsText page
      (page.indentation ++ s ++ commentEnding closed) := by
  cases closed
  · simpa [commentEnding, lastCommentLine] using addsText_beginLine page s
  · simpa [commentEnding, lastCommentLine, h] using addsText_line page s

/-- The rows of a comment, all but the last. -/
def commentRows (ss : List String) : List String :=
  "/**" :: ss.map fun s => if s.isEmpty then " *" else " * " ++ s

theorem toList_commentRows (ss : List String) :
    (commentRows ss).map String.toList = "/**".toList :: (ss.map String.toList).map row := by
  have hrow (s : String) : (if s.isEmpty then " *" else " * " ++ s).toList = row s.toList := by
    simp [row, apply_ite String.toList]
  simp only [commentRows, List.map_cons, List.map_map, Function.comp_def, hrow]

theorem toList_join_rows {page : Page} (h : page.newLine = "\n") (rows : List String) :
    (String.join (rows.map fun s => page.indentation ++ s ++ page.newLine)).toList =
      block page.indentation.toList (rows.map String.toList) := by
  simp [block, h, String.toList_join, List.flatMap_map]

theorem all_commentRows (ss : List String) :
    (all ((commentRows ss).map line) : Code ε) =
      line "/**" ++ all (ss.map fun s => line (if s.isEmpty then " *" else " * " ++ s)) := by
  rw [commentRows, List.map_cons, List.map_map, all_cons]
  rfl

/-- A description is written as one block comment, and nothing is written where there is none. -/
theorem comment_writes_block (description : Option String) (closed : Bool) (before : String)
    (level : Int) :
    ∃ written, (comment (description.getD "") closed : Code ε).run (.typings before level) =
        ((Page.typings before level).append written, none) ∧
      if description.getD "" = "" then written = ""
      else IsBlock (Page.typings before level).indentation.toList
        (commentEnding closed).toList written.toList := by
  generalize description.getD "" = description
  have hindent := Page.eq_space_of_mem_indentation before level
  have hending : ∀ c ∈ (commentEnding closed).toList, c = '\n' := by
    cases closed <;> simp [commentEnding]
  unfold comment
  split
  next hl =>
    have hd : description = "" := by_contra fun hne => lines_ne_nil hne hl
    exact ⟨"", addsText_nil _, by rw [if_pos hd]⟩
  next single hl =>
    have hd : description ≠ "" := by rintro rfl; cases hl
    have hsingle := tame_of_mem_lines (hl ▸ List.mem_singleton_self single)
    refine ⟨_, addsText_lastCommentLine rfl _ _, ?_⟩
    rw [if_neg hd]
    simpa using isBlock_of_line hindent hending hsingle
  next hne _ =>
    have hd : description ≠ "" := by rintro rfl; exact hne rfl
    have hlines := fun line (hl : line ∈ lines description) => tame_of_mem_lines hl
    rw [← all_commentRows]
    refine ⟨_, (addsText_lines _ _).append (addsText_lastCommentLine rfl _ _), ?_⟩
    rw [if_neg hd, String.toList_append, toList_join_rows rfl, toList_commentRows]
    simpa using isBlock_of_lines hindent hending (List.forall_mem_map.mpr hlines)

end Code

end ApiTypings
