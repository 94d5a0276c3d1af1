import ApiTypings.Code.Typescript

/-! # The effect of code

Pieces of code are told apart by what they do to a page, not by how they are put together. What a
file is made of may so be listed flat, however deep the recursion that wrote it. -/

namespace ApiTypings

namespace Page

@[simp] theorem indentation_append (page : Page) (s : String) :
    (page.append s).indentation = page.indentation := rfl

@[simp] theorem newLine_append (page : Page) (s : String) :
    (page.append s).newLine = page.newLine := rfl

theorem mem_tab_of_mem_indentation {page : Page} {c : Char}
    (h : c ∈ page.indentation.toList) : c ∈ page.tab.toList := by
  rw [indentation, String.toList_join] at h
  obtain ⟨tab, ht, hc⟩ := List.mem_flatMap.mp h
  exact List.eq_of_mem_replicate ht ▸ hc

end Page

namespace Code

variable {ε : Type}

/-! ## Runs -/

theorem run_append {a b : Code ε} {p q : Page} (h : a.run p = (q, none)) :
    (a ++ b).run p = b.run q := by
  change (append a b).run p = _
  rw [run, h]

/-- Pieces may be put together in any grouping. -/
theorem run_assoc (a b c : Code ε) (p : Page) : (a ++ b ++ c).run p = (a ++ (b ++ c)).run p := by
  change (append (append a b) c).run p = (append a (append b c)).run p
  simp only [run]
  cases a.run p with
  | mk q fault => cases fault <;> rfl

theorem run_nest {a : Code ε} {p q : Page} (h : a.run (p.shift 1) = (q, none)) :
    (nest a).run p = (q.shift (-1), none) := by
  rw [run, h]

/-- A run only adds text, also one that is stopped by a fault. -/
theorem exists_text_of_run (a : Code ε) (page : Page) :
    ∃ s, (a.run page).1.text = page.text ++ s := by
  induction a generalizing page with
  | nil | shift | fail => exact ⟨"", by simp [run, Page.shift]⟩
  | text | newLine | indent => exact ⟨_, rfl⟩
  | append a b iha ihb =>
    obtain ⟨s, hs⟩ := iha page
    rw [run]
    rcases ha : a.run page with ⟨mid, _ | fault⟩ <;> rw [ha] at hs
    · obtain ⟨t, ht⟩ := ihb mid
      exact ⟨s ++ t, by rw [ht, hs, String.append_assoc]⟩
    · exact ⟨s, hs⟩
  | nest body ih =>
    obtain ⟨s, hs⟩ := ih (page.shift 1)
    rw [run]
    rcases hb : body.run (page.shift 1) with ⟨after, _ | fault⟩ <;> rw [hb] at hs <;> exact ⟨s, hs⟩

/-! ## The same effect -/

/-- The same text, level and fault on every page. -/
def Same (a b : Code ε) : Prop := ∀ page, a.run page = b.run page

namespace Same

variable {a b c d : Code ε}

theorem refl (a : Code ε) : Same a a := fun _ => rfl

theorem symm (h : Same a b) : Same b a := fun page => (h page).symm

theorem trans (hab : Same a b) (hbc : Same b c) : Same a c :=
  fun page => (hab page).trans (hbc page)

theorem append (hac : Same a c) (hbd : Same b d) : Same (a ++ b) (c ++ d) := by
  intro page
  change (Code.append a b).run page = (Code.append c d).run page
  rw [run, run, hac page]
  rcases c.run page with ⟨q, _ | fault⟩
  · exact hbd q
  · rfl

theorem nest (h : Same a b) : Same (nest a) (nest b) := by
  intro page
  rw [run, run, h]

theorem braces (heading : String) (h : Same a b) : Same (braces heading a) (braces heading b) :=
  ((refl _).append h.nest).append (refl _)

end Same

theorem same_assoc (a b c : Code ε) : Same (a ++ b ++ c) (a ++ (b ++ c)) := run_assoc a b c

theorem same_append_nil (a : Code ε) : Same (a ++ nil) a := by
  intro page
  change (append a nil).run page = _
  rw [run]
  rcases a.run page with ⟨q, _ | fault⟩ <;> rfl

theorem all_cons (a : Code ε) (rest : List (Code ε)) : all (a :: rest) = a ++ all rest := rfl

theorem same_all_append (xs ys : List (Code ε)) : Same (all (xs ++ ys)) (all xs ++ all ys) := by
  induction xs with
  | nil => exact .refl _
  | cons a rest ih => exact ((Same.refl a).append ih).trans (same_assoc a _ _).symm

theorem same_all_singleton (a : Code ε) : Same (all [a]) a := same_append_nil a

/-! ## Code without faults -/

/-- Nothing in the code fails. -/
def Faultless : Code ε → Prop
  | nil | text _ | newLine | indent | shift _ => True
  | append a b => a.Faultless ∧ b.Faultless
  | nest body => body.Faultless
  | fail _ => False

theorem Faultless.run {a : Code ε} (h : a.Faultless) (page : Page) :
    ∃ after, a.run page = (after, none) := by
  induction a generalizing page with
  | nil | text | newLine | indent | shift => exact ⟨_, rfl⟩
  | append a b iha ihb =>
    obtain ⟨mid, ha⟩ := iha h.1 page
    obtain ⟨after, hb⟩ := ihb h.2 mid
    exact ⟨after, (run_append ha).trans hb⟩
  | nest body ih =>
    obtain ⟨after, hb⟩ := ih h (page.shift 1)
    exact ⟨_, run_nest hb⟩
  | fail => exact h.elim

section
variable {a b : Code ε}

@[simp] theorem faultless_append : (a ++ b).Faultless ↔ a.Faultless ∧ b.Faultless := .rfl

@[simp] theorem faultless_nest : (nest a).Faultless ↔ a.Faultless := .rfl

@[simp] theorem faultless_text (s : String) : (text s : Code ε).Faultless := trivial

@[simp] theorem faultless_nil : (nil : Code ε).Faultless := trivial

@[simp] theorem faultless_newLine : (newLine : Code ε).Faultless := trivial

@[simp] theorem faultless_indent : (indent : Code ε).Faultless := trivial

@[simp] theorem faultless_beginLine (s : String) : (beginLine s : Code ε).Faultless := by
  simp [beginLine]

@[simp] theorem faultless_endLine (s : String) : (endLine s : Code ε).Faultless := by
  simp [endLine]

@[simp] theorem faultless_line (s : String) : (line s : Code ε).Faultless := by simp [line]

@[simp] theorem faultless_beginNewLine (s : String) : (beginNewLine s : Code ε).Faultless := by
  simp [beginNewLine]

@[simp] theorem faultless_all {pieces : List (Code ε)} :
    (all pieces).Faultless ↔ ∀ piece ∈ pieces, piece.Faultless := by
  induction pieces with
  | nil => simp [all]
  | cons a rest ih => rw [all_cons, faultless_append, ih, List.forall_mem_cons]

@[simp] theorem faultless_scope {opening closing : String} :
    (scope a opening closing).Faultless ↔ a.Faultless := by simp [scope]

@[simp] theorem faultless_comment (description : String) (closed : Bool) :
    (comment description closed : Code ε).Faultless := by
  unfold comment lastCommentLine
  split
  · exact trivial
  · split <;> simp
  · split <;> simp

@[simp] theorem faultless_comment? (description : Option String) :
    (comment? description : Code ε).Faultless := faultless_comment ..

end

/-! ## Code that only adds text -/

/-- On this page the code adds the text, and does nothing else. -/
def AddsText (a : Code ε) (page : Page) (s : String) : Prop := a.run page = (page.append s, none)

section
variable {a b : Code ε} {page : Page} {s t : String}

theorem AddsText.append (ha : a.AddsText page s) (hb : b.AddsText (page.append s) t) :
    (a ++ b).AddsText page (s ++ t) := by
  unfold AddsText at *
  rw [run_append ha, hb]
  simp [Page.append, String.append_assoc]

/-- The level goes up and comes down again. -/
theorem AddsText.nest (h : a.AddsText (page.shift 1) s) : (nest a).AddsText page s := by
  unfold AddsText at *
  rw [run_nest h]
  simp only [Page.append, Page.shift, Int.add_neg_cancel_right]

theorem addsText_nil (page : Page) : (nil : Code ε).AddsText page "" := by
  simp [AddsText, run, Page.append]

theorem addsText_beginLine (page : Page) (s : String) :
    (beginLine s : Code ε).AddsText page (page.indentation ++ s) :=
  AddsText.append (a := indent) (b := text s) rfl rfl

theorem addsText_line (page : Page) (s : String) :
    (line s : Code ε).AddsText page (page.indentation ++ s ++ page.newLine) :=
  (addsText_beginLine page s).append (b := newLine) rfl

theorem addsText_lines (page : Page) (ss : List String) :
    (all (ss.map line) : Code ε).AddsText page
      (String.join (ss.map fun s => page.indentation ++ s ++ page.newLine)) := by
  induction ss generalizing page with
  | nil => exact addsText_nil page
  | cons s ss ih =>
    have h := (addsText_line page s).append (ih (page.append _))
    rw [List.map_cons, all_cons, List.map_cons, String.join_cons]
    exact h

end

/-- On any page, nothing fails and nothing but the text is changed. -/
def Adds (a : Code ε) : Prop := ∀ page : Page, ∃ s, a.run page = (page.append s, none)

section
variable {a b : Code ε}

theorem adds_nil : (nil : Code ε).Adds := fun page => ⟨"", addsText_nil page⟩

theorem adds_text (s : String) : (text s : Code ε).Adds := fun _ => ⟨s, rfl⟩

theorem adds_newLine : (newLine : Code ε).Adds := fun page => ⟨page.newLine, rfl⟩

theorem adds_indent : (indent : Code ε).Adds := fun page => ⟨page.indentation, rfl⟩

theorem Adds.append (ha : a.Adds) (hb : b.Adds) : (a ++ b).Adds := by
  intro page
  obtain ⟨s, hs⟩ := ha page
  obtain ⟨t, ht⟩ := hb (page.append s)
  exact ⟨s ++ t, AddsText.append hs ht⟩

theorem Adds.nest (h : a.Adds) : (nest a).Adds := by
  intro page
  obtain ⟨s, hs⟩ := h (page.shift 1)
  exact ⟨s, AddsText.nest hs⟩

theorem adds_all {pieces : List (Code ε)} (h : ∀ piece ∈ pieces, piece.Adds) :
    (all pieces).Adds := by
  induction pieces with
  | nil => exact adds_nil
  | cons a rest ih =>
    have ⟨ha, hrest⟩ := List.forall_mem_cons.mp h
    exact ha.append (ih hrest)

theorem adds_beginLine (s : String) : (beginLine s : Code ε).Adds :=
  adds_indent.append (adds_text s)

theorem adds_endLine (s : String) : (endLine s : Code ε).Adds := (adds_text s).append adds_newLine

theorem adds_line (s : String) : (line s : Code ε).Adds := (adds_beginLine s).append adds_newLine

theorem adds_comment (description : String) (closed : Bool) :
    (comment description closed : Code ε).Adds := by
  have hlast (s : String) : (lastCommentLine s closed : Code ε).Adds := by
    cases closed
    · exact adds_beginLine s
    · exact adds_line s
  unfold comment
  split
  · exact adds_nil
  · exact hlast _
  · refine ((adds_line _).append (adds_all fun piece hp => ?_)).append (hlast _)
    obtain ⟨s, _, rfl⟩ := List.mem_map.mp hp
    exact adds_line _

theorem adds_anonymousType (h : a.Adds) : (anonymousType a).Adds :=
  ((adds_endLine _).append h.nest).append (adds_beginLine _)

theorem adds_scope (h : a.Adds) (opening closing : String) : (scope a opening closing).Adds :=
  (((adds_text _).append h.nest).append adds_newLine).append (adds_beginLine _)

end

end Code

end ApiTypings
