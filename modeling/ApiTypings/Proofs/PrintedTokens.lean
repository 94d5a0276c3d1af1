import ApiTypings.Proofs.CodeEffect
import ApiTypings.Proofs.CommentLines
import ApiTypings.Proofs.TypeGrammar
import Mathlib.Data.String.Basic

/-! # The tokens of printed code

Code is printed in pieces, and the tokens of the whole are those of the pieces, as long as each
piece is read from the place where the one before it ends. White space and comments end where they
begin, so neither indentation nor descriptions are seen by a reader of types. -/

namespace ApiTypings

namespace TypeToken

/-- White space. -/
def Blank (cs : List Char) : Prop := ∀ c ∈ cs, isSpace c

theorem Blank.append {cs ds : List Char} (hc : Blank cs) (hd : Blank ds) : Blank (cs ++ ds) :=
  fun c h => (List.mem_append.mp h).elim (hc c) (hd c)

theorem eq_of_isSpace {c : Char} (h : isSpace c) : c = ' ' ∨ c = '\n' ∨ c = '\t' ∨ c = '\r' := by
  simpa [isSpace, or_assoc] using h

theorem isSpace_eq_false {c : Char} (h : isNameChar c) : isSpace c = false := by
  rw [Bool.eq_false_iff]
  intro hs
  rcases eq_of_isSpace hs with rfl | rfl | rfl | rfl <;> exact absurd h (by decide)

namespace Place

/-! ## Pieces of text -/

/-- Read from the first place, the characters are these tokens and end at the second place. -/
def Reads (p : Place) (ts : List TypeToken) (q : Place) (cs : List Char) : Prop :=
  ∀ rest, p.tokens (cs ++ rest) = ts ++ q.tokens rest

section
variable {p q r : Place} {ts us : List TypeToken} {cs ds : List Char}

theorem reads_nil (p : Place) : Reads p [] p [] := fun _ => rfl

theorem Reads.append (hc : Reads p ts q cs) (hd : Reads q us r ds) :
    Reads p (ts ++ us) r (cs ++ ds) := by
  intro rest
  rw [List.append_assoc, hc, hd, List.append_assoc]

theorem Reads.cons {c : Char} (hc : p.step c = (ts, q)) (hd : Reads q us r ds) :
    Reads p (ts ++ us) r (c :: ds) := by
  intro rest
  rw [List.cons_append, tokens, hc, hd, List.append_assoc]

theorem reads_stay (h : ∀ c ∈ cs, p.step c = ([], p)) : Reads p [] p cs := by
  induction cs with
  | nil => exact reads_nil p
  | cons c cs ih =>
    have ⟨hc, hcs⟩ := List.forall_mem_cons.mp h
    exact .cons hc (ih hcs)

theorem reads_blank (h : Blank cs) : Reads between [] between cs :=
  reads_stay fun c hc => if_pos (h c hc)

/-- Within a comment everything is passed over up to an asterisk. -/
theorem reads_comment (h : '*' ∉ cs) : Reads comment [] comment cs := by
  refine reads_stay fun c hc => ?_
  have hne : c ≠ '*' := fun he => h (he ▸ hc)
  simp [step, hne]

/-- May white space stand there? A line begins and ends at such a place. -/
def Rests (p : Place) : Prop := ∀ cs, Blank cs → Reads p [] p cs

theorem rests_between : Rests between := fun _ => reads_blank

theorem rests_comment : Rests comment := by
  refine fun cs hb => reads_comment fun h => ?_
  exact absurd (hb _ h) (by decide)

/-- Behind an asterisk white space goes on with the comment. -/
theorem reads_blank_asterisk (h : Blank cs) (hne : cs ≠ []) : Reads asterisk [] comment cs := by
  cases cs with
  | nil => exact absurd rfl hne
  | cons c cs =>
    have ⟨hc, hcs⟩ := List.forall_mem_cons.mp h
    have hstep : asterisk.step c = ([], comment) := by
      rcases eq_of_isSpace hc with rfl | rfl | rfl | rfl <;> rfl
    exact .cons hstep (rests_comment cs hcs)

end

/-! ## Words -/

theorem reads_word (begun : List Char) {cs : List Char} (h : ∀ c ∈ cs, isNameChar c) :
    Reads (word begun) [] (word (begun ++ cs)) cs := by
  induction cs generalizing begun with
  | nil => simpa using reads_nil _
  | cons c cs ih =>
    have ⟨hc, hcs⟩ := List.forall_mem_cons.mp h
    have hstep : (word begun).step c = ([], word (begun ++ [c])) := if_pos hc
    simpa using Reads.cons hstep (ih _ hcs)

/-- What cannot stand in a name ends the word. -/
theorem tokens_word (begun : List Char) {rest : List Char}
    (h : ∀ c ∈ rest.head?, isNameChar c = false) :
    (word begun).tokens rest = .word (String.ofList begun) :: between.tokens rest := by
  cases rest with
  | nil => rfl
  | cons c rest => simp [tokens, step, h c rfl]

/-- The characters are these tokens, unless what follows goes on with a word. -/
def Leaves (ts : List TypeToken) (cs : List Char) : Prop :=
  ∀ rest, (∀ c ∈ rest.head?, isNameChar c = false) →
    between.tokens (cs ++ rest) = ts ++ between.tokens rest

/-- The characters are these tokens and begin with a sign or a space, which ends a word. -/
inductive Seals (ts : List TypeToken) : List Char → Prop
  | cons {c : Char} {cs : List Char} (hc : isNameChar c = false)
      (h : Reads between ts between (c :: cs)) : Seals ts (c :: cs)

section
variable {ts us : List TypeToken} {cs ds : List Char}

theorem Reads.leaves (h : Reads between ts between cs) : Leaves ts cs := fun rest _ => h rest

theorem Reads.append_leaves (hc : Reads between ts between cs) (hd : Leaves us ds) :
    Leaves (ts ++ us) (cs ++ ds) := by
  intro rest hr
  rw [List.append_assoc, hc, hd rest hr, List.append_assoc]

theorem Leaves.append (hc : Leaves ts cs) (hd : Seals us ds) :
    Reads between (ts ++ us) between (cs ++ ds) := by
  cases hd with
  | cons hn hd =>
    intro rest
    rw [List.append_assoc, hc _ (by simp [hn]), hd, List.append_assoc]

theorem Leaves.tokens_eq (h : Leaves ts cs) : between.tokens cs = ts := by
  simpa [tokens, atEnd] using h [] nofun

theorem leaves_word {name : String} (h : isIdentifier name) :
    Leaves [.word name] name.toList := by
  intro rest hr
  obtain ⟨c, cs, hname, hall⟩ := isNameChar_of_isIdentifier h
  have ⟨hc, hcs⟩ := List.forall_mem_cons.mp hall
  have hstart : between.step c = ([], word [c]) := by
    rw [step, start, isSpace_eq_false hc, if_neg Bool.false_ne_true, if_pos hc]
  have hword : Reads between [] (word (c :: cs)) (c :: cs) := .cons hstart (reads_word [c] hcs)
  rw [hname, hword, tokens_word _ hr, ← hname, String.ofList_toList]
  rfl

end

end Place

end TypeToken

/-! ## Names -/

/-- No sign of an identifier asks for quotes. -/
theorem memberName_of_isIdentifier {name : String} (h : isIdentifier name) :
    Naming.memberName name = name := by
  obtain ⟨c, cs, hname, hall⟩ := isNameChar_of_isIdentifier h
  have hq : ¬Naming.needsQuotes name := by
    rw [Naming.needsQuotes, hname, List.any_eq_true]
    rintro ⟨d, hd, hquote⟩
    simp only [Bool.or_eq_true, beq_iff_eq] at hquote
    rcases hquote with (rfl | rfl) | rfl <;> exact absurd (hall _ hd) (by decide)
  exact if_neg hq

open TypeToken.Place

/-! ## Pieces of code -/

/-- Lines end and are indented with white space only. -/
structure Page.Spaced (page : Page) : Prop where
  newLine_blank : TypeToken.Blank page.newLine.toList
  newLine_ne_nil : page.newLine.toList ≠ []
  tab_blank : TypeToken.Blank page.tab.toList

theorem Page.spaced_empty : Page.empty.Spaced := by
  constructor
  case newLine_blank => simp [Page.empty, TypeToken.Blank, TypeToken.isSpace]
  case newLine_ne_nil => simp [Page.empty]
  case tab_blank => simp [Page.empty, TypeToken.Blank, TypeToken.isSpace]

theorem Page.Spaced.indentation {page : Page} (h : page.Spaced) :
    TypeToken.Blank page.indentation.toList :=
  fun c hc => h.tab_blank c (Page.mem_tab_of_mem_indentation hc)

namespace Code

variable {ε : Type} {a b : Code ε} {P Q R : List Char → Prop}

/-- The code adds a text of this kind to any page, and leaves the level as it is. -/
def Prints (a : Code ε) (P : List Char → Prop) : Prop :=
  ∀ page : Page, page.Spaced → ∃ s : String, a.run page = (page.append s, none) ∧ P s.toList

theorem Prints.imp (h : a.Prints P) (hpq : ∀ cs, P cs → Q cs) : a.Prints Q := by
  intro page hp
  obtain ⟨s, hrun, hs⟩ := h page hp
  exact ⟨s, hrun, hpq _ hs⟩

theorem Prints.append (ha : a.Prints P) (hb : b.Prints Q)
    (h : ∀ cs ds, P cs → Q ds → R (cs ++ ds)) : (a ++ b).Prints R := by
  intro page hp
  obtain ⟨s, hs, hP⟩ := ha page hp
  obtain ⟨t, ht, hQ⟩ := hb (page.append s) ⟨hp.1, hp.2, hp.3⟩
  exact ⟨s ++ t, AddsText.append hs ht, by simpa using h _ _ hP hQ⟩

theorem Prints.nest (h : a.Prints P) : (nest a).Prints P := by
  intro page hp
  obtain ⟨s, hs, hP⟩ := h (page.shift 1) ⟨hp.1, hp.2, hp.3⟩
  exact ⟨s, AddsText.nest hs, hP⟩

theorem prints_text {s : String} : (text s : Code ε).Prints P ↔ P s.toList := by
  constructor
  · intro h
    obtain ⟨t, ht, hP⟩ := h Page.empty Page.spaced_empty
    have hst : s = t := by simpa [run, Page.append, Page.empty] using ht
    exact hst ▸ hP
  · exact fun h page _ => ⟨s, rfl, h⟩

theorem prints_nil (h : P []) : (nil : Code ε).Prints P :=
  fun page _ => ⟨"", by simp [run, Page.append], h⟩

theorem prints_newLine : (newLine : Code ε).Prints fun cs => TypeToken.Blank cs ∧ cs ≠ [] :=
  fun page hp => ⟨page.newLine, rfl, hp.newLine_blank, hp.newLine_ne_nil⟩

theorem prints_indent : (indent : Code ε).Prints TypeToken.Blank :=
  fun page hp => ⟨page.indentation, rfl, hp.indentation⟩

section
variable {p q r : TypeToken.Place} {ts us : List TypeToken}

theorem Prints.reads_append (ha : a.Prints (Reads p ts q)) (hb : b.Prints (Reads q us r)) :
    (a ++ b).Prints (Reads p (ts ++ us) r) :=
  ha.append hb fun _ _ => .append

/-! ## Lines -/

theorem prints_beginLine {s : String} (hp : Rests p) (h : Reads p ts q s.toList) :
    (beginLine s : Code ε).Prints (Reads p ts q) :=
  prints_indent.append (prints_text.mpr h) fun cs _ hc hs => (hp cs hc).append hs

theorem prints_endLine_text {s : String} :
    (endLine s : Code ε).Prints fun cs => ∃ ws, cs = s.toList ++ ws ∧ TypeToken.Blank ws :=
  (prints_text.mpr rfl).append prints_newLine fun _ ds hc hd => ⟨ds, hc ▸ rfl, hd.1⟩

theorem prints_endLine {s : String} (h : Reads p ts q s.toList) (hq : Rests q) :
    (endLine s : Code ε).Prints (Reads p ts q) := by
  refine prints_endLine_text.imp fun cs hc => ?_
  obtain ⟨ws, rfl, hws⟩ := hc
  simpa using h.append (hq ws hws)

/-- A line may end behind an asterisk of a comment. -/
theorem prints_line {s : String} (hp : Rests p) (h : Reads p ts q s.toList)
    (hq : ∀ cs, TypeToken.Blank cs → cs ≠ [] → Reads q [] r cs) :
    (line s : Code ε).Prints (Reads p ts r) := by
  refine (prints_beginLine hp h).append prints_newLine fun cs ds hc hd => ?_
  simpa using hc.append (hq ds hd.1 hd.2)

/-! ## Comments -/

theorem prints_commentLine {s : String} (h : '*' ∉ s.toList) :
    (line (if s.isEmpty then " *" else " * " ++ s) : Code ε).Prints
      (Reads .comment [] .comment) := by
  split
  · exact prints_line rests_comment (q := .asterisk) (fun _ => rfl) fun _ => reads_blank_asterisk
  · have hline : Reads .comment [] .comment (" * " ++ s).toList := by
      have hmargin : Reads .comment [] .comment " * ".toList := fun _ => rfl
      simpa using hmargin.append (reads_comment h)
    exact prints_line rests_comment hline fun cs hb _ => rests_comment cs hb

theorem prints_commentLines {lines : List String} (h : ∀ s ∈ lines, '*' ∉ s.toList) :
    (all (lines.map fun s => line (if s.isEmpty then " *" else " * " ++ s)) : Code ε).Prints
      (Reads .comment [] .comment) := by
  induction lines with
  | nil => exact prints_nil (reads_nil .comment)
  | cons s rest ih =>
    have ⟨hs, hrest⟩ := List.forall_mem_cons.mp h
    exact (prints_commentLine hs).reads_append (ih hrest)

/-- Descriptions say nothing to a reader of types: no text ends the comment that holds it. -/
theorem prints_comment (description : String) :
    (comment description true : Code ε).Prints (Reads .between [] .between) := by
  have hlines : ∀ s ∈ DocComment.lines description, '*' ∉ s.toList := fun _ hs hm =>
    (DocComment.clean_of_mem_lines hs _ hm).1 rfl
  have hclose : Reads .comment [] .between " */".toList := fun _ => rfl
  unfold comment
  split
  · exact prints_nil (reads_nil .between)
  · rename_i single heq
    have hsingle : '*' ∉ single.toList := hlines single (by simp [heq])
    have hopen : Reads .between [] .comment "/** ".toList := fun _ => rfl
    refine prints_line rests_between ?_ fun cs hb _ => rests_between cs hb
    simpa using (hopen.append (reads_comment hsingle)).append hclose
  · have hopen : (line "/**" : Code ε).Prints (Reads .between [] .comment) :=
      prints_line rests_between (q := .asterisk) (fun _ => rfl) fun _ => reads_blank_asterisk
    have hend : (line " */" : Code ε).Prints (Reads .comment [] .between) :=
      prints_line rests_comment hclose fun cs hb _ => rests_between cs hb
    exact (hopen.reads_append (prints_commentLines hlines)).reads_append hend

end

end Code

end ApiTypings
