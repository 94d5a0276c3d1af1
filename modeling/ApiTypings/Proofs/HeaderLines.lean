import ApiTypings.Declarations
import ApiTypings.Proofs.CommentBlocks
import ApiTypings.Proofs.ReorderedDescription

/-! # The lines of the header

A declaration file begins with line comments, in which texts of the description, the source and the
options are shown as they are. A text with line ends goes on below its comment, so the lines of the
header are comments exactly if each shown text sees to it itself. -/

namespace ApiTypings

namespace DocComment

/-! ## Line comments -/

/-- The line is empty or a comment. -/
def Commented (line : List Char) : Prop := line = [] ∨ "//".toList <+: line

instance (line : List Char) : Decidable (Commented line) :=
  inferInstanceAs (Decidable (line = [] ∨ "//".toList <+: line))

/-- The first line of the text does not count. -/
def StaysCommented (cs : List Char) : Prop := ∀ line ∈ (codeLines cs).tail, Commented line

instance (cs : List Char) : Decidable (StaysCommented cs) :=
  inferInstanceAs (Decidable (∀ line ∈ (codeLines cs).tail, Commented line))

section
variable {label cs : List Char}

/-- A label goes in front of the first line. -/
theorem codeLines_append (h : OneLine label) (cs : List Char) :
    codeLines (label ++ cs) = (codeLines cs).modifyHead (label ++ ·) := by
  unfold codeLines
  induction label with
  | nil =>
    rw [List.nil_append]
    cases cs.splitOnP endsCodeLine <;> rfl
  | cons c label ih =>
    obtain ⟨hc, hlabel⟩ := List.forall_mem_cons.mp h
    rw [List.cons_append, List.splitOnP_cons_eq_if_modifyHead, if_neg (by simp [hc]), ih hlabel,
      List.modifyHead_modifyHead]
    rfl

/-- Rows that are ended by line feeds make their lines one after another. -/
theorem codeLines_rows_append (rows : List (List Char)) (last : List Char) :
    codeLines (block [] rows ++ last) = rows.flatMap codeLines ++ codeLines last := by
  induction rows with
  | nil => rfl
  | cons row rows ih =>
    have hsplit : block [] (row :: rows) ++ last = row ++ '\n' :: (block [] rows ++ last) := by
      simp [block]
    rw [hsplit, codeLines, List.splitOnP_append_cons _ _ (by decide), List.flatMap_cons,
      List.append_assoc]
    exact congrArg _ ih

theorem commented_append_iff (h : OneLine label) (hm : "//".toList <+: label) :
    (∀ line ∈ codeLines (label ++ cs), Commented line) ↔ StaysCommented cs := by
  rw [codeLines_append h, StaysCommented]
  cases codeLines cs with
  | nil => simp
  | cons first rest =>
    have hfirst : Commented (label ++ first) := .inr (hm.trans (List.prefix_append ..))
    simp [hfirst]

theorem commented_of_oneLine (h : OneLine cs) (hc : Commented cs) :
    ∀ line ∈ codeLines cs, Commented line := by
  rw [codeLines, List.splitOnP_eq_singleton h]
  simpa using hc

end

end DocComment

namespace Declarations

open DocComment

/-- The texts that the header shows. -/
def shownTexts (api : Description) (options : DeclarationOptions) : List String :=
  " ".intercalate (packageWords api) :: api.documentationLink.getD "" :: options.authors ++
    [options.typescriptVersion, options.sourceUrl]

/-- Are all lines of the text comments? -/
def AllCommented (s : String) : Prop := ∀ line ∈ codeLines s.toList, Commented line

theorem allCommented_label_iff (label : String) (h : OneLine label.toList)
    (hm : "//".toList <+: label.toList) (shown : String) :
    AllCommented (label ++ shown) ↔ StaysCommented shown.toList := by
  rw [AllCommented, String.toList_append, commented_append_iff h hm]

theorem allCommented_authorLines_iff (authors : List String) :
    (∀ s ∈ authorLines authors, AllCommented s) ↔
      ∀ author ∈ authors, StaysCommented author.toList := by
  have hfirst := allCommented_label_iff "// Definitions by: " (by decide) (by decide)
  have hother := allCommented_label_iff "//                 " (by decide) (by decide)
  cases authors with
  | nil => simp [authorLines]
  | cons first rest =>
    simp only [authorLines, List.forall_mem_cons, List.forall_mem_map, hfirst, hother]

theorem allCommented_headerLines_iff (api : Description) (options : DeclarationOptions) :
    (∀ s ∈ headerLines api options, AllCommented s) ↔
      ∀ shown ∈ shownTexts api options, StaysCommented shown.toList := by
  have hpackage := allCommented_label_iff "// Type definitions for non-npm package " (by decide)
    (by decide)
  have hproject := allCommented_label_iff "// Project: " (by decide) (by decide)
  have hversion := allCommented_label_iff "// TypeScript Version: " (by decide) (by decide)
  have hsource := allCommented_label_iff "// Generated from: " (by decide) (by decide)
  have hfixed (s : String) (h : OneLine s.toList ∧ Commented s.toList) : AllCommented s :=
    commented_of_oneLine h.1 h.2
  have hdefinitions := hfixed "// Definitions: https://github.com/DefinitelyTyped/DefinitelyTyped"
    (by decide)
  have hempty := hfixed "" (by decide)
  have himportant := hfixed "// IMPORTANT" (by decide)
  have hclient := (allCommented_label_iff
    "// These definitions are for the Google API Javascript Client: " (by decide) (by decide)
    "https://github.com/google/google-api-javascript-client").mpr (by decide)
  have hgenerated := hfixed
    "// This file was generated by discotyper. Please do not edit it manually." (by decide)
  simp only [headerLines, shownTexts, List.cons_append, List.forall_mem_append,
    List.forall_mem_cons, List.not_mem_nil, IsEmpty.forall_iff, implies_true, true_and, and_true,
    allCommented_authorLines_iff, hpackage, hproject, hversion, hsource, hdefinitions,
    hempty, himportant, hclient, hgenerated]

/-! ## The header in the file -/

/-- The line below the header. -/
def referenceLine : String := "/// <reference types=\"gapi.client\" />"

theorem file_starts {ε : Type} {api : Description} {options : DeclarationOptions} {code : Code ε}
    (h : file api options = .ok code) :
    ∃ rest : Code ε, code = header api options ++ Code.line referenceLine ++ rest := by
  obtain ⟨schemas, -, h⟩ := Outcomes.bind_eq_ok_iff.mp h
  obtain ⟨resources, -, h⟩ := Outcomes.bind_eq_ok_iff.mp h
  cases h
  exact ⟨_, rfl⟩

/-- The header and the line below it. -/
def firstRows (api : Description) (options : DeclarationOptions) : List String :=
  headerLines api options ++ [referenceLine]

theorem addsText_firstRows {ε : Type} (api : Description) (options : DeclarationOptions)
    (page : Page) :
    (header api options ++ .line referenceLine : Code ε).AddsText page (String.join
      ((firstRows api options).map fun s => page.indentation ++ s ++ page.newLine)) := by
  have hlast := Code.same_all_singleton (Code.line (ε := ε) referenceLine)
  have hrows : Code.Same (header api options ++ .line referenceLine : Code ε)
      (.all ((firstRows api options).map .line)) := by
    rw [firstRows, List.map_append]
    exact ((Code.Same.refl _).append hlast.symm).trans (Code.same_all_append _ _).symm
  exact (hrows page).trans (Code.addsText_lines page _)

/-- The file begins with the rows of the header and the line below it. -/
theorem toList_render {api : Description} {options : DeclarationOptions} {text : String}
    (h : render api options = .ok text) :
    ∃ rest, text.toList = block [] ((firstRows api options).map String.toList) ++ rest := by
  obtain ⟨code, hf, hcode⟩ := Outcomes.bind_eq_ok_iff.mp h
  cases hcode
  obtain ⟨code, rfl⟩ := file_starts hf
  have hrows := addsText_firstRows (ε := Empty) api options .empty
  obtain ⟨rest, hrest⟩ := code.exists_text_of_run (Page.empty.append _)
  have hmargin : Page.empty.indentation.toList = [] := rfl
  refine ⟨rest.toList, ?_⟩
  rw [Code.run_append hrows, hrest, String.toList_append, Page.append, String.toList_append,
    Code.toList_join_rows rfl, hmargin]
  rfl

/-- The lines of the header, as they stand in the file. -/
def linesAbove (api : Description) (options : DeclarationOptions) : List (List Char) :=
  (headerLines api options).flatMap fun s => codeLines s.toList

theorem codeLines_render {api : Description} {options : DeclarationOptions} {text : String}
    (h : render api options = .ok text) :
    ∃ below, codeLines text.toList =
      linesAbove api options ++ referenceLine.toList :: below := by
  obtain ⟨rest, hrest⟩ := toList_render h
  have hline : codeLines referenceLine.toList = [referenceLine.toList] := by decide
  refine ⟨codeLines rest, ?_⟩
  rw [hrest, codeLines_rows_append, List.flatMap_map, firstRows, List.flatMap_append,
    List.flatMap_singleton, hline, List.append_assoc]
  rfl

/-- The header is written line by line above the reference, and stays a comment exactly if every
text it shows does. -/
theorem header_commented_iff {api : Description} {options : DeclarationOptions} {text : String}
    (h : render api options = .ok text) :
    ∃ below, codeLines text.toList = linesAbove api options ++ referenceLine.toList :: below ∧
      ((∀ line ∈ linesAbove api options, Commented line) ↔
        ∀ shown ∈ shownTexts api options, StaysCommented shown.toList) := by
  obtain ⟨below, hbelow⟩ := codeLines_render h
  refine ⟨below, hbelow, ?_⟩
  rw [← allCommented_headerLines_iff, linesAbove, List.forall_mem_flatMap]
  rfl

end Declarations

/-! Titles that take two lines. -/

namespace TwoLines

open Declarations DocComment

def api (title : String) : Description :=
  { Description.blank "drive" "v1" with title := some title }

def options : DeclarationOptions := ⟨"https://drive.example/rest", ["A. Author"], "4.1", []⟩

theorem renders (title : String) : ∃ text, render (api title) options = .ok text := ⟨_, rfl⟩

theorem second_line_commented :
    ∃ text below, render (api "Drive\n// and files") options = .ok text ∧
      codeLines text.toList = linesAbove (api "Drive\n// and files") options ++
        referenceLine.toList :: below ∧
      "// and files v1 1.0".toList ∈ linesAbove (api "Drive\n// and files") options ∧
      ∀ line ∈ linesAbove (api "Drive\n// and files") options, Commented line := by
  obtain ⟨text, h⟩ := renders "Drive\n// and files"
  obtain ⟨below, hbelow, hiff⟩ := header_commented_iff h
  exact ⟨text, below, h, hbelow, by decide, hiff.mpr (by decide)⟩

theorem second_line_bare :
    ∃ text rest, render (api "Drive\nAPI") options = .ok text ∧
      codeLines text.toList = "// Type definitions for non-npm package Drive".toList ::
        "API v1 1.0".toList :: rest ∧
      referenceLine.toList ∈ rest ∧ ¬ Commented "API v1 1.0".toList := by
  obtain ⟨text, h⟩ := renders "Drive\nAPI"
  obtain ⟨below, hbelow⟩ := codeLines_render h
  have hpackage : codeLines ("// Type definitions for non-npm package " ++
      " ".intercalate (packageWords (api "Drive\nAPI"))).toList =
      ["// Type definitions for non-npm package Drive".toList, "API v1 1.0".toList] := by
    decide
  rw [linesAbove, headerLines, List.cons_append, List.cons_append, List.flatMap_cons, hpackage,
    List.append_assoc, List.cons_append, List.cons_append, List.nil_append] at hbelow
  refine ⟨text, _, h, hbelow, ?_, by decide⟩
  exact List.mem_append_right _ (List.mem_cons_self ..)

end TwoLines

end ApiTypings
