import ApiTypings.Json.Reader
import ApiTypings.Proofs.StubWriting
import ApiTypings.Proofs.ValueGrammar

/-! # The names of members

A member is written under an identifier or under a string literal. Quotes are put around a name for
the sake of three signs, and nothing is escaped between them, so a member has the name of its
property exactly if that is an identifier, or asks for quotes and stands for itself between them. -/

namespace ApiTypings

/-! ## String literals -/

namespace StringLiteral

open ValueTerm

/-- The character a letter stands for behind a backslash. -/
def escaped? : Char → Option Char
  | '"' => some '"'
  | '\'' => some '\''
  | '\\' => some '\\'
  | 'b' => some '\x08'
  | 'f' => some '\x0c'
  | 'n' => some '\n'
  | 'r' => some '\r'
  | 't' => some '\t'
  | 'v' => some '\x0b'
  | _ => none

/-- Does the character stand for itself behind a backslash? -/
def escapesItself (c : Char) : Bool :=
  (escaped? c).isNone && !c.isDigit && !(c == 'x' || c == 'u') &&
    !(c == '\n' || c == '\r' || c == '\u2028' || c == '\u2029')

/-- A code point in the units of UTF-16. -/
def unitsOfPoint (n : Nat) : List Nat :=
  if n < 0x10000 then [n] else [0xD800 + (n - 0x10000) / 0x400, 0xDC00 + (n - 0x10000) % 0x400]

def units (cs : List Char) : List Nat := cs.flatMap fun c => unitsOfPoint c.toNat

/-- What may stand behind a backslash, with the units it comes to. A zero is left out, which
depends on what follows. -/
inductive Escape : List Char → List Nat → Prop
  | letter {c d : Char} : escaped? c = some d → Escape [c] [d.toNat]
  | itself {c : Char} : escapesItself c → Escape [c] (unitsOfPoint c.toNat)
  | octet {a b : Char} {high low : Nat} : Json.hexDigit? a = some high →
      Json.hexDigit? b = some low → Escape ['x', a, b] [high * 16 + low]
  | unit {a b c d : Char} {n : Nat} : Json.hex4? a b c d = some n → Escape ['u', a, b, c, d] [n]
  | point {digits : List Char} {values : List Nat} {n : Nat} : digits ≠ [] →
      digits.mapM Json.hexDigit? = some values →
      n = values.foldl (fun n digit => n * 16 + digit) 0 → n ≤ 0x10FFFF →
      Escape ('u' :: '\x7b' :: digits ++ ['\x7d']) (unitsOfPoint n)
  /-- The literal goes on in the next line. -/
  | continuation {cs : List Char} :
      cs ∈ [['\n'], ['\r'], ['\r', '\n'], ['\u2028'], ['\u2029']] → Escape cs []

/-- What stands between the quotes of a literal, with the units of its value. -/
inductive Body : List Char → List Nat → Prop
  | nil : Body [] []
  | plain {c : Char} {text : List Char} {value : List Nat} : isStringChar c → Body text value →
      Body (c :: text) (unitsOfPoint c.toNat ++ value)
  | escape {marked text : List Char} {meant value : List Nat} : Escape marked meant →
      Body text value → Body ('\\' :: marked ++ text) (meant ++ value)
  | zero {text : List Char} {value : List Nat} : (∀ c ∈ text.head?, !c.isDigit) →
      Body text value → Body ('\\' :: '0' :: text) (0 :: value)

section
variable {marked text cs : List Char} {meant value : List Nat}

theorem length_unitsOfPoint (n : Nat) :
    1 ≤ (unitsOfPoint n).length ∧ (unitsOfPoint n).length ≤ 2 := by
  unfold unitsOfPoint
  split <;> simp

@[simp] theorem units_cons (c : Char) (cs : List Char) :
    units (c :: cs) = unitsOfPoint c.toNat ++ units cs := rfl

@[simp] theorem units_append (xs ys : List Char) : units (xs ++ ys) = units xs ++ units ys :=
  List.flatMap_append

theorem length_le_units (cs : List Char) : cs.length ≤ (units cs).length := by
  induction cs with
  | nil => exact Nat.le_refl _
  | cons c cs ih =>
    have := (length_unitsOfPoint c.toNat).1
    simp only [units_cons, List.length_append, List.length_cons]
    omega

theorem Escape.length_le (h : Escape marked meant) : meant.length ≤ (units marked).length := by
  have hm := length_le_units marked
  cases h with
  | letter | octet | unit =>
    simp only [List.length_cons, List.length_nil] at hm ⊢
    omega
  | itself => simp
  | @point _ _ n =>
    have := (length_unitsOfPoint n).2
    simp only [List.length_append, List.length_cons] at hm
    omega
  | continuation => exact Nat.zero_le _

theorem Body.length_le (h : Body text value) : value.length ≤ (units text).length := by
  induction h with
  | nil => exact Nat.le_refl _
  | plain _ _ ih =>
    simp only [units_cons, List.length_append]
    omega
  | escape he _ ih =>
    have := he.length_le
    simp only [units_cons, units_append, List.cons_append, List.length_append]
    omega
  | zero _ _ ih =>
    have := (length_unitsOfPoint '0'.toNat).1
    simp only [units_cons, List.length_append, List.length_cons]
    omega

/-- A body that is no longer than its value has no escapes. -/
theorem Body.all_of_length_le (h : Body text value) (hl : (units text).length ≤ value.length) :
    text.all isStringChar := by
  have hslash := (length_unitsOfPoint '\\'.toNat).1
  induction h with
  | nil => rfl
  | plain hc _ ih =>
    simp only [units_cons, List.length_append] at hl
    have hrest := ih (by omega)
    simp [hc, hrest]
  | escape he hb _ =>
    have := he.length_le
    have := hb.length_le
    simp only [units_cons, units_append, List.cons_append, List.length_append] at hl
    omega
  | zero _ hb _ =>
    have := (length_unitsOfPoint '0'.toNat).1
    have := hb.length_le
    simp only [units_cons, List.length_append, List.length_cons] at hl
    omega

theorem body_of_all (h : cs.all isStringChar) : Body cs (units cs) := by
  induction cs with
  | nil => exact .nil
  | cons c cs ih =>
    obtain ⟨hc, hcs⟩ := Bool.and_eq_true_iff.mp h
    exact .plain hc (ih hcs)

/-- Between quotes a text has itself as its value if each of its characters stands for itself. -/
theorem body_units_iff : Body cs (units cs) ↔ cs.all isStringChar :=
  ⟨fun h => h.all_of_length_le (Nat.le_refl _), body_of_all⟩

end

end StringLiteral

/-! ## Identifiers -/

/-- The characters that names are made of. Beyond ASCII it depends on the version of Unicode which
ones are letters. -/
structure NameChars where
  begins : Char → Bool
  continues : Char → Bool
  begins_ascii (c : Char) : c.toNat < 0x80 → begins c = (c.isAlpha || c == '_' || c == '$')
  continues_ascii (c : Char) : c.toNat < 0x80 → continues c = (c.isAlphanum || c == '_' || c == '$')

namespace NameChars

variable (chars : NameChars)

/-- The name is an identifier, with all its characters as they are. -/
def IsName : List Char → Prop
  | [] => False
  | c :: rest => chars.begins c ∧ ∀ d ∈ rest, chars.continues d

/-- The text stands for a member with the name: it is the name, or a literal with this value. -/
def Spells (text name : List Char) : Prop :=
  text = name ∧ chars.IsName name ∨
    ∃ body, text = '"' :: body ++ ['"'] ∧ StringLiteral.Body body (StringLiteral.units name)

variable {chars} {name : String}

theorem continues_of_begins {c : Char} (hc : c.toNat < 0x80) (h : chars.begins c) :
    chars.continues c := by
  rw [chars.begins_ascii c hc] at h
  rw [chars.continues_ascii c hc]
  simp only [Char.isAlphanum, Bool.or_eq_true] at h ⊢
  tauto

theorem not_isName_of_mem {cs : List Char} {c : Char} (hc : c.toNat < 0x80) (hm : c ∈ cs)
    (hn : chars.continues c = false) : ¬ chars.IsName cs := by
  intro h
  cases cs with
  | nil => exact h
  | cons d rest =>
    rcases List.mem_cons.mp hm with rfl | hm
    · have hd := continues_of_begins hc h.1
      rw [hn] at hd
      cases hd
    · exact absurd (h.2 c hm) (by simp [hn])

theorem not_isName_of_needsQuotes (h : Naming.needsQuotes name) : ¬ chars.IsName name.toList := by
  obtain ⟨c, hm, hc⟩ := List.any_eq_true.mp h
  simp only [Bool.or_eq_true, beq_iff_eq] at hc
  rcases hc with (rfl | rfl) | rfl <;>
    exact not_isName_of_mem (by decide) hm (chars.continues_ascii _ (by decide))

/-- Without quotes the name stands for itself. A literal would be longer than its value. -/
theorem spells_self_iff {cs : List Char} : chars.Spells cs cs ↔ chars.IsName cs := by
  constructor
  · intro h
    rcases h with ⟨_, hn⟩ | ⟨body, ht, hb⟩
    · exact hn
    · have hl := hb.length_le
      have hquote := (StringLiteral.length_unitsOfPoint '"'.toNat).1
      rw [ht] at hl
      simp only [StringLiteral.units_cons, StringLiteral.units_append, List.cons_append,
        List.length_append] at hl
      omega
  · exact fun h => .inl ⟨rfl, h⟩

theorem spells_quoted_iff {cs : List Char} :
    chars.Spells ('"' :: cs ++ ['"']) cs ↔ cs.all ValueTerm.isStringChar := by
  rw [← StringLiteral.body_units_iff]
  constructor
  · intro h
    rcases h with ⟨ht, _⟩ | ⟨body, ht, hb⟩
    · have hl := congrArg List.length ht
      simp only [List.length_append, List.length_cons, List.length_nil] at hl
      omega
    · have hbody : cs = body := by simpa using ht
      exact hbody ▸ hb
  · exact fun h => .inr ⟨cs, rfl, h⟩

theorem spells_memberName_iff :
    chars.Spells (Naming.memberName name).toList name.toList ↔
      chars.IsName name.toList ∨
        Naming.needsQuotes name ∧ name.toList.all ValueTerm.isStringChar := by
  by_cases hq : Naming.needsQuotes name
  · have htext : (Naming.memberName name).toList = '"' :: name.toList ++ ['"'] := by
      simp [Naming.memberName, hq]
    have hn : ¬ chars.IsName name.toList := not_isName_of_needsQuotes hq
    rw [htext, spells_quoted_iff]
    simp [hq, hn]
  · rw [Naming.memberName, if_neg hq, spells_self_iff]
    simp [hq]

end NameChars

/-! ## Members in the text -/

namespace Page

/-- A member on a line of its own, with its name and the text of its value. -/
def member (page : Page) (name text : String) : String :=
  page.newLine ++ page.indentation ++ Naming.memberName name ++ ": " ++ text ++ ","

end Page

namespace Code

variable {ε : Type}

/-- A property is written from its name on, unless it is refused. -/
theorem property_starts (name : String) {type : Operand ε} (required : Bool) (page : Page)
    (h : ∀ asType asProperty, type ≠ .unwritable asType asProperty) :
    ∃ rest, ((property name type required).run page).1.text = page.text ++
      (page.indentation ++ (Naming.memberName name ++ (if required then "" else "?") ++ ": ") ++
        rest) := by
  generalize hhead : Naming.memberName name ++ (if required then "" else "?") ++ ": " = head
  cases type with
  | inline s =>
    refine ⟨s ++ ";" ++ page.newLine, ?_⟩
    have hline := addsText_line (ε := ε) page (head ++ s ++ ";")
    rw [property, hhead, hline]
    simp [Page.append, String.append_assoc]
  | block code =>
    have hbegin := addsText_beginLine (ε := ε) page head
    obtain ⟨rest, hrest⟩ := (code ++ endLine ";").exists_text_of_run (page.append _)
    refine ⟨rest, ?_⟩
    rw [property, hhead, run_assoc, run_append hbegin, hrest]
    simp [Page.append, String.append_assoc]
  | unwritable asType asProperty => exact absurd rfl (h asType asProperty)

end Code

namespace Stub

open Synthesis

namespace Value

mutual

theorem adds_code {ε : Type} : ∀ value : Value, (value.code : Code ε).Adds
  | .undefined => Code.adds_text _
  | .literal _ => Code.adds_text _
  | .array item =>
    Code.adds_scope ((Code.adds_newLine.append (Code.adds_beginLine _)).append item.adds_code) _ _
  | .object members => Code.adds_scope (adds_membersCode members) _ _
  | .entry value =>
    Code.adds_scope ((Code.adds_newLine.append (Code.adds_beginLine _)).append value.adds_code) _ _

theorem adds_membersCode {ε : Type} :
    ∀ members : List (String × Value), (membersCode members : Code ε).Adds
  | [] => Code.adds_nil
  | (_, value) :: rest =>
    ((Code.adds_newLine.append (Code.adds_beginLine _)).append
      (value.adds_code.append (Code.adds_text _))).append (adds_membersCode rest)

end

/-- Each member begins on a line of its own, with its name. -/
theorem addsText_membersCode {ε : Type} (members : Entries Value) (page : Page) :
    ∃ texts : Entries String, Entries.keys texts = Entries.keys members ∧
      (membersCode members : Code ε).AddsText page
        (String.join (texts.map fun (name, text) => page.member name text)) := by
  induction members generalizing page with
  | nil => exact ⟨[], rfl, Code.addsText_nil page⟩
  | cons member rest ih =>
    obtain ⟨name, value⟩ := member
    have hhead : (Code.beginNewLine (Naming.memberName name ++ ": ") : Code ε).AddsText page
        (page.newLine ++ (page.indentation ++ (Naming.memberName name ++ ": "))) :=
      Code.AddsText.append (a := Code.newLine) rfl (Code.addsText_beginLine _ _)
    obtain ⟨text, htext⟩ := value.adds_code (ε := ε) (page.append _)
    have hmember := hhead.append (Code.AddsText.append htext (b := .text ",") rfl)
    obtain ⟨texts, hkeys, htexts⟩ := ih (page.append _)
    refine ⟨(name, text) :: texts, congrArg (name :: ·) hkeys, ?_⟩
    have hall := hmember.append htexts
    simp only [Page.indentation_append, Page.newLine_append, Page.member, ← String.append_assoc,
      List.map_cons, String.join_cons] at hall ⊢
    exact hall

end Value

/-- The properties of a schema are written one after another, each from its name on. -/
theorem writeProperties_text {table : SchemaTable} {properties : Entries Schema}
    {session after : Session} (h : writeProperties table properties session = some (after, none)) :
    ∃ texts : Entries String,
      Entries.keys texts = Entries.keys (Entries.sortByKey properties) ∧
      after.page.text = session.page.text ++
        String.join (texts.map fun (name, text) => session.page.member name text) := by
  have hw := writes_properties table properties session rfl
  cases hc : Entries.collect ((Entries.sortByKey properties).mapValues
      (expand table session.guard.names)) with
  | error fault =>
    rw [hc] at hw
    obtain ⟨page, hw⟩ := hw
    rw [h] at hw
    cases hw
  | ok values =>
    rw [hc] at hw
    obtain ⟨page, hrun, hw⟩ := hw
    rw [h] at hw
    cases hw
    obtain ⟨texts, hkeys, htexts⟩ :=
      Value.addsText_membersCode (ε := RenderFault) values session.page
    have hnames := (Entries.collect_mapValues_eq_ok_iff.mp hc).keys_eq
    refine ⟨texts, hkeys.trans hnames.symm, ?_⟩
    have hpage := hrun.symm.trans htexts
    cases hpage
    rfl

end Stub

namespace NameChars

open Stub

/-- The name of a member is legal and means the property exactly if that is an identifier, or asks
for quotes and has nothing to escape; and it stands first in what is written for a property, and in
the text of each member of an example value. -/
theorem members_spell_iff {ε : Type} (chars : NameChars) :
    (∀ name : String, chars.Spells (Naming.memberName name).toList name.toList ↔
      chars.IsName name.toList ∨
        Naming.needsQuotes name ∧ name.toList.all ValueTerm.isStringChar) ∧
    (∀ (name : String) (type : Operand ε) (required : Bool) (page : Page),
      (∀ asType asProperty, type ≠ .unwritable asType asProperty) →
      ∃ rest, ((Code.property name type required).run page).1.text = page.text ++
        (page.indentation ++ (Naming.memberName name ++ (if required then "" else "?") ++ ": ") ++
          rest)) ∧
    ∀ (table : SchemaTable) (properties : Entries Schema) (session after : Session),
      writeProperties table properties session = some (after, none) →
      ∃ texts : Entries String,
        Entries.keys texts = Entries.keys (Entries.sortByKey properties) ∧
        after.page.text = session.page.text ++
          String.join (texts.map fun (name, text) => session.page.member name text) := by
  refine ⟨?_, ?_, ?_⟩
  · intro name
    exact spells_memberName_iff
  · intro name type required page h
    exact Code.property_starts name required page h
  · intro table properties session after h
    exact writeProperties_text h

/-- Only the letters of ASCII. -/
def ascii : NameChars where
  begins c := c.isAlpha || c == '_' || c == '$'
  continues c := c.isAlphanum || c == '_' || c == '$'
  begins_ascii _ _ := rfl
  continues_ascii _ _ := rfl

theorem hyphen_spelled :
    ascii.Spells (Naming.memberName "x-goog").toList "x-goog".toList ∧
    (∃ rest, ((Code.property "x-goog" (.inline "string" : Operand Empty) false).run .empty).1.text =
      "\"x-goog\"?: " ++ rest) ∧
    ∃ after text, writeProperties [] [("x-goog", { Schema.blank with type := some "any" })]
        ⟨.empty, ⟨[]⟩⟩ = some (after, none) ∧
      after.page.text = "\n\"x-goog\": " ++ text ++ "," := by
  obtain ⟨hspells, hproperty, hmembers⟩ := members_spell_iff (ε := Empty) ascii
  have hname : Naming.memberName "x-goog" = "\"x-goog\"" := by decide
  have hspelled := (hspells "x-goog").mpr (.inr (by decide))
  obtain ⟨rest, hrest⟩ := hproperty "x-goog" (.inline "string") false .empty nofun
  obtain ⟨after, hw⟩ : ∃ after, writeProperties [] [("x-goog", { Schema.blank with
      type := some "any" })] ⟨.empty, ⟨[]⟩⟩ = some (after, none) := ⟨_, rfl⟩
  obtain ⟨texts, hkeys, htext⟩ := hmembers _ _ _ _ hw
  obtain ⟨text, rfl⟩ : ∃ text, texts = [("x-goog", text)] := by
    match texts, hkeys with
    | [(_, text)], rfl => exact ⟨text, rfl⟩
  have hmargin : Page.empty.indentation = "" := rfl
  refine ⟨hspelled, ⟨rest, ?_⟩, after, text, hw, ?_⟩
  · rw [hrest, hname, hmargin]
    simp [Page.empty]
  · rw [htext]
    simp only [Page.member, hname, hmargin, List.map_cons, List.map_nil, String.join_cons]
    simp [Page.empty]

theorem space_not_spelled :
    ¬ ∃ chars : NameChars,
      chars.Spells (Naming.memberName "my name").toList "my name".toList := by
  intro h
  obtain ⟨chars, h⟩ := h
  have hspace : ¬ chars.IsName "my name".toList :=
    not_isName_of_mem (c := ' ') (by decide) (by decide) (chars.continues_ascii _ (by decide))
  rcases spells_memberName_iff.mp h with hname | hquoted
  · exact hspace hname
  · exact absurd hquoted (by decide)

end NameChars

end ApiTypings
