import ApiTypings.Json.Reader
import Mathlib.Data.List.TakeWhile

/-! # Texts of JSON values

A text of a value is put together from those of its parts, with brackets around them, commas behind
them and blanks wherever a line may be broken or indented. Whatever the blanks, it is read as the
value of the whole. Numbers are left out, and so are strings that need escapes. -/

namespace ApiTypings.Json

/-- Blanks between the parts of a text. -/
structure Gap where
  chars : List Char
  blank : chars.all isSpace = true

namespace Gap

def none : Gap := ⟨[], rfl⟩

def space : Gap := ⟨[' '], rfl⟩

/-- A new line and the blanks that it starts with. -/
def line (indent : Nat) : Gap :=
  ⟨'\n' :: List.replicate indent ' ', by simp [isSpace]⟩

theorem isSpace_of_mem (gap : Gap) : ∀ c ∈ gap.chars, isSpace c = true :=
  List.all_eq_true.mp gap.blank

end Gap

/-- Does the character stand for itself between quotes? -/
def isPlain (c : Char) : Bool := c != '"' && c != '\\' && 0x20 ≤ c.toNat

/-- A string that is written without escapes. -/
structure PlainText where
  content : String
  plain : content.toList.all isPlain = true

def PlainText.text (s : PlainText) : List Char := '"' :: (s.content.toList ++ ['"'])

mutual

/-- A value as it is laid out. -/
inductive Layout where
  | null
  | bool (value : Bool)
  | string (content : PlainText)
  | noItems (inside : Gap)
  | array (before : Gap) (items : Items)
  | noMembers (inside : Gap)
  | object (before : Gap) (members : Members)

/-- Items up to the closing bracket. -/
inductive Items where
  | last (item : Layout) (after : Gap)
  | cons (item : Layout) (next : Gap) (rest : Items)

/-- Members up to the closing brace. -/
inductive Members where
  | last (name : PlainText) (before : Gap) (value : Layout) (after : Gap)
  | cons (name : PlainText) (before : Gap) (value : Layout) (next : Gap) (rest : Members)

end

mutual

def Layout.text : Layout → List Char
  | .null => "null".toList
  | .bool value => (if value then "true" else "false").toList
  | .string s => s.text
  | .noItems inside => '[' :: (inside.chars ++ [']'])
  | .array before items => '[' :: (before.chars ++ items.text)
  | .noMembers inside => '{' :: (inside.chars ++ ['}'])
  | .object before members => '{' :: (before.chars ++ members.text)

def Items.text : Items → List Char
  | .last item after => item.text ++ (after.chars ++ [']'])
  | .cons item next rest => item.text ++ ',' :: (next.chars ++ rest.text)

def Members.text : Members → List Char
  | .last name before value after =>
    name.text ++ ':' :: (before.chars ++ (value.text ++ (after.chars ++ ['}'])))
  | .cons name before value next rest =>
    name.text ++ ':' :: (before.chars ++ (value.text ++ ',' :: (next.chars ++ rest.text)))

end

mutual

def Layout.value : Layout → Json
  | .null => .null
  | .bool value => .bool value
  | .string s => .string s.content
  | .noItems _ => .array []
  | .array _ items => .array items.values
  | .noMembers _ => .object []
  | .object _ members => .object (Entries.ofList members.fields)

def Items.values : Items → List Json
  | .last item _ => [item.value]
  | .cons item _ rest => item.value :: rest.values

def Members.fields : Members → List (String × Json)
  | .last name _ value _ => [(name.content, value.value)]
  | .cons name _ value _ rest => (name.content, value.value) :: rest.fields

end

/-! ## Blanks and strings -/

variable {cs rest : List Char} {position : Nat}

/-- The text begins with neither a blank, nor a sign that closes a list, nor a byte order mark. -/
def Opens (cs : List Char) : Prop :=
  ∃ c rest, cs = c :: rest ∧ isSpace c = false ∧ c ∉ [']', '}', '\ufeff']

theorem Opens.append (h : Opens cs) (rest : List Char) : Opens (cs ++ rest) := by
  obtain ⟨c, cs, rfl, hc⟩ := h
  exact ⟨c, cs ++ rest, rfl, hc⟩

theorem Opens.length_pos (h : Opens cs) : 0 < cs.length := by
  obtain ⟨c, cs, rfl, _⟩ := h
  exact Nat.succ_pos _

theorem opens_cons {c : Char} (h : isSpace c = false ∧ c ∉ [']', '}', '\ufeff']) :
    Opens (c :: rest) := ⟨c, rest, rfl, h⟩

/-- Blanks are skipped up to a character that is none. -/
theorem skipSpace_gap {c : Char} (gap : Gap) (hc : isSpace c = false) :
    (⟨gap.chars ++ c :: rest, position⟩ : Cursor).skipSpace =
      ⟨c :: rest, position + gap.chars.length⟩ := by
  rw [Cursor.skipSpace, Cursor.advance, List.takeWhile_append_of_pos gap.isSpace_of_mem,
    List.takeWhile_cons_of_neg (by simp [hc]), List.append_nil, List.drop_left]

theorem skipSpace_end (gap : Gap) : (⟨gap.chars, position⟩ : Cursor).skipSpace =
    ⟨[], position + gap.chars.length⟩ := by
  rw [Cursor.skipSpace, Cursor.advance, List.takeWhile_eq_self_iff.mpr gap.isSpace_of_mem,
    List.drop_length]

theorem skipSpace_cons {c : Char} (hc : isSpace c = false) :
    (⟨c :: rest, position⟩ : Cursor).skipSpace = ⟨c :: rest, position⟩ :=
  skipSpace_gap .none hc

theorem Opens.skipSpace (h : Opens cs) (gap : Gap) :
    (⟨gap.chars ++ cs, position⟩ : Cursor).skipSpace = ⟨cs, position + gap.chars.length⟩ := by
  obtain ⟨c, cs, rfl, hc, _⟩ := h
  exact skipSpace_gap gap hc

theorem readString_plain (h : cs.all isPlain = true) (opening : Nat) (read : List Char)
    (position : Nat) : readString opening read (cs ++ '"' :: rest) position =
      .ok (String.ofList (read.reverse ++ cs), ⟨rest, position + (cs.length + 1)⟩) := by
  induction cs generalizing read position with
  | nil => simp [readString]
  | cons c cs ih =>
    obtain ⟨hc, hcs⟩ := Bool.and_eq_true_iff.mp (List.all_cons.symm.trans h)
    simp only [isPlain, Bool.and_eq_true, bne_iff_ne, decide_eq_true_eq] at hc
    obtain ⟨⟨hquote, hslash⟩, hcontrol⟩ := hc
    rw [List.cons_append, readString, if_neg (Nat.not_lt.mpr hcontrol), ih hcs]
    · simp only [List.reverse_cons, List.append_assoc, List.singleton_append, List.length_cons]
      rw [Nat.add_assoc, Nat.add_comm 1]
    · exact hquote
    · exact fun he => absurd he hslash
    · exact fun _ he => absurd he hslash
    · exact fun _ _ he => absurd he hslash

namespace PlainText

variable (s : PlainText)

theorem text_append (rest : List Char) :
    s.text ++ rest = '"' :: (s.content.toList ++ '"' :: rest) := by
  simp [text]

theorem readString_text (opening : Nat) :
    readString opening [] (s.content.toList ++ '"' :: rest) (position + 1) =
      .ok (s.content, ⟨rest, position + s.text.length⟩) := by
  rw [readString_plain s.plain]
  simp [text, Nat.add_assoc, Nat.add_comm, Nat.add_left_comm]

end PlainText

/-! ## Steps of the reader -/

section

variable {ds : List Char} {fuel stop : Nat} {value : Json} {read : List Json}
  {fields : List (String × Json)}

theorem advance_cons (c : Char) (cs : List Char) (position : Nat) :
    (⟨c :: cs, position⟩ : Cursor).advance 1 = ⟨cs, position + 1⟩ := rfl

theorem readValue_string (s : PlainText) :
    readValue (fuel + 1) ⟨s.text ++ rest, position⟩ =
      .ok (.string s.content, ⟨rest, position + s.text.length⟩) := by
  rw [s.text_append, readValue]
  simp only [s.readString_text]
  rfl

theorem readValue_noItems (inside : Gap) :
    readValue (fuel + 1) ⟨'[' :: (inside.chars ++ ']' :: rest), position⟩ =
      .ok (.array [], ⟨rest, position + 1 + inside.chars.length + 1⟩) := by
  rw [readValue]
  simp only [advance_cons]
  rw [skipSpace_gap inside (by decide)]
  rfl

theorem readValue_noMembers (inside : Gap) :
    readValue (fuel + 1) ⟨'{' :: (inside.chars ++ '}' :: rest), position⟩ =
      .ok (.object [], ⟨rest, position + 1 + inside.chars.length + 1⟩) := by
  rw [readValue]
  simp only [advance_cons]
  rw [skipSpace_gap inside (by decide)]
  rfl

theorem readValue_array (before : Gap) (h : Opens cs) :
    readValue (fuel + 1) ⟨'[' :: (before.chars ++ cs), position⟩ =
      readItems fuel [] ⟨cs, position + 1 + before.chars.length⟩ := by
  rw [readValue]
  simp only [advance_cons, h.skipSpace]
  obtain ⟨c, rest, rfl, _, hc⟩ := h
  have hne : c ≠ ']' := fun he => hc (he ▸ .head _)
  simp [hne]

theorem readValue_object (before : Gap) (h : Opens cs) :
    readValue (fuel + 1) ⟨'{' :: (before.chars ++ cs), position⟩ =
      readMembers fuel [] ⟨cs, position + 1 + before.chars.length⟩ := by
  rw [readValue]
  simp only [advance_cons, h.skipSpace]
  obtain ⟨c, rest, rfl, _, hc⟩ := h
  have hne : c ≠ '}' := fun he => hc (he ▸ .tail _ (.head _))
  simp [hne]

theorem readItems_last (after : Gap)
    (h : readValue fuel ⟨cs, position⟩ = .ok (value, ⟨after.chars ++ ']' :: rest, stop⟩)) :
    readItems (fuel + 1) read ⟨cs, position⟩ =
      .ok (.array (value :: read).reverse, ⟨rest, stop + after.chars.length + 1⟩) := by
  rw [readItems, h]
  simp only [bind, Except.bind]
  rw [skipSpace_gap after (by decide)]
  rfl

theorem readItems_cons (next : Gap) (hd : Opens ds)
    (h : readValue fuel ⟨cs, position⟩ = .ok (value, ⟨',' :: (next.chars ++ ds), stop⟩)) :
    readItems (fuel + 1) read ⟨cs, position⟩ =
      readItems fuel (value :: read) ⟨ds, stop + 1 + next.chars.length⟩ := by
  rw [readItems, h]
  simp only [bind, Except.bind]
  rw [skipSpace_cons (by decide)]
  simp only [advance_cons, hd.skipSpace]

theorem readMembers_last (name : PlainText) (before after : Gap) (hc : Opens cs)
    (h : readValue fuel ⟨cs, position + name.text.length + 1 + before.chars.length⟩ =
      .ok (value, ⟨after.chars ++ '}' :: rest, stop⟩)) :
    readMembers (fuel + 1) fields ⟨name.text ++ ':' :: (before.chars ++ cs), position⟩ =
      .ok (.object (Entries.ofList ((name.content, value) :: fields).reverse),
        ⟨rest, stop + after.chars.length + 1⟩) := by
  rw [name.text_append, readMembers]
  simp only [name.readString_text, bind, Except.bind]
  rw [skipSpace_cons (by decide)]
  simp only [advance_cons, hc.skipSpace, h]
  rw [skipSpace_gap after (by decide)]
  rfl

theorem readMembers_cons (name : PlainText) (before next : Gap) (hc : Opens cs) (hd : Opens ds)
    (h : readValue fuel ⟨cs, position + name.text.length + 1 + before.chars.length⟩ =
      .ok (value, ⟨',' :: (next.chars ++ ds), stop⟩)) :
    readMembers (fuel + 1) fields ⟨name.text ++ ':' :: (before.chars ++ cs), position⟩ =
      readMembers fuel ((name.content, value) :: fields)
        ⟨ds, stop + 1 + next.chars.length⟩ := by
  rw [name.text_append, readMembers]
  simp only [name.readString_text, bind, Except.bind]
  rw [skipSpace_cons (by decide)]
  simp only [advance_cons, hc.skipSpace, h]
  rw [skipSpace_cons (by decide)]
  simp only [advance_cons, hd.skipSpace]

end

/-! ## Values -/

theorem Layout.opens : (l : Layout) → Opens l.text
  | .null | .bool true | .bool false | .string _ => opens_cons (by decide)
  | .noItems _ | .array .. | .noMembers _ | .object .. => opens_cons (by decide)

theorem Items.opens : (items : Items) → Opens items.text
  | .last item _ | .cons item _ _ => item.opens.append _

theorem Members.opens : (members : Members) → Opens members.text
  | .last .. | .cons .. => opens_cons (by decide)

/-! A bracket, an item and a member take one step of the reader each, and have at least one
character that belongs to nothing inside them, so that an allowance of twice the length is enough
for the whole and is still enough for each part. -/

mutual

/-- A text of a value is read as this value, whatever follows it. -/
theorem Layout.readValue_text : (l : Layout) → (fuel position : Nat) → (rest : List Char) →
    2 * l.text.length ≤ fuel →
    readValue fuel ⟨l.text ++ rest, position⟩ = .ok (l.value, ⟨rest, position + l.text.length⟩)
  | l, 0, _, _, h => absurd l.opens.length_pos (by omega)
  | .null, _ + 1, _, _, _ => rfl
  | .bool true, _ + 1, _, _, _ => rfl
  | .bool false, _ + 1, _, _, _ => rfl
  | .string s, _ + 1, _, _, _ => readValue_string s
  | .noItems inside, _ + 1, _, _, _ => by
    rw [Layout.text, List.cons_append, List.append_assoc, List.singleton_append,
      readValue_noItems]
    simp [Layout.value]
    omega
  | .array before items, fuel + 1, position, rest, h => by
    simp only [Layout.text, List.length_cons, List.length_append] at h
    rw [Layout.text, List.cons_append, List.append_assoc,
      readValue_array before (items.opens.append rest),
      items.readItems_text fuel _ [] rest (by omega)]
    simp [Layout.value]
    omega
  | .noMembers inside, _ + 1, _, _, _ => by
    rw [Layout.text, List.cons_append, List.append_assoc, List.singleton_append,
      readValue_noMembers]
    simp [Layout.value]
    omega
  | .object before members, fuel + 1, position, rest, h => by
    simp only [Layout.text, List.length_cons, List.length_append] at h
    rw [Layout.text, List.cons_append, List.append_assoc,
      readValue_object before (members.opens.append rest),
      members.readMembers_text fuel _ [] rest (by omega)]
    simp [Layout.value]
    omega

theorem Items.readItems_text : (items : Items) → (fuel position : Nat) → (read : List Json) →
    (rest : List Char) → 2 * items.text.length ≤ fuel →
    readItems fuel read ⟨items.text ++ rest, position⟩ =
      .ok (.array (read.reverse ++ items.values), ⟨rest, position + items.text.length⟩)
  | items, 0, _, _, _, h => absurd items.opens.length_pos (by omega)
  | .last item after, fuel + 1, position, read, rest, h => by
    simp only [Items.text, List.length_cons, List.length_append] at h
    rw [Items.text, List.append_assoc, List.append_assoc, List.singleton_append,
      readItems_last after (item.readValue_text fuel position _ (by omega))]
    simp [Items.values]
    omega
  | .cons item next items, fuel + 1, position, read, rest, h => by
    simp only [Items.text, List.length_cons, List.length_append] at h
    rw [Items.text, List.append_assoc, List.cons_append, List.append_assoc,
      readItems_cons next (items.opens.append rest)
        (item.readValue_text fuel position _ (by omega)),
      items.readItems_text fuel _ _ rest (by omega)]
    simp [Items.values]
    omega

theorem Members.readMembers_text : (members : Members) → (fuel position : Nat) →
    (read : List (String × Json)) → (rest : List Char) → 2 * members.text.length ≤ fuel →
    readMembers fuel read ⟨members.text ++ rest, position⟩ =
      .ok (.object (Entries.ofList (read.reverse ++ members.fields)),
        ⟨rest, position + members.text.length⟩)
  | members, 0, _, _, _, h => absurd members.opens.length_pos (by omega)
  | .last name before value after, fuel + 1, position, read, rest, h => by
    simp only [Members.text, List.length_cons, List.length_append] at h
    simp only [Members.text, List.append_assoc, List.cons_append, List.nil_append]
    rw [readMembers_last name before after (value.opens.append _)
      (value.readValue_text fuel _ _ (by omega))]
    simp [Members.fields]
    omega
  | .cons name before value next members, fuel + 1, position, read, rest, h => by
    simp only [Members.text, List.length_cons, List.length_append] at h
    simp only [Members.text, List.append_assoc, List.cons_append]
    rw [readMembers_cons name before next (value.opens.append _) (members.opens.append rest)
      (value.readValue_text fuel _ _ (by omega)), members.readMembers_text fuel _ _ rest (by omega)]
    simp [Members.fields]
    omega

end

/-- Blanks may stand around the text of a value. -/
theorem Layout.parse_text (l : Layout) (before after : Gap) :
    parse (before.chars ++ (l.text ++ after.chars)) = .ok l.value := by
  have hopens := l.opens.append after.chars
  unfold parse
  split
  next he =>
    -- The mark would have to be a blank or the first character of the value.
    obtain ⟨c, cs, hc, _, hmark⟩ := hopens
    rw [hc] at he
    cases hb : before.chars with
    | nil =>
      rw [hb] at he
      cases he
      exact absurd (by decide) hmark
    | cons d ds =>
      have hd := before.isSpace_of_mem d (hb ▸ .head _)
      rw [hb] at he
      cases he
      cases hd
  next =>
    dsimp only
    rw [hopens.skipSpace, l.readValue_text _ _ _ (by simp; omega)]
    simp only [bind, Except.bind, skipSpace_end]
    rfl

end ApiTypings.Json
