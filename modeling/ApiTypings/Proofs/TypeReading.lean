import ApiTypings.Proofs.TypedParts
import ApiTypings.Proofs.TypeGrammar
import Mathlib.Logic.Function.Iterate

/-! # What a structural type reads as

A structural type has a term, the type that its text should say, and tokens, the signs and words
that its text is made of. Read by the grammar, the tokens give the term, but for one thing: brackets
behind two alternatives belong to the second. -/

namespace ApiTypings

namespace TypeToken

/-- Pairs of brackets, one behind the other. -/
def brackets : Nat → List TypeToken
  | 0 => []
  | pairs + 1 => leftBracket :: rightBracket :: brackets pairs

end TypeToken

namespace TypeTerm

open TypeToken

/-! ## Terms -/

/-- The type read from the text of a type and a pair of brackets behind it. -/
def suffix : TypeTerm → TypeTerm
  | union first second => union first second.suffix
  | type => array type

def IsUnion : TypeTerm → Prop
  | union _ _ => True
  | _ => False

theorem suffix_eq_array {type : TypeTerm} (h : ¬type.IsUnion) : type.suffix = type.array := by
  cases type with
  | union => exact absurd trivial h
  | name | array | record | object => rfl

theorem suffix_ne_array {type item : TypeTerm} (h : type.IsUnion) : type.suffix ≠ item.array := by
  cases type with
  | union => simp [suffix]
  | name | array | record | object => exact h.elim

theorem isUnion_suffix {type : TypeTerm} : type.suffix.IsUnion ↔ type.IsUnion := by
  cases type <;> exact .rfl

/-- Brackets behind a type that is no union make arrays of it. -/
theorem suffixes_eq_arrays {type : TypeTerm} (h : ¬type.IsUnion) (pairs : Nat) :
    suffix^[pairs] type = array^[pairs] type := by
  induction pairs generalizing type with
  | zero => rfl
  | succ pairs ih =>
    rw [Function.iterate_succ_apply, suffix_eq_array h, ih (by simp [IsUnion])]
    rfl

theorem suffixes_union (first second : TypeTerm) (pairs : Nat) :
    suffix^[pairs] (union first second) = union first (suffix^[pairs] second) := by
  induction pairs generalizing second with
  | zero => rfl
  | succ pairs ih => exact ih second.suffix

/-! ## Reading operands -/

/-- No sign that would go on with the type before it. -/
def EndsType (ts : List TypeToken) : Prop :=
  ∀ t ∈ ts.head?, t ≠ leftBracket ∧ t ≠ bar ∧ t ≠ less

/-- What may follow the first operand. -/
def EndsOperand (ts : List TypeToken) : Prop := ∀ t ∈ ts.head?, t ≠ leftBracket ∧ t ≠ less

theorem EndsType.endsOperand {ts : List TypeToken} (h : EndsType ts) : EndsOperand ts :=
  fun t ht => ⟨(h t ht).1, (h t ht).2.2⟩

theorem readBrackets_brackets (item : TypeTerm) (pairs : Nat) {rest : List TypeToken}
    (h : EndsOperand rest) :
    readBrackets item (brackets pairs ++ rest) = (array^[pairs] item, rest) := by
  induction pairs generalizing item with
  | zero =>
    change readBrackets item rest = (item, rest)
    unfold readBrackets
    split
    · exact absurd rfl (h _ rfl).1
    · rfl
  | succ pairs ih => exact ih item.array

/-- A type that stands alone as an operand, with its brackets. -/
theorem readOperand_brackets {fuel : Nat} (pairs : Nat) {ts rest : List TypeToken} {item : TypeTerm}
    (h : readPrimary fuel ts = some (item, brackets pairs ++ rest)) (hr : EndsOperand rest) :
    readOperand (fuel + 1) ts = some (array^[pairs] item, rest) := by
  simp only [readOperand, h, Option.map_some, readBrackets_brackets item pairs hr]

theorem readType_operand {fuel : Nat} {ts rest : List TypeToken} {type : TypeTerm}
    (h : readOperand fuel ts = some (type, rest)) (hr : EndsType rest) :
    readType (fuel + 1) ts = some (type, rest) := by
  rw [readType, h]
  split
  · rename_i heq
    cases heq
    exact absurd rfl (hr _ rfl).2.1
  · rfl

theorem readType_union {fuel : Nat} {ts rest rest' : List TypeToken} {first second : TypeTerm}
    (h : readOperand fuel ts = some (first, bar :: rest))
    (hs : readType fuel rest = some (second, rest')) :
    readType (fuel + 1) ts = some (union first second, rest') := by
  simp only [readType, h, hs, Option.map_some]

/-- An operand that is no union takes all brackets behind it. -/
theorem readType_primary {fuel pairs : Nat} {ts rest : List TypeToken} {item : TypeTerm}
    (h : readPrimary fuel ts = some (item, brackets pairs ++ rest)) (hu : ¬item.IsUnion)
    (hr : EndsType rest) : readType (fuel + 2) ts = some (suffix^[pairs] item, rest) := by
  rw [suffixes_eq_arrays hu]
  exact readType_operand (readOperand_brackets pairs h hr.endsOperand) hr

theorem readPrimary_word {word : String} (h : isTypeName word) (fuel : Nat)
    {ts : List TypeToken} (hr : ∀ rest, ts ≠ less :: rest) :
    readPrimary (fuel + 1) (.word word :: ts) = some (.name word, ts) := by
  rw [readPrimary, if_pos h]
  exact hr

theorem append_ne_less {rest : List TypeToken} (h : EndsOperand rest) (pairs : Nat)
    (ts : List TypeToken) : brackets pairs ++ rest ≠ less :: ts := by
  cases pairs with
  | zero =>
    rintro rfl
    exact absurd rfl (h _ rfl).2
  | succ pairs => exact nofun

theorem readPrimary_array {fuel : Nat} {ts rest : List TypeToken} {item : TypeTerm}
    (h : before .greater (readType fuel ts) = some (item, rest)) :
    readPrimary (fuel + 1) (.word "Array" :: less :: ts) = some (item.array, rest) := by
  change (before .greater (readType fuel ts)).map _ = _
  rw [h, Option.map_some]

theorem readPrimary_record {fuel : Nat} {ts rest : List TypeToken} {value : TypeTerm}
    (h : before .greater (readType fuel ts) = some (value, rest)) :
    readPrimary (fuel + 1) (.word "Record" :: less :: .word "string" :: comma :: ts) =
      some (value.record, rest) := by
  rw [readPrimary, if_neg (by decide), if_pos rfl, if_pos rfl, h, Option.map_some]

theorem readPrimary_object {fuel : Nat} {ts rest : List TypeToken}
    {members : List (MemberKey × TypeTerm)} (h : readMembers fuel ts = some (members, rest)) :
    readPrimary (fuel + 1) (leftBrace :: ts) = some (object members, rest) := by
  rw [readPrimary, h, Option.map_some]

theorem readMembers_member {fuel : Nat} {ts ts₁ ts₂ rest : List TypeToken} {key : MemberKey}
    {type : TypeTerm} {members : List (MemberKey × TypeTerm)}
    (hk : readKey ts = some (key, ts₁))
    (ht : before .semicolon (readType fuel ts₁) = some (type, ts₂))
    (hm : readMembers fuel ts₂ = some (members, rest)) :
    readMembers (fuel + 1) ts = some ((key, type) :: members, rest) := by
  rw [readMembers, hk]
  · simp [ht, hm]
  · rintro rest rfl
    cases hk

end TypeTerm

/-! ## Members -/

namespace MemberKey

open TypeToken

def tokens : MemberKey → List TypeToken
  | property name required => .word name :: ((if required then [] else [question]) ++ [colon])
  | index => [leftBracket, .word "key", colon, .word "string", rightBracket, colon]

/-- Is the name written as it is? -/
def IsPlain : MemberKey → Prop
  | property name _ => isIdentifier name
  | index => True

theorem readKey_tokens {key : MemberKey} (h : key.IsPlain) (rest : List TypeToken) :
    TypeTerm.readKey (key.tokens ++ rest) = some (key, rest) := by
  cases key with
  | index => rfl
  | property name required =>
    cases required
    · exact if_pos h
    · exact if_pos h

end MemberKey

namespace StructuralType

open TypeToken hiding word

/-! ## Terms and tokens -/

/-- The parts of an object type with their keys, the index signature last. -/
def keyedParts (fields : List (Field StructuralType)) (index : Option StructuralType) :
    List (MemberKey × StructuralType) :=
  fields.map (fun field => (.property field.name field.required, field.type)) ++
    index.toList.map (MemberKey.index, ·)

mutual

/-- The type as a term, arrays of it being made by `arrayOf`. -/
def termWith (arrayOf : TypeTerm → TypeTerm) : StructuralType → TypeTerm
  | primitive name | interface name => .name name
  | oneOrMany name => .union (.name name) (.array (.name name))
  | array item => arrayOf (item.termWith arrayOf)
  | object fields none => .object (fieldTerms arrayOf fields)
  | object fields (some type) =>
    .object (fieldTerms arrayOf fields ++ [(.index, type.termWith arrayOf)])
  | record value => .record (value.termWith arrayOf)

def fieldTerms (arrayOf : TypeTerm → TypeTerm) :
    List (Field StructuralType) → List (MemberKey × TypeTerm)
  | [] => []
  | ⟨name, type, required, _⟩ :: rest =>
    (.property name required, type.termWith arrayOf) :: fieldTerms arrayOf rest

end

/-- What the text of the type should say. -/
def term : StructuralType → TypeTerm := termWith .array

/-- What the text of the type says: brackets come behind the text of the whole item and belong to
the last operand of it. -/
def reading : StructuralType → TypeTerm := termWith TypeTerm.suffix

def memberTokens (key : MemberKey) (type : List TypeToken) : List TypeToken :=
  key.tokens ++ type ++ [semicolon]

mutual

def tokens : StructuralType → List TypeToken
  | primitive name | interface name => [.word name]
  | oneOrMany name => [.word name, bar, .word name, leftBracket, rightBracket]
  | array item =>
    match item.expr with
    | .inline _ => item.tokens ++ [leftBracket, rightBracket]
    | _ => [.word "Array", less] ++ item.tokens ++ [greater]
  | object fields none => leftBrace :: (fieldTokens fields ++ [rightBrace])
  | object fields (some type) =>
    leftBrace :: (fieldTokens fields ++ memberTokens .index type.tokens ++ [rightBrace])
  | record value => [.word "Record", less, .word "string", comma] ++ value.tokens ++ [greater]

def fieldTokens : List (Field StructuralType) → List TypeToken
  | [] => []
  | ⟨name, type, required, _⟩ :: rest =>
    memberTokens (.property name required) type.tokens ++ fieldTokens rest

end

section
variable {arrayOf : TypeTerm → TypeTerm} {fields : List (Field StructuralType)}
  {index : Option StructuralType}

theorem termWith_object : termWith arrayOf (object fields index) =
    .object ((keyedParts fields index).map fun m => (m.1, m.2.termWith arrayOf)) := by
  have hf : fieldTerms arrayOf fields =
      fields.map fun f => (.property f.name f.required, f.type.termWith arrayOf) := by
    induction fields with
    | nil => simp [fieldTerms]
    | cons field rest ih => rw [fieldTerms, ih, List.map_cons]
  cases index <;> simp [termWith, keyedParts, hf, Function.comp_def]

/-- The tokens between the braces. -/
def bodyTokens (ms : List (MemberKey × StructuralType)) : List TypeToken :=
  ms.flatMap fun m => memberTokens m.1 m.2.tokens

theorem tokens_object :
    tokens (object fields index) =
      leftBrace :: (bodyTokens (keyedParts fields index) ++ [rightBrace]) := by
  have hf : fieldTokens fields =
      bodyTokens (fields.map fun f => (.property f.name f.required, f.type)) := by
    induction fields with
    | nil => simp [fieldTokens, bodyTokens]
    | cons field rest ih => rw [fieldTokens, ih]; rfl
  cases index <;> simp [tokens, bodyTokens, keyedParts, hf]

theorem map_snd_keyedParts :
    (keyedParts fields index).map Prod.snd = (object fields index).parts := by
  simp [keyedParts, parts, Function.comp_def]

theorem snd_mem_parts {m : MemberKey × StructuralType} (h : m ∈ keyedParts fields index) :
    m.2 ∈ (object fields index).parts :=
  map_snd_keyedParts ▸ List.mem_map_of_mem h

end

/-! ## Reading the tokens -/

/-- Are the names that the type itself writes written as they are? -/
def HasPlainNames : StructuralType → Prop
  | primitive name | oneOrMany name | interface name => isTypeName name
  | object fields _ => ∀ field ∈ fields, isIdentifier field.name
  | array _ | record _ => True

theorem isPlain_of_mem_keyedParts {fields : List (Field StructuralType)}
    {index : Option StructuralType} {m : MemberKey × StructuralType}
    (h : HasPlainNames (object fields index)) (hm : m ∈ keyedParts fields index) : m.1.IsPlain := by
  rcases List.mem_append.mp hm with hf | hi
  · obtain ⟨field, hfield, rfl⟩ := List.mem_map.mp hf
    exact h field hfield
  · obtain ⟨type, _, rfl⟩ := List.mem_map.mp hi
    exact trivial

/-- The tokens are read as the type, with any pairs of brackets behind them. -/
def ReadsBack (form : StructuralType) : Prop :=
  ∀ (fuel pairs : Nat) (rest : List TypeToken), 3 * form.tokens.length ≤ fuel →
    TypeTerm.EndsType rest →
      TypeTerm.readType fuel (form.tokens ++ (brackets pairs ++ rest)) =
        some (TypeTerm.suffix^[pairs] form.reading, rest)

theorem ReadsBack.before {form : StructuralType} (h : form.ReadsBack) {fuel : Nat}
    (hf : 3 * form.tokens.length ≤ fuel) (next : TypeToken) (hn : TypeTerm.EndsType [next])
    (rest : List TypeToken) :
    TypeTerm.before next (TypeTerm.readType fuel (form.tokens ++ next :: rest)) =
      some (form.reading, rest) := by
  have hr := h fuel 0 (next :: rest) hf hn
  rw [show form.tokens ++ next :: rest = form.tokens ++ (brackets 0 ++ next :: rest) from rfl, hr]
  exact if_pos rfl

theorem length_key (key : MemberKey) : 0 < key.tokens.length := by
  cases key <;> simp [MemberKey.tokens]

theorem readMembers_body {ms : List (MemberKey × StructuralType)} {fuel : Nat}
    (hp : ∀ m ∈ ms, m.1.IsPlain) (hr : ∀ m ∈ ms, m.2.ReadsBack)
    (hf : 3 * (bodyTokens ms).length < fuel) (rest : List TypeToken) :
    TypeTerm.readMembers fuel (bodyTokens ms ++ rightBrace :: rest) =
      some (ms.map fun m => (m.1, m.2.reading), rest) := by
  induction ms generalizing fuel with
  | nil =>
    obtain ⟨fuel, rfl⟩ := Nat.exists_eq_succ_of_ne_zero (Nat.ne_zero_of_lt hf)
    rfl
  | cons m ms ih =>
    obtain ⟨fuel, rfl⟩ := Nat.exists_eq_succ_of_ne_zero (Nat.ne_zero_of_lt hf)
    have hlength : (bodyTokens (m :: ms)).length =
        m.1.tokens.length + m.2.tokens.length + 1 + (bodyTokens ms).length := by
      simp [bodyTokens, memberTokens]
      omega
    have hk := length_key m.1
    have htokens : bodyTokens (m :: ms) ++ rightBrace :: rest =
        m.1.tokens ++ (m.2.tokens ++ semicolon :: (bodyTokens ms ++ rightBrace :: rest)) := by
      simp [bodyTokens, memberTokens]
    rw [htokens]
    have ⟨hm, hms⟩ := List.forall_mem_cons.mp hp
    have ⟨hrm, hrms⟩ := List.forall_mem_cons.mp hr
    refine TypeTerm.readMembers_member (MemberKey.readKey_tokens hm _) ?_ (ih hms hrms (by omega))
    exact hrm.before (by omega) semicolon (by simp [TypeTerm.EndsType]) _

theorem reading_array (item : StructuralType) :
    (array item).reading = item.reading.suffix := by rw [reading, termWith]

theorem reading_record (value : StructuralType) :
    (record value).reading = .record value.reading := by rw [reading, termWith]

theorem reading_object (fields : List (Field StructuralType)) (index : Option StructuralType) :
    (object fields index).reading =
      .object ((keyedParts fields index).map fun m => (m.1, m.2.reading)) := termWith_object

/-- Alternatives are only in a type on one line. -/
theorem inline_of_isUnion {form : StructuralType} (h : form.reading.IsUnion) :
    ∃ text, form.expr = .inline text := by
  induction form using partInduction with
  | step form ih =>
    cases form with
    | oneOrMany name => exact ⟨_, by rw [expr]⟩
    | array item =>
      rw [reading_array, TypeTerm.isUnion_suffix] at h
      obtain ⟨text, ht⟩ := ih item (List.mem_singleton_self item) h
      exact ⟨text ++ "[]", by rw [expr, ht, TypeExpr.arrayOf]⟩
    | primitive name | interface name | record value =>
      simp only [reading, termWith, TypeTerm.IsUnion] at h
    | object fields index =>
      rw [reading_object] at h
      exact h.elim

theorem readType_name {name : String} (hn : isTypeName name) {fuel : Nat} (hf : 3 ≤ fuel)
    (pairs : Nat) {rest : List TypeToken} (hr : TypeTerm.EndsType rest) :
    TypeTerm.readType fuel (.word name :: (brackets pairs ++ rest)) =
      some (TypeTerm.suffix^[pairs] (.name name), rest) := by
  obtain ⟨fuel, rfl⟩ := Nat.exists_eq_add_of_le' hf
  have hword := TypeTerm.readPrimary_word hn fuel (TypeTerm.append_ne_less hr.endsOperand pairs)
  exact TypeTerm.readType_primary hword (by simp [TypeTerm.IsUnion]) hr

theorem readsBack_oneOrMany {name : String} (hn : isTypeName name) :
    (oneOrMany name).ReadsBack := by
  intro fuel pairs rest hf hr
  simp only [tokens, List.length_cons, List.length_nil] at hf
  obtain ⟨fuel, rfl⟩ := Nat.exists_eq_add_of_le' (show 3 ≤ fuel by omega)
  have hfirst : TypeTerm.readOperand (fuel + 2)
      (.word name :: bar :: .word name :: (brackets (pairs + 1) ++ rest)) =
        some (.name name, bar :: .word name :: (brackets (pairs + 1) ++ rest)) :=
    TypeTerm.readOperand_brackets 0 (TypeTerm.readPrimary_word hn fuel nofun)
      (by simp [TypeTerm.EndsOperand])
  have hsecond := readType_name hn (show 3 ≤ fuel + 2 by omega) (pairs + 1) hr
  rw [reading, termWith, TypeTerm.suffixes_union]
  exact TypeTerm.readType_union hfirst hsecond

theorem readsBack_array {item : StructuralType} (h : item.ReadsBack) : (array item).ReadsBack := by
  intro fuel pairs rest hf hr
  rw [tokens] at hf ⊢
  rw [reading_array]
  split at hf
  · -- On one line the pair of the array joins those that follow, and the item takes them all.
    simp only [List.append_assoc, List.length_append] at hf ⊢
    exact h fuel (pairs + 1) rest (by omega) hr
  · rename_i hblock
    have hu : ¬item.reading.IsUnion := fun hi => by
      obtain ⟨text, ht⟩ := inline_of_isUnion hi
      exact hblock text ht
    simp only [List.length_append, List.length_cons, List.length_nil] at hf
    obtain ⟨fuel, rfl⟩ := Nat.exists_eq_add_of_le' (show 3 ≤ fuel by omega)
    have hitem := h.before (show 3 * item.tokens.length ≤ fuel by omega) greater
      (by simp [TypeTerm.EndsType]) (brackets pairs ++ rest)
    rw [TypeTerm.suffix_eq_array hu]
    simpa using
      TypeTerm.readType_primary (TypeTerm.readPrimary_array hitem) (by simp [TypeTerm.IsUnion]) hr

theorem readsBack_record {value : StructuralType} (h : value.ReadsBack) :
    (record value).ReadsBack := by
  intro fuel pairs rest hf hr
  simp only [tokens, List.length_append, List.length_cons, List.length_nil] at hf
  obtain ⟨fuel, rfl⟩ := Nat.exists_eq_add_of_le' (show 3 ≤ fuel by omega)
  have hvalue := h.before (show 3 * value.tokens.length ≤ fuel by omega) greater
    (by simp [TypeTerm.EndsType]) (brackets pairs ++ rest)
  rw [tokens, reading_record]
  simpa using
    TypeTerm.readType_primary (TypeTerm.readPrimary_record hvalue) (by simp [TypeTerm.IsUnion]) hr

theorem readsBack_object {fields : List (Field StructuralType)} {index : Option StructuralType}
    (hn : HasPlainNames (object fields index))
    (h : ∀ part ∈ (object fields index).parts, part.ReadsBack) :
    (object fields index).ReadsBack := by
  intro fuel pairs rest hf hr
  rw [tokens_object] at hf ⊢
  simp only [List.length_append, List.length_cons, List.length_nil] at hf
  obtain ⟨fuel, rfl⟩ := Nat.exists_eq_add_of_le' (show 3 ≤ fuel by omega)
  have hlength : 3 * (bodyTokens (keyedParts fields index)).length < fuel := by omega
  have hbody := readMembers_body (fun m => isPlain_of_mem_keyedParts hn)
    (fun m hm => h m.2 (snd_mem_parts hm)) hlength (brackets pairs ++ rest)
  rw [reading_object]
  simpa using
    TypeTerm.readType_primary (TypeTerm.readPrimary_object hbody) (by simp [TypeTerm.IsUnion]) hr

/-- A type is read as it is, up to brackets behind alternatives, however deep the nesting. -/
theorem readsBack {form : StructuralType} (hn : ∀ sub, form.Spans sub → sub.HasPlainNames) :
    form.ReadsBack := by
  induction form using partInduction with
  | step form ih =>
    have hform := hn form .refl
    have hparts : ∀ part ∈ form.parts, part.ReadsBack :=
      fun part hp => ih part hp fun sub hs => hn sub (hs.head hp)
    cases form with
    | primitive name | interface name =>
      intro fuel pairs rest hf hr
      rw [tokens] at hf ⊢
      rw [reading, termWith]
      exact readType_name hform hf pairs hr
    | oneOrMany name => exact readsBack_oneOrMany hform
    | array item => exact readsBack_array (hparts item (List.mem_singleton_self item))
    | record value => exact readsBack_record (hparts value (List.mem_singleton_self value))
    | object fields index => exact readsBack_object hform hparts

/-! ## Where brackets are read as they are meant -/

theorem oneOrMany_of_isUnion {form : StructuralType} (h : form.term.IsUnion) :
    ∃ name, form = oneOrMany name := by
  cases form with
  | oneOrMany name => exact ⟨name, rfl⟩
  | primitive name | interface name | array item | record value =>
    simp only [term, termWith, TypeTerm.IsUnion] at h
  | object fields index =>
    rw [term, termWith_object] at h
    exact h.elim

/-- Brackets behind an item are read as meant if the item is, and is no choice of two types. -/
theorem suffix_eq_array_iff (item : StructuralType) :
    item.reading.suffix = item.term.array ↔
      (∀ name, item ≠ oneOrMany name) ∧ item.reading = item.term := by
  constructor
  · intro h
    have hu : ¬item.reading.IsUnion := fun hi => TypeTerm.suffix_ne_array hi h
    rw [TypeTerm.suffix_eq_array hu] at h
    refine ⟨?_, TypeTerm.array.inj h⟩
    rintro name rfl
    simp [reading, termWith, TypeTerm.IsUnion] at hu
  · rintro ⟨hone, heq⟩
    have hu : ¬item.reading.IsUnion := fun hi => by
      obtain ⟨name, hname⟩ := oneOrMany_of_isUnion (heq ▸ hi)
      exact hone name hname
    rw [TypeTerm.suffix_eq_array hu, heq]

theorem reading_eq_term_iff_parts (form : StructuralType) :
    form.reading = form.term ↔
      (∀ name, form ≠ array (oneOrMany name)) ∧ ∀ part ∈ form.parts, part.reading = part.term := by
  cases form with
  | primitive name | interface name | oneOrMany name =>
    simp [reading, term, termWith, parts]
  | array item =>
    rw [reading_array, term, termWith, ← term]
    simpa [parts] using suffix_eq_array_iff item
  | record value =>
    rw [reading_record, term, termWith, ← term]
    simp [parts]
  | object fields index =>
    rw [reading_object, term, termWith_object, ← term, ← map_snd_keyedParts, List.forall_mem_map,
      TypeTerm.object.injEq, List.map_inj_left]
    simp

/-- The text of a type says what it should exactly if no array in it is one of values that may
themselves be given several times. -/
theorem reading_eq_term_iff (form : StructuralType) :
    form.reading = form.term ↔ ∀ name, ¬form.Spans (array (oneOrMany name)) := by
  induction form using partInduction with
  | step form ih =>
    rw [reading_eq_term_iff_parts]
    constructor
    · rintro ⟨hform, hparts⟩ name hs
      rcases hs.cases_head with heq | ⟨part, hp, hs⟩
      · exact hform name heq
      · exact (ih part hp).mp (hparts part hp) name hs
    · intro h
      constructor
      · rintro name rfl
        exact h name .refl
      · exact fun part hp => (ih part hp).mpr fun name hs => h name (hs.head hp)

end StructuralType

end ApiTypings
