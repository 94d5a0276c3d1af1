import ApiTypings.Proofs.PrintedTokens
import ApiTypings.Proofs.ValueGrammar

/-! # Texts that are read as values

Each form of value is read from a text that is put together from the texts of its parts: with white
space around them, keys in front of them and commas behind them. A part may stand before anything
that does not go on with its last word. -/

namespace ApiTypings

open TypeToken (Blank isSpace)

namespace ValueTerm

variable {cs ds ws rest : List Char}

/-! ## White space -/

theorem skip_blank (h : Blank ws) (cs : List Char) : skip (ws ++ cs) = skip cs :=
  List.dropWhile_append_of_pos h

theorem skip_of_not_isSpace {c : Char} (h : isSpace c = false) : skip (c :: cs) = c :: cs := by
  simp [skip, h]

theorem after?_eq_some_iff {sign : Char} : after? sign cs = some rest ↔ skip cs = sign :: rest := by
  unfold after?
  split
  next c rest' hskip => split <;> simp_all
  next hskip => simp [hskip]

theorem after?_head {sign : Char} (hs : isSpace sign = false) :
    after? sign (sign :: rest) = some rest :=
  after?_eq_some_iff.mpr (skip_of_not_isSpace hs)

theorem after?_sign {sign : Char} (hs : isSpace sign = false) (h : Blank ws) :
    after? sign (ws ++ sign :: rest) = some rest :=
  after?_eq_some_iff.mpr ((skip_blank h _).trans (skip_of_not_isSpace hs))

theorem after?_other {sign c : Char} (hc : isSpace c = false) (hne : c ≠ sign) (h : Blank ws) :
    after? sign (ws ++ c :: rest) = none := by
  rw [Option.eq_none_iff_forall_ne_some]
  intro rest' he
  rw [after?_eq_some_iff, skip_blank h, skip_of_not_isSpace hc] at he
  exact hne (List.cons.inj he).1

theorem readValue_blank (fuel : Nat) (h : Blank ws) (cs : List Char) :
    readValue fuel (ws ++ cs) = readValue fuel cs := by
  cases fuel with
  | zero => rfl
  | succ fuel => rw [readValue, readValue, skip_blank h]

/-! ## Words and strings -/

/-- Nothing that could go on with a word. -/
def Ends (rest : List Char) : Prop := ∀ c ∈ rest.head?, isNameChar c = false

theorem ends_cons {c : Char} (hc : isNameChar c = false) : Ends (c :: rest) := by
  simpa [Ends] using hc

theorem ends_blank (h : Blank ws) {c : Char} (hc : isNameChar c = false) :
    Ends (ws ++ c :: rest) := by
  cases ws with
  | nil => exact ends_cons hc
  | cons w ws =>
    intro d hd
    cases hd
    rw [Bool.eq_false_iff]
    intro hn
    exact absurd (h w (List.mem_cons_self ..)) (by simp [TypeToken.isSpace_eq_false hn])

theorem takeWhile_word (h : ∀ c ∈ cs, isNameChar c) (hr : Ends rest) :
    (cs ++ rest).takeWhile isNameChar = cs := by
  rw [List.takeWhile_append_of_pos h]
  cases rest with
  | nil => simp
  | cons c rest => simp [hr c rfl]

theorem dropWhile_word (h : ∀ c ∈ cs, isNameChar c) (hr : Ends rest) :
    (cs ++ rest).dropWhile isNameChar = rest := by
  rw [List.dropWhile_append_of_pos h]
  cases rest with
  | nil => rfl
  | cons c rest => simp [hr c rfl]

theorem readString_closed {s : String} (h : s.toList.all isStringChar) :
    readString (s.toList ++ '"' :: rest) = some (s, rest) := by
  have hquote : isStringChar '"' = false := by decide
  have hall := List.all_eq_true.mp h
  rw [readString, List.dropWhile_append_of_pos hall, List.takeWhile_append_of_pos hall]
  simp [hquote]

/-- Can the name be written as a key? An identifier can as it is, and a name that is put between
quotes if each of its characters stands for itself there. -/
def isKey (name : String) : Bool :=
  isIdentifier name || (Naming.needsQuotes name && name.toList.all isStringChar)

theorem readKey_memberName {name : String} (hk : isKey name) (hw : Blank ws) (hr : Ends rest) :
    readKey (ws ++ ((Naming.memberName name).toList ++ rest)) = some (name, rest) := by
  rw [readKey, skip_blank hw]
  rcases Bool.or_eq_true_iff.mp hk with hident | hquoted
  · obtain ⟨c, cs, hname, hall⟩ := isNameChar_of_isIdentifier hident
    have hc : isNameChar c := hall c (List.mem_cons_self ..)
    rw [memberName_of_isIdentifier hident]
    have hskip : skip (name.toList ++ rest) = name.toList ++ rest := by
      rw [hname]
      exact skip_of_not_isSpace (TypeToken.isSpace_eq_false hc)
    rw [hskip]
    split
    next heq =>
      rw [hname] at heq
      cases heq
      exact absurd hc (by decide)
    next =>
      have hall : ∀ d ∈ name.toList, isNameChar d := hname ▸ hall
      simp [takeWhile_word hall hr, dropWhile_word hall hr, hident]
  · obtain ⟨hq, hall⟩ := Bool.and_eq_true_iff.mp hquoted
    have htext : (Naming.memberName name).toList ++ rest = '"' :: (name.toList ++ '"' :: rest) := by
      simp [Naming.memberName, hq]
    rw [htext, skip_of_not_isSpace (by decide)]
    exact readString_closed hall

/-! ## Lists -/

/-- No element begins with the sign that closes a list. -/
def Apart {α : Type} (read : List Char → Option (α × List Char)) (closing : Char) : Prop :=
  ∀ cs rest, after? closing cs = some rest → read cs = none

theorem apart_readValue (fuel : Nat) : Apart (readValue fuel) ']' := by
  intro cs rest h
  cases fuel with
  | zero => rfl
  | succ fuel =>
    rw [readValue, after?_eq_some_iff.mp h]
    rfl

theorem apart_readMember (read : List Char → Option (ValueTerm × List Char)) :
    Apart (readMember read) '\x7d' := by
  intro cs rest h
  have hkey : readKey cs = none := by
    rw [readKey, after?_eq_some_iff.mp h]
    rfl
  rw [readMember, hkey]
  rfl

section
variable {α : Type} {read : List Char → Option (α × List Char)} {closing : Char} {fuel : Nat}
  {x : α}

theorem readList_done (hs : isSpace closing = false) (hw : Blank ws) :
    readList read closing (fuel + 1) (ws ++ closing :: rest) = some ([], rest) := by
  rw [readList, after?_sign hs hw]

theorem after?_of_reads (hr : Apart read closing) (h : read cs = some (x, rest)) :
    after? closing cs = none := by
  rw [Option.eq_none_iff_forall_ne_some]
  intro rest' he
  rw [hr cs rest' he] at h
  cases h

theorem readList_last (hr : Apart read closing) (hs : isSpace closing = false)
    (hc : closing ≠ ',') (hw : Blank ws) (h : read cs = some (x, ws ++ closing :: rest)) :
    readList read closing (fuel + 1) cs = some ([x], rest) := by
  rw [readList, after?_of_reads hr h, h]
  simp [after?_other hs hc hw, after?_sign hs hw]

theorem readList_next {xs : List α} (hr : Apart read closing) (h : read cs = some (x, ',' :: ds))
    (hrest : readList read closing fuel ds = some (xs, rest)) :
    readList read closing (fuel + 1) cs = some (x :: xs, rest) := by
  have hcomma : after? ',' (',' :: ds) = some ds := after?_head (by decide)
  rw [readList, after?_of_reads hr h, h]
  simp [hcomma, hrest]

end

/-! ## Values -/

variable {value : ValueTerm} {name : String}

/-- The characters say the value, unless what follows goes on with a word. -/
def Says (value : ValueTerm) (cs : List Char) : Prop :=
  ∀ fuel rest, cs.length ≤ fuel → Ends rest → readValue fuel (cs ++ rest) = some (value, rest)

theorem says_word {word : String} (h : word.toList.all isNameChar)
    (hv : ofWord? word = some value) : Says value word.toList := by
  intro fuel rest hf hr
  have hall := List.all_eq_true.mp h
  have hword := takeWhile_word hall hr
  have hrest := dropWhile_word hall hr
  cases hcs : word.toList with
  | nil =>
    rw [String.toList_eq_nil_iff.mp hcs] at hv
    cases hv
  | cons c ds =>
    rw [hcs] at hf hall
    obtain ⟨fuel, rfl⟩ := Nat.exists_eq_add_one.mpr (Nat.lt_of_lt_of_le (Nat.succ_pos _) hf)
    have hc : isNameChar c := hall c (List.mem_cons_self ..)
    rw [readValue, List.cons_append, skip_of_not_isSpace (TypeToken.isSpace_eq_false hc)]
    split
    next heq => cases heq; exact absurd hc (by decide)
    next heq => cases heq; exact absurd hc (by decide)
    next heq => cases heq; exact absurd hc (by decide)
    next =>
      rw [← List.cons_append, ← hcs, hword, hrest, String.ofList_toList, hv]
      rfl

theorem says_string {s : String} (h : s.toList.all isStringChar) :
    Says (string s) ('"' :: (s.toList ++ ['"'])) := by
  intro fuel rest hf _
  obtain ⟨fuel, rfl⟩ := Nat.exists_eq_add_one.mpr (Nat.lt_of_lt_of_le (Nat.succ_pos _) hf)
  have hread : readString (s.toList ++ '"' :: rest) = some (s, rest) := readString_closed h
  rw [readValue, List.cons_append, skip_of_not_isSpace (by decide)]
  simp [hread]

theorem says_array (h : Says value cs) (hw : Blank ws) {ws' : List Char} (hw' : Blank ws') :
    Says (array [value]) ('[' :: (ws ++ cs ++ ws' ++ [']'])) := by
  intro fuel rest hf _
  simp only [List.length_cons, List.length_append, List.length_nil] at hf
  obtain ⟨fuel, rfl⟩ : ∃ n, fuel = n + 2 := ⟨fuel - 2, by omega⟩
  have hitem := h (fuel + 1) (ws' ++ ']' :: rest) (by omega) (ends_blank hw' (by decide))
  have hlist : readList (readValue (fuel + 1)) ']' (fuel + 1) (ws ++ (cs ++ (ws' ++ ']' :: rest))) =
      some ([value], rest) :=
    readList_last (apart_readValue _) (by decide) (by decide) hw'
      ((readValue_blank _ hw _).trans hitem)
  rw [readValue, List.cons_append, skip_of_not_isSpace (by decide)]
  simp only [List.append_assoc, List.singleton_append]
  simp [hlist]

/-! ## Members -/

/-- The characters say the members, up to the brace behind them. -/
def SaysMembers (members : List (String × ValueTerm)) (cs : List Char) : Prop :=
  ∀ depth fuel ws rest, cs.length ≤ depth → cs.length < fuel → Blank ws →
    readList (readMember (readValue depth)) '\x7d' fuel (cs ++ (ws ++ '\x7d' :: rest)) =
      some (members, rest)

/-- The name of a member as it is written, with the colon and the space behind it. -/
def heading (name : String) : List Char := (Naming.memberName name ++ ": ").toList

theorem readMember_heading (hk : isKey name) (hw : Blank ws) {depth : Nat}
    (h : readValue depth cs = some (value, rest)) :
    readMember (readValue depth) (ws ++ (heading name ++ cs)) = some ((name, value), rest) := by
  have hends : Ends (':' :: ' ' :: cs) := ends_cons (by decide)
  have hkey := readKey_memberName hk hw hends
  have hcolon : after? ':' (':' :: ' ' :: cs) = some (' ' :: cs) := after?_head (by decide)
  have hspace : Blank [' '] := by simp [Blank, isSpace]
  have hvalue : readValue depth (' ' :: cs) = some (value, rest) :=
    (readValue_blank depth hspace cs).trans h
  have htext : heading name ++ cs = (Naming.memberName name).toList ++ ':' :: ' ' :: cs := by
    simp [heading]
  rw [htext, readMember, hkey]
  simp [hcolon, hvalue]

theorem saysMembers_nil : SaysMembers [] [] := by
  intro depth fuel ws rest _ hf hw
  obtain ⟨fuel, rfl⟩ := Nat.exists_eq_add_one.mpr (show 0 < fuel by omega)
  exact readList_done (by decide) hw

theorem saysMembers_single (hk : isKey name) (hw : Blank ws) (h : Says value cs) :
    SaysMembers [(name, value)] (ws ++ (heading name ++ cs)) := by
  intro depth fuel ws' rest hd hf hw'
  simp only [List.length_append] at hd hf
  obtain ⟨fuel, rfl⟩ := Nat.exists_eq_add_one.mpr (show 0 < fuel by omega)
  have hvalue := h depth (ws' ++ '\x7d' :: rest) (by omega) (ends_blank hw' (by decide))
  simp only [List.append_assoc]
  exact readList_last (apart_readMember _) (by decide) (by decide) hw'
    (readMember_heading hk hw hvalue)

theorem saysMembers_cons {members : List (String × ValueTerm)} (hk : isKey name) (hw : Blank ws)
    (h : Says value cs) (hrest : SaysMembers members ds) :
    SaysMembers ((name, value) :: members) (ws ++ (heading name ++ (cs ++ ',' :: ds))) := by
  intro depth fuel ws' rest hd hf hw'
  simp only [List.length_append, List.length_cons] at hd hf
  obtain ⟨fuel, rfl⟩ := Nat.exists_eq_add_one.mpr (show 0 < fuel by omega)
  have hvalue := h depth (',' :: (ds ++ (ws' ++ '\x7d' :: rest))) (by omega)
    (ends_cons (by decide))
  simp only [List.append_assoc, List.cons_append]
  exact readList_next (apart_readMember _) (readMember_heading hk hw hvalue)
    (hrest depth fuel ws' rest (by omega) (by omega) hw')

theorem says_object {members : List (String × ValueTerm)} (h : SaysMembers members cs)
    (hw : Blank ws) : Says (object members) ('\x7b' :: (cs ++ ws ++ ['\x7d'])) := by
  intro fuel rest hf _
  simp only [List.length_cons, List.length_append, List.length_nil] at hf
  obtain ⟨fuel, rfl⟩ := Nat.exists_eq_add_one.mpr (show 0 < fuel by omega)
  have hlist := h fuel fuel ws rest (by omega) (by omega) hw
  rw [readValue, List.cons_append, skip_of_not_isSpace (by decide)]
  simp only [List.append_assoc, List.singleton_append]
  simp [hlist]

theorem ofText?_of_says {text : String} (h : Says value text.toList) :
    ofText? text = some value := by
  have hread := h text.toList.length [] le_rfl nofun
  rw [List.append_nil] at hread
  simp [ofText?, hread, skip]

end ValueTerm

end ApiTypings
