import ApiTypings.Files.Text
import Mathlib.Data.List.Basic

/-! # What is written is read again

A character is written as one to four octets, and reading these gives it back whatever follows, so
that a text comes back as it was. Line ends are what is lost: a file gives line feeds only, so the
text must have no carriage returns. -/

namespace ApiTypings

namespace Utf8

variable {n position place read bits owed : Nat} {first low high : UInt8} {rest : List UInt8}

/-! ## Octets of a character -/

theorem toNat_ofNat_of_lt (h : n < 256) : (UInt8.ofNat n).toNat = n := by
  rw [UInt8.toNat_ofNat']
  exact Nat.mod_eq_of_lt h

theorem start_one (h : n < 0x80) : start position (UInt8.ofNat n) = .char (Char.ofNat n) := by
  have hn : (UInt8.ofNat n).toNat = n := toNat_ofNat_of_lt (by omega)
  simp [start, UInt8.lt_iff_toNat_lt, hn, h]

theorem start_two (hl : 0xC2 ≤ n) (hh : n < 0xE0) : start position (UInt8.ofNat n) =
    .pending ⟨UInt8.ofNat n, position, 1, n % 32, 1, 0x80, 0xBF⟩ := by
  have hn : (UInt8.ofNat n).toNat = n := toNat_ofNat_of_lt (by omega)
  simp [start, UInt8.lt_iff_toNat_lt, hn, hh, show ¬n < 0x80 by omega, show ¬n < 0xC2 by omega]

theorem start_three (hl : 0xE0 ≤ n) (hh : n < 0xF0) : start position (UInt8.ofNat n) =
    .pending ⟨UInt8.ofNat n, position, 1, n % 16, 2, if n = 0xE0 then 0xA0 else 0x80,
      if n = 0xED then 0x9F else 0xBF⟩ := by
  have hn : (UInt8.ofNat n).toNat = n := toNat_ofNat_of_lt (by omega)
  simp [start, UInt8.lt_iff_toNat_lt, ← UInt8.toNat_inj, hn, hh, show ¬n < 0x80 by omega,
    show ¬n < 0xC2 by omega, show ¬n < 0xE0 by omega]

theorem start_four (hl : 0xF0 ≤ n) (hh : n < 0xF5) : start position (UInt8.ofNat n) =
    .pending ⟨UInt8.ofNat n, position, 1, n % 8, 3, if n = 0xF0 then 0x90 else 0x80,
      if n = 0xF4 then 0x8F else 0xBF⟩ := by
  have hn : (UInt8.ofNat n).toNat = n := toNat_ofNat_of_lt (by omega)
  simp [start, UInt8.lt_iff_toNat_lt, ← UInt8.toNat_inj, hn, hh, show ¬n < 0x80 by omega,
    show ¬n < 0xC2 by omega, show ¬n < 0xE0 by omega, show ¬n < 0xF0 by omega]

/-- An octet that continues a character with the last six bits of a number. -/
def tail (n : Nat) : UInt8 := UInt8.ofNat (n % 64 + 0x80)

theorem toNat_tail (n : Nat) : (tail n).toNat = n % 64 + 0x80 :=
  toNat_ofNat_of_lt (by omega)

theorem toNat_tail_mod (n : Nat) : (tail n).toNat % 64 = n % 64 := by
  rw [toNat_tail]
  omega

theorem le_tail {low : UInt8} (h : low.toNat ≤ n % 64 + 0x80) : low ≤ tail n :=
  UInt8.le_iff_toNat_le.mpr (by rwa [toNat_tail])

theorem tail_le {high : UInt8} (h : n % 64 + 0x80 ≤ high.toNat) : tail n ≤ high :=
  UInt8.le_iff_toNat_le.mpr (by rwa [toNat_tail])

/-- Any octet that continues a character is within these bounds. -/
theorem le_tail_of_any (n : Nat) : 0x80 ≤ tail n := le_tail (Nat.le_add_left 0x80 _)

theorem tail_le_of_any (n : Nat) : tail n ≤ 0xBF :=
  tail_le (Nat.add_le_add_right (Nat.le_of_lt_succ (Nat.mod_lt n (by decide))) 0x80)

/-- The last octet of a character completes it. -/
theorem pieces_last (hl : low ≤ tail n) (hh : tail n ≤ high) :
    pieces (some ⟨first, place, read, bits, 1, low, high⟩) position (tail n :: rest) =
      .ok (Char.ofNat (bits * 64 + n % 64)) :: pieces none (position + 1) rest := by
  simp [pieces, hl, hh, toNat_tail_mod]

/-- An octet before the last adds its bits, and any octet may continue behind it. -/
theorem pieces_more (hl : low ≤ tail n) (hh : tail n ≤ high) :
    pieces (some ⟨first, place, read, bits, owed + 2, low, high⟩) position (tail n :: rest) =
      pieces (some ⟨first, place, read + 1, bits * 64 + n % 64, owed + 1, 0x80, 0xBF⟩)
        (position + 1) rest := by
  simp [pieces, hl, hh, toNat_tail_mod]

theorem utf8EncodeChar_eq (c : Char) : String.utf8EncodeChar c =
    if c.toNat ≤ 0x7F then [UInt8.ofNat c.toNat]
    else if c.toNat ≤ 0x7FF then [UInt8.ofNat (c.toNat / 64 % 32 + 0xC0), tail c.toNat]
    else if c.toNat ≤ 0xFFFF then
      [UInt8.ofNat (c.toNat / 4096 % 16 + 0xE0), tail (c.toNat / 64), tail c.toNat]
    else
      [UInt8.ofNat (c.toNat / 262144 % 8 + 0xF0), tail (c.toNat / 4096), tail (c.toNat / 64),
        tail c.toNat] := rfl

/-- A character is read from its octets, and then what follows them. -/
theorem pieces_utf8EncodeChar (c : Char) (position : Nat) (rest : List UInt8) :
    pieces none position (String.utf8EncodeChar c ++ rest) =
      .ok c :: pieces none (position + (String.utf8EncodeChar c).length) rest := by
  have hvalid : c.toNat < 0xD800 ∨ 0xDFFF < c.toNat ∧ c.toNat < 0x110000 := c.valid
  have hchar : ∀ n, n = c.toNat → Char.ofNat n = c := fun n h => h ▸ Char.ofNat_toNat c
  rw [utf8EncodeChar_eq]
  split_ifs with h1 h2 h3
  · rw [List.singleton_append, pieces, start_one (by omega)]
    dsimp only
    rw [hchar _ rfl]
    rfl
  · simp only [List.cons_append, List.nil_append]
    rw [pieces, start_two (by omega) (by omega)]
    dsimp only
    rw [pieces_last (le_tail_of_any _) (tail_le_of_any _), hchar _ (by omega)]
    rfl
  · -- The second octet has narrower bounds where the form would allow too small a number, or one
    -- that is no character.
    have hlow : (if c.toNat / 4096 % 16 + 0xE0 = 0xE0 then 0xA0 else 0x80) ≤ tail (c.toNat / 64) :=
      le_tail (by split <;> simp; omega)
    have hhigh : tail (c.toNat / 64) ≤ if c.toNat / 4096 % 16 + 0xE0 = 0xED then 0x9F else 0xBF :=
      tail_le (by split <;> simp <;> omega)
    simp only [List.cons_append, List.nil_append]
    rw [pieces, start_three (by omega) (by omega)]
    dsimp only
    rw [pieces_more hlow hhigh, pieces_last (le_tail_of_any _) (tail_le_of_any _),
      hchar _ (by omega)]
    rfl
  · have hlow : (if c.toNat / 262144 % 8 + 0xF0 = 0xF0 then 0x90 else 0x80) ≤
        tail (c.toNat / 4096) := le_tail (by split <;> simp; omega)
    have hhigh : tail (c.toNat / 4096) ≤
        if c.toNat / 262144 % 8 + 0xF0 = 0xF4 then 0x8F else 0xBF :=
      tail_le (by split <;> simp <;> omega)
    simp only [List.cons_append, List.nil_append]
    rw [pieces, start_four (by omega) (by omega)]
    dsimp only
    rw [pieces_more hlow hhigh,
      pieces_more (le_tail_of_any _) (tail_le_of_any _),
      pieces_last (le_tail_of_any _) (tail_le_of_any _), hchar _ (by omega)]
    rfl

/-! ## Texts -/

theorem encode_eq (text : String) : encode text = text.toList.flatMap String.utf8EncodeChar := by
  have h : text.toByteArray = text.toList.utf8Encode := String.utf8Encode_toList.symm
  rw [encode, String.toUTF8_eq_toByteArray, h, List.utf8Encode, List.data_toByteArray]

theorem pieces_encode (cs : List Char) (position : Nat) :
    pieces none position (cs.flatMap String.utf8EncodeChar) = cs.map .ok := by
  induction cs generalizing position with
  | nil => rfl
  | cons c rest ih => rw [List.flatMap_cons, pieces_utf8EncodeChar, ih, List.map_cons]

theorem decode_encode (text : String) : decode (encode text) = .ok text.toList := by
  rw [decode, encode_eq, pieces_encode]
  induction text.toList with
  | nil => rfl
  | cons c rest ih =>
    rw [List.map_cons, List.mapM_cons, ih]
    rfl

end Utf8

theorem Text.unifyNewlines_of_not_mem {cs : List Char} (h : '\r' ∉ cs) : unifyNewlines cs = cs := by
  induction cs with
  | nil => rfl
  | cons c rest ih =>
    obtain ⟨hc, hr⟩ := not_or.mp (mt List.mem_cons.mpr h)
    rw [unifyNewlines, ih hr]
    · exact fun _ he _ => hc he.symm
    · exact fun he => hc he.symm

theorem decodeText_encode {text : String} (h : '\r' ∉ text.toList) :
    decodeText (Utf8.encode text) = .ok text.toList := by
  rw [decodeText, Utf8.decode_encode]
  exact congrArg _ (Text.unifyNewlines_of_not_mem h)

end ApiTypings
