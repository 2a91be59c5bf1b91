import Mathlib.Data.List.Basic
import Mathlib.Logic.Function.Basic

/-!
# Texts as bytes

A text is UTF-8 in bytes, and bytes are spelled in hexadecimal. Both
spellings lose nothing, and the zero byte stands for the zero character
only.
-/

namespace Bytes

/-! ## UTF-8 -/

/-- The UTF-8 of a text. -/
def utf8 (s : String) : List UInt8 := s.toList.flatMap String.utf8EncodeChar

/-- **Two texts with the same UTF-8 are one text.** -/
theorem utf8_injective : Function.Injective utf8 := by
  intro s t h
  have hbytes : s.toList.utf8Encode = t.toList.utf8Encode := congrArg List.toByteArray h
  rw [String.utf8Encode_toList, String.utf8Encode_toList] at hbytes
  exact String.toByteArray_inj.mp hbytes

/-- No byte of a character other than the zero character is zero. -/
theorem zero_notMem_utf8EncodeChar {c : Char} (h : c.toNat ≠ 0) :
    0 ∉ String.utf8EncodeChar c := by
  have hvalid : c.val.toNat < 0x110000 := by
    have := c.valid
    simp only [UInt32.isValidChar, Nat.isValidChar] at this
    omega
  have hne : c.val.toNat ≠ 0 := h
  intro hmem
  simp only [String.utf8EncodeChar] at hmem
  have hbyte {n : ℕ} (hn : 0 < n % 256) : (0 : UInt8) ≠ UInt8.ofNat n := by
    intro heq
    have := congrArg UInt8.toNat heq
    simp at this
    omega
  split_ifs at hmem with h₁ h₂ h₃
  · exact hbyte (by omega) (List.mem_singleton.mp hmem)
  · rcases List.mem_cons.mp hmem with hmem | hmem
    · exact hbyte (by omega) hmem
    · exact hbyte (by omega) (List.mem_singleton.mp hmem)
  · rcases List.mem_cons.mp hmem with hmem | hmem
    · exact hbyte (by omega) hmem
    rcases List.mem_cons.mp hmem with hmem | hmem
    · exact hbyte (by omega) hmem
    · exact hbyte (by omega) (List.mem_singleton.mp hmem)
  · rcases List.mem_cons.mp hmem with hmem | hmem
    · exact hbyte (by omega) hmem
    rcases List.mem_cons.mp hmem with hmem | hmem
    · exact hbyte (by omega) hmem
    rcases List.mem_cons.mp hmem with hmem | hmem
    · exact hbyte (by omega) hmem
    · exact hbyte (by omega) (List.mem_singleton.mp hmem)

/-- The zero byte of a text is a zero character. -/
theorem zero_notMem_utf8 {s : String} (h : ∀ c ∈ s.toList, c.toNat ≠ 0) : 0 ∉ utf8 s := by
  intro hmem
  obtain ⟨c, hc, hzero⟩ := List.mem_flatMap.mp hmem
  exact zero_notMem_utf8EncodeChar (h c hc) hzero

/-! ## Hexadecimal -/

/-- The value of a hexadecimal digit. -/
def hexValue (c : Char) : ℕ := if c.toNat < 58 then c.toNat - 48 else c.toNat - 87

/-- The bytes an even number of digits spells. -/
def ofHex : List Char → List UInt8
  | a :: b :: cs => (hexValue a * 16 + hexValue b).toUInt8 :: ofHex cs
  | _ => []

/-- The digits of one byte. -/
def hexDigits (b : UInt8) : List Char := [Nat.digitChar (b.toNat / 16), Nat.digitChar (b.toNat % 16)]

/-- The digits that spell some bytes. -/
def toHex (bytes : List UInt8) : List Char := bytes.flatMap hexDigits

theorem length_ofHex {cs : List Char} {n : ℕ} (h : cs.length = 2 * n) : (ofHex cs).length = n := by
  induction n generalizing cs with
  | zero =>
    obtain rfl := List.length_eq_zero_iff.mp h
    rfl
  | succ n ih =>
    match cs with
    | [] => simp at h
    | [a] => simp at h; omega
    | a :: b :: cs =>
      rw [ofHex, List.length_cons, ih]
      simp at h
      omega

theorem hexValue_digitChar {n : ℕ} (h : n < 16) : hexValue (Nat.digitChar n) = n := by
  have : ∀ n < 16, hexValue (Nat.digitChar n) = n := by decide
  exact this n h

/-- **Bytes are what their digits spell.** -/
theorem ofHex_toHex (bytes : List UInt8) : ofHex (toHex bytes) = bytes := by
  induction bytes with
  | nil => rfl
  | cons b bytes ih =>
    have hlt : b.toNat < 256 := b.toNat_lt
    show (hexValue (Nat.digitChar (b.toNat / 16)) * 16 +
      hexValue (Nat.digitChar (b.toNat % 16))).toUInt8 :: ofHex (toHex bytes) = _
    rw [hexValue_digitChar (by omega), hexValue_digitChar (by omega), ih, Nat.div_add_mod']
    simp

/-- A digit of lower case. -/
def isHexDigit (c : Char) : Bool := ('0' ≤ c && c ≤ '9') || ('a' ≤ c && c ≤ 'f')

/-- **A digit is its value's.** -/
theorem digitChar_hexValue {c : Char} (h : isHexDigit c = true) :
    Nat.digitChar (hexValue c) = c ∧ hexValue c < 16 := by
  have hrange : (48 ≤ c.toNat ∧ c.toNat ≤ 57) ∨ (97 ≤ c.toNat ∧ c.toNat ≤ 102) := by
    simpa [isHexDigit, Char.le_def, UInt32.le_iff_toNat_le] using h
  have hall : ∀ n < 103, ((48 ≤ n ∧ n ≤ 57) ∨ (97 ≤ n ∧ n ≤ 102)) →
      Nat.digitChar (hexValue (Char.ofNat n)) = Char.ofNat n ∧ hexValue (Char.ofNat n) < 16 := by
    decide
  have := hall c.toNat (by omega) hrange
  rwa [Char.ofNat_toNat] at this

/-- **Digits are what their bytes spell**, an even number of them. -/
theorem toHex_ofHex {cs : List Char} {n : ℕ} (hlength : cs.length = 2 * n)
    (h : ∀ c ∈ cs, isHexDigit c = true) : toHex (ofHex cs) = cs := by
  induction n generalizing cs with
  | zero =>
    obtain rfl := List.length_eq_zero_iff.mp hlength
    rfl
  | succ n ih =>
    match cs with
    | [] => rfl
    | [a] => simp at hlength; omega
    | a :: b :: cs =>
      obtain ⟨ha, halt⟩ := digitChar_hexValue (h a List.mem_cons_self)
      obtain ⟨hb, hblt⟩ := digitChar_hexValue (h b (List.mem_cons_of_mem _ List.mem_cons_self))
      have hrest : toHex (ofHex cs) = cs := by
        refine ih (by simp at hlength; omega) fun c hc => h c ?_
        exact List.mem_cons_of_mem _ (List.mem_cons_of_mem _ hc)
      have hbyte : ((hexValue a * 16 + hexValue b).toUInt8).toNat = hexValue a * 16 + hexValue b := by
        rw [Nat.toUInt8_eq, UInt8.toNat_ofNat', Nat.mod_eq_of_lt (by omega)]
      show hexDigits (hexValue a * 16 + hexValue b).toUInt8 ++ toHex (ofHex cs) = _
      rw [hrest, hexDigits, hbyte, show (hexValue a * 16 + hexValue b) / 16 = hexValue a by omega,
        show (hexValue a * 16 + hexValue b) % 16 = hexValue b by omega, ha, hb]
      rfl

end Bytes
