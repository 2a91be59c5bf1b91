import Mathlib.Data.List.Basic
import Mathlib.Data.List.TakeDrop
import Mathlib.Tactic.Common

/-!
# Bytes read as UTF-8

A stream of bytes is read as UTF-8 by a decoder that does not give up: where
the bytes are those of no character it reads a replacement character and goes
on. The bytes of a text are read back as the text, and where they are cut off
after so many bytes, what is read is what fits, with one replacement character
for a character that was cut through (`read_take`).
-/

namespace Utf8

/-- U+FFFD. -/
def replacement : Char := Char.ofNat 0xFFFD

/-- U+FEFF, the byte order mark. -/
def byteOrderMark : Char := Char.ofNat 0xFEFF

/-- The bytes of a text. -/
def encode (cs : List Char) : List UInt8 := cs.flatMap String.utf8EncodeChar

/-- A character that has begun: what is known of its code point, how many bytes
are missing, and between which two the next of them must be. -/
structure Begun where
  point : ℕ
  missing : ℕ
  lower : ℕ
  upper : ℕ

/-- What a byte reads as between two characters: a character, or the beginning
of one. -/
def begin (b : ℕ) : Option Char × Option Begun :=
  if b < 0x80 then (some (Char.ofNat b), none)
  else if 0xC2 ≤ b ∧ b ≤ 0xDF then (none, some ⟨b % 0x20, 1, 0x80, 0xBF⟩)
  else if 0xE0 ≤ b ∧ b ≤ 0xEF then
    (none, some ⟨b % 0x10, 2, if b = 0xE0 then 0xA0 else 0x80, if b = 0xED then 0x9F else 0xBF⟩)
  else if 0xF0 ≤ b ∧ b ≤ 0xF4 then
    (none, some ⟨b % 0x08, 3, if b = 0xF0 then 0x90 else 0x80, if b = 0xF4 then 0x8F else 0xBF⟩)
  else (some replacement, none)

/-- **The decoder**: what some bytes read as, behind a character that may have
begun. A byte that does not continue it is read once more. -/
def read : Option Begun → List UInt8 → List Char
  | none, [] => []
  | some _, [] => [replacement]
  | none, b :: bs => (begin b.toNat).1.toList ++ read (begin b.toNat).2 bs
  | some c, b :: bs =>
    if c.lower ≤ b.toNat ∧ b.toNat ≤ c.upper then
      if c.missing = 1 then Char.ofNat (c.point * 64 + b.toNat % 64) :: read none bs
      else read (some ⟨c.point * 64 + b.toNat % 64, c.missing - 1, 0x80, 0xBF⟩) bs
    else replacement :: ((begin b.toNat).1.toList ++ read (begin b.toNat).2 bs)

/-! ## One character -/

theorem toNat_ofNat {n : ℕ} (h : n < 256) : (UInt8.ofNat n).toNat = n := by
  rw [UInt8.toNat_ofNat']
  exact Nat.mod_eq_of_lt h

/-- The last byte of a character. -/
theorem read_last {point lower upper b : ℕ} {bs : List UInt8} (hb : b < 256)
    (h : lower ≤ b ∧ b ≤ upper) :
    read (some ⟨point, 1, lower, upper⟩) (UInt8.ofNat b :: bs) =
      Char.ofNat (point * 64 + b % 64) :: read none bs := by
  rw [read, toNat_ofNat hb, if_pos h, if_pos rfl]

/-- A byte of a character, of which more are missing. -/
theorem read_more {point missing lower upper b : ℕ} {bs : List UInt8} (hb : b < 256)
    (h : lower ≤ b ∧ b ≤ upper) :
    read (some ⟨point, missing + 2, lower, upper⟩) (UInt8.ofNat b :: bs) =
      read (some ⟨point * 64 + b % 64, missing + 1, 0x80, 0xBF⟩) bs := by
  rw [read, toNat_ofNat hb, if_pos h, if_neg (Nat.succ_succ_ne_one missing)]
  rfl

theorem read_none_cons {b : ℕ} {bs : List UInt8} (hb : b < 256) :
    read none (UInt8.ofNat b :: bs) = (begin b).1.toList ++ read (begin b).2 bs := by
  rw [read, toNat_ofNat hb]

/-- The first of two bytes. -/
theorem read_first_of_two {b : ℕ} {bs : List UInt8} (h : 0xC2 ≤ b ∧ b ≤ 0xDF) :
    read none (UInt8.ofNat b :: bs) = read (some ⟨b % 0x20, 1, 0x80, 0xBF⟩) bs := by
  rw [read_none_cons (by omega)]
  unfold begin
  rw [if_neg (by omega), if_pos h]
  rfl

/-- The first of three bytes. -/
theorem read_first_of_three {b : ℕ} {bs : List UInt8} (h : 0xE0 ≤ b ∧ b ≤ 0xEF) :
    read none (UInt8.ofNat b :: bs) = read (some ⟨b % 0x10, 2, if b = 0xE0 then 0xA0 else 0x80,
      if b = 0xED then 0x9F else 0xBF⟩) bs := by
  rw [read_none_cons (by omega)]
  unfold begin
  rw [if_neg (by omega), if_neg (by omega), if_pos h]
  rfl

/-- The first of four bytes. -/
theorem read_first_of_four {b : ℕ} {bs : List UInt8} (h : 0xF0 ≤ b ∧ b ≤ 0xF4) :
    read none (UInt8.ofNat b :: bs) = read (some ⟨b % 0x08, 3, if b = 0xF0 then 0x90 else 0x80,
      if b = 0xF4 then 0x8F else 0xBF⟩) bs := by
  rw [read_none_cons (by omega)]
  unfold begin
  rw [if_neg (by omega), if_neg (by omega), if_neg (by omega), if_pos h]
  rfl

/-- The bytes of a code point. -/
def bytesOf (v : ℕ) : List UInt8 :=
  if v ≤ 0x7F then [UInt8.ofNat v]
  else if v ≤ 0x7FF then [UInt8.ofNat (v / 64 % 0x20 + 0xC0), UInt8.ofNat (v % 0x40 + 0x80)]
  else if v ≤ 0xFFFF then
    [UInt8.ofNat (v / 4096 % 0x10 + 0xE0), UInt8.ofNat (v / 64 % 0x40 + 0x80),
      UInt8.ofNat (v % 0x40 + 0x80)]
  else
    [UInt8.ofNat (v / 262144 % 0x08 + 0xF0), UInt8.ofNat (v / 4096 % 0x40 + 0x80),
      UInt8.ofNat (v / 64 % 0x40 + 0x80), UInt8.ofNat (v % 0x40 + 0x80)]

theorem utf8EncodeChar_eq (c : Char) : String.utf8EncodeChar c = bytesOf c.toNat := rfl

/-- **The bytes of a character are read as it**, whatever follows them. -/
theorem read_encodeChar (c : Char) (bs : List UInt8) :
    read none (String.utf8EncodeChar c ++ bs) = c :: read none bs := by
  have hvalid : c.toNat < 0xD800 ∨ 0xDFFF < c.toNat ∧ c.toNat < 0x110000 := c.valid
  have hself : Char.ofNat c.toNat = c := Char.ofNat_toNat c
  rw [utf8EncodeChar_eq]
  generalize c.toNat = v at hvalid hself ⊢
  unfold bytesOf
  split_ifs with hone htwo hthree
  · rw [List.singleton_append, read_none_cons (by omega), begin, if_pos (by omega), hself]
    rfl
  · rw [List.cons_append, List.singleton_append, read_first_of_two (by omega),
      read_last (by omega) (by omega)]
    rw [show (v / 64 % 0x20 + 0xC0) % 0x20 * 64 + (v % 0x40 + 0x80) % 64 = v by omega, hself]
  · rw [List.cons_append, List.cons_append, List.singleton_append,
      read_first_of_three (by omega), read_more (by omega) (by split_ifs <;> omega),
      read_last (by omega) (by omega)]
    rw [show ((v / 4096 % 0x10 + 0xE0) % 0x10 * 64 + (v / 64 % 0x40 + 0x80) % 64) * 64 +
      (v % 0x40 + 0x80) % 64 = v by omega, hself]
  · rw [List.cons_append, List.cons_append, List.cons_append, List.singleton_append,
      read_first_of_four (by omega), read_more (by omega) (by split_ifs <;> omega),
      read_more (by omega) (by omega), read_last (by omega) (by omega)]
    rw [show (((v / 262144 % 0x08 + 0xF0) % 0x08 * 64 + (v / 4096 % 0x40 + 0x80) % 64) * 64 +
      (v / 64 % 0x40 + 0x80) % 64) * 64 + (v % 0x40 + 0x80) % 64 = v by omega, hself]

/-- **A character that is cut through** is read as one replacement character. -/
theorem read_take_encodeChar {c : Char} {n : ℕ} (hpos : 0 < n) (h : n < c.utf8Size) :
    read none ((String.utf8EncodeChar c).take n) = [replacement] := by
  have hvalid : c.toNat < 0xD800 ∨ 0xDFFF < c.toNat ∧ c.toNat < 0x110000 := c.valid
  rw [← String.length_utf8EncodeChar, utf8EncodeChar_eq] at h
  rw [utf8EncodeChar_eq]
  generalize c.toNat = v at hvalid h ⊢
  unfold bytesOf at h ⊢
  split_ifs at h ⊢ with hone htwo hthree <;>
    simp only [List.length_cons, List.length_nil] at h
  · omega
  · obtain rfl : n = 1 := by omega
    rw [List.take_succ_cons, List.take_zero, read_first_of_two (by omega)]
    rfl
  · obtain rfl | rfl : n = 1 ∨ n = 2 := by omega
    · rw [List.take_succ_cons, List.take_zero, read_first_of_three (by omega)]
      rfl
    · rw [List.take_succ_cons, List.take_succ_cons, List.take_zero,
        read_first_of_three (by omega), read_more (by omega) (by split_ifs <;> omega)]
      rfl
  · obtain rfl | rfl | rfl : n = 1 ∨ n = 2 ∨ n = 3 := by omega
    · rw [List.take_succ_cons, List.take_zero, read_first_of_four (by omega)]
      rfl
    · rw [List.take_succ_cons, List.take_succ_cons, List.take_zero,
        read_first_of_four (by omega), read_more (by omega) (by split_ifs <;> omega)]
      rfl
    · rw [List.take_succ_cons, List.take_succ_cons, List.take_succ_cons, List.take_zero,
        read_first_of_four (by omega), read_more (by omega) (by split_ifs <;> omega),
        read_more (by omega) (by omega)]
      rfl

/-! ## A text -/

theorem encode_cons (c : Char) (cs : List Char) :
    encode (c :: cs) = String.utf8EncodeChar c ++ encode cs := List.flatMap_cons

theorem encode_append (cs ds : List Char) : encode (cs ++ ds) = encode cs ++ encode ds :=
  List.flatMap_append

/-- What fits of a text into some bytes, a character as a whole or not at all. -/
def fits : ℕ → List Char → List Char
  | _, [] => []
  | room, c :: cs => if c.utf8Size ≤ room then c :: fits (room - c.utf8Size) cs else []

theorem fits_cons_of_le {c : Char} {room : ℕ} (h : c.utf8Size ≤ room) (cs : List Char) :
    fits room (c :: cs) = c :: fits (room - c.utf8Size) cs := by
  rw [fits, if_pos h]

theorem length_encode_fits (room : ℕ) (cs : List Char) : (encode (fits room cs)).length ≤ room := by
  induction cs generalizing room with
  | nil => exact Nat.zero_le _
  | cons c cs ih =>
    rw [fits]
    split
    · next h =>
      rw [encode_cons, List.length_append, String.length_utf8EncodeChar]
      have := ih (room - c.utf8Size)
      omega
    · exact Nat.zero_le _

/-- What fits of a text in front of which there is room for another one. -/
theorem fits_append {room : ℕ} {cs : List Char} (h : (encode cs).length ≤ room) (ds : List Char) :
    fits room (cs ++ ds) = cs ++ fits (room - (encode cs).length) ds := by
  induction cs generalizing room with
  | nil => rfl
  | cons c cs ih =>
    rw [encode_cons, List.length_append, String.length_utf8EncodeChar] at h
    rw [encode_cons, List.length_append, String.length_utf8EncodeChar, List.cons_append,
      fits_cons_of_le (by omega), ih (by omega), Nat.sub_add_eq]
    rfl

theorem fits_sublist (room : ℕ) (cs : List Char) : (fits room cs).Sublist cs := by
  induction cs generalizing room with
  | nil => exact List.Sublist.refl _
  | cons c cs ih =>
    rw [fits]
    split
    · exact (ih _).cons_cons c
    · exact List.nil_sublist _

theorem length_encode_le {cs ds : List Char} (h : cs.Sublist ds) :
    (encode cs).length ≤ (encode ds).length := by
  induction h with
  | slnil => exact Nat.le_refl _
  | cons d _ ih =>
    rw [encode_cons, List.length_append]
    omega
  | cons_cons d _ ih =>
    rw [encode_cons, encode_cons, List.length_append, List.length_append]
    omega

/-- **A text is read as it was written.** -/
theorem read_encode (cs : List Char) : read none (encode cs) = cs := by
  induction cs with
  | nil => rfl
  | cons c cs ih => rw [encode_cons, read_encodeChar, ih]

/-- **A text that is cut off after some bytes** is read as what fits, with one
replacement character for a character that was cut through. -/
theorem read_take (room : ℕ) (cs : List Char) :
    read none ((encode cs).take room) = fits room cs ∨
      read none ((encode cs).take room) = fits room cs ++ [replacement] := by
  induction cs generalizing room with
  | nil =>
    left
    rw [encode, List.flatMap_nil, List.take_nil]
    rfl
  | cons c cs ih =>
    rw [encode_cons, fits]
    by_cases h : c.utf8Size ≤ room
    · rw [if_pos h, List.take_append, List.take_of_length_le (by
        rwa [String.length_utf8EncodeChar]), read_encodeChar, String.length_utf8EncodeChar]
      rcases ih (room - c.utf8Size) with hread | hread
      · exact Or.inl (congrArg _ hread)
      · exact Or.inr (congrArg _ hread)
    · rw [if_neg h, List.take_append_of_le_length (by
        rw [String.length_utf8EncodeChar]
        omega)]
      rcases Nat.eq_zero_or_pos room with rfl | hpos
      · exact Or.inl rfl
      · exact Or.inr (read_take_encodeChar hpos (by omega))

end Utf8
