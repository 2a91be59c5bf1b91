import Mathlib.Data.List.Basic

/-!
# Base64

Bytes written in base64, with padding, and that no two lists of bytes are
written alike (`encode_injective`): the four characters of a group say what its
bytes are, and the padding how many there are.
-/

namespace Base64

/-- The character of a number below 64. -/
def digit (n : ℕ) : Char :=
  if n < 26 then Char.ofNat (65 + n)
  else if n < 52 then Char.ofNat (71 + n)
  else if n < 62 then Char.ofNat (n - 4)
  else if n = 62 then '+'
  else '/'

/-- The characters of some bytes. -/
def encode : List UInt8 → List Char
  | [] => []
  | [a] => [digit (a.toNat / 4), digit (a.toNat % 4 * 16), '=', '=']
  | [a, b] =>
    [digit (a.toNat / 4), digit (a.toNat % 4 * 16 + b.toNat / 16), digit (b.toNat % 16 * 4), '=']
  | a :: b :: c :: rest =>
    digit (a.toNat / 4) :: digit (a.toNat % 4 * 16 + b.toNat / 16) ::
      digit (b.toNat % 16 * 4 + c.toNat / 64) :: digit (c.toNat % 64) :: encode rest

/-- A character is the one of one number. -/
theorem digit_inj {m n : ℕ} (hm : m < 64) (hn : n < 64) (h : digit m = digit n) : m = n := by
  have hall : ∀ m n : Fin 64, digit m = digit n → m = n := by decide +kernel
  exact Fin.mk.inj_iff.mp (hall ⟨m, hm⟩ ⟨n, hn⟩ h)

/-- A character is not the padding. -/
theorem digit_ne_padding {n : ℕ} (hn : n < 64) : digit n ≠ '=' := by
  have hall : ∀ n : Fin 64, digit n ≠ '=' := by decide +kernel
  exact hall ⟨n, hn⟩

/-- **No two lists of bytes are written alike.** -/
theorem encode_injective : Function.Injective encode := by
  intro as
  induction as using encode.induct with
  | case1 =>
    intro bs h
    match bs with
    | [] => rfl
    | [_] | [_, _] | _ :: _ :: _ :: _ => exact nomatch h
  | case2 a =>
    intro bs h
    have ha := a.toNat_lt
    match bs with
    | [] => exact nomatch h
    | [x] =>
      simp only [encode, List.cons.injEq] at h
      have hx := x.toNat_lt
      have h₁ := digit_inj (by omega) (by omega) h.1
      have h₂ := digit_inj (by omega) (by omega) h.2.1
      rw [show a = x from UInt8.toNat_inj.mp (by omega)]
    | [_, y] =>
      simp only [encode, List.cons.injEq] at h
      have hy := y.toNat_lt
      exact absurd h.2.2.1.symm (digit_ne_padding (by omega))
    | _ :: y :: z :: _ =>
      simp only [encode, List.cons.injEq] at h
      have hz := z.toNat_lt
      exact absurd h.2.2.1.symm (digit_ne_padding (by omega))
  | case3 a b =>
    intro bs h
    have ha := a.toNat_lt
    have hb := b.toNat_lt
    match bs with
    | [] => exact nomatch h
    | [x] =>
      simp only [encode, List.cons.injEq] at h
      exact absurd h.2.2.1 (digit_ne_padding (by omega))
    | [x, y] =>
      simp only [encode, List.cons.injEq] at h
      have hx := x.toNat_lt
      have hy := y.toNat_lt
      have h₁ := digit_inj (by omega) (by omega) h.1
      have h₂ := digit_inj (by omega) (by omega) h.2.1
      have h₃ := digit_inj (by omega) (by omega) h.2.2.1
      rw [show a = x from UInt8.toNat_inj.mp (by omega),
        show b = y from UInt8.toNat_inj.mp (by omega)]
    | _ :: _ :: z :: _ =>
      simp only [encode, List.cons.injEq] at h
      exact absurd h.2.2.2.1.symm (digit_ne_padding (by omega))
  | case4 a b c rest ih =>
    intro bs h
    have ha := a.toNat_lt
    have hb := b.toNat_lt
    have hc := c.toNat_lt
    match bs with
    | [] => exact nomatch h
    | [x] =>
      simp only [encode, List.cons.injEq] at h
      exact absurd h.2.2.1 (digit_ne_padding (by omega))
    | [x, y] =>
      simp only [encode, List.cons.injEq] at h
      exact absurd h.2.2.2.1 (digit_ne_padding (by omega))
    | x :: y :: z :: others =>
      simp only [encode, List.cons.injEq] at h
      have hx := x.toNat_lt
      have hy := y.toNat_lt
      have hz := z.toNat_lt
      have h₁ := digit_inj (by omega) (by omega) h.1
      have h₂ := digit_inj (by omega) (by omega) h.2.1
      have h₃ := digit_inj (by omega) (by omega) h.2.2.1
      have h₄ := digit_inj (by omega) (by omega) h.2.2.2.1
      rw [show a = x from UInt8.toNat_inj.mp (by omega),
        show b = y from UInt8.toNat_inj.mp (by omega),
        show c = z from UInt8.toNat_inj.mp (by omega), ih h.2.2.2.2]

end Base64
