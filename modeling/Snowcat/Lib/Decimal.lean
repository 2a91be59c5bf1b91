import Mathlib.Algebra.Order.Field.Rat
import Mathlib.Tactic.FieldSimp
import Mathlib.Tactic.IntervalCases
import Mathlib.Tactic.NormNum
import Mathlib.Tactic.Ring

/-!
# Decimal texts

What a decimal text says – digits, an optional fraction, an optional exponent –
as a rational number, and how its digits are read back. Nothing here bounds a
length or an exponent.
-/

namespace Decimal

/-- What a digit is written as. -/
def digitChar (d : Fin 10) : Char := Nat.digitChar d

/-- The digit a character is. -/
def digit? (c : Char) : Option ℕ :=
  if '0' ≤ c ∧ c ≤ '9' then some (c.toNat - 48) else none

/-- Digits, read as a number on from what was read before them. -/
def readOn (n : ℕ) : List Char → Option ℕ
  | [] => some n
  | c :: cs => (digit? c).bind fun d => readOn (10 * n + d) cs

/-- **Digits, read as a number**, and nothing when one is not a digit. -/
def read : List Char → Option ℕ := readOn 0

/-- The number digits stand for, on from what stands before them. -/
def valueFrom (n : ℕ) : List (Fin 10) → ℕ
  | [] => n
  | d :: ds => valueFrom (10 * n + d.val) ds

/-- The number digits stand for. -/
def valueOf : List (Fin 10) → ℕ := valueFrom 0

theorem digit?_digitChar (d : Fin 10) : digit? (digitChar d) = some d.val := by
  revert d
  decide

/-- No digit is one of the marks of a decimal text. -/
theorem digitChar_ne {c : Char} (h : digit? c = none) (d : Fin 10) : digitChar d ≠ c := by
  rintro rfl
  exact nomatch h.symm.trans (digit?_digitChar d)

theorem notMem_digits {c : Char} (h : digit? c = none) (ds : List (Fin 10)) :
    c ∉ ds.map digitChar := by
  rw [List.mem_map]
  rintro ⟨d, -, hd⟩
  exact digitChar_ne h d hd

theorem toLower_digitChar (d : Fin 10) : (digitChar d).toLower = digitChar d := by
  revert d
  decide

theorem readOn_digits (n : ℕ) (ds : List (Fin 10)) :
    readOn n (ds.map digitChar) = some (valueFrom n ds) := by
  induction ds generalizing n with
  | nil => rfl
  | cons d ds ih => rw [List.map_cons, readOn, digit?_digitChar, Option.bind_some, ih, valueFrom]

/-- **Digits that were written are read back.** -/
theorem read_digits (ds : List (Fin 10)) : read (ds.map digitChar) = some (valueOf ds) :=
  readOn_digits 0 ds

theorem valueFrom_eq (n : ℕ) (ds : List (Fin 10)) :
    valueFrom n ds = n * 10 ^ ds.length + valueOf ds := by
  unfold valueOf
  induction ds generalizing n with
  | nil => simp [valueFrom]
  | cons d ds ih =>
    rw [valueFrom, valueFrom, ih, ih (10 * 0 + d.val), List.length_cons]
    ring

theorem valueFrom_append (n : ℕ) (as bs : List (Fin 10)) :
    valueFrom n (as ++ bs) = valueFrom (valueFrom n as) bs := by
  induction as generalizing n with
  | nil => rfl
  | cons a as ih => rw [List.cons_append, valueFrom, valueFrom, ih]

theorem valueOf_append (as bs : List (Fin 10)) :
    valueOf (as ++ bs) = valueOf as * 10 ^ bs.length + valueOf bs :=
  (valueFrom_append 0 as bs).trans (valueFrom_eq _ bs)

/-- The sign of an exponent, as it is written. -/
inductive Sign where
  | unsigned
  | plus
  | minus
  deriving DecidableEq, Repr

/-- What a sign is written as. -/
def Sign.write : Sign → List Char
  | .unsigned => []
  | .plus => ['+']
  | .minus => ['-']

/-- A number with its sign. -/
def Sign.apply : Sign → ℕ → ℤ
  | .minus, n => -n
  | _, n => n

/-- **A decimal text**: digits, an optional fraction and an optional
exponent. -/
structure Numeral where
  whole : List (Fin 10)
  fraction : Option (List (Fin 10)) := none
  exponent : Option (Sign × List (Fin 10)) := none
  exponent_ne : ∀ e ∈ exponent, e.2 ≠ [] := by decide

namespace Numeral

/-- The digits in front of the exponent, as they are written. -/
def coefficient (a : Numeral) : List Char :=
  a.whole.map digitChar ++ (a.fraction.elim [] fun ds => '.' :: ds.map digitChar)

/-- An exponent, as it is written. -/
def writeExponent (e : Sign × List (Fin 10)) : List Char := e.1.write ++ e.2.map digitChar

/-- The text of a numeral. -/
def text (a : Numeral) : String :=
  String.ofList (a.coefficient ++ (a.exponent.elim [] fun e => 'e' :: writeExponent e))

/-- The digits of the fraction. -/
def places (a : Numeral) : List (Fin 10) := a.fraction.getD []

/-- The power of ten a numeral is scaled by. -/
def scale (a : Numeral) : ℤ := a.exponent.elim 0 fun e => e.1.apply (valueOf e.2)

/-- **What a numeral stands for**: its whole part and its fraction, times a
power of ten. -/
def value (a : Numeral) : ℚ :=
  (valueOf a.whole + valueOf a.places / 10 ^ a.places.length) * 10 ^ a.scale

/-- A numeral stands for its digits, moved by its fraction and its exponent. -/
theorem value_eq (a : Numeral) :
    a.value = valueOf (a.whole ++ a.places) * (10 : ℚ) ^ (a.scale - a.places.length) := by
  unfold value
  rw [valueOf_append, zpow_sub₀ (by norm_num), zpow_natCast]
  push_cast
  field_simp

/-- The parts of a numeral's text, apart at the mark of the exponent. -/
theorem splitOn_text (a : Numeral) :
    a.text.toList.splitOn 'e' = a.coefficient :: (a.exponent.map writeExponent).toList := by
  have hcoefficient : 'e' ∉ a.coefficient := by
    unfold coefficient
    rw [List.mem_append, not_or]
    refine ⟨notMem_digits (by decide) _, ?_⟩
    cases a.fraction with
    | none => exact List.not_mem_nil
    | some ds =>
      show 'e' ∉ '.' :: ds.map digitChar
      rw [List.mem_cons, not_or]
      exact ⟨by decide, notMem_digits (by decide) ds⟩
  have hexponent : ∀ e, 'e' ∉ writeExponent e := by
    rintro ⟨sign, ds⟩
    unfold writeExponent
    rw [List.mem_append, not_or]
    refine ⟨?_, notMem_digits (by decide) ds⟩
    show 'e' ∉ sign.write
    cases sign <;> decide
  have hparts := @List.splitOn_intercalate _
    (a.coefficient :: (a.exponent.map writeExponent).toList) _ _ 'e' ?_ (List.cons_ne_nil _ _)
  · rw [← hparts]
    congr 1
    unfold text
    rw [String.toList_ofList]
    cases a.exponent with
    | none => simp [List.intercalate]
    | some e => simp [List.intercalate]
  · rw [List.forall_mem_cons]
    refine ⟨hcoefficient, fun part hpart => ?_⟩
    obtain ⟨e, -, rfl⟩ := Option.map_eq_some_iff.mp (Option.mem_toList.mp hpart)
    exact hexponent e

/-- The digits in front of the exponent, apart at the point. -/
theorem splitOn_coefficient (a : Numeral) :
    a.coefficient.splitOn '.' =
      a.whole.map digitChar :: (a.fraction.map fun ds => ds.map digitChar).toList := by
  have hparts := @List.splitOn_intercalate _
    (a.whole.map digitChar :: (a.fraction.map fun ds => ds.map digitChar).toList) _ _ '.' ?_
    (List.cons_ne_nil _ _)
  · rw [← hparts]
    congr 1
    unfold coefficient
    cases a.fraction with
    | none => simp [List.intercalate]
    | some ds => simp [List.intercalate]
  · rw [List.forall_mem_cons]
    refine ⟨notMem_digits (by decide) _, fun part hpart => ?_⟩
    obtain ⟨ds, -, rfl⟩ := Option.map_eq_some_iff.mp (Option.mem_toList.mp hpart)
    exact notMem_digits (by decide) ds

/-- A numeral is written in small letters. -/
theorem toLower_text (a : Numeral) : a.text.toList.map Char.toLower = a.text.toList := by
  have hdigits : ∀ ds : List (Fin 10),
      (ds.map digitChar).map Char.toLower = ds.map digitChar := by
    intro ds
    rw [List.map_map]
    exact List.map_congr_left fun d _ => toLower_digitChar d
  unfold text coefficient
  rw [String.toList_ofList, List.map_append, List.map_append, hdigits]
  congr 1
  · congr 1
    cases a.fraction with
    | none => rfl
    | some ds =>
      show _ :: (ds.map digitChar).map Char.toLower = _
      rw [hdigits]
      rfl
  · cases a.exponent with
    | none => rfl
    | some e =>
      have hsign : ∀ sign : Sign, sign.write.map Char.toLower = sign.write := by
        intro sign
        cases sign <;> rfl
      show _ :: (writeExponent e).map Char.toLower = 'e' :: writeExponent e
      rw [writeExponent, List.map_append, hdigits, hsign]
      rfl

end Numeral

/-- **A signed number, read**: digits, and a sign in front of them. -/
def readSigned : List Char → Option ℤ
  | '-' :: ds => if ds = [] then none else (read ds).map fun n => -(n : ℤ)
  | '+' :: ds => if ds = [] then none else (read ds).map fun n => (n : ℤ)
  | ds => (read ds).map fun n => (n : ℤ)

/-- An exponent that was written is read back. -/
theorem readSigned_writeExponent {e : Sign × List (Fin 10)} (h : e.2 ≠ []) :
    readSigned (Numeral.writeExponent e) = some (e.1.apply (valueOf e.2)) := by
  obtain ⟨sign, ds⟩ := e
  have hdigits : ds.map digitChar ≠ [] := fun heq => h (List.map_eq_nil_iff.mp heq)
  cases sign with
  | plus =>
    show readSigned ('+' :: ds.map digitChar) = _
    rw [readSigned, if_neg hdigits, read_digits]
    rfl
  | minus =>
    show readSigned ('-' :: ds.map digitChar) = _
    rw [readSigned, if_neg hdigits, read_digits]
    rfl
  | unsigned =>
    show readSigned (ds.map digitChar) = _
    unfold readSigned
    split
    · next heq => exact absurd (heq ▸ List.mem_cons_self) (notMem_digits (by decide) ds)
    · next heq => exact absurd (heq ▸ List.mem_cons_self) (notMem_digits (by decide) ds)
    · rw [read_digits]
      rfl

end Decimal
