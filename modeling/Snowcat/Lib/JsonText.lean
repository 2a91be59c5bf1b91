import Mathlib.Tactic.IntervalCases
import Snowcat.Lib.Bytes

/-!
# Texts that end where their value does

`JSON.stringify` writes a text between quotes, escaped, and a list between
brackets. Both spellings show where they end (`Delimited`): two texts that
start with the spellings of two values start with the same value, and go on
alike behind it. Such spellings can be put one behind the other, and what is
written with them can be read back.
-/

/-- **A spelling that shows its own end.** -/
def Delimited {α τ : Type} (write : α → List τ) : Prop :=
  ∀ ⦃a b : α⦄ ⦃r s : List τ⦄, write a ++ r = write b ++ s → a = b ∧ r = s

namespace Delimited

variable {α β τ : Type} {f : α → List τ} {g : β → List τ}

/-- What is read back shows its own end. -/
theorem of_read {read : List τ → Option (α × List τ)}
    (h : ∀ a r, read (f a ++ r) = some (a, r)) : Delimited f := by
  intro a b r s heq
  have hread := h a r
  rw [heq, h b s, Option.some.injEq, Prod.mk.injEq] at hread
  exact ⟨hread.1.symm, hread.2.symm⟩

theorem injective (hf : Delimited f) : Function.Injective f := fun _ _ h =>
  (hf (congrArg (· ++ ([] : List τ)) h)).1

/-- One spelling behind the other. -/
theorem append (hf : Delimited f) (hg : Delimited g) :
    Delimited fun p : α × β => f p.1 ++ g p.2 := by
  rintro ⟨a, b⟩ ⟨a', b'⟩ r s h
  simp only [List.append_assoc] at h
  obtain ⟨rfl, hbehind⟩ := hf h
  obtain ⟨rfl, hrest⟩ := hg hbehind
  exact ⟨rfl, hrest⟩

/-- **A list, spelled value by value, shows its end** by a text no value starts
with. -/
theorem flatMap_end (hf : Delimited f) {stop : List τ}
    (hstop : ∀ a r s, f a ++ r ≠ stop ++ s) : Delimited fun as : List α => as.flatMap f ++ stop := by
  intro as bs r s h
  dsimp only at h
  induction as generalizing bs with
  | nil =>
    cases bs with
    | nil => exact ⟨rfl, List.append_cancel_left h⟩
    | cons b bs =>
      simp only [List.flatMap_nil, List.nil_append, List.flatMap_cons, List.append_assoc] at h
      exact absurd h.symm (hstop b _ _)
  | cons a as ih =>
    cases bs with
    | nil =>
      simp only [List.flatMap_nil, List.nil_append, List.flatMap_cons, List.append_assoc] at h
      exact absurd h (hstop a _ _)
    | cons b bs =>
      simp only [List.flatMap_cons, List.append_assoc] at h
      obtain ⟨rfl, hbehind⟩ := hf h
      rw [← List.append_assoc, ← List.append_assoc] at hbehind
      obtain ⟨rfl, hrest⟩ := ih hbehind
      exact ⟨rfl, hrest⟩

/-- A whole list is spelled in one way, when no value is spelled by nothing. -/
theorem flatMap_injective (hf : Delimited f) (hne : ∀ a, f a ≠ []) :
    Function.Injective fun as : List α => as.flatMap f := by
  intro as bs h
  dsimp only at h
  induction as generalizing bs with
  | nil =>
    cases bs with
    | nil => rfl
    | cons b bs =>
      rw [List.flatMap_nil, List.flatMap_cons] at h
      exact absurd (List.append_eq_nil_iff.mp h.symm).1 (hne b)
  | cons a as ih =>
    cases bs with
    | nil =>
      rw [List.flatMap_nil, List.flatMap_cons] at h
      exact absurd (List.append_eq_nil_iff.mp h).1 (hne a)
    | cons b bs =>
      rw [List.flatMap_cons, List.flatMap_cons] at h
      obtain ⟨rfl, hrest⟩ := hf h
      rw [ih hrest]

end Delimited

namespace JsonText

/-! ## Texts -/

/-- What a text in quotes has for a character. -/
def escape (c : Char) : List Char :=
  if c = '"' then ['\\', '"']
  else if c = '\\' then ['\\', '\\']
  else if c.toNat = 8 then ['\\', 'b']
  else if c.toNat = 9 then ['\\', 't']
  else if c.toNat = 10 then ['\\', 'n']
  else if c.toNat = 12 then ['\\', 'f']
  else if c.toNat = 13 then ['\\', 'r']
  else if c.toNat < 32 then
    ['\\', 'u', '0', '0', Nat.digitChar (c.toNat / 16), Nat.digitChar (c.toNat % 16)]
  else [c]

/-- The first character of what a text in quotes has. -/
def unescape : List Char → Option (Char × List Char)
  | '\\' :: 'b' :: r => some (Char.ofNat 8, r)
  | '\\' :: 't' :: r => some (Char.ofNat 9, r)
  | '\\' :: 'n' :: r => some (Char.ofNat 10, r)
  | '\\' :: 'f' :: r => some (Char.ofNat 12, r)
  | '\\' :: 'r' :: r => some (Char.ofNat 13, r)
  | '\\' :: 'u' :: '0' :: '0' :: a :: b :: r =>
    some (Char.ofNat (16 * Bytes.hexValue a + Bytes.hexValue b), r)
  | '\\' :: c :: r => some (c, r)
  | c :: r => some (c, r)
  | [] => none

theorem unescape_escape (c : Char) (r : List Char) : unescape (escape c ++ r) = some (c, r) := by
  by_cases hquote : c = '"'
  · subst hquote
    rfl
  by_cases hslash : c = '\\'
  · subst hslash
    rfl
  by_cases hcontrol : c.toNat < 32
  · have hall : ∀ n < 32, unescape (escape (Char.ofNat n) ++ r) = some (Char.ofNat n, r) := by
      intro n hn
      interval_cases n <;> rfl
    have := hall c.toNat hcontrol
    rwa [Char.ofNat_toNat] at this
  · have hplain : escape c = [c] := by
      rw [escape, if_neg hquote, if_neg hslash, if_neg (by omega), if_neg (by omega),
        if_neg (by omega), if_neg (by omega), if_neg (by omega), if_neg hcontrol]
    rw [hplain, List.singleton_append]
    unfold unescape
    split <;> simp_all

theorem delimited_escape : Delimited escape := .of_read unescape_escape

/-- A text in quotes. -/
def quote (s : String) : List Char := '"' :: (s.toList.flatMap escape ++ ['"'])

theorem escape_append_ne (c : Char) (r s : List Char) : escape c ++ r ≠ ['"'] ++ s := by
  intro h
  have hread := unescape_escape c r
  rw [h] at hread
  obtain ⟨rfl, -⟩ := Prod.mk.inj (Option.some.inj hread)
  exact nomatch h

theorem delimited_quote : Delimited quote := by
  intro s t r r' h
  obtain ⟨htext, hrest⟩ := delimited_escape.flatMap_end escape_append_ne (List.cons.inj h).2
  exact ⟨String.toList_inj.mp htext, hrest⟩

/-! ## Lists -/

/-- The values of a list, each behind a comma. -/
def commas {α : Type} (write : α → List Char) (as : List α) : List Char :=
  as.flatMap fun a => ',' :: write a

/-- A list in brackets. -/
def bracket {α : Type} (write : α → List Char) : List α → List Char
  | [] => ['[', ']']
  | a :: as => '[' :: (write a ++ (commas write as ++ [']']))

theorem delimited_commas {α : Type} {write : α → List Char} (h : Delimited write) :
    Delimited fun as => commas write as ++ [']'] := by
  refine Delimited.flatMap_end (fun a b r s heq => h (List.cons.inj heq).2) fun a r s heq => ?_
  exact absurd (List.cons.inj heq).1 (by decide)

/-- **A list in brackets shows its own end**, when no value in it starts with a
bracket that closes. -/
theorem delimited_bracket {α : Type} {write : α → List Char} (h : Delimited write)
    (hopen : ∀ a r s, write a ++ r ≠ ']' :: s) : Delimited (bracket write) := by
  intro as bs r s heq
  cases as with
  | nil =>
    cases bs with
    | nil => exact ⟨rfl, (List.cons.inj (List.cons.inj heq).2).2⟩
    | cons b bs =>
      simp only [bracket, List.cons_append, List.append_assoc, List.cons.injEq, true_and] at heq
      exact absurd heq.symm (hopen b _ _)
  | cons a as =>
    cases bs with
    | nil =>
      simp only [bracket, List.cons_append, List.append_assoc, List.cons.injEq, true_and] at heq
      exact absurd heq (hopen a _ _)
    | cons b bs =>
      simp only [bracket, List.cons_append, List.append_assoc, List.cons.injEq, true_and] at heq
      obtain ⟨rfl, hbehind⟩ := h heq
      obtain ⟨rfl, hrest⟩ := @delimited_commas _ _ h as bs r s (by simpa using hbehind)
      exact ⟨rfl, hrest⟩

end JsonText
