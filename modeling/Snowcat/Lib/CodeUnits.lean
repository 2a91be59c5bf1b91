import Mathlib.Data.Fin.Basic
import Mathlib.Data.List.Basic

/-!
# Texts of code units

A text as JavaScript has it: a list of UTF-16 code units, in which a surrogate
may stand alone. Such a text can be read as characters (`decode`), where a
surrogate that stands alone is read as the replacement character; where none
does (`WellFormed`), two texts that are read alike are the same
(`decode_injOn`). The code units of some characters are read as these
(`decode_ofChars`).
-/

/-- A code unit of UTF-16. -/
abbrev CodeUnit : Type := Fin 65536

namespace CodeUnits

/-- There are code units. -/
instance instNeZero : @NeZero ℕ (@Zero.ofOfNat0 ℕ (instOfNatNat (nat_lit 0))) 65536 :=
  ⟨Nat.succ_ne_zero 65535⟩

/-- The code unit of a character below `U+10000`. -/
def unit (c : Char) : CodeUnit := Fin.ofNat 65536 c.toNat

/-- The code units of a text of such characters. -/
def units (s : String) : List CodeUnit := s.toList.map unit

/-- A surrogate that a pair starts with. -/
def isHigh (u : CodeUnit) : Bool := 0xD800 ≤ u.val && u.val ≤ 0xDBFF

/-- A surrogate that a pair ends with. -/
def isLow (u : CodeUnit) : Bool := 0xDC00 ≤ u.val && u.val ≤ 0xDFFF

/-- The character of a pair of surrogates. -/
def pairChar (h l : CodeUnit) : Char :=
  Char.ofNat (0x10000 + (h.val - 0xD800) * 0x400 + (l.val - 0xDC00))

/-- The character of a code unit that stands alone. -/
def unitChar (u : CodeUnit) : Char :=
  if isHigh u = true ∨ isLow u = true then Char.ofNat 0xFFFD else Char.ofNat u.val

/-- **The characters of a text.** -/
def decode : List CodeUnit → List Char
  | [] => []
  | [u] => [unitChar u]
  | h :: l :: rest =>
    if isHigh h = true ∧ isLow l = true then pairChar h l :: decode rest
    else unitChar h :: decode (l :: rest)

/-- A code unit that is no surrogate. -/
def Plain (u : CodeUnit) : Prop := isHigh u = false ∧ isLow u = false

instance (u : CodeUnit) : Decidable (Plain u) := inferInstanceAs (Decidable (_ ∧ _))

/-- **No surrogate of a text stands alone.** -/
def WellFormed : List CodeUnit → Prop
  | [] => True
  | [u] => Plain u
  | h :: l :: rest =>
    if isHigh h = true ∧ isLow l = true then WellFormed rest else Plain h ∧ WellFormed (l :: rest)

theorem wellFormed_cons {u : CodeUnit} (hu : Plain u) {us : List CodeUnit} :
    WellFormed (u :: us) ↔ WellFormed us := by
  cases us with
  | nil => exact iff_of_true hu trivial
  | cons v vs =>
    rw [WellFormed, if_neg fun h => absurd h.1 (Bool.eq_false_iff.mp hu.1)]
    exact and_iff_right hu

theorem wellFormed_pair {h l : CodeUnit} (hh : isHigh h = true) (hl : isLow l = true)
    {us : List CodeUnit} : WellFormed (h :: l :: us) ↔ WellFormed us := by
  rw [WellFormed, if_pos ⟨hh, hl⟩]

/-- One text without a surrogate alone behind the other. -/
theorem WellFormed.append {us vs : List CodeUnit} (hus : WellFormed us) (hvs : WellFormed vs) :
    WellFormed (us ++ vs) := by
  fun_induction WellFormed us with
  | case1 => exact hvs
  | case2 u => exact (wellFormed_cons hus).mpr hvs
  | case3 h l rest hpair ih => exact (wellFormed_pair hpair.1 hpair.2).mpr (ih hus)
  | case4 h l rest hpair ih => exact (wellFormed_cons hus.1).mpr (ih hus.2)

/-- A text without any surrogate. -/
theorem wellFormed_of_forall {us : List CodeUnit}
    (h : ∀ u ∈ us, Plain u) : WellFormed us := by
  induction us with
  | nil => trivial
  | cons u us ih =>
    rw [List.forall_mem_cons] at h
    exact (wellFormed_cons h.1).mpr (ih h.2)

/-! ## Reading the characters back -/

theorem toNat_ofNat {n : ℕ} (h : n.isValidChar) : (Char.ofNat n).toNat = n := by
  unfold Char.ofNat
  rw [dif_pos h]
  rfl

theorem toNat_pairChar {h l : CodeUnit} (hh : isHigh h = true) (hl : isLow l = true) :
    (pairChar h l).toNat = 0x10000 + (h.val - 0xD800) * 0x400 + (l.val - 0xDC00) := by
  unfold isHigh isLow at *
  simp only [Bool.and_eq_true, decide_eq_true_eq] at hh hl
  exact toNat_ofNat (Or.inr ⟨by omega, by omega⟩)

theorem toNat_unitChar {u : CodeUnit} (hu : Plain u) : (unitChar u).toNat = u.val := by
  have hlt := u.isLt
  have hplain := hu
  unfold Plain isHigh isLow at hplain
  simp only [Bool.and_eq_false_iff, decide_eq_false_iff_not, not_le] at hplain
  unfold unitChar
  rw [if_neg fun h => h.elim (Bool.eq_false_iff.mp hu.1) (Bool.eq_false_iff.mp hu.2)]
  refine toNat_ofNat ?_
  unfold Nat.isValidChar
  omega

theorem decode_cons {u : CodeUnit} (hu : Plain u) (us : List CodeUnit) :
    decode (u :: us) = unitChar u :: decode us := by
  cases us with
  | nil => rfl
  | cons v vs => rw [decode, if_neg fun h => absurd h.1 (Bool.eq_false_iff.mp hu.1)]

theorem decode_pair {h l : CodeUnit} (hh : isHigh h = true) (hl : isLow l = true)
    (us : List CodeUnit) : decode (h :: l :: us) = pairChar h l :: decode us := by
  rw [decode, if_pos ⟨hh, hl⟩]

/-- A text without a surrogate alone starts with a code unit that is none, or
with a pair. -/
theorem WellFormed.cases {us : List CodeUnit} (h : WellFormed us) :
    us = [] ∨ (∃ u rest, us = u :: rest ∧ Plain u ∧ WellFormed rest) ∨
      ∃ high low rest, us = high :: low :: rest ∧ isHigh high = true ∧ isLow low = true ∧
        WellFormed rest := by
  match us with
  | [] => exact Or.inl rfl
  | [u] => exact Or.inr (Or.inl ⟨u, [], rfl, h, trivial⟩)
  | u :: v :: rest =>
    rw [WellFormed] at h
    by_cases hpair : isHigh u = true ∧ isLow v = true
    · rw [if_pos hpair] at h
      exact Or.inr (Or.inr ⟨u, v, rest, rfl, hpair.1, hpair.2, h⟩)
    · rw [if_neg hpair] at h
      exact Or.inr (Or.inl ⟨u, v :: rest, rfl, h.1, h.2⟩)

/-- A pair and a code unit alone are different characters. -/
theorem pairChar_ne {h l u : CodeUnit} (hh : isHigh h = true) (hl : isLow l = true)
    (hu : Plain u) : pairChar h l ≠ unitChar u := by
  intro heq
  have hnat := congrArg Char.toNat heq
  rw [toNat_pairChar hh hl, toNat_unitChar hu] at hnat
  have := u.isLt
  omega

/-- **Two texts that are read alike are the same**, when no surrogate of
them stands alone. -/
theorem decode_injOn {us vs : List CodeUnit} (hus : WellFormed us) (hvs : WellFormed vs)
    (h : decode us = decode vs) : us = vs := by
  induction hlength : us.length using Nat.strong_induction_on generalizing us vs with
  | _ n ih =>
    subst hlength
    rcases hus.cases with rfl | ⟨u, rest, rfl, hu, hrest⟩ | ⟨a, b, rest, rfl, ha, hb, hrest⟩ <;>
      rcases hvs.cases with rfl | ⟨v, rest', rfl, hv, hrest'⟩ |
        ⟨c, d, rest', rfl, hc, hd, hrest'⟩
    · rfl
    · rw [decode_cons hv] at h
      exact nomatch h
    · rw [decode_pair hc hd] at h
      exact nomatch h
    · rw [decode_cons hu] at h
      exact nomatch h
    · rw [decode_cons hu, decode_cons hv, List.cons.injEq] at h
      have hchar : u.val = v.val := by
        rw [← toNat_unitChar hu, ← toNat_unitChar hv, h.1]
      rw [Fin.ext hchar, ih _ (Nat.lt_succ_self _) hrest hrest' h.2 rfl]
    · rw [decode_cons hu, decode_pair hc hd, List.cons.injEq] at h
      exact absurd h.1.symm (pairChar_ne hc hd hu)
    · rw [decode_pair ha hb] at h
      exact nomatch h
    · rw [decode_pair ha hb, decode_cons hv, List.cons.injEq] at h
      exact absurd h.1 (pairChar_ne ha hb hv)
    · rw [decode_pair ha hb, decode_pair hc hd, List.cons.injEq] at h
      have hnat := congrArg Char.toNat h.1
      rw [toNat_pairChar ha hb, toNat_pairChar hc hd] at hnat
      unfold isHigh at ha hc
      unfold isLow at hb hd
      simp only [Bool.and_eq_true, decide_eq_true_eq] at ha hb hc hd
      have hac : a = c := Fin.ext (by omega)
      have hbd : b = d := Fin.ext (by omega)
      rw [hac, hbd, ih _ (by rw [List.length_cons, List.length_cons]; omega) hrest hrest' h.2 rfl]

/-- **A text is read one part after the other**, where no pair stands across
them. -/
theorem decode_append {us vs : List CodeUnit} (h : ∀ u ∈ us.getLast?, isHigh u = false) :
    decode (us ++ vs) = decode us ++ decode vs := by
  fun_induction decode us with
  | case1 => rfl
  | case2 u =>
    have hu : isHigh u = false := h u rfl
    cases vs with
    | nil => rfl
    | cons v vs =>
      rw [List.singleton_append, decode, if_neg fun hpair => absurd hpair.1 (Bool.eq_false_iff.mp hu)]
      rfl
  | case3 a b rest hpair ih =>
    rw [List.cons_append, List.cons_append, decode_pair hpair.1 hpair.2, ih, List.cons_append]
    intro u hu
    cases rest with
    | nil => exact nomatch hu
    | cons c rest => exact h u hu
  | case4 a b rest hpair ih =>
    rw [List.cons_append, List.cons_append, decode, if_neg hpair, List.cons_append,
      ← List.cons_append, ih h]

/-- A character of a text that is no surrogate's and no replacement is one of its
code units. -/
theorem mem_of_mem_decode {us : List CodeUnit} {c : Char} (h : c ∈ decode us)
    (hlt : c.toNat < 0xD800) : ∃ u ∈ us, u.val = c.toNat := by
  have hunit : ∀ {u : CodeUnit}, (unitChar u).toNat < 0xD800 → u.val = (unitChar u).toNat := by
    intro u hu
    by_cases hplain : Plain u
    · exact (toNat_unitChar hplain).symm
    · have hlone : unitChar u = Char.ofNat 0xFFFD := by
        unfold unitChar
        rw [if_pos]
        unfold Plain at hplain
        rcases not_and_or.mp hplain with h | h
        · exact Or.inl (eq_true_of_ne_false h)
        · exact Or.inr (eq_true_of_ne_false h)
      have hvalid : (0xFFFD).isValidChar := by
        unfold Nat.isValidChar
        omega
      rw [hlone, toNat_ofNat hvalid] at hu
      omega
  fun_induction decode us with
  | case1 => exact nomatch h
  | case2 u =>
    obtain rfl := List.mem_singleton.mp h
    exact ⟨u, List.mem_singleton_self u, hunit hlt⟩
  | case3 a b rest hpair ih =>
    rcases List.mem_cons.mp h with hc | h
    · rw [hc, toNat_pairChar hpair.1 hpair.2] at hlt
      omega
    · obtain ⟨u, hu, heq⟩ := ih h
      exact ⟨u, List.mem_cons_of_mem _ (List.mem_cons_of_mem _ hu), heq⟩
  | case4 a b rest hpair ih =>
    rcases List.mem_cons.mp h with rfl | h
    · exact ⟨a, List.mem_cons_self, hunit hlt⟩
    · obtain ⟨u, hu, heq⟩ := ih h
      exact ⟨u, List.mem_cons_of_mem _ hu, heq⟩

/-! ## Writing characters -/

/-- The code units of a character: itself, or a pair of surrogates. -/
def ofChar (c : Char) : List CodeUnit :=
  if c.toNat < 0x10000 then [Fin.ofNat 65536 c.toNat]
  else [Fin.ofNat 65536 (0xD800 + (c.toNat - 0x10000) / 0x400),
    Fin.ofNat 65536 (0xDC00 + (c.toNat - 0x10000) % 0x400)]

/-- **The code units of some characters.** -/
def ofChars (cs : List Char) : List CodeUnit := cs.flatMap ofChar

/-- The code units of a character are read as it, whatever follows them. -/
theorem decode_ofChar_append (c : Char) (us : List CodeUnit) :
    decode (ofChar c ++ us) = c :: decode us := by
  have hvalid : c.toNat < 0xD800 ∨ 0xDFFF < c.toNat ∧ c.toNat < 0x110000 := c.valid
  have hself : Char.ofNat c.toNat = c := Char.ofNat_toNat c
  unfold ofChar
  generalize c.toNat = v at hvalid hself ⊢
  split
  · next hlt =>
    have hval : (Fin.ofNat 65536 v).val = v := Nat.mod_eq_of_lt hlt
    have hplain : Plain (Fin.ofNat 65536 v) := by
      unfold Plain isHigh isLow
      rw [hval, Bool.and_eq_false_iff, Bool.and_eq_false_iff, decide_eq_false_iff_not,
        decide_eq_false_iff_not, decide_eq_false_iff_not, decide_eq_false_iff_not]
      omega
    rw [List.singleton_append, decode_cons hplain]
    congr 1
    rw [← hself]
    unfold unitChar
    rw [if_neg fun h => h.elim (Bool.eq_false_iff.mp hplain.1) (Bool.eq_false_iff.mp hplain.2), hval]
  · next hlt =>
    have hhigh : (Fin.ofNat 65536 (0xD800 + (v - 0x10000) / 0x400)).val =
        0xD800 + (v - 0x10000) / 0x400 := Nat.mod_eq_of_lt (by omega)
    have hlow : (Fin.ofNat 65536 (0xDC00 + (v - 0x10000) % 0x400)).val =
        0xDC00 + (v - 0x10000) % 0x400 := Nat.mod_eq_of_lt (by omega)
    rw [List.cons_append, List.singleton_append, decode_pair]
    · rw [List.cons.injEq]
      refine ⟨?_, rfl⟩
      rw [← hself]
      unfold pairChar
      rw [hhigh, hlow]
      refine congrArg Char.ofNat ?_
      omega
    · unfold isHigh
      rw [hhigh, Bool.and_eq_true, decide_eq_true_eq, decide_eq_true_eq]
      omega
    · unfold isLow
      rw [hlow, Bool.and_eq_true, decide_eq_true_eq, decide_eq_true_eq]
      omega

/-- **Characters are read as they were written.** -/
theorem decode_ofChars (cs : List Char) : decode (ofChars cs) = cs := by
  induction cs with
  | nil => rfl
  | cons c cs ih =>
    show decode (ofChar c ++ ofChars cs) = _
    rw [decode_ofChar_append, ih]

theorem ofChars_injective : Function.Injective ofChars := fun cs ds h => by
  rw [← decode_ofChars cs, h, decode_ofChars]

/-- A code unit below the surrogates is the character it was written for. -/
theorem mem_of_mem_ofChars {cs : List Char} {u : CodeUnit} (h : u ∈ ofChars cs)
    (hlt : u.val < 0xD800) : ∃ c ∈ cs, c.toNat = u.val := by
  obtain ⟨c, hc, hu⟩ := List.mem_flatMap.mp h
  refine ⟨c, hc, ?_⟩
  have hvalid : c.toNat < 0xD800 ∨ 0xDFFF < c.toNat ∧ c.toNat < 0x110000 := c.valid
  unfold ofChar at hu
  generalize c.toNat = v at hvalid hu ⊢
  split at hu
  · next hsmall =>
    rw [List.mem_singleton.mp hu]
    exact (Nat.mod_eq_of_lt hsmall).symm
  · next hsmall =>
    exfalso
    have hhigh : (Fin.ofNat 65536 (0xD800 + (v - 0x10000) / 0x400)).val =
        0xD800 + (v - 0x10000) / 0x400 := Nat.mod_eq_of_lt (by omega)
    have hlow : (Fin.ofNat 65536 (0xDC00 + (v - 0x10000) % 0x400)).val =
        0xDC00 + (v - 0x10000) % 0x400 := Nat.mod_eq_of_lt (by omega)
    rcases List.mem_cons.mp hu with rfl | hu
    · rw [hhigh] at hlt
      omega
    · rw [List.mem_singleton.mp hu, hlow] at hlt
      omega

end CodeUnits
