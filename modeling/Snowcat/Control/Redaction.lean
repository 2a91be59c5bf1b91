import Mathlib.Data.List.TakeWhile
import Snowcat.Control.Diagnostic
import Snowcat.Lib.Transducer

/-!
# What a diagnostic hides

The pass that takes credentials out of a diagnostic looks ahead of where it
stands; all the same it is a machine that reads the text once, from left to
right, with four kinds of states (`redactFrom_eq_run`). What stands in front of
a value alone decides whether the machine takes the value out.
-/

namespace Snowcat

open CodeUnits Transducer

/-! ## The machine -/

/-- **Where the scan stands**: in a word, of which it has read some letters, or
outside of any; behind a keyword and white space; behind a keyword and its
separator; in what it takes out. -/
inductive Scan where
  | word (letters : List CodeUnit)
  | keyword
  | separated
  | removing
  deriving DecidableEq

/-- Whether a word is one of the keywords. -/
def isKeyword (letters : List CodeUnit) : Bool :=
  credentialKeywords.contains (letters.map lowerUnit)

/-- **A step of the scan**: what is written for a code unit, and the state behind
it. -/
def Scan.step : Scan → CodeUnit → List CodeUnit × Scan
  | .word letters, u =>
    ([u],
      if isWordUnit u then .word (letters ++ [u])
      else if isKeyword letters && isSeparator u then .separated
      else if isKeyword letters && isWhite u then .keyword
      else .word [])
  | .keyword, u =>
    ([u],
      if isWhite u then .keyword
      else if isSeparator u then .separated
      else if isWordUnit u then .word [u]
      else .word [])
  | .separated, u => if isWhite u then ([u], .separated) else (redacted, .removing)
  | .removing, u => if isWhite u then ([u], .word []) else ([], .removing)

/-! ### The classes are apart -/

theorem isWhite_iff {u : CodeUnit} : isWhite u = true ↔
    ((9 ≤ u.val ∧ u.val ≤ 13) ∨ u.val = 0x20 ∨ u.val = 0xA0 ∨ u.val = 0x1680) ∨
      (0x2000 ≤ u.val ∧ u.val ≤ 0x200A) ∨ u.val = 0x2028 ∨ u.val = 0x2029 ∨ u.val = 0x202F ∨
        u.val = 0x205F ∨ u.val = 0x3000 ∨ u.val = 0xFEFF := by
  unfold isWhite
  simp only [List.contains_eq_mem, List.mem_cons, List.not_mem_nil, or_false, Bool.or_eq_true,
    decide_eq_true_eq, Bool.and_eq_true]
  omega

theorem isWordUnit_iff {u : CodeUnit} : isWordUnit u = true ↔
    (0x30 ≤ u.val ∧ u.val ≤ 0x39) ∨ (0x41 ≤ u.val ∧ u.val ≤ 0x5A) ∨ u.val = 0x5F ∨
      (0x61 ≤ u.val ∧ u.val ≤ 0x7A) := by
  unfold isWordUnit
  simp only [Bool.or_eq_true, Bool.and_eq_true, decide_eq_true_eq, beq_iff_eq, or_assoc]

theorem val_of_isSeparator {u : CodeUnit} (h : isSeparator u = true) :
    u.val = 0x3A ∨ u.val = 0x3D := by
  unfold isSeparator at h
  rw [Bool.or_eq_true, beq_iff_eq, beq_iff_eq] at h
  rcases h with rfl | rfl
  · exact Or.inl rfl
  · exact Or.inr rfl

theorem isWhite_of_isWordUnit {u : CodeUnit} (h : isWordUnit u = true) : isWhite u = false := by
  refine eq_false_of_ne_true fun hwhite => ?_
  rw [isWordUnit_iff] at h
  rw [isWhite_iff] at hwhite
  omega

theorem isWhite_of_isSeparator {u : CodeUnit} (h : isSeparator u = true) : isWhite u = false := by
  have hval := val_of_isSeparator h
  refine eq_false_of_ne_true fun hwhite => ?_
  rw [isWhite_iff] at hwhite
  omega

theorem isWordUnit_of_isSeparator {u : CodeUnit} (h : isSeparator u = true) :
    isWordUnit u = false := by
  have hval := val_of_isSeparator h
  refine eq_false_of_ne_true fun hword => ?_
  rw [isWordUnit_iff] at hword
  omega

theorem isWordUnit_of_isWhite {u : CodeUnit} (h : isWhite u = true) : isWordUnit u = false :=
  eq_false_of_ne_true fun hword => Bool.false_ne_true ((isWhite_of_isWordUnit hword).symm.trans h)

theorem isSeparator_of_isWordUnit {u : CodeUnit} (h : isWordUnit u = true) :
    isSeparator u = false :=
  eq_false_of_ne_true fun hsep => Bool.false_ne_true ((isWordUnit_of_isSeparator hsep).symm.trans h)

theorem isSeparator_of_isWhite {u : CodeUnit} (h : isWhite u = true) : isSeparator u = false :=
  eq_false_of_ne_true fun hsep => Bool.false_ne_true ((isWhite_of_isSeparator hsep).symm.trans h)

/-- The case of a letter makes no word of what is none. -/
theorem isWordUnit_lowerUnit (u : CodeUnit) : isWordUnit (lowerUnit u) = isWordUnit u := by
  unfold lowerUnit
  split
  · next h =>
    have hval : (Fin.ofNat 65536 (u.val + 0x20)).val = u.val + 0x20 := Nat.mod_eq_of_lt (by omega)
    have hlower : isWordUnit (Fin.ofNat 65536 (u.val + 0x20)) = true := by
      rw [isWordUnit_iff, hval]
      omega
    rw [hlower, isWordUnit_iff.mpr (by omega)]
  · rfl

theorem isWordUnit_of_mem_keyword {keyword : List CodeUnit} (h : keyword ∈ credentialKeywords) :
    keyword ≠ [] ∧ ∀ u ∈ keyword, isWordUnit u = true := by
  have hall : ∀ keyword ∈ credentialKeywords, keyword ≠ [] ∧
      keyword.all isWordUnit = true := by
    decide +kernel
  exact ⟨(hall keyword h).1, List.all_eq_true.mp (hall keyword h).2⟩

theorem isKeyword_nil : isKeyword [] = false := by decide +kernel

/-! ### The pass and the machine -/

/-- A search that finds something at one place only. -/
theorem findSome?_of_eq {γ δ : Type} [DecidableEq γ] {f : γ → Option δ} {c : γ} {found : Option δ}
    {xs : List γ} (h : ∀ x ∈ xs, f x = if c = x then found else none) :
    xs.findSome? f = if c ∈ xs then found else none := by
  induction xs with
  | nil => rfl
  | cons x xs ih =>
    rw [List.forall_mem_cons] at h
    rw [List.findSome?_cons, h.1, ih h.2]
    by_cases heq : c = x
    · rw [if_pos heq, if_pos (List.mem_cons.mpr (Or.inl heq))]
      cases found with
      | none => exact ite_self _
      | some a => rfl
    · rw [if_neg heq]
      have hiff : c ∈ x :: xs ↔ c ∈ xs := List.mem_cons.trans (or_iff_right heq)
      simp only [hiff]

/-- What stands at the beginning of a text that is read as a word and what is
behind it: a match of the pattern takes the word as its keyword. -/
theorem matchCredential_append {word rest : List CodeUnit}
    (hword : ∀ u ∈ word, isWordUnit u = true) (hrest : ∀ u ∈ rest.head?, isWordUnit u = false) :
    matchCredential (word ++ rest) =
      if isKeyword word = true then matchBehind word rest else none := by
  have hkeyword : ∀ keyword ∈ credentialKeywords,
      (if ((word ++ rest).take keyword.length).map lowerUnit = keyword then
        matchBehind ((word ++ rest).take keyword.length) ((word ++ rest).drop keyword.length)
        else none) = if word.map lowerUnit = keyword then matchBehind word rest else none := by
    intro keyword hmem
    obtain ⟨-, hletters⟩ := isWordUnit_of_mem_keyword hmem
    by_cases heq : word.map lowerUnit = keyword
    · -- the keyword is the word
      have hlength : keyword.length = word.length := by rw [← heq, List.length_map]
      rw [hlength, List.take_left, List.drop_left]
    · rw [if_neg heq]
      split
      · next htake =>
        -- the keyword would be the beginning of the word, or end behind it
        rcases Nat.lt_trichotomy keyword.length word.length with hlt | hlength | hgt
        · rw [List.drop_append_of_le_length hlt.le]
          cases hdrop : word.drop keyword.length with
          | nil => exact absurd (List.drop_eq_nil_iff.mp hdrop) (not_le.mpr hlt)
          | cons u us =>
            have hu : isWordUnit u = true :=
              hword u (List.mem_of_mem_drop (hdrop ▸ List.mem_cons_self))
            unfold matchBehind
            rw [List.cons_append, List.dropWhile_cons_of_neg (by
              rw [isWhite_of_isWordUnit hu]; exact Bool.false_ne_true)]
            dsimp only
            rw [isSeparator_of_isWordUnit hu, if_neg fun h => Bool.false_ne_true h.1]
        · rw [hlength, List.take_left] at htake
          exact absurd htake heq
        · cases rest with
          | nil =>
            rw [List.append_nil, List.take_of_length_le hgt.le] at htake
            exact absurd htake heq
          | cons u us =>
            have hmem' : lowerUnit u ∈ keyword := by
              rw [← htake]
              refine List.mem_map_of_mem ?_
              rw [List.take_append, show keyword.length - word.length =
                (keyword.length - word.length - 1) + 1 by omega, List.take_succ_cons]
              exact List.mem_append_right _ List.mem_cons_self
            have hu := hletters _ hmem'
            rw [isWordUnit_lowerUnit, hrest u rfl] at hu
            exact absurd hu Bool.false_ne_true
      · rfl
  unfold matchCredential isKeyword
  rw [findSome?_of_eq hkeyword]
  by_cases hmem : word.map lowerUnit ∈ credentialKeywords
  · rw [if_pos hmem, if_pos (List.contains_iff_mem.mpr hmem)]
  · rw [if_neg hmem, if_neg fun h => hmem (List.contains_iff_mem.mp h)]

/-- Outside of a word the pass does not care where it has come from. -/
theorem redactFrom_of_head {inWord : Bool} {us : List CodeUnit}
    (h : ∀ u ∈ us.head?, isWordUnit u = false) : redactFrom inWord 0 us = redactFrom false 0 us := by
  cases us with
  | nil => rfl
  | cons u us =>
    have hnone : matchCredential (u :: us) = none := by
      have hmatch := @matchCredential_append [] (u :: us) (List.forall_mem_nil _) h
      rwa [isKeyword_nil, if_neg Bool.false_ne_true] at hmatch
    rw [redactFrom, redactFrom, hnone, ite_self, if_neg Bool.false_ne_true]

/-- What a match has taken is skipped. -/
theorem redactFrom_skip (inWord : Bool) (skip : ℕ) (us : List CodeUnit) :
    ∃ inWord', redactFrom inWord skip us = redactFrom inWord' 0 (us.drop skip) := by
  induction us generalizing inWord skip with
  | nil => exact ⟨inWord, by rw [List.drop_nil]; cases skip <;> rfl⟩
  | cons u us ih =>
    cases skip with
    | zero => exact ⟨inWord, rfl⟩
    | succ skip => exact ih (isWordUnit u) skip

/-- Behind the first letter of a word the pass finds nothing in it. -/
theorem redactFrom_word {word rest : List CodeUnit} (hword : ∀ u ∈ word, isWordUnit u = true) :
    redactFrom true 0 (word ++ rest) = word ++ redactFrom true 0 rest := by
  induction word with
  | nil => rfl
  | cons u word ih =>
    rw [List.forall_mem_cons] at hword
    rw [List.cons_append, redactFrom, if_pos rfl]
    dsimp only
    rw [hword.1, ih hword.2]
    rfl

/-- **What the machine does not take out it copies.** -/
theorem step_copies {s : Scan} {u : CodeUnit} (hs : s ≠ .removing)
    (h : s = .separated → isWhite u = true) :
    (Scan.step s u).1 = [u] ∧ (Scan.step s u).2 ≠ .removing := by
  cases s with
  | word letters =>
    refine ⟨rfl, ?_⟩
    rw [Scan.step]
    split_ifs <;> exact Scan.noConfusion
  | keyword =>
    refine ⟨rfl, ?_⟩
    rw [Scan.step]
    split_ifs <;> exact Scan.noConfusion
  | separated =>
    rw [Scan.step, if_pos (h rfl)]
    exact ⟨rfl, Scan.noConfusion⟩
  | removing => exact absurd rfl hs

/-- White space is copied, wherever the machine stands, when it takes nothing
out. -/
theorem run_white {blanks : List CodeUnit} (h : ∀ u ∈ blanks, isWhite u = true) {s : Scan}
    (hs : s ≠ .removing) : run Scan.step s blanks = blanks := by
  induction blanks generalizing s with
  | nil => rfl
  | cons u blanks ih =>
    rw [List.forall_mem_cons] at h
    obtain ⟨hout, hnext⟩ := step_copies hs fun _ => h.1
    rw [run, hout, ih h.2 hnext]
    rfl

/-- A word is read letter by letter. -/
theorem run_word {word : List CodeUnit} (hword : ∀ u ∈ word, isWordUnit u = true)
    (letters rest : List CodeUnit) :
    run Scan.step (.word letters) (word ++ rest) =
      word ++ run Scan.step (.word (letters ++ word)) rest := by
  induction word generalizing letters with
  | nil => rw [List.append_nil]; rfl
  | cons u word ih =>
    rw [List.forall_mem_cons] at hword
    have hstep : Scan.step (.word letters) u = ([u], .word (letters ++ [u])) := by
      rw [Scan.step, if_pos hword.1]
    rw [List.cons_append, run_cons hstep, ih hword.2, List.append_assoc]
    rfl

/-- Behind what is no keyword the machine stands outside of any word. -/
theorem step_of_not_isKeyword {letters : List CodeUnit} {u : CodeUnit}
    (hletters : isKeyword letters = false) (hu : isWordUnit u = false) :
    Scan.step (.word letters) u = ([u], .word []) := by
  rw [Scan.step, hu, hletters, if_neg Bool.false_ne_true, Bool.false_and, Bool.false_and,
    if_neg Bool.false_ne_true, if_neg Bool.false_ne_true]

/-- White space between two words. -/
theorem run_nil_white {blanks : List CodeUnit} (h : ∀ u ∈ blanks, isWhite u = true)
    (rest : List CodeUnit) :
    run Scan.step (.word []) (blanks ++ rest) = blanks ++ run Scan.step (.word []) rest :=
  run_append_of_copies
    (fun u hu => step_of_not_isKeyword isKeyword_nil (isWordUnit_of_isWhite (h u hu))) rest

/-- White space behind a keyword. -/
theorem run_keyword_white {blanks : List CodeUnit} (h : ∀ u ∈ blanks, isWhite u = true)
    (rest : List CodeUnit) :
    run Scan.step .keyword (blanks ++ rest) = blanks ++ run Scan.step .keyword rest :=
  run_append_of_copies (fun u hu => by rw [Scan.step, if_pos (h u hu)]) rest

/-- White space behind a separator. -/
theorem run_separated_white {blanks : List CodeUnit} (h : ∀ u ∈ blanks, isWhite u = true)
    (rest : List CodeUnit) :
    run Scan.step .separated (blanks ++ rest) = blanks ++ run Scan.step .separated rest :=
  run_append_of_copies (fun u hu => by rw [Scan.step, if_pos (h u hu)]) rest

/-- **Behind a keyword, white space and a separator** the machine waits for what
it takes out. -/
theorem run_keyword {word blanks : List CodeUnit} {separator : CodeUnit}
    (hword : isKeyword word = true) (hblanks : ∀ u ∈ blanks, isWhite u = true)
    (hseparator : isSeparator separator = true) (rest : List CodeUnit) :
    run Scan.step (.word word) (blanks ++ separator :: rest) =
      blanks ++ separator :: run Scan.step .separated rest := by
  have hnone := isWordUnit_of_isSeparator hseparator
  have hnotWhite := isWhite_of_isSeparator hseparator
  cases blanks with
  | nil =>
    have hstep : Scan.step (.word word) separator = ([separator], .separated) := by
      rw [Scan.step, hnone, hword, hseparator, if_neg Bool.false_ne_true, Bool.and_self, if_pos rfl]
    rw [List.nil_append, run_cons hstep]
    rfl
  | cons u blanks =>
    rw [List.forall_mem_cons] at hblanks
    have hstep : Scan.step (.word word) u = ([u], .keyword) := by
      rw [Scan.step, isWordUnit_of_isWhite hblanks.1, isSeparator_of_isWhite hblanks.1, hword,
        hblanks.1, if_neg Bool.false_ne_true, Bool.and_false, if_neg Bool.false_ne_true,
        Bool.and_self, if_pos rfl]
    have hend : Scan.step .keyword separator = ([separator], .separated) := by
      rw [Scan.step, hnotWhite, hseparator, if_neg Bool.false_ne_true, if_pos rfl]
    rw [List.cons_append, run_cons hstep, run_keyword_white hblanks.2, run_cons hend]
    rfl

/-- What is taken out, and the white space behind it. -/
theorem run_removing {removed : List CodeUnit} (hremoved : ∀ u ∈ removed, isWhite u = false)
    (rest : List CodeUnit) :
    run Scan.step .removing (removed ++ rest) = run Scan.step .removing rest := by
  induction removed with
  | nil => rfl
  | cons u removed ih =>
    rw [List.forall_mem_cons] at hremoved
    have hstep : Scan.step .removing u = ([], .removing) := by
      rw [Scan.step, hremoved.1, if_neg Bool.false_ne_true]
    rw [List.cons_append, run_cons hstep, ih hremoved.2]
    rfl

theorem run_separated {removed : List CodeUnit} (hne : removed ≠ [])
    (hremoved : ∀ u ∈ removed, isWhite u = false) (rest : List CodeUnit) :
    run Scan.step .separated (removed ++ rest) = redacted ++ run Scan.step .removing rest := by
  cases removed with
  | nil => exact absurd rfl hne
  | cons u removed =>
    rw [List.forall_mem_cons] at hremoved
    have hstep : Scan.step .separated u = (redacted, .removing) := by
      rw [Scan.step, hremoved.1, if_neg Bool.false_ne_true]
    rw [List.cons_append, run_cons hstep, run_removing hremoved.2]

/-- Behind what has been taken out the machine stands outside of any word. -/
theorem run_removing_of_head {rest : List CodeUnit} (h : ∀ u ∈ rest.head?, isWhite u = true) :
    run Scan.step .removing rest = run Scan.step (.word []) rest := by
  cases rest with
  | nil => rfl
  | cons u rest =>
    have hu := h u rfl
    have hstep : Scan.step .removing u = ([u], .word []) := by rw [Scan.step, if_pos hu]
    rw [run_cons hstep, run_cons (step_of_not_isKeyword isKeyword_nil (isWordUnit_of_isWhite hu))]

theorem of_mem_head?_dropWhile {α : Type} {p : α → Bool} {as : List α} {a : α}
    (h : a ∈ (as.dropWhile p).head?) : p a = false := by
  have hhead := List.head?_dropWhile_not p as
  rw [Option.mem_def.mp h] at hhead
  exact hhead

/-- **Where nothing matches behind a word** the machine reads on as if the word
had ended. -/
theorem run_of_not_matched {word rest : List CodeUnit}
    (hrest : ∀ u ∈ rest.head?, isWordUnit u = false)
    (hnone : isKeyword word = true → matchBehind word rest = none) :
    run Scan.step (.word word) rest = run Scan.step (.word []) rest := by
  by_cases hword : isKeyword word = true
  · have hwhite : ∀ u ∈ rest.takeWhile isWhite, isWhite u = true :=
      fun u hu => List.mem_takeWhile_imp hu
    have hsplit : rest.takeWhile isWhite ++ rest.dropWhile isWhite = rest :=
      List.takeWhile_append_dropWhile
    have hmatch := hnone hword
    unfold matchBehind at hmatch
    cases hdrop : rest.dropWhile isWhite with
    | nil =>
      -- nothing but white space
      have hall : ∀ u ∈ rest, isWhite u = true := List.dropWhile_eq_nil_iff.mp hdrop
      rw [run_white hall Scan.noConfusion, run_white hall Scan.noConfusion]
    | cons u behind =>
      have hu : isWhite u = false := @of_mem_head?_dropWhile _ _ rest _ (by rw [hdrop]; rfl)
      rw [hdrop] at hmatch hsplit
      dsimp only at hmatch
      by_cases hseparator : isSeparator u = true
      · -- a separator, and nothing but white space behind it
        have hrun : (behind.dropWhile isWhite).takeWhile (fun u => !isWhite u) = [] := by
          by_contra hne
          rw [if_pos ⟨hseparator, hne⟩] at hmatch
          exact nomatch hmatch
        have hall : ∀ u ∈ behind, isWhite u = true := by
          rw [← List.dropWhile_eq_nil_iff]
          cases hbehind : behind.dropWhile isWhite with
          | nil => rfl
          | cons v more =>
            have hv : isWhite v = false :=
              @of_mem_head?_dropWhile _ _ behind _ (by rw [hbehind]; rfl)
            rw [hbehind, List.takeWhile_cons_of_pos (by rw [hv]; rfl)] at hrun
            exact nomatch hrun
        rw [← hsplit, run_keyword hword hwhite hseparator, run_white hall Scan.noConfusion,
          run_nil_white hwhite, run_cons (step_of_not_isKeyword isKeyword_nil
            (isWordUnit_of_isSeparator hseparator)), run_white hall Scan.noConfusion]
        rfl
      · -- no separator
        have hnot : isSeparator u = false := eq_false_of_ne_true hseparator
        rw [← hsplit, run_nil_white hwhite]
        cases hblanks : rest.takeWhile isWhite with
        | nil =>
          rw [hblanks, List.nil_append] at hsplit
          have hnone : isWordUnit u = false := hrest u (by rw [← hsplit]; rfl)
          have hstep : Scan.step (.word word) u = ([u], .word []) := by
            rw [Scan.step, hnone, hnot, hu, if_neg Bool.false_ne_true, Bool.and_false,
              if_neg Bool.false_ne_true, if_neg Bool.false_ne_true]
          rw [List.nil_append, List.nil_append, run_cons hstep,
            run_cons (step_of_not_isKeyword isKeyword_nil hnone)]
        | cons v blanks =>
          rw [hblanks, List.forall_mem_cons] at hwhite
          have hstep : Scan.step (.word word) v = ([v], .keyword) := by
            rw [Scan.step, isWordUnit_of_isWhite hwhite.1, isSeparator_of_isWhite hwhite.1, hword,
              hwhite.1, if_neg Bool.false_ne_true, Bool.and_false, if_neg Bool.false_ne_true,
              Bool.and_self, if_pos rfl]
          have hsame : Scan.step .keyword u = Scan.step (.word []) u := by
            rw [Scan.step, Scan.step, hu, hnot, isKeyword_nil, if_neg Bool.false_ne_true,
              if_neg Bool.false_ne_true]
            rfl
          rw [List.cons_append, run_cons hstep, run_keyword_white hwhite.2, run, hsame]
          rfl
  · -- the word is no keyword
    cases rest with
    | nil => rfl
    | cons u rest =>
      have hu := hrest u rfl
      rw [run_cons (step_of_not_isKeyword (eq_false_of_ne_true hword) hu),
        run_cons (step_of_not_isKeyword isKeyword_nil hu)]

/-- **What a match behind a keyword takes**: white space, a separator, white
space, and what stands there up to the next white space. -/
theorem matchBehind_eq_some {word rest kept : List CodeUnit} {count : ℕ}
    (h : matchBehind word rest = some (kept, count)) :
    ∃ blanks separator more removed behind,
      rest = blanks ++ separator :: (more ++ (removed ++ behind)) ∧
      kept = word ++ blanks ++ separator :: more ∧ count = removed.length ∧
      (∀ u ∈ blanks, isWhite u = true) ∧ isSeparator separator = true ∧
      (∀ u ∈ more, isWhite u = true) ∧ removed ≠ [] ∧ (∀ u ∈ removed, isWhite u = false) ∧
      ∀ u ∈ behind.head?, isWhite u = true := by
  unfold matchBehind at h
  cases hdrop : rest.dropWhile isWhite with
  | nil =>
    rw [hdrop] at h
    exact nomatch h
  | cons separator behind =>
    rw [hdrop] at h
    dsimp only at h
    split at h
    · next hmatch =>
      cases h
      refine ⟨rest.takeWhile isWhite, separator, behind.takeWhile isWhite,
        (behind.dropWhile isWhite).takeWhile fun u => !isWhite u,
        (behind.dropWhile isWhite).dropWhile fun u => !isWhite u, ?_, rfl, rfl,
        fun u hu => List.mem_takeWhile_imp hu, hmatch.1, fun u hu => List.mem_takeWhile_imp hu,
        hmatch.2, fun u hu => ?_, fun u hu => ?_⟩
      · rw [List.takeWhile_append_dropWhile, List.takeWhile_append_dropWhile, ← hdrop,
          List.takeWhile_append_dropWhile]
      · have hnot := List.mem_takeWhile_imp hu
        rwa [Bool.not_eq_true'] at hnot
      · have hnot := of_mem_head?_dropWhile hu
        rwa [Bool.not_eq_false'] at hnot
    · exact nomatch h

/-- **The pass is the machine.** -/
theorem redactFrom_eq_run (us : List CodeUnit) :
    redactFrom false 0 us = run Scan.step (.word []) us := by
  induction hlength : us.length using Nat.strong_induction_on generalizing us with
  | _ n ih =>
    subst hlength
    -- the text is a word, and what is behind it
    have hsplit : us.takeWhile isWordUnit ++ us.dropWhile isWordUnit = us :=
      List.takeWhile_append_dropWhile
    have hword : ∀ u ∈ us.takeWhile isWordUnit, isWordUnit u = true :=
      fun u hu => List.mem_takeWhile_imp hu
    have hrest : ∀ u ∈ (us.dropWhile isWordUnit).head?, isWordUnit u = false :=
      fun u hu => of_mem_head?_dropWhile hu
    generalize us.takeWhile isWordUnit = word at hsplit hword
    generalize us.dropWhile isWordUnit = rest at hsplit hrest
    subst hsplit
    have hmatch := matchCredential_append hword hrest
    have hbehind : ∀ {behind : List CodeUnit}, behind.length < (word ++ rest).length →
        redactFrom false 0 behind = run Scan.step (.word []) behind :=
      fun hlt => ih _ hlt _ rfl
    cases word with
    | nil =>
      cases rest with
      | nil => rfl
      | cons u rest =>
        have hu := hrest u rfl
        rw [List.nil_append] at hmatch hbehind ⊢
        rw [isKeyword_nil, if_neg Bool.false_ne_true] at hmatch
        rw [redactFrom, hmatch, if_neg Bool.false_ne_true]
        dsimp only
        rw [hu, hbehind (Nat.lt_succ_self _), run_cons (step_of_not_isKeyword isKeyword_nil hu)]
        rfl
    | cons first word =>
      rw [run_word hword, List.nil_append]
      have hletters := (List.forall_mem_cons.mp hword).2
      cases hfound : matchCredential ((first :: word) ++ rest) with
      | none =>
        rw [hfound] at hmatch
        have hnone : isKeyword (first :: word) = true → matchBehind (first :: word) rest = none := by
          intro hkeyword
          rwa [if_pos hkeyword, eq_comm] at hmatch
        rw [List.cons_append] at hfound ⊢
        rw [redactFrom, hfound, if_neg Bool.false_ne_true]
        dsimp only
        rw [hword first List.mem_cons_self, redactFrom_word hletters, redactFrom_of_head hrest,
          run_of_not_matched hrest hnone, hbehind (by
            rw [List.length_append, List.length_cons]
            omega)]
        rfl
      | some found =>
        obtain ⟨kept, count⟩ := found
        rw [hfound] at hmatch
        have hkeyword : isKeyword (first :: word) = true := by
          by_contra hnot
          rw [if_neg hnot] at hmatch
          exact nomatch hmatch
        rw [if_pos hkeyword] at hmatch
        obtain ⟨blanks, separator, more, removed, behind, rfl, rfl, rfl, hblanks, hseparator, hmore,
          hne, hremoved, hhead⟩ := matchBehind_eq_some hmatch.symm
        rw [List.cons_append] at hfound ⊢
        rw [redactFrom, hfound, if_neg Bool.false_ne_true]
        dsimp only
        -- what the match has taken is skipped
        obtain ⟨inWord, hskip⟩ := redactFrom_skip (isWordUnit first)
          ((first :: word ++ blanks ++ separator :: more).length + removed.length - 1)
          (word ++ (blanks ++ separator :: (more ++ (removed ++ behind))))
        have hdrop : (word ++ (blanks ++ separator :: (more ++ (removed ++ behind)))).drop
            ((first :: word ++ blanks ++ separator :: more).length + removed.length - 1) =
              behind := by
          rw [show word ++ (blanks ++ separator :: (more ++ (removed ++ behind))) =
            (word ++ blanks ++ separator :: more ++ removed) ++ behind by simp]
          refine List.drop_left' ?_
          simp only [List.length_append, List.length_cons]
          omega
        rw [hskip, hdrop, redactFrom_of_head fun u hu => isWordUnit_of_isWhite (hhead u hu),
          hbehind (by simp only [List.length_append, List.length_cons]; omega),
          run_keyword hkeyword hblanks hseparator, run_separated_white hmore,
          run_separated hne hremoved, run_removing_of_head hhead]
        simp

end Snowcat
