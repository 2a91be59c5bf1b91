import Snowcat.Control.Sanitized

/-!
# Credentials in a diagnostic

A credential behind a keyword and its separator is hidden when the scan takes it
out, or when the cut comes before it, and is shown otherwise
(`hides_iff`): then two values that differ in their first letter give two
diagnostics. The scan takes out one run of visible code units only; behind
`Authorization:` this is the scheme (`not_removes_header`).
-/

namespace Snowcat

open CodeUnits Transducer

/-- **What introduces a credential**: a keyword, in any case, with its separator;
or the beginning of a header, with a scheme as well. -/
inductive Introduces : List CodeUnit → Prop
  | keyword {front keyword blanks more : List CodeUnit} {separator : CodeUnit} :
      isKeyword keyword = true → (∀ u ∈ blanks, isWhite u = true) → isSeparator separator = true →
      (∀ u ∈ more, isWhite u = true) →
      Introduces (front ++ keyword ++ blanks ++ separator :: more)
  | header {front keyword blanks more scheme space : List CodeUnit} {separator : CodeUnit} :
      keyword.map lowerUnit = units "authorization" → (∀ u ∈ blanks, isWhite u = true) →
      isSeparator separator = true → (∀ u ∈ more, isWhite u = true) →
      scheme ≠ [] → (∀ u ∈ scheme, isVisible u = true) →
      space ≠ [] → (∀ u ∈ space, isWhite u = true) →
      Introduces (front ++ keyword ++ blanks ++ separator :: more ++ scheme ++ space)

/-- **A credential**: a value that is visible throughout, and stands nowhere
else. -/
structure Credential (before behind value : List CodeUnit) : Prop where
  ne_nil : value ≠ []
  visible : ∀ u ∈ value, isVisible u = true
  notBefore : ¬ value <:+: before
  notBehind : ¬ value <:+: behind

/-- **A credential is hidden**: another one in its place gives the same
diagnostic. -/
def Hides (fallback before value behind : List CodeUnit) : Prop :=
  ∀ other, Credential before behind other →
    sanitizeDiagnostic (before ++ value ++ behind) fallback =
      sanitizeDiagnostic (before ++ other ++ behind) fallback

theorem Introduces.endsApart {before : List CodeUnit} (h : Introduces before) :
    ∀ u ∈ before.getLast?, endsApart u = true := by
  have hwhite : ∀ {front text : List CodeUnit}, text ≠ [] → (∀ u ∈ text, isWhite u = true) →
      ∀ u ∈ (front ++ text).getLast?, Snowcat.endsApart u = true := by
    intro front text hne hall u hu
    rw [List.getLast?_append_of_ne_nil _ hne] at hu
    unfold Snowcat.endsApart
    rw [hall u (List.mem_of_mem_getLast? hu)]
    rfl
  cases h with
  | @keyword front keyword blanks more separator _ _ hseparator hmore =>
    intro u hu
    cases more with
    | nil =>
      rw [List.getLast?_concat] at hu
      obtain rfl := Option.some.inj hu
      unfold Snowcat.endsApart
      rw [hseparator, Bool.or_true]
    | cons v more =>
      rw [List.append_cons] at hu
      exact hwhite (List.cons_ne_nil _ _) hmore u hu
  | header _ _ _ _ _ _ hne hspace => exact hwhite hne hspace

/-! ## What is shown -/

theorem decode_shown {before rest : List CodeUnit} {u : CodeUnit} (h : ¬ Removes before)
    (hbefore : Introduces before) :
    decode (shown before ++ u :: rest) = decode (shown before) ++ decode (u :: rest) :=
  decode_append fun _ hv => getLast?_shown h hbefore.endsApart hv

/-- What is stored of a text does not look behind the cut. -/
theorem cutText_of_le {cs : List Char} (h : maximumDiagnosticBytes ≤ (Utf8.encode cs).length)
    (ds : List Char) : cutText (cs ++ ds) = cutText cs := by
  unfold cutText
  rw [Utf8.encode_append, List.take_append_of_le_length h]

/-- **A letter in front of the cut is stored**, behind what is stored of the text
in front of it. -/
theorem cutText_append {cs : List Char} {c : Char}
    (h : (Utf8.encode cs).length < maximumDiagnosticBytes) (hc : c.utf8Size = 1)
    (hmark : c ≠ Utf8.byteOrderMark) (hreplacement : c ≠ Utf8.replacement) (ds : List Char) :
    ∃ more, cutText (cs ++ c :: ds) = dropMark cs ++ c :: more := by
  have hfits : ∃ fit, Utf8.fits maximumDiagnosticBytes (cs ++ c :: ds) = cs ++ c :: fit := by
    rw [Utf8.fits_append h.le, Utf8.fits_cons_of_le (by omega)]
    exact ⟨_, rfl⟩
  obtain ⟨fit, hfits⟩ := hfits
  have hdrop : dropMark (cs ++ c :: fit) = dropMark cs ++ c :: fit := by
    cases cs with
    | nil =>
      show (if c = Utf8.byteOrderMark then fit else c :: fit) = c :: fit
      rw [if_neg hmark]
    | cons d cs =>
      show (if d = Utf8.byteOrderMark then cs ++ c :: fit else d :: (cs ++ c :: fit)) = _
      rw [dropMark]
      split <;> rfl
  rcases cutText_eq (cs ++ c :: ds) with hcut | hcut <;> rw [hcut, hfits, hdrop]
  · exact ⟨fit, rfl⟩
  · unfold dropReplacement
    split
    · next hlast =>
      -- it is not the letter that is dropped
      rcases List.eq_nil_or_concat fit with rfl | ⟨front, last, rfl⟩
      · rw [List.getLast?_concat] at hlast
        exact absurd (Option.some.inj hlast) hreplacement
      · refine ⟨front, ?_⟩
        rw [List.concat_eq_append, ← List.cons_append, ← List.append_assoc, List.dropLast_concat]
    · exact ⟨fit, rfl⟩

/-- Some letters, more of them than a text has. -/
theorem credential_replicate {before behind : List CodeUnit} {u : CodeUnit}
    (hu : isVisible u = true) :
    Credential before behind (List.replicate (before.length + behind.length + 1) u) where
  ne_nil := List.cons_ne_nil _ _
  visible v hv := (List.eq_of_mem_replicate hv) ▸ hu
  notBefore h := by
    have hlength := h.length_le
    rw [List.length_replicate] at hlength
    omega
  notBehind h := by
    have hlength := h.length_le
    rw [List.length_replicate] at hlength
    omega

/-- **A credential is hidden exactly when** the scan takes it out, or what is
shown in front of it fills the diagnostic. -/
theorem hides_iff {fallback before value behind : List CodeUnit} (hbefore : Introduces before)
    (hvalue : Credential before behind value) :
    Hides fallback before value behind ↔
      Removes before ∨ maximumDiagnosticBytes ≤ (Utf8.encode (decode (shown before))).length := by
  -- a text that a letter is shown of is not empty
  have hshown : ∀ {u : CodeUnit} {text : List CodeUnit}, ¬ Removes before → isVisible u = true →
      ∃ rest, sanitizeDiagnostic (before ++ (u :: text) ++ behind) fallback =
        ofChars (cutText (decode (shown before) ++ decode (u :: rest))) := by
    intro u text hnot hu
    obtain ⟨rest, hrest⟩ := @normalizeDiagnostic_of_not_removes before behind text u hnot hu
    refine ⟨rest, ?_⟩
    rw [sanitizeDiagnostic_eq, hrest, if_neg (List.append_ne_nil_of_right_ne_nil _
      (List.cons_ne_nil _ _)), decode_shown hnot hbefore]
  constructor
  · intro hhides
    by_contra hnot
    obtain ⟨hremoves, hroom⟩ := not_or.mp hnot
    -- two values of one letter each, as long as it takes
    have ha : isVisible (unit 'a') = true := by decide +kernel
    have hb : isVisible (unit 'b') = true := by decide +kernel
    have hsame := (hhides _ (credential_replicate ha)).symm.trans
      (hhides _ (credential_replicate hb))
    rw [List.replicate_succ, List.replicate_succ] at hsame
    obtain ⟨restA, hA⟩ := @hshown _ (List.replicate _ (unit 'a')) hremoves ha
    obtain ⟨restB, hB⟩ := @hshown _ (List.replicate _ (unit 'b')) hremoves hb
    rw [hA, hB, decode_cons (by decide +kernel), decode_cons (by decide +kernel)] at hsame
    have hcharA : unitChar (unit 'a') = 'a' := by decide +kernel
    have hcharB : unitChar (unit 'b') = 'b' := by decide +kernel
    rw [hcharA, hcharB] at hsame
    obtain ⟨moreA, hmoreA⟩ := cutText_append (not_le.mp hroom) (show ('a').utf8Size = 1 from rfl)
      (by decide) (by decide) (decode restA)
    obtain ⟨moreB, hmoreB⟩ := cutText_append (not_le.mp hroom) (show ('b').utf8Size = 1 from rfl)
      (by decide) (by decide) (decode restB)
    have hcut := ofChars_injective hsame
    rw [hmoreA, hmoreB] at hcut
    have hletter := (List.cons.inj (List.append_cancel_left hcut)).1
    exact absurd hletter (by decide)
  · intro hcondition other hother
    by_cases hremoves : Removes before
    · rw [sanitizeDiagnostic_eq, sanitizeDiagnostic_eq, normalizeDiagnostic_of_removes hremoves
        hvalue.ne_nil hother.ne_nil hvalue.visible hother.visible]
    · have hfull := hcondition.resolve_left hremoves
      have hcut : ∀ {text}, Credential before behind text →
          sanitizeDiagnostic (before ++ text ++ behind) fallback =
            ofChars (cutText (decode (shown before))) := by
        intro text htext
        cases text with
        | nil => exact absurd rfl htext.ne_nil
        | cons u text =>
          obtain ⟨rest, hrest⟩ :=
            @hshown _ text hremoves (htext.visible u List.mem_cons_self)
          rw [hrest, cutText_of_le hfull]
      rw [hcut hvalue, hcut hother]

/-- **In a header the scan lets go before the value**: where it takes out what is
behind the separator it takes out the scheme. -/
theorem not_removes_header {introduction scheme space : List CodeUnit}
    (h : scanned introduction = .separated) (hne : scheme ≠ [])
    (hscheme : ∀ u ∈ scheme, isVisible u = true) (hspace : space ≠ [])
    (hwhite : ∀ u ∈ space, isWhite u = true) : ¬ Removes (introduction ++ scheme ++ space) := by
  have hrun : ∀ {text : List CodeUnit}, (∀ u ∈ text, isWhite u = false) →
      final Scan.step .removing text = .removing := by
    intro text htext
    induction text with
    | nil => rfl
    | cons u text ih =>
      rw [List.forall_mem_cons] at htext
      show final Scan.step (Scan.step .removing u).2 text = _
      rw [Scan.step, htext.1, if_neg Bool.false_ne_true]
      exact ih htext.2
  have hfree : ∀ {text : List CodeUnit}, (∀ u ∈ text, isWhite u = true) →
      final Scan.step (.word []) text = .word [] := by
    intro text htext
    induction text with
    | nil => rfl
    | cons u text ih =>
      rw [List.forall_mem_cons] at htext
      show final Scan.step (Scan.step (.word []) u).2 text = _
      rw [step_of_not_isKeyword isKeyword_nil (isWordUnit_of_isWhite htext.1)]
      exact ih htext.2
  cases scheme with
  | nil => exact absurd rfl hne
  | cons u scheme =>
    rw [List.forall_mem_cons] at hscheme
    obtain ⟨hcontrol, hnotWhite⟩ := not_isControl_of_isVisible hscheme.1
    -- the space behind the scheme is one of white space, however it is written
    have hblanks : ∃ v blanks, replaceRuns isControl false space = v :: blanks ∧
        ∀ w ∈ v :: blanks, isWhite w = true := by
      cases space with
      | nil => exact absurd rfl hspace
      | cons v space =>
        have hall : ∀ w ∈ replaceRuns isControl false (v :: space), isWhite w = true := by
          intro w hw
          rcases mem_of_mem_replaceRuns hw with rfl | ⟨hmem, -⟩
          · decide +kernel
          · exact hwhite w hmem
        by_cases hv : isControl v = true
        · have heq : replaceRuns isControl false (v :: space) =
              unit ' ' :: replaceRuns isControl true space := by
            rw [replaceRuns, if_pos hv]
            rfl
          exact ⟨_, _, heq, heq ▸ hall⟩
        · have heq : replaceRuns isControl false (v :: space) =
              v :: replaceRuns isControl false space := by
            rw [replaceRuns, if_neg hv]
          exact ⟨_, _, heq, heq ▸ hall⟩
    obtain ⟨v, blanks, hspaceEq, hall⟩ := hblanks
    have hscanned : scanned (introduction ++ (u :: scheme) ++ space) = .word [] := by
      unfold scanned at h ⊢
      rw [List.append_assoc, List.cons_append, replaceRuns_append hcontrol, final_append, h,
        replaceRuns_append_of_forall fun w hw => (not_isControl_of_isVisible (hscheme.2 w hw)).1,
        hspaceEq]
      show final Scan.step (Scan.step .separated u).2 _ = _
      rw [Scan.step, hnotWhite, if_neg Bool.false_ne_true, final_append,
        hrun fun w hw => (not_isControl_of_isVisible (hscheme.2 w hw)).2]
      rw [List.forall_mem_cons] at hall
      show final Scan.step (Scan.step .removing v).2 blanks = _
      rw [Scan.step, if_pos hall.1]
      exact hfree hall.2
    unfold Removes
    rw [hscanned]
    exact not_or.mpr ⟨Scan.noConfusion, Scan.noConfusion⟩

/-! ## When a diagnostic is as it should be -/

/-- What is said of a Core candidate that says nothing itself. -/
def coreFallback : List CodeUnit := units "Unspecified Core candidate rejection"

end Snowcat
