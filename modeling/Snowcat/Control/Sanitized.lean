import Snowcat.Control.Redaction

/-!
# A diagnostic once it is sanitized

A sanitized diagnostic can be stored unless nothing is left of it: a lone
replacement character at its end is taken for a character that the cut has
spoilt, and dropped. And a credential is hidden exactly where the scan is taking
out what it reads, or the cut comes first; in the header form
`Authorization: <scheme> <value>` it has taken out the scheme by then, and the
value is shown.
-/

namespace Snowcat

open CodeUnits Transducer

/-! ## Runs that are folded -/

section Runs

variable {cls : CodeUnit → Bool} {inRun : Bool} {us vs : List CodeUnit} {v : CodeUnit}

theorem replaceRuns_cons_of_not (hv : cls v = false) :
    replaceRuns cls inRun (v :: vs) = v :: replaceRuns cls false vs := by
  rw [replaceRuns, hv, if_neg Bool.false_ne_true]

/-- **A run ends** where something else stands. -/
theorem replaceRuns_append (hv : cls v = false) :
    replaceRuns cls inRun (us ++ v :: vs) =
      replaceRuns cls inRun us ++ v :: replaceRuns cls false vs := by
  induction us generalizing inRun with
  | nil => exact replaceRuns_cons_of_not hv
  | cons u us ih =>
    rw [List.cons_append, replaceRuns, replaceRuns]
    split
    · split
      · exact ih
      · rw [ih]
        rfl
    · rw [ih]
      rfl

theorem replaceRuns_append_of_forall (hus : ∀ u ∈ us, cls u = false) :
    replaceRuns cls false (us ++ vs) = us ++ replaceRuns cls false vs := by
  induction us with
  | nil => rfl
  | cons u us ih =>
    rw [List.forall_mem_cons] at hus
    rw [List.cons_append, replaceRuns_cons_of_not hus.1, ih hus.2]
    rfl

theorem mem_of_mem_replaceRuns {u : CodeUnit} (h : u ∈ replaceRuns cls inRun us) :
    u = unit ' ' ∨ u ∈ us ∧ cls u = false := by
  induction us generalizing inRun with
  | nil => exact nomatch h
  | cons v us ih =>
    have hlater : ∀ {inRun}, u ∈ replaceRuns cls inRun us → u = unit ' ' ∨ u ∈ v :: us ∧ cls u = false :=
      fun h => (ih h).imp_right fun h => ⟨List.mem_cons_of_mem _ h.1, h.2⟩
    rw [replaceRuns] at h
    split at h
    · split at h
      · exact hlater h
      · rcases List.mem_cons.mp h with rfl | h
        · exact Or.inl rfl
        · exact hlater h
    · next hv =>
      rcases List.mem_cons.mp h with rfl | h
      · exact Or.inr ⟨List.mem_cons_self, eq_false_of_ne_true hv⟩
      · exact hlater h

/-- What neither stands for a run nor in one is kept. -/
theorem filter_replaceRuns {q : CodeUnit → Bool} (hspace : q (unit ' ') = false)
    (hcls : ∀ u, cls u = true → q u = false) (inRun : Bool) (us : List CodeUnit) :
    (replaceRuns cls inRun us).filter q = us.filter q := by
  induction us generalizing inRun with
  | nil => rfl
  | cons v us ih =>
    rw [replaceRuns]
    split
    · next hv =>
      rw [List.filter_cons_of_neg (by rw [hcls v hv]; exact Bool.false_ne_true)]
      split
      · exact ih _
      · rw [List.filter_cons_of_neg (by rw [hspace]; exact Bool.false_ne_true)]
        exact ih _
    · rw [List.filter_cons, List.filter_cons, ih]

/-- A text that is folded ends with a space, or as it did. -/
theorem getLast?_replaceRuns {u : CodeUnit} (h : u ∈ (replaceRuns cls inRun us).getLast?) :
    u = unit ' ' ∨ u ∈ us.getLast? := by
  induction us generalizing inRun with
  | nil => exact nomatch h
  | cons v us ih =>
    have hbehind : ∀ {w : CodeUnit}, w ∈ us.getLast? → w ∈ (v :: us).getLast? := by
      intro w hw
      rw [List.getLast?_cons, Option.mem_def.mp hw]
      rfl
    -- what is written last is written behind `v`, or for `v`
    have hlast : ∀ {flag head}, u ∈ (head :: replaceRuns cls flag us).getLast? →
        (u = unit ' ' ∨ u ∈ (v :: us).getLast?) ∨ u = head ∧ replaceRuns cls flag us = [] := by
      intro flag head hmem
      rw [List.getLast?_cons] at hmem
      cases hrest : (replaceRuns cls flag us).getLast? with
      | none =>
        rw [hrest] at hmem
        exact Or.inr ⟨(Option.some.inj hmem).symm, List.getLast?_eq_none_iff.mp hrest⟩
      | some w =>
        rw [hrest] at hmem
        obtain rfl : w = u := Option.some.inj hmem
        exact Or.inl ((ih hrest).imp_right hbehind)
    rw [replaceRuns] at h
    split at h
    · split at h
      · exact (ih h).imp_right hbehind
      · exact (hlast h).elim id fun hspace => Or.inl hspace.1
    · refine (hlast h).elim id fun hv => Or.inr ?_
      cases us with
      | nil => exact congrArg some hv.1.symm
      | cons w us =>
        have hnil := hv.2
        rw [replaceRuns] at hnil
        split at hnil
        · exact nomatch hnil
        · exact nomatch hnil

end Runs

/-! ## In front of a value -/

/-- **Where the scan stands** in front of a value. -/
def scanned (before : List CodeUnit) : Scan :=
  final Scan.step (.word []) (replaceRuns isControl false before)

/-- **The scan takes a value out.** -/
def Removes (before : List CodeUnit) : Prop :=
  scanned before = .separated ∨ scanned before = .removing

instance (before : List CodeUnit) : Decidable (Removes before) :=
  inferInstanceAs (Decidable (_ ∨ _))

/-- What is shown of the text in front of a value. -/
def shown (before : List CodeUnit) : List CodeUnit :=
  (replaceRuns isWhite false (run Scan.step (.word []) (replaceRuns isControl false before))).dropWhile
    isWhite

/-- A code unit that is neither white space nor a control character. -/
def isVisible (u : CodeUnit) : Bool := !isControl u && !isWhite u

theorem not_isControl_of_isVisible {u : CodeUnit} (h : isVisible u = true) :
    isControl u = false ∧ isWhite u = false := by
  unfold isVisible at h
  rwa [Bool.and_eq_true, Bool.not_eq_true', Bool.not_eq_true'] at h

/-- **A value that is taken out leaves no trace.** -/
theorem normalizeDiagnostic_of_removes {before value other behind : List CodeUnit}
    (h : Removes before) (hvalue : value ≠ []) (hother : other ≠ [])
    (hvisible : ∀ u ∈ value, isVisible u = true) (hvisible' : ∀ u ∈ other, isVisible u = true) :
    normalizeDiagnostic (before ++ value ++ behind) =
      normalizeDiagnostic (before ++ other ++ behind) := by
  have htext : ∀ {text : List CodeUnit}, text ≠ [] → (∀ u ∈ text, isVisible u = true) →
      redactFrom false 0 (replaceRuns isControl false (before ++ text ++ behind)) =
        run Scan.step (.word []) (replaceRuns isControl false before) ++
          ((if scanned before = .separated then redacted else []) ++
            run Scan.step .removing (replaceRuns isControl false behind)) := by
    intro text hne htext
    have hclean : replaceRuns isControl false (before ++ text ++ behind) =
        replaceRuns isControl false before ++ (text ++ replaceRuns isControl false behind) := by
      cases text with
      | nil => exact absurd rfl hne
      | cons u text =>
        rw [List.forall_mem_cons] at htext
        rw [List.append_assoc, List.cons_append,
          replaceRuns_append (not_isControl_of_isVisible htext.1).1,
          replaceRuns_append_of_forall fun u hu => (not_isControl_of_isVisible (htext.2 u hu)).1]
        rfl
    have hnotWhite : ∀ u ∈ text, isWhite u = false :=
      fun u hu => (not_isControl_of_isVisible (htext u hu)).2
    rw [hclean, redactFrom_eq_run, run_append]
    refine congrArg _ ?_
    show run Scan.step (scanned before) _ = _
    rcases h with hstate | hstate
    · rw [hstate, if_pos rfl, run_separated hne hnotWhite]
    · rw [hstate, if_neg Scan.noConfusion, run_removing hnotWhite]
      rfl
  unfold normalizeDiagnostic
  rw [htext hvalue hvisible, htext hother hvisible']

/-- **A value that is not taken out** is shown behind what stands in front of
it, at least its first code unit. -/
theorem normalizeDiagnostic_of_not_removes {before behind value : List CodeUnit} {u : CodeUnit}
    (h : ¬ Removes before) (hu : isVisible u = true) :
    ∃ rest, normalizeDiagnostic (before ++ (u :: value) ++ behind) = shown before ++ u :: rest := by
  obtain ⟨hcontrol, hwhite⟩ := not_isControl_of_isVisible hu
  obtain ⟨hwaits, htakes⟩ := not_or.mp h
  obtain ⟨hcopy, -⟩ := @step_copies (scanned before) u htakes fun hs => absurd hs hwaits
  have hout : ∃ tail, redactFrom false 0
      (replaceRuns isControl false (before ++ (u :: value) ++ behind)) =
        run Scan.step (.word []) (replaceRuns isControl false before) ++ u :: tail := by
    refine ⟨run Scan.step ((scanned before).step u).2 (replaceRuns isControl false (value ++ behind)),
      ?_⟩
    rw [List.append_assoc, List.cons_append, replaceRuns_append hcontrol, redactFrom_eq_run,
      run_append]
    refine congrArg _ ?_
    show run Scan.step (scanned before) _ = _
    rw [run, hcopy]
    rfl
  obtain ⟨tail, hout⟩ := hout
  unfold normalizeDiagnostic trimWhite
  rw [hout, replaceRuns_append hwhite]
  refine ⟨((replaceRuns isWhite false tail).reverse.dropWhile isWhite).reverse, ?_⟩
  have hfront : ∀ front back : List CodeUnit, (front ++ u :: back).dropWhile isWhite =
      front.dropWhile isWhite ++ u :: back := by
    intro front back
    rw [List.dropWhile_append]
    split
    · next hall =>
      rw [List.isEmpty_iff.mp hall, List.dropWhile_cons_of_neg (by
        rw [hwhite]
        exact Bool.false_ne_true)]
      rfl
    · rfl
  rw [hfront, List.reverse_append, List.reverse_cons, List.append_assoc, List.singleton_append,
    hfront, List.reverse_append, List.reverse_cons, List.reverse_reverse, List.append_assoc]
  rfl

/-- White space or a separator, which no text of two surrogates starts with. -/
def endsApart (u : CodeUnit) : Bool := isWhite u || isSeparator u

theorem not_isHigh_of_endsApart {u : CodeUnit} (h : endsApart u = true) : isHigh u = false := by
  refine eq_false_of_ne_true fun hhigh => ?_
  unfold isHigh at hhigh
  rw [Bool.and_eq_true, decide_eq_true_eq, decide_eq_true_eq] at hhigh
  unfold endsApart at h
  rw [Bool.or_eq_true] at h
  rcases h with h | h
  · rw [isWhite_iff] at h
    omega
  · have hval := val_of_isSeparator h
    omega

/-- What the scan shows of a text ends as the text, unless it is taking something
out there. -/
theorem getLast?_run {us : List CodeUnit} {s : Scan} {u : CodeUnit}
    (h : final Scan.step s us ≠ .removing) (hu : u ∈ (run Scan.step s us).getLast?) :
    u ∈ us.getLast? := by
  rcases List.eq_nil_or_concat us with rfl | ⟨front, last, rfl⟩
  · exact nomatch hu
  · rw [List.concat_eq_append] at h hu ⊢
    rw [final_append] at h
    rw [run_append] at hu
    have hcopy : (Scan.step (final Scan.step s front) last).1 = [last] := by
      change (Scan.step (final Scan.step s front) last).2 ≠ .removing at h
      generalize final Scan.step s front = state at h ⊢
      cases state with
      | word letters => rfl
      | keyword => rfl
      | separated =>
        rw [Scan.step] at h ⊢
        split_ifs at h ⊢ with hwhite
        · rfl
        · exact absurd rfl h
      | removing =>
        rw [Scan.step] at h ⊢
        split_ifs at h ⊢ with hwhite
        · rfl
        · exact absurd rfl h
    rw [run, hcopy, List.singleton_append, run, List.getLast?_append] at hu
    rw [List.getLast?_append]
    exact hu

/-- **What is shown in front of a value** ends with no first half of a pair, when
the value stands behind white space or a separator. -/
theorem getLast?_shown {before : List CodeUnit} (h : ¬ Removes before)
    (hend : ∀ u ∈ before.getLast?, endsApart u = true) {u : CodeUnit}
    (hu : u ∈ (shown before).getLast?) : isHigh u = false := by
  have hspace : endsApart (unit ' ') = true := by decide +kernel
  have hsuffix : u ∈ (replaceRuns isWhite false
      (run Scan.step (.word []) (replaceRuns isControl false before))).getLast? := by
    unfold shown at hu
    generalize replaceRuns isWhite false _ = text at hu ⊢
    rw [← @List.takeWhile_append_dropWhile _ isWhite text, List.getLast?_append,
      Option.mem_def.mp hu]
    rfl
  refine not_isHigh_of_endsApart ?_
  rcases getLast?_replaceRuns hsuffix with rfl | hrun
  · exact hspace
  · rcases getLast?_replaceRuns (getLast?_run (fun hs => h (Or.inr hs)) hrun) with rfl | hbefore
    · exact hspace
    · exact hend u hbefore

/-! ## The cut -/

/-- A text without the byte order mark it starts with. -/
def dropMark : List Char → List Char
  | [] => []
  | c :: cs => if c = Utf8.byteOrderMark then cs else c :: cs

/-- What is stored of a text. -/
def cutText (cs : List Char) : List Char :=
  dropReplacement (textDecoder ((Utf8.encode cs).take maximumDiagnosticBytes))

theorem sanitizeDiagnostic_eq (value fallback : List CodeUnit) :
    sanitizeDiagnostic value fallback =
      ofChars (cutText (decode (if normalizeDiagnostic value = [] then fallback
        else normalizeDiagnostic value))) := rfl

theorem replacement_ne_byteOrderMark : Utf8.replacement ≠ Utf8.byteOrderMark := by decide

theorem dropMark_sublist (cs : List Char) : (dropMark cs).Sublist cs := by
  cases cs with
  | nil => exact List.Sublist.refl _
  | cons c cs =>
    rw [dropMark]
    split
    · exact List.sublist_cons_self c cs
    · exact List.Sublist.refl _

theorem dropReplacement_sublist (cs : List Char) : (dropReplacement cs).Sublist cs := by
  unfold dropReplacement
  split
  · exact List.dropLast_sublist cs
  · exact List.Sublist.refl _

/-- A replacement character at the end is what is dropped. -/
theorem dropReplacement_append (cs : List Char) :
    dropReplacement (cs ++ [Utf8.replacement]) = cs := by
  unfold dropReplacement
  rw [if_pos List.getLast?_concat, List.dropLast_concat]

/-- **What is stored of a text** is what fits, once a character that was cut
through is gone, or else what fits without a replacement character at its
end. -/
theorem cutText_eq (cs : List Char) :
    cutText cs = dropMark (Utf8.fits maximumDiagnosticBytes cs) ∨
      cutText cs = dropReplacement (dropMark (Utf8.fits maximumDiagnosticBytes cs)) := by
  have hdecoder : ∀ bytes, textDecoder bytes = dropMark (Utf8.read none bytes) := by
    intro bytes
    unfold textDecoder
    cases Utf8.read none bytes <;> rfl
  unfold cutText
  rw [hdecoder]
  rcases Utf8.read_take maximumDiagnosticBytes cs with hread | hread
  · exact Or.inr (by rw [hread])
  · left
    rw [hread]
    cases Utf8.fits maximumDiagnosticBytes cs with
    | nil =>
      show dropReplacement (if Utf8.replacement = Utf8.byteOrderMark then []
        else [Utf8.replacement]) = []
      rw [if_neg replacement_ne_byteOrderMark]
      exact dropReplacement_append []
    | cons c fit =>
      rw [List.cons_append, dropMark, dropMark]
      split
      · exact dropReplacement_append fit
      · exact dropReplacement_append (c :: fit)

theorem cutText_sublist (cs : List Char) :
    (cutText cs).Sublist (Utf8.fits maximumDiagnosticBytes cs) := by
  rcases cutText_eq cs with h | h <;> rw [h]
  · exact dropMark_sublist _
  · exact (dropReplacement_sublist _).trans (dropMark_sublist _)

/-- A text of which nothing is stored: none, a byte order mark, a replacement
character, or the one in front of the other. -/
def leavesNothing (cs : List Char) : Bool :=
  dropMark cs = [] ∨ dropMark cs = [Utf8.replacement]

theorem utf8Size_le (c : Char) : c.utf8Size ≤ 4 := c.utf8Size_le_four

/-- **Nothing is stored of a text** only when it leaves nothing. -/
theorem cutText_eq_nil_iff (cs : List Char) : cutText cs = [] ↔ leavesNothing cs = true := by
  unfold leavesNothing
  rw [decide_eq_true_eq]
  by_cases hshort : (Utf8.encode cs).length ≤ maximumDiagnosticBytes
  · -- nothing is cut off
    have hall : cutText cs = dropReplacement (dropMark cs) := by
      unfold cutText textDecoder
      rw [List.take_of_length_le hshort, Utf8.read_encode]
      cases cs <;> rfl
    rw [hall]
    generalize dropMark cs = text
    unfold dropReplacement
    split
    · next hlast =>
      rcases List.eq_nil_or_concat text with rfl | ⟨front, last, rfl⟩
      · exact nomatch hlast
      · rw [List.concat_eq_append] at hlast ⊢
        obtain rfl : last = Utf8.replacement := by
          rw [List.getLast?_concat] at hlast
          exact Option.some.inj hlast
        rw [List.dropLast_concat]
        constructor
        · rintro rfl
          exact Or.inr rfl
        · rintro (h | h)
          · exact absurd h (List.append_ne_nil_of_right_ne_nil _ (List.cons_ne_nil _ _))
          · exact List.append_cancel_right (h.trans (List.nil_append _).symm)
    · next hlast =>
      refine ⟨Or.inl, ?_⟩
      rintro (h | h)
      · exact h
      · rw [h] at hlast
        exact absurd rfl hlast
  · -- the first characters fit, and more than a mark and a replacement is left of them
    match cs with
    | [] => exact absurd (Nat.zero_le _) hshort
    | [c] =>
      rw [Utf8.encode_cons, List.length_append, String.length_utf8EncodeChar] at hshort
      have := utf8Size_le c
      exact absurd (by unfold maximumDiagnosticBytes; show _ + 0 ≤ _; omega) hshort
    | [c, d] =>
      rw [Utf8.encode_cons, Utf8.encode_cons, List.length_append, List.length_append,
        String.length_utf8EncodeChar, String.length_utf8EncodeChar] at hshort
      have := utf8Size_le c
      have := utf8Size_le d
      exact absurd (by unfold maximumDiagnosticBytes; show _ + (_ + 0) ≤ _; omega) hshort
    | c :: d :: e :: rest =>
      have hc := utf8Size_le c
      have hd := utf8Size_le d
      have he := utf8Size_le e
      have hfits : ∃ fit, Utf8.fits maximumDiagnosticBytes (c :: d :: e :: rest) =
          c :: d :: e :: fit := by
        unfold maximumDiagnosticBytes
        rw [Utf8.fits_cons_of_le (by omega), Utf8.fits_cons_of_le (by omega),
          Utf8.fits_cons_of_le (by omega)]
        exact ⟨_, rfl⟩
      obtain ⟨fit, hfits⟩ := hfits
      have hmark : ∀ more, 2 ≤ (dropMark (c :: d :: e :: more)).length := by
        intro more
        rw [dropMark]
        split <;> simp
      refine iff_of_false (fun hnil => ?_) ?_
      · have hlength := hmark fit
        rcases cutText_eq (c :: d :: e :: rest) with h | h <;> rw [hfits] at h
        · rw [← h, hnil] at hlength
          exact absurd hlength (by decide)
        · generalize dropMark (c :: d :: e :: fit) = text at h hlength
          rw [hnil] at h
          unfold dropReplacement at h
          split at h
          · have hdrop := @List.length_dropLast _ text
            rw [← h, List.length_nil] at hdrop
            omega
          · rw [← h] at hlength
            exact absurd hlength (by decide)
      · have hlength := hmark rest
        rintro (h | h)
        · rw [h] at hlength
          exact absurd hlength (by decide)
        · rw [h] at hlength
          exact absurd hlength (by decide)

/-! ## What can be stored -/

/-- A control character other than a tab, which a stored diagnostic must not
have. -/
theorem isBoundedDiagnostic_iff {value : List CodeUnit} :
    Diagnostic.isBoundedDiagnostic value = true ↔
      (1 ≤ (Utf8.encode (decode value)).length ∧
        (Utf8.encode (decode value)).length ≤ maximumDiagnosticBytes) ∧
      ∀ u ∈ value, isControl u = true → u.val = 0x09 := by
  have hunit : ∀ u : CodeUnit, (!(u.val ≤ 0x08 || u.val == 0x0B || u.val == 0x0C ||
      (0x0E ≤ u.val && u.val ≤ 0x1F) || u.val == 0x7F)) = true ∧ u ≠ unit '\n' ∧ u ≠ unit '\r' ↔
        (isControl u = true → u.val = 0x09) := by
    intro u
    have hline : u = unit '\n' ↔ u.val = 0x0A := Fin.ext_iff
    have hreturn : u = unit '\r' ↔ u.val = 0x0D := Fin.ext_iff
    rw [ne_eq, ne_eq, hline, hreturn]
    unfold isControl
    simp only [Bool.not_eq_true', Bool.or_eq_false_iff, Bool.and_eq_false_iff,
      decide_eq_false_iff_not, beq_eq_false_iff_ne, Bool.or_eq_true, decide_eq_true_eq, beq_iff_eq]
    omega
  unfold Diagnostic.isBoundedDiagnostic
  dsimp only
  rw [Bool.and_eq_true, Bool.and_eq_true, Bool.and_eq_true, Bool.and_eq_true, decide_eq_true_eq,
    decide_eq_true_eq, List.all_eq_true, Bool.not_eq_true', Bool.not_eq_true',
    List.contains_eq_mem, List.contains_eq_mem, decide_eq_false_iff_not, decide_eq_false_iff_not]
  constructor
  · rintro ⟨⟨⟨hbytes, hall⟩, hline⟩, hreturn⟩
    exact ⟨hbytes, fun u hu => (hunit u).mp
      ⟨hall u hu, fun heq => hline (heq ▸ hu), fun heq => hreturn (heq ▸ hu)⟩⟩
  · rintro ⟨hbytes, hall⟩
    refine ⟨⟨⟨hbytes, fun u hu => ((hunit u).mpr (hall u hu)).1⟩, fun hline => ?_⟩, fun hreturn => ?_⟩
    · exact ((hunit _).mpr (hall _ hline)).2.1 rfl
    · exact ((hunit _).mpr (hall _ hreturn)).2.2 rfl

/-- **A text without control characters can be stored** once something is left of
it. -/
theorem isBoundedDiagnostic_cutText {text : List CodeUnit}
    (h : ∀ u ∈ text, isControl u = true → u.val = 0x09) :
    Diagnostic.isBoundedDiagnostic (ofChars (cutText (decode text))) = true ↔
      leavesNothing (decode text) = false := by
  rw [isBoundedDiagnostic_iff, decode_ofChars, ← Bool.not_eq_true, ← cutText_eq_nil_iff]
  have hbytes : (Utf8.encode (cutText (decode text))).length ≤ maximumDiagnosticBytes :=
    (Utf8.length_encode_le (cutText_sublist _)).trans (Utf8.length_encode_fits _ _)
  have hcontrol : ∀ u ∈ ofChars (cutText (decode text)), isControl u = true → u.val = 0x09 := by
    intro u hu hcontrol
    have hval : u.val ≤ 0x7F := by
      unfold isControl at hcontrol
      rw [Bool.or_eq_true, decide_eq_true_eq, beq_iff_eq] at hcontrol
      omega
    obtain ⟨c, hc, heq⟩ := mem_of_mem_ofChars hu (by omega)
    have hmem : c ∈ decode text :=
      ((cutText_sublist _).trans (Utf8.fits_sublist _ _)).subset hc
    obtain ⟨v, hv, hsame⟩ := mem_of_mem_decode hmem (by omega)
    obtain rfl : v = u := Fin.ext (hsame.trans heq)
    exact h v hv hcontrol
  constructor
  · rintro ⟨⟨hpos, -⟩, -⟩ hnil
    rw [hnil] at hpos
    exact absurd hpos (by decide)
  · intro hne
    refine ⟨⟨?_, hbytes⟩, hcontrol⟩
    cases hcut : cutText (decode text) with
    | nil => exact absurd hcut hne
    | cons c cs =>
      rw [Utf8.encode_cons, List.length_append, String.length_utf8EncodeChar]
      have := c.utf8Size_pos
      omega

/-! ### What a normalized text is made of -/

theorem mem_trimWhite {u : CodeUnit} {us : List CodeUnit} (h : u ∈ trimWhite us) : u ∈ us :=
  (List.dropWhile_sublist isWhite).subset (List.mem_reverse.mp
    ((List.dropWhile_sublist isWhite).subset (List.mem_reverse.mp h)))

/-- What is not white space is not trimmed. -/
theorem filter_trimWhite {q : CodeUnit → Bool} (hq : ∀ u, isWhite u = true → q u = false)
    (us : List CodeUnit) : (trimWhite us).filter q = us.filter q := by
  have hdrop : ∀ us : List CodeUnit, (us.dropWhile isWhite).filter q = us.filter q := by
    intro us
    induction us with
    | nil => rfl
    | cons u us ih =>
      rw [List.dropWhile_cons]
      split
      · next hu =>
        rw [ih, List.filter_cons_of_neg (by rw [hq u hu]; exact Bool.false_ne_true)]
      · rfl
  unfold trimWhite
  rw [List.filter_reverse, hdrop, List.filter_reverse, List.reverse_reverse, hdrop]

/-- A text that is trimmed neither starts nor ends with white space. -/
theorem trimWhite_ends {us : List CodeUnit} {u : CodeUnit} :
    (u ∈ (trimWhite us).head? → isWhite u = false) ∧
      (u ∈ (trimWhite us).getLast? → isWhite u = false) := by
  constructor
  · intro hu
    refine @of_mem_head?_dropWhile _ isWhite us u ?_
    rw [← List.reverse_reverse (us.dropWhile isWhite),
      ← @List.takeWhile_append_dropWhile _ isWhite (us.dropWhile isWhite).reverse,
      List.reverse_append, List.head?_append]
    have hhead : ((us.dropWhile isWhite).reverse.dropWhile isWhite).reverse.head? = some u := hu
    rw [hhead]
    rfl
  · intro hu
    refine @of_mem_head?_dropWhile _ isWhite (us.dropWhile isWhite).reverse u ?_
    unfold trimWhite at hu
    rwa [List.getLast?_reverse] at hu

theorem mem_of_mem_run {s : Scan} {us : List CodeUnit} {u : CodeUnit}
    (h : u ∈ run Scan.step s us) : u ∈ redacted ∨ u ∈ us := by
  induction us generalizing s with
  | nil => cases h
  | cons v us ih =>
    rw [run] at h
    rcases List.mem_append.mp h with h | h
    · have hout : (Scan.step s v).1 = [v] ∨ (Scan.step s v).1 = redacted ∨
          (Scan.step s v).1 = [] := by
        cases s with
        | word letters => exact Or.inl rfl
        | keyword => exact Or.inl rfl
        | separated => rw [Scan.step]; split <;> simp
        | removing => rw [Scan.step]; split <;> simp
      rcases hout with hout | hout | hout <;> rw [hout] at h
      · exact Or.inr (List.mem_singleton.mp h ▸ List.mem_cons_self)
      · exact Or.inl h
      · cases h
    · exact (ih h).imp_right (List.mem_cons_of_mem v)

/-- **A normalized text has no control characters.** -/
theorem not_isControl_of_mem_normalize {value : List CodeUnit} {u : CodeUnit}
    (h : u ∈ normalizeDiagnostic value) : isControl u = false := by
  have hspace : isControl (unit ' ') = false := by decide +kernel
  have hredacted : ∀ u ∈ redacted, isControl u = false :=
    fun u hu => List.all_eq_true.mp (show redacted.all (fun u => !isControl u) = true by
      decide +kernel) u hu |> fun h => by rwa [Bool.not_eq_true'] at h
  unfold normalizeDiagnostic at h
  rcases mem_of_mem_replaceRuns (mem_trimWhite h) with rfl | ⟨hrun, -⟩
  · exact hspace
  · rw [redactFrom_eq_run] at hrun
    rcases mem_of_mem_run hrun with hmem | hmem
    · exact hredacted u hmem
    · rcases mem_of_mem_replaceRuns hmem with rfl | ⟨-, hcontrol⟩
      · exact hspace
      · exact hcontrol

/-- A text without a separator is copied. -/
theorem run_of_not_isSeparator {us : List CodeUnit} (h : ∀ u ∈ us, isSeparator u = false)
    {s : Scan} (hs : s ≠ .separated ∧ s ≠ .removing) : run Scan.step s us = us := by
  induction us generalizing s with
  | nil => rfl
  | cons u us ih =>
    rw [List.forall_mem_cons] at h
    have hnext : (Scan.step s u).2 ≠ .separated ∧ (Scan.step s u).2 ≠ .removing := by
      cases s with
      | word letters =>
        rw [Scan.step, h.1, Bool.and_false, if_neg Bool.false_ne_true]
        split_ifs <;> exact ⟨Scan.noConfusion, Scan.noConfusion⟩
      | keyword =>
        rw [Scan.step, h.1, if_neg Bool.false_ne_true]
        split_ifs <;> exact ⟨Scan.noConfusion, Scan.noConfusion⟩
      | separated => exact absurd rfl hs.1
      | removing => exact absurd rfl hs.2
    rw [run, (step_copies hs.2 fun hsep => absurd hsep hs.1).1, ih h.2 hnext]
    rfl

/-- **What a scan changes has a bracket in it.** -/
theorem run_eq_self_or_mem {us : List CodeUnit} {s : Scan} (hs : s ≠ .removing) :
    run Scan.step s us = us ∨ unit '[' ∈ run Scan.step s us := by
  induction us generalizing s with
  | nil => exact Or.inl rfl
  | cons u us ih =>
    by_cases hcopied : s = .separated → isWhite u = true
    · obtain ⟨hout, hnext⟩ := step_copies hs hcopied
      rw [run, hout]
      rcases ih hnext with h | h
      · exact Or.inl (congrArg _ h)
      · exact Or.inr (List.mem_append_right _ h)
    · right
      obtain ⟨rfl, hvisible⟩ := Classical.not_imp.mp hcopied
      rw [run, Scan.step, if_neg hvisible]
      exact List.mem_append_left _ (by decide +kernel)

/-- **What is visible of a value** is visible of the normalized text, when it has
no bracket: nothing has been taken out of it. -/
theorem filter_normalizeDiagnostic {value : List CodeUnit}
    (h : unit '[' ∉ normalizeDiagnostic value) :
    (normalizeDiagnostic value).filter isVisible = value.filter isVisible := by
  have hspace : isVisible (unit ' ') = false := by decide +kernel
  have hwhite : ∀ u, isWhite u = true → isVisible u = false := fun u hu => by
    unfold isVisible
    rw [hu, Bool.not_true, Bool.and_false]
  have hcontrol : ∀ u, isControl u = true → isVisible u = false := fun u hu => by
    unfold isVisible
    rw [hu]
    rfl
  -- a bracket would have been kept by all the later passes
  have hself : run Scan.step (.word []) (replaceRuns isControl false value) =
      replaceRuns isControl false value := by
    refine (run_eq_self_or_mem Scan.noConfusion).resolve_right fun hmem => h ?_
    have hbracket : ∀ u, isWhite u = true → (u == unit '[') = false := fun u hu => by
      refine beq_eq_false_iff_ne.mpr ?_
      rintro rfl
      exact absurd hu (by decide +kernel)
    have hkept : (normalizeDiagnostic value).filter (· == unit '[') =
        (run Scan.step (.word []) (replaceRuns isControl false value)).filter (· == unit '[') := by
      unfold normalizeDiagnostic
      rw [filter_trimWhite hbracket, filter_replaceRuns (by decide +kernel) hbracket,
        redactFrom_eq_run]
    refine (List.mem_filter (p := (· == unit '['))).mp ?_ |>.1
    rw [hkept]
    exact List.mem_filter.mpr ⟨hmem, beq_self_eq_true _⟩
  unfold normalizeDiagnostic
  rw [filter_trimWhite hwhite, filter_replaceRuns hspace hwhite, redactFrom_eq_run, hself,
    filter_replaceRuns hspace hcontrol]

/-- What a value has that is visible decides on its separators. -/
theorem not_mem_bracket_of_visible {value : List CodeUnit}
    (h : ∀ u ∈ value.filter isVisible, isSeparator u = false ∧ u ≠ unit '[') :
    unit '[' ∉ normalizeDiagnostic value := by
  have hspace : isSeparator (unit ' ') = false := by decide +kernel
  have hclean : ∀ u ∈ replaceRuns isControl false value, isSeparator u = false ∧ u ≠ unit '[' := by
    intro u hu
    rcases mem_of_mem_replaceRuns hu with rfl | ⟨hmem, hcontrol⟩
    · exact ⟨hspace, by decide +kernel⟩
    · by_cases hwhite : isWhite u = true
      · refine ⟨isSeparator_of_isWhite hwhite, ?_⟩
        rintro rfl
        exact absurd hwhite (by decide +kernel)
      · refine h u (List.mem_filter.mpr ⟨hmem, ?_⟩)
        unfold isVisible
        rw [hcontrol, eq_false_of_ne_true hwhite]
        rfl
  intro hmem
  unfold normalizeDiagnostic at hmem
  rw [redactFrom_eq_run, run_of_not_isSeparator (fun u hu => (hclean u hu).1)
    ⟨Scan.noConfusion, Scan.noConfusion⟩] at hmem
  rcases mem_of_mem_replaceRuns (mem_trimWhite hmem) with h | h
  · exact absurd h (by decide +kernel)
  · exact (hclean _ h.1).2 rfl

/-- What a normalized text starts and ends with is visible. -/
theorem isVisible_ends {value : List CodeUnit} {u : CodeUnit}
    (h : u ∈ (normalizeDiagnostic value).head? ∨ u ∈ (normalizeDiagnostic value).getLast?) :
    isVisible u = true := by
  have hmem : u ∈ normalizeDiagnostic value :=
    h.elim List.mem_of_mem_head? List.mem_of_mem_getLast?
  have hwhite : isWhite u = false := h.elim trimWhite_ends.1 trimWhite_ends.2
  unfold isVisible
  rw [not_isControl_of_mem_normalize hmem, hwhite]
  rfl

/-- **A normalized text with at most one visible code unit** is that one. -/
theorem normalizeDiagnostic_eq_filter {value : List CodeUnit}
    (h : ((normalizeDiagnostic value).filter isVisible).length ≤ 1) :
    normalizeDiagnostic value = (normalizeDiagnostic value).filter isVisible := by
  have hends : ∀ u, u ∈ (normalizeDiagnostic value).head? ∨
      u ∈ (normalizeDiagnostic value).getLast? → isVisible u = true := fun u => isVisible_ends
  generalize normalizeDiagnostic value = text at h hends
  cases text with
  | nil => rfl
  | cons u rest =>
    have hu := hends u (Or.inl rfl)
    rw [List.filter_cons_of_pos hu] at h ⊢
    have hnone : rest.filter isVisible = [] :=
      List.eq_nil_of_length_eq_zero (Nat.le_zero.mp (Nat.le_of_succ_le_succ h))
    rcases List.eq_nil_or_concat rest with rfl | ⟨front, last, rfl⟩
    · rfl
    · rw [List.concat_eq_append] at hnone hends
      have hlast := hends last (Or.inr (by
        rw [← List.cons_append, List.getLast?_concat]
        rfl))
      rw [List.filter_append, List.filter_cons_of_pos hlast] at hnone
      exact absurd hnone (List.append_ne_nil_of_right_ne_nil _ (List.cons_ne_nil _ _))

/-! ### What is lost -/

/-- **A diagnostic of which nothing is left**: all that is visible of the value
is one replacement character, or one half of a pair, which becomes one; or
nothing is, and the fallback leaves nothing. -/
def Lost (value fallback : List CodeUnit) : Prop :=
  (∃ u, value.filter isVisible = [u] ∧ unitChar u = Utf8.replacement) ∨
    value.filter isVisible = [] ∧ leavesNothing (decode fallback) = true

/-- A text that reads as one replacement character is one code unit. -/
theorem decode_eq_replacement {text : List CodeUnit} (h : decode text = [Utf8.replacement]) :
    ∃ u, text = [u] ∧ unitChar u = Utf8.replacement := by
  match text with
  | [] => exact nomatch h
  | [u] => exact ⟨u, rfl, (List.cons.inj h).1⟩
  | high :: low :: rest =>
    exfalso
    rw [decode] at h
    split at h
    · next hpair =>
      have hnat := congrArg Char.toNat (List.cons.inj h).1
      rw [toNat_pairChar hpair.1 hpair.2, show Utf8.replacement.toNat = 0xFFFD by decide] at hnat
      omega
    · have hrest := (List.cons.inj h).2
      have hne : ∀ u us, decode (u :: us) ≠ [] := by
        intro u us
        cases us with
        | nil => exact List.cons_ne_nil _ _
        | cons v us =>
          rw [decode]
          split <;> exact List.cons_ne_nil _ _
      exact hne _ _ hrest

theorem val_of_unitChar {u : CodeUnit} (h : unitChar u = Utf8.replacement) : 0xD800 ≤ u.val := by
  by_contra hlt
  have hplain : Plain u := by
    unfold Plain isHigh isLow
    rw [Bool.and_eq_false_iff, Bool.and_eq_false_iff, decide_eq_false_iff_not,
      decide_eq_false_iff_not, decide_eq_false_iff_not, decide_eq_false_iff_not]
    omega
  have hnat := congrArg Char.toNat h
  rw [toNat_unitChar hplain, show Utf8.replacement.toNat = 0xFFFD by decide] at hnat
  omega

/-- Nothing of a normalized text is a byte order mark at its beginning. -/
theorem dropMark_normalizeDiagnostic (value : List CodeUnit) :
    dropMark (decode (normalizeDiagnostic value)) = decode (normalizeDiagnostic value) := by
  have hhead : ∀ u ∈ (normalizeDiagnostic value).head?, isWhite u = false :=
    fun u => trimWhite_ends.1
  have hmark : ∀ u, unitChar u = Utf8.byteOrderMark → isWhite u = true := by
    intro u hu
    by_cases hplain : Plain u
    · have hnat := congrArg Char.toNat hu
      rw [toNat_unitChar hplain, show Utf8.byteOrderMark.toNat = 0xFEFF by decide] at hnat
      rw [isWhite_iff]
      omega
    · have hlone : unitChar u = Char.ofNat 0xFFFD := by
        unfold unitChar
        rw [if_pos]
        rcases not_and_or.mp hplain with h | h
        · exact Or.inl (eq_true_of_ne_false h)
        · exact Or.inr (eq_true_of_ne_false h)
      exact absurd (hlone.symm.trans hu) replacement_ne_byteOrderMark
  generalize normalizeDiagnostic value = text at hhead ⊢
  have hne : ∀ {u}, isWhite u = false → unitChar u ≠ Utf8.byteOrderMark := fun hu heq =>
    Bool.false_ne_true (hu.symm.trans (hmark _ heq))
  match text with
  | [] => rfl
  | [u] =>
    show (if unitChar u = Utf8.byteOrderMark then [] else [unitChar u]) = [unitChar u]
    rw [if_neg (hne (hhead u rfl))]
  | high :: low :: rest =>
    rw [decode]
    split
    · next hpair =>
      have hpairNe : pairChar high low ≠ Utf8.byteOrderMark := by
        intro heq
        have hnat := congrArg Char.toNat heq
        rw [toNat_pairChar hpair.1 hpair.2, show Utf8.byteOrderMark.toNat = 0xFEFF by decide] at hnat
        omega
      rw [dropMark, if_neg hpairNe]
    · rw [dropMark, if_neg (hne (hhead high rfl))]

/-- **A normalized text leaves nothing** when it is one replacement character. -/
theorem leavesNothing_normalizeDiagnostic {value : List CodeUnit}
    (hne : normalizeDiagnostic value ≠ []) :
    leavesNothing (decode (normalizeDiagnostic value)) = true ↔
      ∃ u, value.filter isVisible = [u] ∧ unitChar u = Utf8.replacement := by
  unfold leavesNothing
  rw [decide_eq_true_eq, dropMark_normalizeDiagnostic]
  constructor
  · rintro (hnil | hone)
    · -- a text that is not empty reads as some character
      exfalso
      rcases htext : normalizeDiagnostic value with _ | ⟨high, _ | ⟨low, rest⟩⟩
      · exact hne htext
      · rw [htext] at hnil
        cases hnil
      · rw [htext, decode] at hnil
        split at hnil <;> cases hnil
    · obtain ⟨u, htext, hu⟩ := decode_eq_replacement hone
      have hval := val_of_unitChar hu
      refine ⟨u, ?_, hu⟩
      have hvisible := @isVisible_ends value u (Or.inl (by rw [htext]; rfl))
      rw [← filter_normalizeDiagnostic, htext, List.filter_cons_of_pos hvisible]
      · rfl
      · rw [htext, List.mem_singleton]
        rintro rfl
        exact absurd hval (by decide +kernel)
  · rintro ⟨u, hfilter, hu⟩
    have hval := val_of_unitChar hu
    have hbracket : unit '[' ∉ normalizeDiagnostic value := by
      refine not_mem_bracket_of_visible fun v hv => ?_
      rw [hfilter, List.mem_singleton] at hv
      subst hv
      refine ⟨eq_false_of_ne_true fun hsep => ?_, ?_⟩
      · have := val_of_isSeparator hsep
        omega
      · rintro rfl
        exact absurd hval (by decide +kernel)
    have hsame := filter_normalizeDiagnostic hbracket
    rw [hfilter] at hsame
    rw [normalizeDiagnostic_eq_filter (by rw [hsame]; rfl), hsame]
    exact Or.inr (congrArg (fun c => [c]) hu)

/-- **A normalized text is empty** when nothing is visible of the value. -/
theorem normalizeDiagnostic_eq_nil_iff {value : List CodeUnit} :
    normalizeDiagnostic value = [] ↔ value.filter isVisible = [] := by
  constructor
  · intro hnil
    rw [← filter_normalizeDiagnostic (by rw [hnil]; exact List.not_mem_nil), hnil]
    rfl
  · intro hfilter
    have hbracket : unit '[' ∉ normalizeDiagnostic value :=
      not_mem_bracket_of_visible (by rw [hfilter]; exact List.forall_mem_nil _)
    have hsame := filter_normalizeDiagnostic hbracket
    rw [hfilter] at hsame
    rw [normalizeDiagnostic_eq_filter (by rw [hsame]; exact Nat.zero_le _), hsame]

/-- **A sanitized diagnostic can be stored** unless nothing is left of it. -/
theorem isBoundedDiagnostic_sanitize {fallback : List CodeUnit}
    (hfallback : Diagnostic.isBoundedDiagnostic fallback = true) (value : List CodeUnit) :
    Diagnostic.isBoundedDiagnostic (sanitizeDiagnostic value fallback) = true ↔
      ¬ Lost value fallback := by
  rw [sanitizeDiagnostic_eq]
  by_cases hnil : normalizeDiagnostic value = []
  · rw [if_pos hnil, isBoundedDiagnostic_cutText (isBoundedDiagnostic_iff.mp hfallback).2,
      ← Bool.not_eq_true]
    have hfilter := normalizeDiagnostic_eq_nil_iff.mp hnil
    refine not_congr ⟨fun h => Or.inr ⟨hfilter, h⟩, ?_⟩
    rintro (⟨u, hu, -⟩ | ⟨-, h⟩)
    · rw [hfilter] at hu
      exact nomatch hu
    · exact h
  · rw [if_neg hnil, isBoundedDiagnostic_cutText fun u hu hcontrol =>
      absurd hcontrol (by rw [not_isControl_of_mem_normalize hu]; exact Bool.false_ne_true),
      ← Bool.not_eq_true, leavesNothing_normalizeDiagnostic hnil]
    refine not_congr ⟨Or.inl, ?_⟩
    rintro (h | ⟨hfilter, -⟩)
    · exact h
    · exact absurd (normalizeDiagnostic_eq_nil_iff.mpr hfilter) hnil

end Snowcat
