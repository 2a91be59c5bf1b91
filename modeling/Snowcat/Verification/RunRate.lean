import Snowcat.Lib.Decimal
import Snowcat.Lib.JsonValue
import Snowcat.Lib.Transaction
import Snowcat.Queue.Text

/-!
# The rate of conclusive runs

The evaluator a verification profile names for the rate of its conclusive
runs. It checks a value it knows nothing about, counts the occurrences of a
closed window that was read to its end, and compares the rate with the least
one that was asked for. The comparison is one of integers: the least rate is
read back from its own decimal text, digit by digit, so that no rounding comes
between (`decimalFraction_spec`).
-/

namespace Snowcat

/-- `RunEvidenceClassification`. -/
inductive RunEvidenceClassification where
  | conclusive
  | inconclusive
  | missing
  deriving DecidableEq, Repr

/-- The text of a classification. -/
def RunEvidenceClassification.text : RunEvidenceClassification → String
  | .conclusive => "conclusive"
  | .inconclusive => "inconclusive"
  | .missing => "missing"

/-- The classification a text names. -/
def runEvidenceClassification? (text : String) : Option RunEvidenceClassification :=
  if text = "conclusive" then some .conclusive
  else if text = "inconclusive" then some .inconclusive
  else if text = "missing" then some .missing
  else none

/-- Whether a text is the key of an occurrence: of one to 512 code units, and
none of them a control character. -/
def isOccurrenceKey (key : String) : Bool :=
  1 ≤ jsLength key && jsLength key ≤ 512 &&
    key.toList.all fun c => !(c.toNat ≤ 0x1f || c.toNat = 0x7f)

/-- `RunEvidenceOccurrence`. -/
structure RunEvidenceOccurrence where
  key : String
  classification : RunEvidenceClassification
  bounded : isOccurrenceKey key = true
  deriving DecidableEq

/-- `windowState`. -/
inductive WindowState where
  | opened
  | closed
  deriving DecidableEq, Repr

/-- The text of the state of a window. -/
def WindowState.text : WindowState → String
  | .opened => "open"
  | .closed => "closed"

/-- `sourceCoverage`. -/
inductive SourceCoverage where
  | complete
  | incomplete
  deriving DecidableEq, Repr

/-- The text of a coverage. -/
def SourceCoverage.text : SourceCoverage → String
  | .complete => "complete"
  | .incomplete => "incomplete"

/-- A JavaScript number: finite, with the value it has, or not. -/
inductive RateNumber where
  | finite (value : ℚ)
  | notFinite
  deriving DecidableEq, Repr

/-- What an evaluator is handed. -/
abbrev EvaluatorInput : Type := JsonValue String RateNumber

/-- `ConclusiveRunRateInput`. -/
structure ConclusiveRunRateInput where
  minimumRate : ℚ
  windowState : WindowState
  sourceCoverage : SourceCoverage
  occurrences : List RunEvidenceOccurrence
  deriving DecidableEq

/-- `ConclusiveRunRateReason`. -/
inductive ConclusiveRunRateReason where
  | thresholdMet
  | thresholdNotMet
  | windowOpen
  | sourceIncomplete
  | populationEmpty
  deriving DecidableEq, Repr

/-- The outcome of an evaluation. -/
inductive EvaluationOutcome where
  | satisfied
  | failed
  | unable
  deriving DecidableEq, Repr

/-- The counts of the occurrences. -/
structure RunCounts where
  conclusive : ℕ
  inconclusive : ℕ
  missing : ℕ
  total : ℕ
  deriving DecidableEq, Repr

/-- `ConclusiveRunRateResult`. -/
structure ConclusiveRunRateResult where
  outcome : EvaluationOutcome
  reason : ConclusiveRunRateReason
  minimumRate : ℚ
  counts : RunCounts
  rate : Option (ℕ × ℕ)
  deriving DecidableEq

/-- What an evaluation throws: a `VerificationMechanismInputError` with its
message, or what `BigInt` throws at a text that is no integer. -/
inductive EvaluationError where
  | input (message : String)
  | notInteger
  deriving DecidableEq, Repr

/-! ## The check of an input -/

/-- One round of the loop over the occurrences. -/
def assertOccurrence (index : ℕ) (keys : List String) (value : EvaluatorInput) :
    Except EvaluationError RunEvidenceOccurrence :=
  match value with
  | .object fields =>
    match JsonValue.property fields "key" with
    | some (.text key) =>
      if hkey : isOccurrenceKey key = true then
        if key ∈ keys then .error (.input s!"duplicate occurrence key: {key}")
        else
          match JsonValue.property fields "classification" with
          | some (.text text) =>
            match runEvidenceClassification? text with
            | some classification => .ok ⟨key, classification, hkey⟩
            | none => .error (.input s!"occurrences[{index}].classification is not registered")
          | _ => .error (.input s!"occurrences[{index}].classification is not registered")
      else .error (.input s!"occurrences[{index}].key must be a bounded non-control string")
    | _ => .error (.input s!"occurrences[{index}].key must be a bounded non-control string")
  | _ => .error (.input s!"occurrences[{index}] must be an object")

/-- The loop over the occurrences, with the keys it has seen. -/
def assertOccurrences (index : ℕ) (keys : List String) :
    List EvaluatorInput → Except EvaluationError (List RunEvidenceOccurrence)
  | [] => .ok []
  | value :: rest => do
    let occurrence ← assertOccurrence index keys value
    let occurrences ← assertOccurrences (index + 1) (occurrence.key :: keys) rest
    pure (occurrence :: occurrences)

/-- The check of the least rate. -/
def assertMinimumRate : Option EvaluatorInput → Except EvaluationError ℚ
  | some (.number (.finite value)) =>
    if value < 0 ∨ 1 < value then
      .error (.input "minimumRate must be a finite number between zero and one")
    else .ok value
  | _ => .error (.input "minimumRate must be a finite number between zero and one")

/-- The check of the state of the window. -/
def assertWindowState : Option EvaluatorInput → Except EvaluationError WindowState
  | some (.text text) =>
    if text = "open" then .ok .opened
    else if text = "closed" then .ok .closed
    else .error (.input "windowState must be open or closed")
  | _ => .error (.input "windowState must be open or closed")

/-- The check of the coverage. -/
def assertSourceCoverage : Option EvaluatorInput → Except EvaluationError SourceCoverage
  | some (.text text) =>
    if text = "complete" then .ok .complete
    else if text = "incomplete" then .ok .incomplete
    else .error (.input "sourceCoverage must be complete or incomplete")
  | _ => .error (.input "sourceCoverage must be complete or incomplete")

/-- The check of the list of occurrences. -/
def assertOccurrenceList :
    Option EvaluatorInput → Except EvaluationError (List RunEvidenceOccurrence)
  | some (.array values) => assertOccurrences 0 [] values
  | _ => .error (.input "occurrences must be an array")

/-- **`assertInput`**. -/
def assertInput : EvaluatorInput → Except EvaluationError ConclusiveRunRateInput
  | .object candidate => do
    let minimumRate ← assertMinimumRate (JsonValue.property candidate "minimumRate")
    let windowState ← assertWindowState (JsonValue.property candidate "windowState")
    let sourceCoverage ← assertSourceCoverage (JsonValue.property candidate "sourceCoverage")
    let occurrences ← assertOccurrenceList (JsonValue.property candidate "occurrences")
    pure { minimumRate, windowState, sourceCoverage, occurrences }
  | _ => .error (.input "conclusive-run-rate input must be an object")

/-! ## The comparison -/

/-- `Number` of the text of an exponent, and zero when there is none. -/
def readExponent : Option (List Char) → Except EvaluationError ℤ
  | none => .ok 0
  | some exponentText => (Decimal.readSigned exponentText).elim (.error .notInteger) .ok

/-- **`decimalFraction`**, from the text of the number. -/
def decimalFraction (text : String) : Except EvaluationError (ℕ × ℕ) := do
  let parts := (toLowerCase text).toList.splitOn 'e'
  let coefficient := (parts.headD []).splitOn '.'
  let exponent ← readExponent parts.tail.head?
  let whole := coefficient.headD []
  let fraction := coefficient.tail.headD []
  let digits ← (Decimal.read (whole ++ fraction)).elim (.error .notInteger) .ok
  let scale := (fraction.length : ℤ) - exponent
  pure (if scale ≤ 0 then (digits * 10 ^ (-scale).toNat, 1) else (digits, 10 ^ scale.toNat))

section Evaluate

variable (toString : ℚ → String)

/-- `ratioMeetsMinimum`. -/
def ratioMeetsMinimum (numerator denominator : ℕ) (minimumRate : ℚ) :
    Except EvaluationError Bool := do
  let minimum ← decimalFraction (toString minimumRate)
  pure (decide (denominator * minimum.1 ≤ numerator * minimum.2))

/-- One round of the loop over the counts. -/
def RunCounts.add (counts : RunCounts) : RunEvidenceClassification → RunCounts
  | .conclusive => { counts with conclusive := counts.conclusive + 1 }
  | .inconclusive => { counts with inconclusive := counts.inconclusive + 1 }
  | .missing => { counts with missing := counts.missing + 1 }

/-- The counts of some occurrences. -/
def countRuns (occurrences : List RunEvidenceOccurrence) : RunCounts :=
  occurrences.foldl (fun counts occurrence => counts.add occurrence.classification)
    ⟨0, 0, 0, occurrences.length⟩

/-- What `evaluateConclusiveRunRate` does with an input that passed its
check. -/
def evaluateNormalized (normalized : ConclusiveRunRateInput) :
    Except EvaluationError ConclusiveRunRateResult :=
  let counts := countRuns normalized.occurrences
  let unable (reason : ConclusiveRunRateReason) : ConclusiveRunRateResult :=
    ⟨.unable, reason, normalized.minimumRate, counts, none⟩
  if normalized.windowState = .opened then pure (unable .windowOpen)
  else if normalized.sourceCoverage = .incomplete then pure (unable .sourceIncomplete)
  else if counts.total = 0 then pure (unable .populationEmpty)
  else do
    let met ← ratioMeetsMinimum toString counts.conclusive counts.total normalized.minimumRate
    let rate := some (counts.conclusive, counts.total)
    pure
      (if met = true then ⟨.satisfied, .thresholdMet, normalized.minimumRate, counts, rate⟩
      else ⟨.failed, .thresholdNotMet, normalized.minimumRate, counts, rate⟩)

/-- **`evaluateConclusiveRunRate`**, from the text a number has. -/
def evaluateConclusiveRunRate (input : EvaluatorInput) :
    Except EvaluationError ConclusiveRunRateResult := do
  let normalized ← assertInput input
  evaluateNormalized toString normalized

end Evaluate

/-! ## What an input is handed over as -/

/-- An occurrence, as it is handed over. -/
def RunEvidenceOccurrence.handedOver (occurrence : RunEvidenceOccurrence) : EvaluatorInput :=
  .object [("key", .text occurrence.key), ("classification", .text occurrence.classification.text)]

/-- An input, as it is handed over. -/
def ConclusiveRunRateInput.handedOver (input : ConclusiveRunRateInput) : EvaluatorInput :=
  .object
    [("minimumRate", .number (.finite input.minimumRate)),
      ("windowState", .text input.windowState.text),
      ("sourceCoverage", .text input.sourceCoverage.text),
      ("occurrences", .array (input.occurrences.map RunEvidenceOccurrence.handedOver))]

/-- The keys of the occurrences. -/
def ConclusiveRunRateInput.keys (input : ConclusiveRunRateInput) : List String :=
  input.occurrences.map RunEvidenceOccurrence.key

/-- An input the evaluator is for: a rate between zero and one, and no key
twice. -/
structure ConclusiveRunRateInput.WellFormed (input : ConclusiveRunRateInput) : Prop where
  nonneg : 0 ≤ input.minimumRate
  le_one : input.minimumRate ≤ 1
  distinct : input.keys.Nodup

theorem runEvidenceClassification?_text (classification : RunEvidenceClassification) :
    runEvidenceClassification? classification.text = some classification := by
  cases classification <;> rfl

theorem assertOccurrence_handedOver (index : ℕ) {keys : List String}
    {occurrence : RunEvidenceOccurrence} (h : occurrence.key ∉ keys) :
    assertOccurrence index keys occurrence.handedOver = .ok occurrence := by
  obtain ⟨key, classification, hbounded⟩ := occurrence
  have hkey : JsonValue.property
      [("key", (.text key : EvaluatorInput)), ("classification", .text classification.text)] "key" =
        some (.text key) := rfl
  have hclassification : JsonValue.property
      [("key", (.text key : EvaluatorInput)), ("classification", .text classification.text)]
        "classification" = some (.text classification.text) := rfl
  simp only [RunEvidenceOccurrence.handedOver, assertOccurrence, hkey, hclassification,
    runEvidenceClassification?_text]
  rw [dif_pos hbounded, if_neg h]

theorem assertOccurrences_handedOver (index : ℕ) {keys : List String}
    {occurrences : List RunEvidenceOccurrence}
    (hnew : ∀ occurrence ∈ occurrences, occurrence.key ∉ keys)
    (hdistinct : (occurrences.map RunEvidenceOccurrence.key).Nodup) :
    assertOccurrences index keys (occurrences.map RunEvidenceOccurrence.handedOver) =
      .ok occurrences := by
  induction occurrences generalizing index keys with
  | nil => rfl
  | cons occurrence rest ih =>
    obtain ⟨hnotMem, hrest⟩ := List.nodup_cons.mp hdistinct
    obtain ⟨hfirst, hothers⟩ := List.forall_mem_cons.mp hnew
    have hbehind : ∀ other ∈ rest, other.key ∉ occurrence.key :: keys := by
      intro other hother
      rw [List.mem_cons, not_or]
      exact ⟨fun heq => hnotMem (heq ▸ List.mem_map_of_mem hother), hothers other hother⟩
    rw [List.map_cons, assertOccurrences, assertOccurrence_handedOver index hfirst]
    show (assertOccurrences (index + 1) (occurrence.key :: keys)
      (rest.map RunEvidenceOccurrence.handedOver) >>= _) = _
    rw [ih (index + 1) hbehind hrest]
    rfl

/-- **What is well formed passes the check**, as it is. -/
theorem assertInput_handedOver {input : ConclusiveRunRateInput} (h : input.WellFormed) :
    assertInput input.handedOver = .ok input := by
  obtain ⟨rate, window, coverage, occurrences⟩ := input
  have hrate : assertMinimumRate (some (.number (.finite rate))) = .ok rate :=
    if_neg (not_or.mpr ⟨not_lt.mpr h.nonneg, not_lt.mpr h.le_one⟩)
  have hwindow : assertWindowState (some (.text window.text)) = .ok window := by
    cases window <;> rfl
  have hcoverage : assertSourceCoverage (some (.text coverage.text)) = .ok coverage := by
    cases coverage <;> rfl
  have hoccurrences : assertOccurrenceList
      (some (.array (occurrences.map RunEvidenceOccurrence.handedOver))) = .ok occurrences :=
    assertOccurrences_handedOver 0 (fun _ _ => List.not_mem_nil) h.distinct
  show (do
    let minimumRate ← assertMinimumRate (some (.number (.finite rate)))
    let windowState ← assertWindowState (some (.text window.text))
    let sourceCoverage ← assertSourceCoverage (some (.text coverage.text))
    let occurrences ← assertOccurrenceList
      (some (.array (occurrences.map RunEvidenceOccurrence.handedOver)))
    pure { minimumRate, windowState, sourceCoverage, occurrences } :
      Except EvaluationError ConclusiveRunRateInput) = _
  rw [hrate, hwindow, hcoverage, hoccurrences]
  rfl

/-! ## The counts -/

/-- How many of some occurrences have a classification. -/
def classified (classification : RunEvidenceClassification)
    (occurrences : List RunEvidenceOccurrence) : ℕ :=
  occurrences.countP fun occurrence => occurrence.classification = classification

/-- **Every occurrence counts once**, as what it is classified. -/
theorem countRuns_eq (occurrences : List RunEvidenceOccurrence) :
    countRuns occurrences =
      ⟨classified .conclusive occurrences, classified .inconclusive occurrences,
        classified .missing occurrences, occurrences.length⟩ := by
  have hgo : ∀ (rest : List RunEvidenceOccurrence) (c i m t : ℕ),
      rest.foldl (fun counts occurrence => counts.add occurrence.classification) ⟨c, i, m, t⟩ =
        (⟨c + classified .conclusive rest, i + classified .inconclusive rest,
          m + classified .missing rest, t⟩ : RunCounts) := by
    intro rest
    induction rest with
    | nil => exact fun _ _ _ _ => rfl
    | cons occurrence rest ih =>
      intro c i m t
      obtain ⟨key, classification, _⟩ := occurrence
      unfold classified at ih ⊢
      cases classification with
      | conclusive =>
        rw [List.foldl_cons, RunCounts.add, ih]
        simp [Nat.add_assoc, Nat.add_comm 1]
      | inconclusive =>
        rw [List.foldl_cons, RunCounts.add, ih]
        simp [Nat.add_assoc, Nat.add_comm 1]
      | missing =>
        rw [List.foldl_cons, RunCounts.add, ih]
        simp [Nat.add_assoc, Nat.add_comm 1]
  rw [countRuns, hgo]
  simp

/-- The counts do not depend on the order. -/
theorem countRuns_perm {occurrences others : List RunEvidenceOccurrence}
    (h : occurrences.Perm others) : countRuns occurrences = countRuns others := by
  unfold countRuns
  rw [h.length_eq]
  have : RightCommutative fun (counts : RunCounts) (occurrence : RunEvidenceOccurrence) =>
      counts.add occurrence.classification := by
    refine ⟨fun counts a b => ?_⟩
    cases a.classification <;> cases b.classification <;> rfl
  exact h.foldl_eq _

/-! ## The least rate -/

/-- **The fraction a decimal text is read as** is what the text stands for. -/
theorem decimalFraction_spec (numeral : Decimal.Numeral) :
    ∃ numerator denominator, decimalFraction numeral.text = .ok (numerator, denominator) ∧
      0 < denominator ∧ numeral.value = (numerator : ℚ) / denominator := by
  have hlower : (toLowerCase numeral.text).toList = numeral.text.toList := by
    rw [toLowerCase, String.toList_ofList, numeral.toLower_text]
  have hexponent : readExponent (numeral.exponent.map Decimal.Numeral.writeExponent).toList.head? =
      .ok numeral.scale := by
    unfold Decimal.Numeral.scale
    cases hsome : numeral.exponent with
    | none => rfl
    | some e =>
      show (Decimal.readSigned (Decimal.Numeral.writeExponent e)).elim _ _ = _
      rw [Decimal.readSigned_writeExponent (numeral.exponent_ne e hsome)]
      rfl
  have hfraction : (numeral.fraction.map fun ds => ds.map Decimal.digitChar).toList.headD [] =
      numeral.places.map Decimal.digitChar := by
    unfold Decimal.Numeral.places
    cases numeral.fraction <;> rfl
  have hread : decimalFraction numeral.text =
      .ok (if (numeral.places.length : ℤ) - numeral.scale ≤ 0 then
        (Decimal.valueOf (numeral.whole ++ numeral.places) *
          10 ^ (-((numeral.places.length : ℤ) - numeral.scale)).toNat, 1)
        else (Decimal.valueOf (numeral.whole ++ numeral.places),
          10 ^ ((numeral.places.length : ℤ) - numeral.scale).toNat)) := by
    unfold decimalFraction
    dsimp only
    rw [hlower, numeral.splitOn_text, List.tail_cons, hexponent, List.headD_cons,
      numeral.splitOn_coefficient, List.tail_cons, List.headD_cons, hfraction, ← List.map_append,
      Decimal.read_digits, List.length_map]
    rfl
  rw [hread, numeral.value_eq]
  split
  · next hscale =>
    refine ⟨_, _, rfl, Nat.one_pos, ?_⟩
    have hpower : numeral.scale - (numeral.places.length : ℤ) =
        ((-((numeral.places.length : ℤ) - numeral.scale)).toNat : ℤ) := by
      omega
    rw [hpower, zpow_natCast]
    push_cast
    rw [div_one]
  · next hscale =>
    refine ⟨_, _, rfl, Nat.pow_pos (by decide), ?_⟩
    have hpower : numeral.scale - (numeral.places.length : ℤ) =
        -(((numeral.places.length : ℤ) - numeral.scale).toNat : ℤ) := by
      omega
    rw [hpower, zpow_neg, zpow_natCast, div_eq_mul_inv]
    push_cast
    rfl

variable {toString : ℚ → String}

/-- **A ratio is compared as it is**, with what the text of the least rate
stands for. -/
theorem ratioMeetsMinimum_spec {numeral : Decimal.Numeral} {rate : ℚ}
    (htext : toString rate = numeral.text) {numerator denominator : ℕ} (hpos : 0 < denominator) :
    ratioMeetsMinimum toString numerator denominator rate =
      .ok (decide (numeral.value ≤ (numerator : ℚ) / denominator)) := by
  obtain ⟨least, scale, hread, hscale, hvalue⟩ := decimalFraction_spec numeral
  have hcompare : denominator * least ≤ numerator * scale ↔
      numeral.value ≤ (numerator : ℚ) / denominator := by
    have hdenominator : (0 : ℚ) < denominator := Nat.cast_pos.mpr hpos
    have hscale' : (0 : ℚ) < scale := Nat.cast_pos.mpr hscale
    rw [hvalue, div_le_div_iff₀ hscale' hdenominator, ← Nat.cast_mul, ← Nat.cast_mul, Nat.cast_le,
      mul_comm denominator]
  unfold ratioMeetsMinimum
  rw [htext, hread]
  show Except.ok (decide (denominator * least ≤ numerator * scale)) = _
  rw [decide_eq_decide.mpr hcompare]

/-! ## The evaluation -/

/-- A well-formed input is evaluated as it is. -/
theorem evaluate_handedOver {input : ConclusiveRunRateInput} (h : input.WellFormed) :
    evaluateConclusiveRunRate toString input.handedOver = evaluateNormalized toString input := by
  unfold evaluateConclusiveRunRate
  rw [assertInput_handedOver h]
  rfl

/-- **What an evaluation of a well-formed input returns.** -/
theorem evaluateConclusiveRunRate_spec {input : ConclusiveRunRateInput} (h : input.WellFormed)
    {numeral : Decimal.Numeral} (htext : toString input.minimumRate = numeral.text) :
    ∃ result, evaluateConclusiveRunRate toString input.handedOver = .ok result ∧
      (result.outcome = .satisfied ↔
        input.windowState = .closed ∧ input.sourceCoverage = .complete ∧ input.occurrences ≠ [] ∧
          numeral.value ≤
            (classified .conclusive input.occurrences : ℚ) / input.occurrences.length) := by
  rw [evaluate_handedOver h]
  unfold evaluateNormalized
  dsimp only
  rw [countRuns_eq]
  by_cases hopened : input.windowState = .opened
  · rw [if_pos hopened]
    refine ⟨_, rfl, iff_of_false nofun ?_⟩
    rw [hopened]
    exact fun hsatisfied => nomatch hsatisfied.1
  · have hclosed : input.windowState = .closed := by
      cases hstate : input.windowState with
      | opened => exact absurd hstate hopened
      | closed => rfl
    rw [if_neg hopened]
    by_cases hincomplete : input.sourceCoverage = .incomplete
    · rw [if_pos hincomplete]
      refine ⟨_, rfl, iff_of_false nofun ?_⟩
      rw [hincomplete]
      exact fun hsatisfied => nomatch hsatisfied.2.1
    · have hcomplete : input.sourceCoverage = .complete := by
        cases hcoverage : input.sourceCoverage with
        | complete => rfl
        | incomplete => exact absurd hcoverage hincomplete
      rw [if_neg hincomplete]
      by_cases hempty : input.occurrences.length = 0
      · rw [if_pos hempty]
        exact ⟨_, rfl, iff_of_false nofun fun hsatisfied =>
          hsatisfied.2.2.1 (List.length_eq_zero_iff.mp hempty)⟩
      · rw [if_neg hempty, ratioMeetsMinimum_spec htext (Nat.pos_of_ne_zero hempty)]
        have hoccurrences : input.occurrences ≠ [] :=
          fun heq => hempty (List.length_eq_zero_iff.mpr heq)
        refine ⟨_, rfl, ?_⟩
        by_cases hmet : numeral.value ≤
            (classified .conclusive input.occurrences : ℚ) / input.occurrences.length
        · rw [decide_eq_true hmet]
          exact iff_of_true rfl ⟨hclosed, hcomplete, hoccurrences, hmet⟩
        · rw [decide_eq_false hmet]
          exact iff_of_false nofun fun hsatisfied => hmet hsatisfied.2.2.2

/-- An occurrence is as conclusive as another one of the same key: classified
alike, or conclusive. -/
def AsConclusive (occurrence other : RunEvidenceOccurrence) : Prop :=
  other.key = occurrence.key ∧
    (other.classification = occurrence.classification ∨ other.classification = .conclusive)

theorem keys_of_asConclusive {occurrences others : List RunEvidenceOccurrence}
    (h : List.Forall₂ AsConclusive occurrences others) :
    others.map RunEvidenceOccurrence.key = occurrences.map RunEvidenceOccurrence.key := by
  induction h with
  | nil => rfl
  | cons hfirst _ ih => rw [List.map_cons, List.map_cons, ih, hfirst.1]

theorem classified_le_of_asConclusive {occurrences others : List RunEvidenceOccurrence}
    (h : List.Forall₂ AsConclusive occurrences others) :
    classified .conclusive occurrences ≤ classified .conclusive others := by
  unfold classified
  induction h with
  | nil => exact le_rfl
  | @cons occurrence other rest others hfirst _ ih =>
    rw [List.countP_cons, List.countP_cons]
    have hone : (if decide (occurrence.classification = .conclusive) = true then 1 else 0) ≤
        (if decide (other.classification = .conclusive) = true then 1 else 0) := by
      rcases hfirst.2 with hsame | hconclusive
      · rw [hsame]
      · rw [hconclusive]
        split
        · exact le_rfl
        · exact Nat.zero_le _
    exact Nat.add_le_add ih hone

/-- What an evaluation came to. -/
def outcome? (evaluation : Except EvaluationError ConclusiveRunRateResult) :
    Option EvaluationOutcome :=
  evaluation.toOption.map ConclusiveRunRateResult.outcome

/-- **The rate of conclusive runs is compared exactly.** Of a well-formed
input, whose least rate has the text of a numeral, the evaluation is satisfied
exactly when the window is closed, was read to its end and is not empty, and
the numeral stands for no more than the fraction of the conclusive
occurrences. It says the same of the occurrences in another order; and where
it is satisfied, it is satisfied with some of them turned conclusive. -/
theorem conclusiveRunRate_exact {input : ConclusiveRunRateInput} (h : input.WellFormed)
    {numeral : Decimal.Numeral} (htext : toString input.minimumRate = numeral.text) :
    (outcome? (evaluateConclusiveRunRate toString input.handedOver) = some .satisfied ↔
      input.windowState = .closed ∧ input.sourceCoverage = .complete ∧ input.occurrences ≠ [] ∧
        numeral.value ≤
          (classified .conclusive input.occurrences : ℚ) / input.occurrences.length) ∧
    (∀ occurrences, occurrences.Perm input.occurrences →
      evaluateConclusiveRunRate toString { input with occurrences }.handedOver =
        evaluateConclusiveRunRate toString input.handedOver) ∧
    ∀ occurrences, List.Forall₂ AsConclusive input.occurrences occurrences →
      outcome? (evaluateConclusiveRunRate toString input.handedOver) = some .satisfied →
      outcome? (evaluateConclusiveRunRate toString { input with occurrences }.handedOver) =
        some .satisfied := by
  have hsatisfied : ∀ {input : ConclusiveRunRateInput}, input.WellFormed →
      toString input.minimumRate = numeral.text →
      (outcome? (evaluateConclusiveRunRate toString input.handedOver) = some .satisfied ↔
        input.windowState = .closed ∧ input.sourceCoverage = .complete ∧ input.occurrences ≠ [] ∧
          numeral.value ≤
            (classified .conclusive input.occurrences : ℚ) / input.occurrences.length) := by
    intro input h htext
    obtain ⟨result, hresult, hiff⟩ := evaluateConclusiveRunRate_spec h htext
    rw [hresult, ← hiff]
    exact Option.some_inj
  refine ⟨hsatisfied h htext, fun occurrences hperm => ?_, fun occurrences hturned hbefore => ?_⟩
  · have h' : { input with occurrences }.WellFormed :=
      ⟨h.nonneg, h.le_one, (hperm.map _).nodup_iff.mpr h.distinct⟩
    rw [evaluate_handedOver h, evaluate_handedOver h']
    unfold evaluateNormalized
    dsimp only
    rw [countRuns_perm hperm]
  · have h' : { input with occurrences }.WellFormed :=
      ⟨h.nonneg, h.le_one, (congrArg List.Nodup (keys_of_asConclusive hturned)).mpr h.distinct⟩
    obtain ⟨hclosed, hcomplete, hne, hrate⟩ := (hsatisfied h htext).mp hbefore
    rw [hsatisfied h' htext]
    refine ⟨hclosed, hcomplete, ?_, hrate.trans ?_⟩
    · rw [← List.length_pos_iff, ← hturned.length_eq, List.length_pos_iff]
      exact hne
    · show _ ≤ (classified .conclusive occurrences : ℚ) / occurrences.length
      rw [← hturned.length_eq]
      gcongr
      exact classified_le_of_asConclusive hturned

theorem five_lt_ten : 5 < 10 := by decide

theorem seven_lt_ten : 7 < 10 := by decide

/-- The text `5e-7`. -/
def sampleNumeral : Decimal.Numeral where
  whole := [⟨5, five_lt_ten⟩]
  exponent := some (.minus, [⟨7, seven_lt_ten⟩])

/-- A closed window of two runs, with a least rate of `5e-7`. -/
def sampleRuns (second : RunEvidenceClassification) : ConclusiveRunRateInput where
  minimumRate := 5 / 10 ^ 7
  windowState := .closed
  sourceCoverage := .complete
  occurrences := [⟨"a", .conclusive, by decide +kernel⟩, ⟨"b", second, by decide +kernel⟩]

/-- One conclusive run of two meets that rate, in either order, and so do
two. -/
theorem conclusiveRunRate_exact_sample :
    outcome? (evaluateConclusiveRunRate (fun _ => "5e-7") (sampleRuns .missing).handedOver) =
        some .satisfied ∧
      evaluateConclusiveRunRate (fun _ => "5e-7")
          { sampleRuns .missing with
            occurrences := (sampleRuns .missing).occurrences.reverse }.handedOver =
        evaluateConclusiveRunRate (fun _ => "5e-7") (sampleRuns .missing).handedOver ∧
      outcome? (evaluateConclusiveRunRate (fun _ => "5e-7")
          { sampleRuns .missing with
            occurrences := (sampleRuns .conclusive).occurrences }.handedOver) =
        some .satisfied := by
  have hform : (sampleRuns .missing).WellFormed :=
    ⟨by decide +kernel, by decide +kernel, by decide +kernel⟩
  obtain ⟨hsatisfied, hperm, hturned⟩ :=
    @conclusiveRunRate_exact (fun _ => "5e-7") _ hform sampleNumeral (by decide +kernel)
  have hrate : outcome? (evaluateConclusiveRunRate (fun _ => "5e-7")
      (sampleRuns .missing).handedOver) = some .satisfied := by
    refine hsatisfied.mpr ⟨rfl, rfl, List.cons_ne_nil _ _, ?_⟩
    show (((5 : ℕ) : ℚ) + ((0 : ℕ) : ℚ) / 10 ^ 0) * 10 ^ (-((7 : ℕ) : ℤ)) ≤ ((1 : ℕ) : ℚ) / (2 : ℕ)
    norm_num
  refine ⟨hrate, hperm _ (List.reverse_perm _), hturned _ ?_ hrate⟩
  exact .cons ⟨rfl, Or.inl rfl⟩ (.cons ⟨rfl, Or.inr rfl⟩ .nil)

end Snowcat
