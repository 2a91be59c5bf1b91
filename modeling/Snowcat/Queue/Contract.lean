import Snowcat.Queue.Validation

/-!
# Delivery contracts and follow-up intents

`contractProblem` says how the authority of an item and what it must
deliver can disagree. It is one predicate with three callers – the
definition paths, admission and the contract audit – and each of them
hands it a different part of the item, which is why it takes its argument
as `ContractItem` rather than as a row.

The second half turns a follow-up as a worker proposes it into an explicit
contract: `normalizeFollowUpIntent` copies a legacy proposal and derives
the contract of an intent from the parent's delegation ceiling.
-/

namespace Snowcat

/-- The ways a contract can fail to be deliverable. -/
inductive ContractProblemCode where
  | discoveryKindWithChangeContract
  | requiredPullRequestWithoutOpenPr
  | writeWithoutOpenPr
  | childWriteWithoutRequiredPullRequest
  | changeChildCannotPropose
  | readOnlyWithMutation
  | readOnlyRequiredPullRequest
  | mutatingTargetWithoutWrite
  | mutatingTargetWithoutRequiredPullRequest
  | existingPullRequestWithoutBinding
  | cureChangeWithoutExistingTarget
  | undeclaredExecutionTarget
  | unboundPolicy
  deriving DecidableEq, Repr

/-- The text of a contract problem's code. -/
def ContractProblemCode.text : ContractProblemCode → String
  | .discoveryKindWithChangeContract => "discovery-kind-with-change-contract"
  | .requiredPullRequestWithoutOpenPr => "required-pull-request-without-open-pr"
  | .writeWithoutOpenPr => "write-without-open-pr"
  | .childWriteWithoutRequiredPullRequest => "child-write-without-required-pull-request"
  | .changeChildCannotPropose => "change-child-cannot-propose"
  | .readOnlyWithMutation => "read-only-with-mutation"
  | .readOnlyRequiredPullRequest => "read-only-required-pull-request"
  | .mutatingTargetWithoutWrite => "mutating-target-without-write"
  | .mutatingTargetWithoutRequiredPullRequest => "mutating-target-without-required-pull-request"
  | .existingPullRequestWithoutBinding => "existing-pull-request-without-binding"
  | .cureChangeWithoutExistingTarget => "cure-change-without-existing-target"
  | .undeclaredExecutionTarget => "undeclared-execution-target"
  | .unboundPolicy => "unbound-policy"

/-- A contract problem. -/
structure ContractProblem where
  code : ContractProblemCode
  message : String
  deriving DecidableEq, Repr

/-- The part of an item `contractProblem` reads, as much of it as the
caller has. -/
structure ContractItem where
  allowedActions : List AllowedAction
  delegableActions : Option (List AllowedAction) := none
  requiredArtifact : RequiredArtifact
  executionTarget : Option ExecutionTarget := none
  sourceRef : Option String := none
  cure : Option PullRequestCure := none
  review : Option PullRequestReview := none
  parentId : Option String := none
  parentDelegableActions : Option (List AllowedAction) := none
  kind : Option String := none

/-- `CURE_CHANGE_KIND`. -/
def cureChangeKind : String := "pr-cure-change"

/-- `hasPullRequestBinding`. -/
def hasPullRequestBinding (sourceRef : Option String) (cure : Option PullRequestCure)
    (review : Option PullRequestReview) : Bool :=
  cure.isSome || review.isSome ||
    match sourceRef with
    | some ref => Patterns.pullRequestBinding.test ref
    | none => false

/-- The message of a change child that cannot propose: which half of the
capability it misses. -/
def changeChildMessage (item : ContractItem) : String :=
  let missing :=
    if .createFollowup ∈ item.allowedActions then
      "a non-empty delegableActions for the children it will propose (at most its parent's ceiling)"
    else
      "create-followup to its allowedActions, which its parent's delegableActions already permit"
  let name := match item.kind with
    | none => "it"
    | some kind => s!"\"{kind}\""
  s!"a follow-up granting write finds adjacent work while it changes the tree, and evidence re-queues nothing: give {name} {missing}"

/-- **`contractProblem`**: the first disagreement between what an item may
do, what it must report and where it executes. -/
def contractProblem (item : ContractItem) : Option ContractProblem :=
  if (∃ kind ∈ item.kind, endsWith kind "-discovery" = true) ∧
      (item.requiredArtifact = .pullRequest ∨ .write ∈ item.allowedActions ∨
        .openPr ∈ item.allowedActions) then
    some ⟨.discoveryKindWithChangeContract,
      "a -discovery item is read-only discovery: it cannot declare requiredArtifact pull-request or grant write or open-pr; a change follow-up takes an implementation kind such as <program>-fix"⟩
  else if item.requiredArtifact = .pullRequest ∧ .openPr ∉ item.allowedActions then
    some ⟨.requiredPullRequestWithoutOpenPr,
      "an item that must deliver a pull request requires open-pr in allowedActions"⟩
  else if .write ∈ item.allowedActions ∧ .openPr ∉ item.allowedActions then
    some ⟨.writeWithoutOpenPr,
      "an item granted write has no way to land its change: it requires open-pr in allowedActions"⟩
  else if item.parentId.isSome ∧ .write ∈ item.allowedActions ∧
      item.requiredArtifact ≠ .pullRequest then
    some ⟨.childWriteWithoutRequiredPullRequest,
      "a follow-up granting write is a change and must declare requiredArtifact \"pull-request\""⟩
  else if .write ∈ item.allowedActions ∧
      (∃ ceiling ∈ item.parentDelegableActions, .createFollowup ∈ ceiling) ∧
      (.createFollowup ∉ item.allowedActions ∨ item.delegableActions = some []) then
    some ⟨.changeChildCannotPropose, changeChildMessage item⟩
  else if item.executionTarget = some .readOnly ∧
      (.write ∈ item.allowedActions ∨ .openPr ∈ item.allowedActions) then
    some ⟨.readOnlyWithMutation,
      "a read-only item mutates nothing: allowedActions must exclude write and open-pr"⟩
  else if item.executionTarget = some .readOnly ∧ item.requiredArtifact ≠ .none then
    some ⟨.readOnlyRequiredPullRequest,
      "a read-only item cannot deliver a pull request: requiredArtifact must be none"⟩
  else if (item.executionTarget = some .newPullRequest ∨
        item.executionTarget = some .existingPullRequest) ∧
      (.write ∉ item.allowedActions ∨ .openPr ∉ item.allowedActions) then
    let target := (item.executionTarget.map ExecutionTarget.text).getD ""
    some ⟨.mutatingTargetWithoutWrite,
      s!"a {target} item alters the tree and publishes it: allowedActions must include write and open-pr"⟩
  else if (item.executionTarget = some .newPullRequest ∨
        item.executionTarget = some .existingPullRequest) ∧
      item.requiredArtifact ≠ .pullRequest then
    let target := (item.executionTarget.map ExecutionTarget.text).getD ""
    some ⟨.mutatingTargetWithoutRequiredPullRequest,
      s!"a {target} item delivers through a pull request: requiredArtifact must be pull-request"⟩
  else if item.kind = some cureChangeKind ∧
      ∃ target ∈ item.executionTarget, target ≠ .existingPullRequest then
    let target := (item.executionTarget.map ExecutionTarget.text).getD ""
    some ⟨.cureChangeWithoutExistingTarget,
      s!"a {cureChangeKind} item changes the patch of the pull request its parent is bound to: executionTarget must be existing-pull-request, never {target} — a second pull request for the same head is what ADR-0061 forbids"⟩
  else if item.executionTarget = some .existingPullRequest ∧
      hasPullRequestBinding item.sourceRef item.cure item.review = false then
    some ⟨.existingPullRequestWithoutBinding,
      "an existing-pull-request item must bind its pull request: a review or cure record, or a sourceRef naming <url>@<head SHA>"⟩
  else none

/-- The contract of a stored row, which is what the audit hands over. -/
def WorkItem.contract (item : WorkItem) : ContractItem where
  allowedActions := item.allowedActions
  delegableActions := some item.delegableActions
  requiredArtifact := item.requiredArtifact
  executionTarget := item.executionTarget
  sourceRef := item.sourceRef
  cure := item.cure
  review := item.review
  parentId := item.parentId
  kind := some item.kind

/-- What a definition path hands over besides the definition: the bindings
the item will be stored with, where the path passes them on. -/
structure Bindings where
  sourceRef : Option String := none
  cure : Option PullRequestCure := none
  review : Option PullRequestReview := none

/-- `assertDeliverable`. -/
def assertDeliverable (input : WorkDefinition) (bindings : Bindings) : Except QueueError Unit := do
  let requiredArtifact := input.requiredArtifact.getD .none
  refuseIf (input.executionTarget = none)
    (.error "executionTarget must be one of read-only, new-pull-request, existing-pull-request")
  match contractProblem
      { allowedActions := input.allowedActions
        requiredArtifact
        executionTarget := input.executionTarget
        sourceRef := bindings.sourceRef
        cure := bindings.cure
        review := bindings.review
        kind := some input.kind } with
  | some problem => .error (.error problem.message)
  | none => pure ()

/-- A contract that declares where it executes and has no problem passes. -/
theorem assertDeliverable_eq_ok {input : WorkDefinition} {bindings : Bindings}
    (htarget : input.executionTarget ≠ none)
    (hproblem : contractProblem
      { allowedActions := input.allowedActions
        requiredArtifact := input.requiredArtifact.getD .none
        executionTarget := input.executionTarget
        sourceRef := bindings.sourceRef
        cure := bindings.cure
        review := bindings.review
        kind := some input.kind } = none) : assertDeliverable input bindings = .ok () := by
  unfold assertDeliverable
  refine except_bind_eq_ok.mpr ⟨(), refuseIf_eq_ok.mpr htarget, ?_⟩
  rw [hproblem]
  rfl

/-- `validateWorkDefinition`. Its actions are known by their type. -/
def validateWorkDefinition (input : WorkDefinition) (bindings : Bindings := {}) :
    Except QueueError Unit := do
  refuseIf (Patterns.workKind.test input.kind = false) (.error s!"invalid work kind: {input.kind}")
  refuseIf (∃ priority ∈ input.priority, priority.isSafeInteger = false)
    (.error "priority must be a safe integer")
  refuseIf (isBlank input.objective = true) (.error "objective is required")
  refuseIf (isBlank input.instructions = true) (.error "instructions are required")
  refuseIf (input.acceptanceCriteria = [] ∨
      ∃ criterion ∈ input.acceptanceCriteria, isBlank criterion = true)
    (.error "at least one non-empty acceptance criterion is required")
  refuseIf (isBlank input.createdBy = true) (.error "createdBy is required")
  assertDeliverable input bindings

/-- **What an accepted definition guarantees**: its kind is a work kind, it
declares where it executes, and its contract has no problem with the
bindings it was checked with. -/
theorem validateWorkDefinition_spec {input : WorkDefinition} {bindings : Bindings} {u : Unit}
    (h : validateWorkDefinition input bindings = .ok u) :
    Patterns.workKind.test input.kind = true ∧ input.executionTarget ≠ none ∧
      contractProblem
        { allowedActions := input.allowedActions
          requiredArtifact := input.requiredArtifact.getD .none
          executionTarget := input.executionTarget
          sourceRef := bindings.sourceRef
          cure := bindings.cure
          review := bindings.review
          kind := some input.kind } = none := by
  simp only [validateWorkDefinition, assertDeliverable, except_bind_eq_ok, refuseIf_eq_ok] at h
  obtain ⟨_, hkind, _, -, _, -, _, -, _, -, _, -, _, htarget, hproblem⟩ := h
  refine ⟨by simpa using hkind, htarget, ?_⟩
  split at hproblem
  · exact absurd hproblem (by simp)
  · next hp => exact hp

/-- **What a definition is accepted with.** -/
theorem validateWorkDefinition_eq_ok {input : WorkDefinition} {bindings : Bindings}
    (hkind : Patterns.workKind.test input.kind = true)
    (hpriority : ∀ priority ∈ input.priority, priority.isSafeInteger = true)
    (hobjective : isBlank input.objective = false)
    (hinstructions : isBlank input.instructions = false) (hcriteria : input.acceptanceCriteria ≠ [])
    (hcriterion : ∀ criterion ∈ input.acceptanceCriteria, isBlank criterion = false)
    (hcreatedBy : isBlank input.createdBy = false)
    (hdeliverable : assertDeliverable input bindings = .ok ()) :
    validateWorkDefinition input bindings = .ok () := by
  have hsafe : ¬ ∃ priority ∈ input.priority, priority.isSafeInteger = false := by
    rintro ⟨priority, hmem, hunsafe⟩
    rw [hpriority priority hmem] at hunsafe
    exact nomatch hunsafe
  have hstated : ¬ (input.acceptanceCriteria = [] ∨
      ∃ criterion ∈ input.acceptanceCriteria, isBlank criterion = true) := by
    rintro (hnil | ⟨criterion, hmem, hblank⟩)
    · exact hcriteria hnil
    · rw [hcriterion criterion hmem] at hblank
      exact nomatch hblank
  simp only [validateWorkDefinition, except_bind_eq_ok, refuseIf_eq_ok, hkind, hobjective,
    hinstructions, hcreatedBy]
  exact ⟨(), Bool.false_ne_true.symm, (), hsafe, (), Bool.false_ne_true, (), Bool.false_ne_true, (),
    hstated, (), Bool.false_ne_true, hdeliverable⟩

/-- `assertSubset`. -/
def assertSubset (values ceiling : List AllowedAction) (field : String) :
    Except QueueError Unit :=
  let excess := values.filter (fun value => value ∉ ceiling)
  let names := joinWith ", " (excess.map AllowedAction.text)
  refuseIf (excess ≠ []) (.error s!"{field} exceeds delegation ceiling: {names}")

theorem subset_of_assertSubset {values ceiling : List AllowedAction} {field : String} {u : Unit}
    (h : assertSubset values ceiling field = .ok u) : values ⊆ ceiling := by
  simp only [assertSubset, refuseIf_eq_ok, ne_eq, not_not, List.filter_eq_nil_iff,
    decide_eq_true_eq] at h
  exact h

/-! ## Follow-up intents -/

/-- What an intent places: whether the child changes the tree, its kind
where the intent fixes one, what it reports and where it executes. -/
structure IntentPlacement where
  change : Bool
  kind : Option String
  requiredArtifact : RequiredArtifact
  executionTarget : ExecutionTarget

/-- The placement of an intent. -/
def FollowUpIntent.placement : FollowUpIntent → IntentPlacement
  | .readOnly => ⟨false, none, .none, .readOnly⟩
  | .newPrChange => ⟨true, none, .pullRequest, .newPullRequest⟩
  | .existingPrChange => ⟨true, some cureChangeKind, .pullRequest, .existingPullRequest⟩

/-- The contract `derivedContract` derives. -/
structure DerivedContract where
  kind : Option String
  allowedActions : List AllowedAction
  delegableActions : List AllowedAction
  requiredArtifact : RequiredArtifact
  executionTarget : ExecutionTarget

/-- `derivedContract`. -/
def derivedContract (delegable : List AllowedAction) (cure : Option PullRequestCure)
    (intent : FollowUpIntent) : Except QueueError DerivedContract := do
  let selected := intent.placement
  let required : List AllowedAction :=
    if selected.change then [.read, .write, .openPr] else [.read]
  let unavailable := required.filter (fun action => action ∉ delegable)
  let missing := joinWith ", " (unavailable.map AllowedAction.text)
  refuseIf (unavailable ≠ [])
    (.error s!"follow-up intent {intent.text} exceeds the parent delegation ceiling: missing {missing}")
  refuseIf (intent = .existingPrChange ∧ cure = none)
    (.error "follow-up intent existing-pr-change requires a parent cure binding")
  let optional : List AllowedAction :=
    [.runTests, .openIssue, .createFollowup].filter fun action =>
      !(selected.change && action == .openIssue) && delegable.contains action
  let direct := required ++ optional
  pure
    { kind := selected.kind
      allowedActions := allowedActions.filter direct.contains
      delegableActions :=
        if direct.contains .createFollowup then allowedActions.filter delegable.contains else []
      requiredArtifact := selected.requiredArtifact
      executionTarget := selected.executionTarget }

/-- `assertOptionalActions`. -/
def assertOptionalActions (field : String) (supplied : Option (List AllowedAction))
    (derived : List AllowedAction) : Except QueueError Unit :=
  refuseSome (fun supplied =>
    let normalized := allowedActions.filter supplied.contains
    let expected := joinWith "," (derived.map fun action => s!"\"{action.text}\"")
    refuseIf (normalized.length ≠ supplied.length ∨ normalized ≠ derived)
      (.error s!"follow-up intent contract mismatch: {field} must be [{expected}]")) supplied

/-- `assertOptionalScalar`. -/
def assertOptionalScalar (field : String) (supplied : Option String) (derived : String) :
    Except QueueError Unit :=
  refuseSome (fun supplied => refuseIf (supplied ≠ derived)
    (.error s!"follow-up intent contract mismatch: {field} must be {derived}")) supplied

/-- `normalizeLegacyFollowUp`: an explicit contract, which must be whole. -/
def normalizeLegacyFollowUp (proposal : FollowUpProposalInput) :
    Except QueueError FollowUpInput :=
  match proposal.kind, proposal.allowedActions, proposal.delegableActions,
    proposal.requiredArtifact, proposal.executionTarget with
  | some kind, some allowed, some delegable, some requiredArtifact, some executionTarget =>
    .ok
      { kind
        objective := proposal.objective
        instructions := proposal.instructions
        acceptanceCriteria := proposal.acceptanceCriteria
        allowedActions := allowed
        delegableActions := delegable
        requiredArtifact
        executionTarget }
  | kind, allowed, delegable, requiredArtifact, executionTarget =>
    let fields := [("kind", kind.isSome), ("allowedActions", allowed.isSome),
      ("delegableActions", delegable.isSome), ("requiredArtifact", requiredArtifact.isSome),
      ("executionTarget", executionTarget.isSome)]
    let missing := joinWith ", " ((fields.filter fun field => !field.2).map Prod.fst)
    .error (.error s!"legacy follow-up without intent must declare {missing}")

/-- The kind of an intent's child: the intent's own, or the one the proposal
must name. -/
def intentKind (intent : FollowUpIntent) (derived supplied : Option String) :
    Except QueueError String :=
  match derived, supplied with
  | some kind, _ => .ok kind
  | none, some kind => .ok kind
  | none, none => .error (.error s!"follow-up intent {intent.text} requires kind")

/-- **`normalizeFollowUpIntent`**: the explicit contract of a proposal. -/
def normalizeFollowUpIntent (delegable : List AllowedAction) (cure : Option PullRequestCure)
    (proposal : FollowUpProposalInput) : Except QueueError FollowUpInput :=
  match proposal.intent with
  | none => normalizeLegacyFollowUp proposal
  | some intent => do
    let derived ← derivedContract delegable cure intent
    let kind ← intentKind intent derived.kind proposal.kind
    refuseSome (fun supplied => refuseIf (supplied ≠ kind)
      (.error s!"follow-up intent {intent.text} derives kind {kind}, not {supplied}")) proposal.kind
    assertOptionalActions "allowedActions" proposal.allowedActions derived.allowedActions
    assertOptionalActions "delegableActions" proposal.delegableActions derived.delegableActions
    assertOptionalScalar "requiredArtifact" (proposal.requiredArtifact.map RequiredArtifact.text)
      derived.requiredArtifact.text
    assertOptionalScalar "executionTarget" (proposal.executionTarget.map ExecutionTarget.text)
      derived.executionTarget.text
    pure
      { kind
        objective := proposal.objective
        instructions := proposal.instructions
        acceptanceCriteria := proposal.acceptanceCriteria
        allowedActions := derived.allowedActions
        delegableActions := derived.delegableActions
        requiredArtifact := derived.requiredArtifact
        executionTarget := derived.executionTarget }

/-- `inheritedCureBinding`. -/
def inheritedCureBinding (parent : WorkItem) (followUp : FollowUpInput) :
    Option PullRequestCure :=
  if followUp.kind ≠ cureChangeKind ∨ followUp.executionTarget ≠ .existingPullRequest then none
  else parent.cure

end Snowcat
