import Snowcat.Repository.Enrollment

/-!
# The commands of an enrollment

Each command reads the clock and the last sequence, checks what it builds on
against the active Core snapshot, and writes its records under new identities.
A command that was sent before answers from its receipt; so does an observation
that says what the newest one said. A command that throws leaves the tables as
they were.

SQLite refuses a record or a snapshot whose key is taken.
-/

namespace Snowcat.Authority

open Patterns

section Commands

variable {N : Type} (p : Platform N)

/-- What a command does that was run before: nothing, when its receipt is that of the same
payload. -/
def oncePerCommand (s : AuthorityTables) (payload : RepositoryCommandPayload) (changed : String)
    (body : Except ControlError AuthorityTables) : Except ControlError AuthorityTables :=
  match s.receipts.find? fun receipt => receipt.idempotencyKey = payload.idempotencyKey with
  | some receipt => do
    refuseIf (receipt ≠ payload) (.error changed)
    pure s
  | none => body

/-- The transaction of a command, with its receipt and the identities of its records. -/
def AuthorityTables.recording (s : AuthorityTables) (now : Time) (recordIds : List String)
    (payload : RepositoryCommandPayload) : Except ControlError AuthorityTables := do
  refuseIf (¬ recordIds.Nodup ∨ ∃ id ∈ recordIds, id ∈ s.recordIds)
    (.error "UNIQUE constraint failed: durable_occurrences.record_id")
  pure { s with
    core := s.core.recording now .other
    recordIds := s.recordIds ++ recordIds
    receipts := s.receipts ++ [payload] }

/-- `assertCommandTimeAndSequence`. -/
def assertCommandTimeAndSequence (metadata : ControlPlaneMetadata) (now : Time) (expected : ℕ) :
    Except ControlError Unit := do
  assertControlTime metadata now
  assertSequence metadata expected

/-! ## The authority of the active snapshot -/

/-- `RepositoryCoreAuthorityInput`. -/
structure RepositoryCoreAuthorityInput where
  expectedLastTransactionSequence : ℕ
  coreSnapshotId : String
  repositoryId : String

/-- The authority that a snapshot's declaration gives a repository. -/
def coreAuthority (snapshot : ActiveCoreSnapshot) (declared : DeclaredRepository)
    (repositoryId declarationRecordId coreAuthorizationRecordId eventRecordId : String)
    (authorizedAt : Time) : RepositoryCoreAuthorityPayload where
  repositoryId
  coreSnapshotId := snapshot.snapshotId
  declarationRecordId
  coreAuthorizationRecordId
  eventRecordId
  sourceCommitId := snapshot.sourceCommitId
  declarationPath := declared.path
  declarationDigest := declared.contentDigest
  owner := declared.declaration.owner
  name := declared.declaration.name
  accountableOwners := declared.declaration.accountableOwners
  fleetState := declared.declaration.fleetState
  maintenancePrograms := declared.declaration.maintenancePrograms
  actionCeiling := declared.declaration.actionCeiling
  surfaceContractVersion := declared.declaration.surfaceContractVersion
  authorizedAt

/-- **`materializeRepositoryCoreAuthority`.** -/
def materializeRepositoryCoreAuthority (s : AuthorityTables) (m : Moment)
    (input : RepositoryCoreAuthorityInput) : Except ControlError AuthorityTables := do
  assertPositiveSequence input.expectedLastTransactionSequence
  refuseIf (isUuidV7 input.coreSnapshotId = false) (.error "Core snapshot ID must be UUIDv7")
  refuseIf (Patterns.repositoryId.test input.repositoryId = false)
    (.error s!"invalid github-repository subject ID: {input.repositoryId}")
  let command : RepositoryCommandPayload :=
    .materializeCoreAuthority input.coreSnapshotId input.repositoryId
  oncePerCommand s command "repository Core authority idempotency payload changed" do
    assertCommandTimeAndSequence s.core.metadata m.now input.expectedLastTransactionSequence
    let readiness ← coreAdmissionReadinessWithoutOverride s.core m.now
    let effectiveReadiness ← coreAdmissionReadiness s.core m.now
    refuseIf (effectiveReadiness.ready = false)
      (.error s!"Core admission readiness is {readiness.reason.text}; repository authority cannot advance")
    match ← activeCoreRepositoryCatalog p s.core with
    | none =>
      .error (.error "repository authority command does not bind the active Core snapshot")
    | some (snapshot, repositories) => do
      refuseIf (snapshot.snapshotId ≠ input.coreSnapshotId)
        (.error "repository authority command does not bind the active Core snapshot")
      match repositories.find? fun repository =>
        repository.repositoryId = input.repositoryId with
      | none => .error (.error "repository is not declared by the active Core snapshot")
      | some declared => do
        let declarationRecordId ← uuidV7 m 1
        let coreAuthorizationRecordId ← uuidV7 m 2
        let eventRecordId ← uuidV7 m 3
        let payload := coreAuthority snapshot declared input.repositoryId declarationRecordId
          coreAuthorizationRecordId eventRecordId m.now
        refuseIf (isRepositoryCoreAuthorityPayload p payload = false)
          (.error "retained repository declaration is outside the authority record contract")
        let s' ← s.recording m.now
          [declarationRecordId, coreAuthorizationRecordId, eventRecordId] command
        pure { s' with authorizations := s'.authorizations ++ [⟨coreAuthorizationRecordId, payload⟩] }

/-! ## The identity on GitHub -/

/-- `normalizeRepositoryGitHubInspection`. -/
def normalizeRepositoryGitHubInspection (input : RepositoryGitHubInspectionInput) :
    Except ControlError RepositoryGitHubInspectionInput :=
  match input with
  | .missing => pure .missing
  | .unavailable => pure .unavailable
  | .found repositoryId owner name archived defaultBranch => do
    refuseIf (Patterns.appId.test repositoryId = false ∨
        Patterns.repositoryOwner.test owner = false ∨
        Patterns.repositoryName.test name = false ∨ isRepositoryBranchName defaultBranch = false)
      (.error "repository GitHub found result is invalid")
    pure (.found repositoryId owner name archived defaultBranch)

/-- `slice("github.com:".length)`. -/
def withoutHost (repositoryId : String) : String := String.ofList (repositoryId.toList.drop 11)

/-- `classifyRepositoryGitHubInspection`. -/
def classifyRepositoryGitHubInspection (authority : RepositoryCoreAuthorityPayload) :
    RepositoryGitHubInspectionInput → RepositoryGitHubResult
  | .missing => .missing
  | .unavailable => .unavailable
  | .found repositoryId owner name archived _ =>
    if repositoryId ≠ withoutHost authority.repositoryId then .identityMismatch
    else if toLowerCase owner ≠ toLowerCase authority.owner ∨
        toLowerCase name ≠ toLowerCase authority.name then .locatorMismatch
    else if archived then .archived
    else .matched

/-- The reconciliation of an inspection with an authority. -/
def gitHubReconciliation (authority : RepositoryCoreAuthorityPayload)
    (inspection : RepositoryGitHubInspectionInput)
    (coreAuthorizationRecordId observationRecordId reconciliationRecordId eventRecordId : String)
    (checkedAt : Time) (responseDigest : String) : RepositoryGitHubReconciliationPayload :=
  let result := classifyRepositoryGitHubInspection authority inspection
  let observed : Option (String × String × String × Bool × String) :=
    match inspection with
    | .found repositoryId owner name archived defaultBranch =>
      some (repositoryId, owner, name, archived, defaultBranch)
    | _ => none
  { repositoryId := authority.repositoryId
    coreSnapshotId := authority.coreSnapshotId
    coreAuthorizationRecordId
    observationRecordId
    reconciliationRecordId
    eventRecordId
    declaredOwner := authority.owner
    declaredName := authority.name
    declaredRepositoryId := withoutHost authority.repositoryId
    fleetState := authority.fleetState
    observedOwner := observed.map fun o => o.2.1
    observedName := observed.map fun o => o.2.2.1
    observedRepositoryId := observed.map fun o => o.1
    archived := observed.map fun o => o.2.2.2.1
    observedDefaultBranch := observed.map fun o => o.2.2.2.2
    result
    effectiveState := repositoryIdentityState authority.fleetState result
    checkedAt
    responseDigest }

/-- `RepositoryGitHubReconciliationInput`. -/
structure RepositoryGitHubReconciliationInput where
  expectedLastTransactionSequence : ℕ
  coreAuthorizationRecordId : String
  inspection : RepositoryGitHubInspectionInput

/-- **`recordRepositoryGitHubIdentity`.** -/
def recordRepositoryGitHubIdentity (s : AuthorityTables) (m : Moment)
    (input : RepositoryGitHubReconciliationInput) : Except ControlError AuthorityTables := do
  assertPositiveSequence input.expectedLastTransactionSequence
  let inspection ← normalizeRepositoryGitHubInspection input.inspection
  let responseDigest ← digest p (inspectionJson inspection)
  assertCommandTimeAndSequence s.core.metadata m.now input.expectedLastTransactionSequence
  match byId s.authorizations input.coreAuthorizationRecordId with
  | none =>
    .error (.error "repository GitHub reconciliation requires a Core authorization fact")
  | some authority => do
    refuseIf (isRepositoryCoreAuthorityPayload p authority.payload = false)
      (.error "repository Core authorization fact is invalid")
    refuseIf (s.core.active.map ActiveCoreSnapshot.snapshotId ≠
        some authority.payload.coreSnapshotId)
      (.error "repository GitHub reconciliation authority is not from the active Core snapshot")
    let predecessor := s.identityOf input.coreAuthorizationRecordId
    refuseIf (predecessor.any (fun row =>
        !isRepositoryGitHubReconciliationPayload p row.payload) = true)
      (.error "repository GitHub reconciliation predecessor is invalid")
    -- what the newest one says is not recorded again
    if (predecessor.map fun row => row.payload.responseDigest) = some responseDigest then pure s
    else
      let command : RepositoryCommandPayload :=
        .recordGitHubIdentity input.coreAuthorizationRecordId (predecessor.map Row.recordId)
          inspection responseDigest
      oncePerCommand s command "repository GitHub reconciliation idempotency payload changed" do
        let observationRecordId ← uuidV7 m 1
        let reconciliationRecordId ← uuidV7 m 2
        let eventRecordId ← uuidV7 m 3
        let payload := gitHubReconciliation authority.payload inspection
          input.coreAuthorizationRecordId observationRecordId reconciliationRecordId eventRecordId
          m.now responseDigest
        refuseIf (isRepositoryGitHubReconciliationPayload p payload = false)
          (.error "repository GitHub result is outside the reconciliation record contract")
        let s' ← s.recording m.now [observationRecordId, reconciliationRecordId, eventRecordId]
          command
        pure { s' with identities := s'.identities ++ [⟨reconciliationRecordId, payload⟩] }

/-! ## The canonical surfaces -/

/-- The sizes of a probe's listings are safe integers, which its normalisation asks too. -/
def safeSizes : RepositorySurfaceProbeInput → Bool
  | .unavailable => true
  | .resolved _ _ _ surfaces => surfaces.all fun
    | .missing _ _ => true
    | .found surface => surface.treeEntries.all fun entries =>
      entries.all fun entry => entry.size.all fun size => decide (size < 2 ^ 53)

/-- `repositorySurfaceRequirementResults`. -/
def repositorySurfaceRequirementResults (contract : RepositorySurfaceContract)
    (evaluation : EvaluatedRepositorySurfaceProbe) : List RepositorySurfaceRequirementResult :=
  let failedIndex := evaluation.failedSurfaceId.bind fun failedSurfaceId =>
    contract.surfaces.findIdx? fun surface => surface.id = failedSurfaceId
  contract.surfaces.zipIdx.map fun (surface, index) =>
    let summary := evaluation.surfaces.find? fun candidate => candidate.surfaceId = surface.id
    let result : RequirementResult :=
      if evaluation.result = .valid then .pass
      else match failedIndex with
        | none => .unknown
        | some failedIndex =>
          if index < failedIndex then .pass
          else if index = failedIndex then .fail else .unknown
    { requirementId := "canonical-surface:" ++ surface.id
      surfaceId := surface.id
      result
      evidenceDigest :=
        if result = .pass ∨ (result = .fail ∧ evaluation.result = .invalid) then
          summary.map RepositorySurfaceSummary.contentDigest
        else none }

/-- The reconciliation of an evaluation. -/
def surfaceReconciliation (authority : RepositoryCoreAuthorityPayload)
    (coreAuthorizationRecordId githubReconciliationRecordId observationRecordId
      policyDecisionRecordId reconciliationRecordId eventRecordId : String)
    (contract : ActiveCoreSurfaceContract) (evaluation : EvaluatedRepositorySurfaceProbe)
    (checkedAt : Time) (probeDigest : String) : RepositorySurfaceReconciliationPayload where
  repositoryId := authority.repositoryId
  coreSnapshotId := authority.coreSnapshotId
  coreAuthorizationRecordId
  githubReconciliationRecordId
  observationRecordId
  policyDecisionRecordId
  reconciliationRecordId
  eventRecordId
  defaultBranch := evaluation.defaultBranch
  repositoryCommitId := evaluation.repositoryCommitId
  repositoryTreeId := evaluation.repositoryTreeId
  surfaceContractVersion := 1
  governanceSchemaVersion := 1
  surfaceContractDigest := contract.contractDigest
  governanceSchemaDigest := contract.governanceSchemaDigest
  surfaces := evaluation.surfaces
  governancePolicy := evaluation.governancePolicy
  decision := if evaluation.result = .valid then .permit else .deny
  requirementResults := repositorySurfaceRequirementResults contract.contract evaluation
  result := evaluation.result
  failedSurfaceId := evaluation.failedSurfaceId
  checkedAt
  probeDigest

/-- `RepositorySurfaceReconciliationInput`. -/
structure RepositorySurfaceReconciliationInput where
  expectedLastTransactionSequence : ℕ
  githubReconciliationRecordId : String
  probe : RepositorySurfaceProbeInput

/-- **`recordRepositoryCanonicalSurfaces`.** -/
def recordRepositoryCanonicalSurfaces (s : AuthorityTables) (m : Moment)
    (input : RepositorySurfaceReconciliationInput) : Except ControlError AuthorityTables := do
  assertPositiveSequence input.expectedLastTransactionSequence
  refuseIf (isUuidV7 input.githubReconciliationRecordId = false)
    (.error "repository surface reconciliation requires a UUIDv7 identity fact")
  refuseIf (safeSizes input.probe = false) (.error "repository surface tree entry is invalid")
  let probe ← normalizeRepositorySurfaceProbe p.world input.probe
  let probeDigest ← digest p (probeJson p probe)
  assertCommandTimeAndSequence s.core.metadata m.now input.expectedLastTransactionSequence
  match byId s.identities input.githubReconciliationRecordId with
  | none => .error (.error "repository surface reconciliation requires a GitHub identity fact")
  | some github => do
    refuseIf (isRepositoryGitHubReconciliationPayload p github.payload = false)
      (.error "repository GitHub identity fact is invalid")
    match github.payload.observedDefaultBranch with
    | none =>
      .error (.error "repository surface reconciliation requires a matched GitHub identity")
    | some defaultBranch => do
      refuseIf (github.payload.result ≠ .matched)
        (.error "repository surface reconciliation requires a matched GitHub identity")
      refuseIf ((s.identityOf github.payload.coreAuthorizationRecordId).map Row.recordId ≠
          some input.githubReconciliationRecordId)
        (.error "repository surface reconciliation identity fact is not current")
      refuseIf (s.core.active.map ActiveCoreSnapshot.snapshotId ≠
          some github.payload.coreSnapshotId)
        (.error "repository surface reconciliation authority is not from the active Core snapshot")
      match byId s.authorizations github.payload.coreAuthorizationRecordId with
      | none => .error (.error "repository surface reconciliation Core authority is missing")
      | some authority => do
        refuseIf (isRepositoryCoreAuthorityPayload p authority.payload = false)
          (.error "repository surface reconciliation Core authority is invalid")
        match ← activeCoreSurfaceContract p s.core authority.payload.surfaceContractVersion with
        | none =>
          .error (.error "repository surface reconciliation contract is not from the active Core snapshot")
        | some contract => do
          refuseIf (contract.coreSnapshotId ≠ authority.payload.coreSnapshotId)
            (.error "repository surface reconciliation contract is not from the active Core snapshot")
          let predecessor := s.surfaceOf input.githubReconciliationRecordId
          refuseIf (predecessor.any (fun row =>
              !isRepositorySurfaceReconciliationPayload p row.payload) = true)
            (.error "repository surface reconciliation predecessor is invalid")
          if (predecessor.map fun row => row.payload.probeDigest) = some probeDigest then pure s
          else
            let command : RepositoryCommandPayload :=
              .recordCanonicalSurfaces input.githubReconciliationRecordId
                (predecessor.map Row.recordId) probeDigest
            oncePerCommand s command
                "repository surface reconciliation idempotency payload changed" do
              let evaluation ←
                evaluateRepositorySurfaceProbe p.world probe defaultBranch contract.contract
              let observationRecordId ← uuidV7 m 1
              let policyDecisionRecordId ← uuidV7 m 2
              let reconciliationRecordId ← uuidV7 m 3
              let eventRecordId ← uuidV7 m 4
              let payload := surfaceReconciliation authority.payload
                github.payload.coreAuthorizationRecordId input.githubReconciliationRecordId
                observationRecordId policyDecisionRecordId reconciliationRecordId eventRecordId
                contract evaluation m.now probeDigest
              refuseIf (isRepositorySurfaceReconciliationPayload p payload = false)
                (.error "repository surface result is outside the reconciliation record contract")
              -- the text of the row throws on a policy with a number that is not finite
              let _ ← canonicalJson p.format (surfaceJson p payload)
              let s' ← s.recording m.now
                [observationRecordId, policyDecisionRecordId, reconciliationRecordId,
                  eventRecordId] command
              pure { s' with surfaces := s'.surfaces ++ [⟨reconciliationRecordId, payload⟩] }

/-! ## The enrollment -/

/-- The enrollment of a repository. -/
def enrollment (authority : RepositoryCoreAuthorityPayload)
    (surfaces : RepositorySurfaceReconciliationPayload) (repositoryCommitId : ObjectId)
    (surfaceReconciliationRecordId controllerDefinitionRecordId enrollmentRecordId
      eventRecordId : String) (enrolledAt : Time) : RepositoryEnrollmentPayload where
  repositoryId := surfaces.repositoryId
  coreSnapshotId := surfaces.coreSnapshotId
  coreAuthorizationRecordId := surfaces.coreAuthorizationRecordId
  githubReconciliationRecordId := surfaces.githubReconciliationRecordId
  surfaceReconciliationRecordId
  surfacePolicyDecisionRecordId := surfaces.policyDecisionRecordId
  controllerDefinitionRecordId
  enrollmentRecordId
  eventRecordId
  repositoryCommitId
  surfaceContractVersion := surfaces.surfaceContractVersion
  maintenancePrograms := authority.maintenancePrograms
  actionCeiling := authority.actionCeiling
  enrolledAt

/-- `RepositoryEnrollmentInput`. -/
structure RepositoryEnrollmentInput where
  expectedLastTransactionSequence : ℕ
  surfaceReconciliationRecordId : String

/-- The prerequisites of an enrollment that a status still has. -/
def Current (status : RepositoryStatus) (surfaceReconciliationRecordId : String)
    (surfaces : RepositorySurfaceReconciliationPayload) : Prop :=
  status.coreSnapshotId = surfaces.coreSnapshotId ∧
    status.coreAuthorizationRecordId = some surfaces.coreAuthorizationRecordId ∧
    status.githubReconciliationRecordId = some surfaces.githubReconciliationRecordId ∧
    status.surfaceReconciliationRecordId = some surfaceReconciliationRecordId ∧
    status.operatorHold.isNone = true ∧ status.fleetState = .enabled ∧
    status.githubResult = some .matched ∧ status.surfaceResult = some .valid

instance (status : RepositoryStatus) (surfaceReconciliationRecordId : String)
    (surfaces : RepositorySurfaceReconciliationPayload) :
    Decidable (Current status surfaceReconciliationRecordId surfaces) := by
  unfold Current
  infer_instance

/-- **`establishRepositoryEnrollment`.** -/
def establishRepositoryEnrollment (s : AuthorityTables) (m : Moment)
    (input : RepositoryEnrollmentInput) : Except ControlError AuthorityTables := do
  assertPositiveSequence input.expectedLastTransactionSequence
  refuseIf (isUuidV7 input.surfaceReconciliationRecordId = false)
    (.error "repository enrollment requires a UUIDv7 surface fact")
  let command : RepositoryCommandPayload :=
    .establishEnrollment input.surfaceReconciliationRecordId
  oncePerCommand s command "repository enrollment idempotency payload changed" do
    assertCommandTimeAndSequence s.core.metadata m.now input.expectedLastTransactionSequence
    let readiness ← coreAdmissionReadiness s.core m.now
    refuseIf (readiness.ready = false)
      (.error "repository enrollment requires Core admission readiness")
    match byId s.surfaces input.surfaceReconciliationRecordId with
    | none => .error (.error "repository enrollment requires a canonical-surface fact")
    | some surface => do
      refuseIf (isRepositorySurfaceReconciliationPayload p surface.payload = false)
        (.error "repository enrollment surface fact is invalid")
      match surface.payload.repositoryCommitId with
      | none => .error (.error "repository enrollment requires valid canonical surfaces")
      | some repositoryCommitId => do
        refuseIf (surface.payload.result ≠ .valid)
          (.error "repository enrollment requires valid canonical surfaces")
        let statuses ← repositoryStatuses p s
        let current := statuses.find? fun status : RepositoryStatus =>
          status.repositoryId = surface.payload.repositoryId
        refuseIf (current.all (fun status =>
            !decide (Current status input.surfaceReconciliationRecordId surface.payload)) = true)
          (.error "repository enrollment prerequisites are not current")
        match byId s.authorizations surface.payload.coreAuthorizationRecordId with
        | none => .error (.error "repository enrollment Core authority is invalid")
        | some authority => do
          refuseIf (isRepositoryCoreAuthorityPayload p authority.payload = false)
            (.error "repository enrollment Core authority is invalid")
          let controllerDefinitionRecordId ← uuidV7 m 1
          let enrollmentRecordId ← uuidV7 m 2
          let eventRecordId ← uuidV7 m 3
          let payload := enrollment authority.payload surface.payload repositoryCommitId
            input.surfaceReconciliationRecordId controllerDefinitionRecordId enrollmentRecordId
            eventRecordId m.now
          refuseIf (isRepositoryEnrollmentPayload payload = false)
            (.error "repository enrollment is outside the registered contract")
          let s' ← s.recording m.now
            [controllerDefinitionRecordId, enrollmentRecordId, eventRecordId] command
          pure { s' with enrollments := s'.enrollments ++ [⟨enrollmentRecordId, payload⟩] }

/-! ## An operator's hold -/

/-- `RepositoryOperatorHoldInput`, and the hold that a clearance names. -/
structure RepositoryOperatorHoldInput where
  expectedLastTransactionSequence : ℕ
  repositoryId : String
  reason : String
  holdDecisionId : Option String

/-- The choice as it is spelled. -/
def HoldChoice.text : HoldChoice → String
  | .impose => "impose"
  | .clear => "clear"

/-- What the active hold of a repository must be: none to impose one, and to clear one exactly the
hold that is named. -/
def assertHold (choice : HoldChoice) (hold : Option RepositoryOperatorHoldDecisionPayload)
    (requested : Option String) : Except ControlError Unit :=
  match choice with
  | .impose =>
    refuseSome (fun hold : RepositoryOperatorHoldDecisionPayload =>
      .error (.error s!"repository already has active operator hold {hold.holdDecisionId}")) hold
  | .clear =>
    refuseIf (hold.isNone = true ∨
        hold.map RepositoryOperatorHoldDecisionPayload.holdDecisionId ≠ requested)
      (.error "repository operator hold clearance does not name the exact active hold")

/-- **`recordRepositoryOperatorHoldDecision`**: `imposeRepositoryOperatorHold` and
`clearRepositoryOperatorHold`. -/
def recordRepositoryOperatorHoldDecision (s : AuthorityTables) (m : Moment) (choice : HoldChoice)
    (input : RepositoryOperatorHoldInput) : Except ControlError AuthorityTables := do
  let requested := if choice = .clear then input.holdDecisionId else none
  refuseIf (choice = .clear ∧ requested.any isUuidV7 = false)
    (.error "repository operator hold clearance requires a UUIDv7 active hold decision")
  assertPositiveSequence input.expectedLastTransactionSequence
  refuseIf (Patterns.repositoryId.test input.repositoryId = false)
    (.error s!"invalid github-repository subject ID: {input.repositoryId}")
  assertBoundedReason input.reason s!"repository operator hold {choice.text} reason"
  let command : RepositoryCommandPayload :=
    .decideOperatorHold choice input.expectedLastTransactionSequence requested input.reason
      input.repositoryId
  oncePerCommand s command
      s!"repository operator hold {choice.text} idempotency payload changed" do
    assertCommandTimeAndSequence s.core.metadata m.now input.expectedLastTransactionSequence
    let statuses ← repositoryStatuses p s
    let current := statuses.find? fun status : RepositoryStatus =>
      status.repositoryId = input.repositoryId
    match current.bind fun status => status.coreAuthorizationRecordId.map (status, ·) with
    | none =>
      .error (.error "repository operator hold requires materialized authority from the active Core snapshot")
    | some (status, coreAuthorizationRecordId) => do
      assertHold choice status.operatorHold requested
      match byId s.authorizations coreAuthorizationRecordId with
      | none => .error (.error "repository operator hold Core authority is invalid")
      | some authority => do
        refuseIf (isRepositoryCoreAuthorityPayload p authority.payload = false)
          (.error "repository operator hold Core authority is invalid")
        let decisionRecordId ← uuidV7 m 0
        let eventRecordId ← uuidV7 m 1
        let holdDecisionId := requested.getD decisionRecordId
        let payload : RepositoryOperatorHoldDecisionPayload :=
          { decisionRecordId
            eventRecordId
            choice
            repositoryId := input.repositoryId
            coreSnapshotId := status.coreSnapshotId
            coreAuthorizationRecordId
            declarationDigest := authority.payload.declarationDigest
            operatorPrincipalId := s.operatorPrincipalId
            holdDecisionId
            previousDecisionRecordId := requested
            reason := input.reason
            expectedLastTransactionSequence := input.expectedLastTransactionSequence
            decidedAt := m.now }
        refuseIf (isRepositoryOperatorHoldDecisionPayload p payload = false)
          (.error "repository operator hold is outside the registered decision contract")
        let s' ← s.recording m.now [decisionRecordId, eventRecordId] command
        pure { s' with holds := s'.holds ++ [⟨decisionRecordId, payload⟩] }

/-! ## The control plane -/

/-- **A command of the control plane**, as far as the enrollments are concerned. -/
inductive AuthorityCommand where
  /-- A command on the Core snapshots, or one that the enrollments do not read. -/
  | core (command : CoreCommand)
  | materializeRepositoryCoreAuthority (input : RepositoryCoreAuthorityInput)
  | recordRepositoryGitHubIdentity (input : RepositoryGitHubReconciliationInput)
  | recordRepositoryCanonicalSurfaces (input : RepositorySurfaceReconciliationInput)
  | establishRepositoryEnrollment (input : RepositoryEnrollmentInput)
  | recordRepositoryOperatorHoldDecision (choice : HoldChoice)
      (input : RepositoryOperatorHoldInput)

/-- A command on the Core snapshots. One that inserts a snapshot makes it the active one, under a
key that is not taken. -/
def runCore (s : AuthorityTables) (m : Moment) (command : CoreCommand) :
    Except ControlError AuthorityTables := do
  let core ← runCoreCommand p.catalog s.core m command
  if core.snapshots.length = s.core.snapshots.length then pure { s with core }
  else
    let snapshotIds := core.active.toList.map ActiveCoreSnapshot.snapshotId
    refuseIf (∃ id ∈ snapshotIds, id ∈ s.snapshotIds)
      (.error "UNIQUE constraint failed: core_snapshots.snapshot_id")
    pure { s with core, snapshotIds := s.snapshotIds ++ snapshotIds }

/-- The transaction of a command. -/
def runAuthorityCommand (s : AuthorityTables) (m : Moment) :
    AuthorityCommand → Except ControlError AuthorityTables
  | .core command => runCore p s m command
  | .materializeRepositoryCoreAuthority input => materializeRepositoryCoreAuthority p s m input
  | .recordRepositoryGitHubIdentity input => recordRepositoryGitHubIdentity p s m input
  | .recordRepositoryCanonicalSurfaces input => recordRepositoryCanonicalSurfaces p s m input
  | .establishRepositoryEnrollment input => establishRepositoryEnrollment p s m input
  | .recordRepositoryOperatorHoldDecision choice input =>
    recordRepositoryOperatorHoldDecision p s m choice input

/-- The tables of a new database. -/
def AuthorityTables.initial (initializedAt : Time) (operatorPrincipalId : String) :
    AuthorityTables where
  core := .initial initializedAt
  operatorPrincipalId
  snapshotIds := []
  recordIds := []
  authorizations := []
  identities := []
  surfaces := []
  enrollments := []
  holds := []
  receipts := []

/-- **The control plane**: a command that throws leaves the tables as they were. -/
def authorityControl (initializedAt : Time) (operatorPrincipalId : String) :
    Machine AuthorityTables (Moment × AuthorityCommand) (Except ControlError Unit) where
  start := .initial initializedAt operatorPrincipalId
  step s call :=
    match runAuthorityCommand p s call.1 call.2 with
    | .ok s' => (.ok (), s')
    | .error e => (.error e, s)

end Commands

end Snowcat.Authority
