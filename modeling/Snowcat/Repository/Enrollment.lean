import Snowcat.Repository.Records

/-!
# The enrollment of a repository

Four commands lead to an enrollment, one record each: the authority of the
active Core snapshot, the identity on GitHub, the canonical surfaces and the
enrollment. A fifth imposes and clears an operator's hold. `repositoryStatuses`
reads the newest record of each kind behind the one in front of it.

The rows of a kind are kept in the order of their transactions. A row holds what
its payload says; the text of it, and its digest, are in no row here.
-/

namespace Snowcat.Authority

open Patterns

/-- A record of a kind: its identity, and its payload. -/
structure Row (P : Type) where
  recordId : String
  payload : P

/-- The payload a repository command is known by. -/
inductive RepositoryCommandPayload where
  | materializeCoreAuthority (coreSnapshotId repositoryId : String)
  | recordGitHubIdentity (coreAuthorizationRecordId : String) (predecessor : Option String)
      (inspection : RepositoryGitHubInspectionInput) (responseDigest : String)
  | recordCanonicalSurfaces (githubReconciliationRecordId : String)
      (predecessor : Option String) (probeDigest : String)
  | establishEnrollment (surfaceReconciliationRecordId : String)
  | decideOperatorHold (choice : HoldChoice) (expectedLastTransactionSequence : ℕ)
      (holdDecisionId : Option String) (reason repositoryId : String)
  deriving DecidableEq, Repr

/-- The kind of a repository command with its idempotency key. -/
inductive RepositoryIdempotencyKey where
  /-- `repo-core:<snapshot>:<repository>` -/
  | core (coreSnapshotId repositoryId : String)
  /-- `repo-gh:<authorization>:<predecessor>:<digest>` -/
  | gitHub (coreAuthorizationRecordId : String) (predecessor : Option String)
      (responseDigest : String)
  /-- `repo-surfaces:<identity>:<predecessor>:<digest>` -/
  | surfaces (githubReconciliationRecordId : String) (predecessor : Option String)
      (probeDigest : String)
  /-- `repo-enroll:<surfaces>` -/
  | enroll (surfaceReconciliationRecordId : String)
  /-- `repo-hold-impose:<sequence>:<repository>` -/
  | imposeHold (expectedLastTransactionSequence : ℕ) (repositoryId : String)
  /-- `repo-hold-clear:<sequence>:<hold>` -/
  | clearHold (expectedLastTransactionSequence : ℕ) (holdDecisionId : Option String)
  deriving DecidableEq, Repr

/-- The idempotency key of a repository command. -/
def RepositoryCommandPayload.idempotencyKey :
    RepositoryCommandPayload → RepositoryIdempotencyKey
  | .materializeCoreAuthority snapshotId repositoryId => .core snapshotId repositoryId
  | .recordGitHubIdentity authorizationId predecessor _ responseDigest =>
    .gitHub authorizationId predecessor responseDigest
  | .recordCanonicalSurfaces githubId predecessor probeDigest =>
    .surfaces githubId predecessor probeDigest
  | .establishEnrollment surfaceId => .enroll surfaceId
  | .decideOperatorHold .impose expected _ _ repositoryId => .imposeHold expected repositoryId
  | .decideOperatorHold .clear expected holdDecisionId _ _ => .clearHold expected holdDecisionId

/-- **The tables of the enrollments.** -/
structure AuthorityTables where
  /-- What the Core snapshots are read from. -/
  core : CoreTables
  operatorPrincipalId : String
  /-- The key of `core_snapshots`. -/
  snapshotIds : List String
  /-- The key of `durable_occurrences`, for the records of the repositories. -/
  recordIds : List String
  /-- `repository.core-authorized` -/
  authorizations : List (Row RepositoryCoreAuthorityPayload)
  /-- `repository.github-identity-reconciled` -/
  identities : List (Row RepositoryGitHubReconciliationPayload)
  /-- `repository.canonical-surfaces-reconciled` -/
  surfaces : List (Row RepositorySurfaceReconciliationPayload)
  /-- `repository.enrolled` -/
  enrollments : List (Row RepositoryEnrollmentPayload)
  /-- `repository.operator-hold-decision` -/
  holds : List (Row RepositoryOperatorHoldDecisionPayload)
  /-- The receipts of the repository commands. -/
  receipts : List RepositoryCommandPayload

/-! ## Reading -/

/-- The newest record with a property: `ORDER BY transaction_sequence DESC`. -/
def newest {P : Type} (rows : List (Row P)) (q : P → Bool) : Option (Row P) :=
  rows.reverse.find? fun row => q row.payload

/-- The record of an identity. -/
def byId {P : Type} (rows : List (Row P)) (recordId : String) : Option (Row P) :=
  rows.find? fun row => row.recordId = recordId

namespace AuthorityTables

variable (s : AuthorityTables)

/-- The authority of a repository under a snapshot. -/
def authorityOf (coreSnapshotId repositoryId : String) :
    Option (Row RepositoryCoreAuthorityPayload) :=
  newest s.authorizations fun payload =>
    payload.coreSnapshotId = coreSnapshotId && payload.repositoryId = repositoryId

/-- What GitHub says behind an authority. -/
def identityOf (coreAuthorizationRecordId : String) :
    Option (Row RepositoryGitHubReconciliationPayload) :=
  newest s.identities fun payload =>
    payload.coreAuthorizationRecordId = coreAuthorizationRecordId

/-- The surfaces behind an identity. -/
def surfaceOf (githubReconciliationRecordId : String) :
    Option (Row RepositorySurfaceReconciliationPayload) :=
  newest s.surfaces fun payload =>
    payload.githubReconciliationRecordId = githubReconciliationRecordId

/-- The enrollment behind some surfaces. -/
def enrollmentOf (surfaceReconciliationRecordId : String) :
    Option (Row RepositoryEnrollmentPayload) :=
  newest s.enrollments fun payload =>
    payload.surfaceReconciliationRecordId = surfaceReconciliationRecordId

/-- `activeRepositoryOperatorHolds`, of one repository. -/
def operatorHoldOf (repositoryId : String) : Option RepositoryOperatorHoldDecisionPayload :=
  (newest s.holds fun payload => payload.repositoryId = repositoryId).bind fun row =>
    if row.payload.choice = .impose then some row.payload else none

end AuthorityTables

/-- `RepositoryStatus`. -/
structure RepositoryStatus where
  repositoryId : String
  owner : String
  name : String
  coreSnapshotId : String
  coreAuthorizationRecordId : Option String
  fleetState : RepositoryFleetState
  maintenancePrograms : List RepositoryMaintenanceProgram
  actionCeiling : List AllowedAction
  accountableOwners : List RepositoryAccountableOwner
  githubReconciliationRecordId : Option String
  githubResult : Option RepositoryGitHubResult
  githubDefaultBranch : Option String
  surfaceReconciliationRecordId : Option String
  surfacePolicyDecisionRecordId : Option String
  surfaceResult : Option SurfaceResult
  repositoryCommitId : Option ObjectId
  enrollmentRecordId : Option String
  authorityContextDigest : Option String
  operatorHold : Option RepositoryOperatorHoldDecisionPayload
  effectiveState : RepositoryState
  governancePolicy : Option Json

section Control

variable {N : Type} (p : Platform N)

/-- `retainedCoreCandidate`: of the newest snapshot of a commit. -/
def retainedCoreCandidate (s : CoreTables) (sourceCommitId : String) :
    Except ControlError (Option CoreCandidate) := do
  refuseIf (commitSha.test sourceCommitId = false)
    (.error "retained Core candidate commit must be one canonical SHA-1 ID")
  match s.snapshots.reverse.find? fun candidate => candidate.commitId = sourceCommitId with
  | none => pure none
  | some candidate => do
    p.catalog.validate candidate
    pure (some candidate)

/-- The candidate of a snapshot, retained as it was. -/
def exactCandidate (s : CoreTables) (snapshot : ActiveCoreSnapshot) (what : String) :
    Except ControlError CoreCandidate := do
  match ← retainedCoreCandidate p s snapshot.sourceCommitId with
  | none => .error (.error s!"active Core {what} is not retained exactly")
  | some candidate => do
    refuseIf (candidate.catalogDigest ≠ snapshot.catalogDigest)
      (.error s!"active Core {what} is not retained exactly")
    pure candidate

/-- `activeCoreRepositoryCatalog`. -/
def activeCoreRepositoryCatalog (s : CoreTables) :
    Except ControlError (Option (ActiveCoreSnapshot × List DeclaredRepository)) :=
  match s.active with
  | none => pure none
  | some snapshot => do
    let candidate ← exactCandidate p s snapshot "repository catalog"
    pure (some (snapshot, p.repositories candidate))

/-- `activeCoreSurfaceContract`. -/
def activeCoreSurfaceContract (s : CoreTables) (version : ℕ) :
    Except ControlError (Option ActiveCoreSurfaceContract) :=
  match s.active with
  | none => pure none
  | some snapshot => do
    let candidate ← exactCandidate p s snapshot "surface contract"
    let (contract, contractDigest, governanceSchemaDigest) ← p.surfaceContract candidate version
    pure (some ⟨snapshot.snapshotId, contract, contractDigest, governanceSchemaDigest⟩)

/-- The identity of a repository that a snapshot declares. -/
def DeclaredRepository.repositoryId (repository : DeclaredRepository) : String :=
  "github.com:" ++ repository.declaration.repositoryId

/-- Where the records of a repository leave it. -/
def effectiveState (authority : RepositoryCoreAuthorityPayload) (held : Bool)
    (github : Option RepositoryGitHubReconciliationPayload)
    (surface : Option RepositorySurfaceReconciliationPayload) (enrolled : Bool) :
    RepositoryState :=
  match authority.fleetState with
  | .disabled => .disabled
  | .paused => .paused
  | .enabled =>
    if held then .operatorHeld
    else match github with
      | none => .awaitingGithub
      | some github =>
        if github.result ≠ .matched then .githubHeld
        else match surface with
          | none => .awaitingSurfaces
          | some surface =>
            if surface.result ≠ .valid then .surfaceHeld
            else if enrolled then .enrolled else .awaitingEnrollment

/-- The context of an enrolled repository, digested. -/
def contextDigestOf (state : RepositoryState) (authority : RepositoryCoreAuthorityPayload)
    (github : Option (Row RepositoryGitHubReconciliationPayload))
    (surface : Option (Row RepositorySurfaceReconciliationPayload))
    (enrollment : Option (Row RepositoryEnrollmentPayload)) :
    Except ControlError (Option String) :=
  match state, github, surface, enrollment with
  | .enrolled, some github, some surface, some enrollment =>
    (repositoryAuthorityContextDigest p
      ⟨authority, github.payload, surface.payload, enrollment.payload⟩).map some
  | _, _, _, _ => pure none

/-- The status of one repository that the active snapshot declares. -/
def repositoryStatus (s : AuthorityTables) (snapshot : ActiveCoreSnapshot)
    (repository : DeclaredRepository) : Except ControlError RepositoryStatus :=
  let declaration := repository.declaration
  let operatorHold := s.operatorHoldOf repository.repositoryId
  match s.authorityOf snapshot.snapshotId repository.repositoryId with
  | none =>
    pure
      { repositoryId := repository.repositoryId
        owner := declaration.owner
        name := declaration.name
        coreSnapshotId := snapshot.snapshotId
        coreAuthorizationRecordId := none
        fleetState := declaration.fleetState
        maintenancePrograms := declaration.maintenancePrograms
        actionCeiling := declaration.actionCeiling
        accountableOwners := declaration.accountableOwners
        githubReconciliationRecordId := none
        githubResult := none
        githubDefaultBranch := none
        surfaceReconciliationRecordId := none
        surfacePolicyDecisionRecordId := none
        surfaceResult := none
        repositoryCommitId := none
        enrollmentRecordId := none
        authorityContextDigest := none
        operatorHold
        effectiveState := .awaitingAuthority
        governancePolicy := none }
  | some authority => do
    let github := s.identityOf authority.recordId
    let surface := github.bind fun row => s.surfaceOf row.recordId
    let enrollment := surface.bind fun row => s.enrollmentOf row.recordId
    let state := effectiveState authority.payload operatorHold.isSome (github.map Row.payload)
      (surface.map Row.payload) enrollment.isSome
    let authorityContextDigest ←
      contextDigestOf p state authority.payload github surface enrollment
    pure
      { repositoryId := repository.repositoryId
        owner := authority.payload.owner
        name := authority.payload.name
        coreSnapshotId := snapshot.snapshotId
        coreAuthorizationRecordId := some authority.recordId
        fleetState := authority.payload.fleetState
        maintenancePrograms := authority.payload.maintenancePrograms
        actionCeiling := authority.payload.actionCeiling
        accountableOwners := authority.payload.accountableOwners
        githubReconciliationRecordId := github.map Row.recordId
        githubResult := github.map fun row => row.payload.result
        githubDefaultBranch := github.bind fun row => row.payload.observedDefaultBranch
        surfaceReconciliationRecordId := surface.map Row.recordId
        surfacePolicyDecisionRecordId := surface.map fun row => row.payload.policyDecisionRecordId
        surfaceResult := surface.map fun row => row.payload.result
        repositoryCommitId := surface.bind fun row => row.payload.repositoryCommitId
        enrollmentRecordId := enrollment.map Row.recordId
        authorityContextDigest
        operatorHold
        effectiveState := state
        governancePolicy := surface.bind fun row => row.payload.governancePolicy }

/-- The statuses of the repositories a snapshot declares. -/
def statusesOf (s : AuthorityTables) (snapshot : ActiveCoreSnapshot) :
    List DeclaredRepository → Except ControlError (List RepositoryStatus)
  | [] => pure []
  | repository :: repositories => do
    let status ← repositoryStatus p s snapshot repository
    let statuses ← statusesOf s snapshot repositories
    pure (status :: statuses)

/-- The refusals of the records of a kind that are not what the kind asks. -/
def assertRows {P : Type} (validate : P → Bool) (what : String) (rows : List (Row P)) :
    Except ControlError Unit :=
  refuseSome (fun row : Row P => .error (.error s!"invalid repository {what}: {row.recordId}"))
    (rows.reverse.find? fun row => !validate row.payload)

/-- **`repositoryStatuses`.** -/
def repositoryStatuses (s : AuthorityTables) : Except ControlError (List RepositoryStatus) := do
  match ← activeCoreRepositoryCatalog p s.core with
  | none => pure []
  | some (snapshot, repositories) => do
    assertRows (isRepositoryCoreAuthorityPayload p) "Core authorization" s.authorizations
    assertRows (isRepositoryGitHubReconciliationPayload p) "GitHub reconciliation" s.identities
    assertRows (isRepositorySurfaceReconciliationPayload p) "surface reconciliation" s.surfaces
    assertRows isRepositoryEnrollmentPayload "enrollment" s.enrollments
    assertRows (isRepositoryOperatorHoldDecisionPayload p) "operator hold decision" s.holds
    let statuses ← statusesOf p s snapshot repositories
    pure (statuses.mergeSort fun a b => p.world.localeLe a.repositoryId b.repositoryId)

end Control

end Snowcat.Authority
