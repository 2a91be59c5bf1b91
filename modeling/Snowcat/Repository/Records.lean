import Snowcat.Control.Canonical
import Snowcat.Control.CoreChecks
import Snowcat.Lib.Base64
import Snowcat.Repository.Governance
import Snowcat.Repository.Surfaces
import Snowcat.Source.Delivery

/-!
# The records of an enrollment

Four records lead to the enrollment of a repository: the authority that the
active Core snapshot gives it, what GitHub says of its identity, what its
canonical surfaces are, and the enrollment itself. Each names the records in
front of it. The context they were made in is digested as canonical JSON
(`repositoryAuthorityContextDigest`), and held work resumes by itself when the
digest is the one it was held with.

A digest is a text, as in the source; what a text must look like to be one is
given with the hash.
-/

namespace Snowcat.Authority

open CodeUnits JsonSyntax Patterns Pattern

/-- A string as JavaScript has it. -/
def jsText (s : String) : JsText := ofChars s.toList

/-! ## What the records say -/

/-- `RepositoryFleetState`. -/
inductive RepositoryFleetState where
  | enabled | paused | disabled
  deriving DecidableEq, Repr

/-- The state as it is spelled. -/
def RepositoryFleetState.text : RepositoryFleetState → String
  | .enabled => "enabled"
  | .paused => "paused"
  | .disabled => "disabled"

/-- `RepositoryMaintenanceProgram`. -/
inductive RepositoryMaintenanceProgram where
  | quality | ci | security | architecture | conformance | triage | dependencies | docs | release
  deriving DecidableEq, Repr

/-- The program as it is spelled. -/
def RepositoryMaintenanceProgram.text : RepositoryMaintenanceProgram → String
  | .quality => "quality"
  | .ci => "ci"
  | .security => "security"
  | .architecture => "architecture"
  | .conformance => "conformance"
  | .triage => "triage"
  | .dependencies => "dependencies"
  | .docs => "docs"
  | .release => "release"

/-- `RepositoryAccountableOwner`. -/
inductive RepositoryAccountableOwner where
  | githubUser (login : String)
  | githubTeam (slug : String)
  deriving DecidableEq, Repr

/-- `RepositoryCoreAuthorityPayload`. -/
structure RepositoryCoreAuthorityPayload where
  repositoryId : String
  coreSnapshotId : String
  declarationRecordId : String
  coreAuthorizationRecordId : String
  eventRecordId : String
  sourceCommitId : String
  declarationPath : String
  declarationDigest : String
  owner : String
  name : String
  accountableOwners : List RepositoryAccountableOwner
  fleetState : RepositoryFleetState
  maintenancePrograms : List RepositoryMaintenanceProgram
  actionCeiling : List AllowedAction
  surfaceContractVersion : ℕ
  authorizedAt : Time

/-- `RepositoryGitHubResult`. -/
inductive RepositoryGitHubResult where
  | matched | missing | locatorMismatch | identityMismatch | archived | unavailable
  deriving DecidableEq, Repr

/-- `RepositoryGitHubInspectionInput`. -/
inductive RepositoryGitHubInspectionInput where
  | missing
  | unavailable
  | found (repositoryId owner name : String) (archived : Bool) (defaultBranch : String)
  deriving DecidableEq, Repr

/-- `RepositoryGitHubReconciliationPayload`. -/
structure RepositoryGitHubReconciliationPayload where
  repositoryId : String
  coreSnapshotId : String
  coreAuthorizationRecordId : String
  observationRecordId : String
  reconciliationRecordId : String
  eventRecordId : String
  declaredOwner : String
  declaredName : String
  declaredRepositoryId : String
  fleetState : RepositoryFleetState
  observedOwner : Option String
  observedName : Option String
  observedRepositoryId : Option String
  archived : Option Bool
  observedDefaultBranch : Option String
  result : RepositoryGitHubResult
  effectiveState : RepositoryState
  checkedAt : Time
  responseDigest : String

/-- The result of a requirement. -/
inductive RequirementResult where
  | pass | fail | unknown
  deriving DecidableEq, Repr

/-- The result as it is spelled. -/
def RequirementResult.text : RequirementResult → String
  | .pass => "pass"
  | .fail => "fail"
  | .unknown => "unknown"

/-- `RepositorySurfaceRequirementResult`. -/
structure RepositorySurfaceRequirementResult where
  requirementId : String
  surfaceId : String
  result : RequirementResult
  evidenceDigest : Option String
  deriving DecidableEq, Repr

/-- What the policy decides on the surfaces. -/
inductive SurfaceDecision where
  | permit | deny
  deriving DecidableEq, Repr

/-- The decision as it is spelled. -/
def SurfaceDecision.text : SurfaceDecision → String
  | .permit => "permit"
  | .deny => "deny"

/-- `RepositorySurfaceReconciliationPayload`. The checkpoint is always the
enrollment's, and there are never exceptions. -/
structure RepositorySurfaceReconciliationPayload where
  repositoryId : String
  coreSnapshotId : String
  coreAuthorizationRecordId : String
  githubReconciliationRecordId : String
  observationRecordId : String
  policyDecisionRecordId : String
  reconciliationRecordId : String
  eventRecordId : String
  defaultBranch : Option String
  repositoryCommitId : Option ObjectId
  repositoryTreeId : Option ObjectId
  surfaceContractVersion : ℕ
  governanceSchemaVersion : ℕ
  surfaceContractDigest : String
  governanceSchemaDigest : String
  surfaces : List RepositorySurfaceSummary
  governancePolicy : Option Json
  decision : SurfaceDecision
  requirementResults : List RepositorySurfaceRequirementResult
  result : SurfaceResult
  failedSurfaceId : Option String
  checkedAt : Time
  probeDigest : String

/-- `RepositoryEnrollmentPayload`. -/
structure RepositoryEnrollmentPayload where
  repositoryId : String
  coreSnapshotId : String
  coreAuthorizationRecordId : String
  githubReconciliationRecordId : String
  surfaceReconciliationRecordId : String
  surfacePolicyDecisionRecordId : String
  controllerDefinitionRecordId : String
  enrollmentRecordId : String
  eventRecordId : String
  repositoryCommitId : ObjectId
  surfaceContractVersion : ℕ
  maintenancePrograms : List RepositoryMaintenanceProgram
  actionCeiling : List AllowedAction
  enrolledAt : Time

/-- Whether an operator imposes a hold or clears it. -/
inductive HoldChoice where
  | impose | clear
  deriving DecidableEq, Repr

/-- `RepositoryOperatorHoldDecisionPayload`. Its type, its state, its gates and
its recovery rule are always the same. -/
structure RepositoryOperatorHoldDecisionPayload where
  decisionRecordId : String
  eventRecordId : String
  choice : HoldChoice
  repositoryId : String
  coreSnapshotId : String
  coreAuthorizationRecordId : String
  declarationDigest : String
  operatorPrincipalId : String
  holdDecisionId : String
  previousDecisionRecordId : Option String
  reason : String
  expectedLastTransactionSequence : ℕ
  decidedAt : Time

/-! ## What the control plane uses -/

/-- The declaration of a repository in a Core snapshot. -/
structure RepositoryDeclaration where
  repositoryId : String
  owner : String
  name : String
  accountableOwners : List RepositoryAccountableOwner
  fleetState : RepositoryFleetState
  maintenancePrograms : List RepositoryMaintenanceProgram
  actionCeiling : List AllowedAction
  surfaceContractVersion : ℕ

/-- A declaration, with the file it is in. -/
structure DeclaredRepository where
  path : String
  contentDigest : String
  declaration : RepositoryDeclaration

/-- `ActiveCoreSurfaceContract`, as far as a reconciliation reads it. -/
structure ActiveCoreSurfaceContract where
  coreSnapshotId : String
  contract : RepositorySurfaceContract
  contractDigest : String
  governanceSchemaDigest : String

/-- **What is around the control plane**: the platform, and the catalog of a
Core snapshot. -/
structure Platform (N : Type) where
  /-- How numbers are written. -/
  format : NumberFormat N
  /-- A natural number of the program. -/
  nat : ℕ → N
  finite_nat : ∀ n, format.finite (nat n) = true
  /-- A safe integer is one number. -/
  nat_inj : ∀ {m n}, m < 2 ^ 53 → n < 2 ^ 53 →
    format.unsign (nat m) = format.unsign (nat n) → m = n
  /-- The hash, and what the evaluation of the surfaces uses. -/
  world : SurfaceWorld
  /-- `/^sha256:[0-9a-f]{64}$/`. -/
  isSha256 : String → Bool
  /-- `toISOString`. -/
  isoText : Time → String
  /-- A governance policy as a value of JavaScript, which has no key twice. -/
  policy : Json → { v : JsonOf N // v.Keyed fun _ => True }
  /-- The checks of a Core snapshot. -/
  catalog : CoreCatalogChecks
  /-- The repositories `validateCoreCatalog` finds in the files of a snapshot. -/
  repositories : CoreCandidate → List DeclaredRepository
  /-- `validatedRepositorySurfaceContract`, with the digest of its file. -/
  surfaceContract : CoreCandidate → ℕ → Except ControlError
    (RepositorySurfaceContract × String × String)

/-! ## What a record must look like -/

section Records

variable {N : Type} (p : Platform N)

/-- `/^[a-z0-9](?:[a-z0-9-]{0,99})$/`. -/
def teamSlug : Pattern :=
  let letter (c : Char) : Bool := ('a' ≤ c && c ≤ 'z') || ('0' ≤ c && c ≤ '9')
  .seq (.one letter) (.upTo (.one fun c => letter c || c == '-') 99)

/-- One owner of a list. -/
def isRepositoryOwner : RepositoryAccountableOwner → Bool
  | .githubUser login => Patterns.repositoryOwner.test login
  | .githubTeam slug => teamSlug.test slug

/-- What an owner is told apart by. -/
def RepositoryAccountableOwner.identity : RepositoryAccountableOwner → String
  | .githubUser login => "github-user:" ++ toLowerCase login
  | .githubTeam slug => "github-team:" ++ slug

/-- `isRepositoryOwners`. -/
def isRepositoryOwners (owners : List RepositoryAccountableOwner) : Bool :=
  decide (1 ≤ owners.length) && decide (owners.length ≤ 20) && owners.all isRepositoryOwner &&
    decide (owners.map RepositoryAccountableOwner.identity).Nodup

/-- `isRepositoryCoreAuthorityPayload`. -/
def isRepositoryCoreAuthorityPayload (value : RepositoryCoreAuthorityPayload) : Bool :=
  Patterns.repositoryId.test value.repositoryId && isUuidV7 value.coreSnapshotId &&
    isUuidV7 value.declarationRecordId && isUuidV7 value.coreAuthorizationRecordId &&
    isUuidV7 value.eventRecordId && commitSha.test value.sourceCommitId &&
    Patterns.repositoryOwner.test value.owner && Patterns.repositoryName.test value.name &&
    decide (value.declarationPath =
      "organization/repositories/" ++ value.owner ++ "/" ++ value.name ++ ".json") &&
    p.isSha256 value.declarationDigest && decide (value.surfaceContractVersion = 1) &&
    isRepositoryOwners value.accountableOwners &&
    decide (value.maintenancePrograms.length ≤ 9) && decide value.maintenancePrograms.Nodup &&
    decide (value.actionCeiling.length ≤ 6) && decide value.actionCeiling.Nodup &&
    (value.fleetState != .enabled ||
      (!value.maintenancePrograms.isEmpty && !value.actionCeiling.isEmpty))

/-- `repositoryIdentityState`. -/
def repositoryIdentityState (fleetState : RepositoryFleetState)
    (result : RepositoryGitHubResult) : RepositoryState :=
  match fleetState with
  | .disabled => .disabled
  | .paused => .paused
  | .enabled => if result = .matched then .awaitingSurfaces else .githubHeld

/-- What the observation in a reconciliation comes to, when it has one. -/
def expectedResult (value : RepositoryGitHubReconciliationPayload) :
    Option RepositoryGitHubResult := do
  let owner ← value.observedOwner
  let name ← value.observedName
  let repositoryId ← value.observedRepositoryId
  let archived ← value.archived
  let defaultBranch ← value.observedDefaultBranch
  if Patterns.repositoryOwner.test owner && Patterns.repositoryName.test name &&
      Patterns.appId.test repositoryId && isRepositoryBranchName defaultBranch then
    if repositoryId ≠ value.declaredRepositoryId then some .identityMismatch
    else if toLowerCase owner ≠ toLowerCase value.declaredOwner ∨
        toLowerCase name ≠ toLowerCase value.declaredName then some .locatorMismatch
    else if archived then some .archived
    else some .matched
  else none

/-- `isRepositoryGitHubReconciliationPayload`. -/
def isRepositoryGitHubReconciliationPayload (value : RepositoryGitHubReconciliationPayload) :
    Bool :=
  Patterns.repositoryId.test value.repositoryId && isUuidV7 value.coreSnapshotId &&
    isUuidV7 value.coreAuthorizationRecordId && isUuidV7 value.observationRecordId &&
    isUuidV7 value.reconciliationRecordId && isUuidV7 value.eventRecordId &&
    Patterns.repositoryOwner.test value.declaredOwner &&
    Patterns.repositoryName.test value.declaredName &&
    Patterns.appId.test value.declaredRepositoryId &&
    decide (value.repositoryId = "github.com:" ++ value.declaredRepositoryId) &&
    p.isSha256 value.responseDigest &&
    (if value.result = .missing ∨ value.result = .unavailable then
      value.observedOwner.isNone && value.observedName.isNone &&
        value.observedRepositoryId.isNone && value.archived.isNone &&
        value.observedDefaultBranch.isNone
    else decide (expectedResult value = some value.result)) &&
    decide (value.effectiveState = repositoryIdentityState value.fleetState value.result)

/-- The surfaces of an enrollment, with where each is. -/
def expectedSurfaces : List (String × String × ArtifactType) :=
  [("agent-instructions", "AGENTS.md", .file),
    ("agent-governance", "policies/agent-governance.json", .file),
    ("agent-skills", ".agents/skills", .directory),
    ("documentation-index", "docs/README.md", .file)]

/-- `isRepositorySurfaceSummary`. -/
def isRepositorySurfaceSummary (value : RepositorySurfaceSummary) : Bool :=
  p.isSha256 value.contentDigest && decide (value.size < 2 ^ 53) &&
    expectedSurfaces.contains (value.surfaceId, value.path, value.artifactType)

/-- What a reconciliation of a result says of the requirement at an index, with the summary
there: all of a valid one passed, and of another one those in front of the one that failed. -/
def expectedRequirement (result : SurfaceResult) (failedIndex index : ℕ)
    (summary : Option RepositorySurfaceSummary) : RequirementResult × Option String :=
  let contentDigest := summary.map RepositorySurfaceSummary.contentDigest
  match result with
  | .valid => (.pass, contentDigest)
  | .unavailable => (.unknown, none)
  | .missing | .wrongType | .invalid =>
    if index < failedIndex then (.pass, contentDigest)
    else if index = failedIndex then (.fail, if result = .invalid then contentDigest else none)
    else (.unknown, none)

/-- `isRepositorySurfaceReconciliationPayload`. -/
def isRepositorySurfaceReconciliationPayload (value : RepositorySurfaceReconciliationPayload) :
    Bool :=
  let surfaceIds := expectedSurfaces.map Prod.fst
  let failedIndex := value.failedSurfaceId.elim surfaceIds.length surfaceIds.idxOf
  let requirements := (surfaceIds.zipIdx).map fun entry =>
    let expected := expectedRequirement value.result failedIndex entry.2 value.surfaces[entry.2]?
    (⟨"canonical-surface:" ++ entry.1, entry.1, expected.1, expected.2⟩ :
      RepositorySurfaceRequirementResult)
  Patterns.repositoryId.test value.repositoryId && isUuidV7 value.coreSnapshotId &&
    isUuidV7 value.coreAuthorizationRecordId && isUuidV7 value.githubReconciliationRecordId &&
    isUuidV7 value.observationRecordId && isUuidV7 value.policyDecisionRecordId &&
    isUuidV7 value.reconciliationRecordId && isUuidV7 value.eventRecordId &&
    decide (value.surfaceContractVersion = 1) && decide (value.governanceSchemaVersion = 1) &&
    p.isSha256 value.surfaceContractDigest && p.isSha256 value.governanceSchemaDigest &&
    p.isSha256 value.probeDigest && value.surfaces.all (isRepositorySurfaceSummary p) &&
    decide (value.requirementResults = requirements) &&
    decide (value.surfaces.map RepositorySurfaceSummary.surfaceId <+: surfaceIds) &&
    value.requirementResults.all (fun requirement =>
      requirement.evidenceDigest.all p.isSha256) &&
    (value.defaultBranch.all isRepositoryBranchName) &&
    match value.result with
    | .unavailable =>
      value.defaultBranch.isNone && value.repositoryCommitId.isNone &&
        value.repositoryTreeId.isNone && value.surfaces.isEmpty &&
        value.governancePolicy.isNone && value.failedSurfaceId.isNone &&
        decide (value.decision = .deny)
    | .valid =>
      value.defaultBranch.isSome && value.repositoryCommitId.isSome &&
        value.repositoryTreeId.isSome && decide (value.surfaces.length = 4) &&
        (value.governancePolicy.bind Json.asObject).isSome && value.failedSurfaceId.isNone &&
        decide (value.decision = .permit)
    | .missing | .wrongType | .invalid =>
      value.defaultBranch.isSome && value.repositoryCommitId.isSome &&
        value.repositoryTreeId.isSome && decide (failedIndex < surfaceIds.length) &&
        decide (value.surfaces.length =
          failedIndex + if value.result = .invalid then 1 else 0) &&
        value.governancePolicy.isNone && decide (value.decision = .deny)

/-- `isRepositoryEnrollmentPayload`. -/
def isRepositoryEnrollmentPayload (value : RepositoryEnrollmentPayload) : Bool :=
  Patterns.repositoryId.test value.repositoryId && isUuidV7 value.coreSnapshotId &&
    isUuidV7 value.coreAuthorizationRecordId && isUuidV7 value.githubReconciliationRecordId &&
    isUuidV7 value.surfaceReconciliationRecordId &&
    isUuidV7 value.surfacePolicyDecisionRecordId &&
    isUuidV7 value.controllerDefinitionRecordId && isUuidV7 value.enrollmentRecordId &&
    isUuidV7 value.eventRecordId && decide (value.surfaceContractVersion = 1) &&
    decide (value.maintenancePrograms.length ≤ 9) && decide value.maintenancePrograms.Nodup &&
    !value.maintenancePrograms.isEmpty && decide (value.actionCeiling.length ≤ 6) &&
    decide value.actionCeiling.Nodup && !value.actionCeiling.isEmpty

/-- `isRepositoryOperatorHoldDecisionPayload`. -/
def isRepositoryOperatorHoldDecisionPayload (value : RepositoryOperatorHoldDecisionPayload) :
    Bool :=
  isUuidV7 value.decisionRecordId && isUuidV7 value.eventRecordId &&
    Patterns.repositoryId.test value.repositoryId && isUuidV7 value.coreSnapshotId &&
    isUuidV7 value.coreAuthorizationRecordId && p.isSha256 value.declarationDigest &&
    isUuidV7 value.operatorPrincipalId && isUuidV7 value.holdDecisionId &&
    value.previousDecisionRecordId.all isUuidV7 && isBoundedDiagnostic value.reason &&
    decide (trim value.reason = value.reason) &&
    (value.reason.toList.all fun c => !(c.toNat ≤ 31 || c.toNat = 127)) &&
    decide (1 ≤ value.expectedLastTransactionSequence) &&
    match value.choice with
    | .impose => decide (value.decisionRecordId = value.holdDecisionId) &&
        value.previousDecisionRecordId.isNone
    | .clear => decide (value.decisionRecordId ≠ value.holdDecisionId) &&
        decide (value.previousDecisionRecordId = some value.holdDecisionId)

/-! ## Records as JSON -/

/-- A string as a value. -/
def text (s : String) : JsonOf N := .text (jsText s)

/-- A value that may be `null`. -/
def orNull {α : Type} (f : α → JsonOf N) : Option α → JsonOf N
  | none => .null
  | some a => f a

/-- An object, its keys as strings. -/
def object (fields : List (String × JsonOf N)) : JsonOf N :=
  .object (fields.map fun f => (jsText f.1, f.2))

/-- An owner as JSON. -/
def ownerJson : RepositoryAccountableOwner → JsonOf N
  | .githubUser login => object [("kind", text "github-user"), ("login", text login)]
  | .githubTeam slug => object [("kind", text "github-team"), ("slug", text slug)]

/-- The programs of a repository as JSON. -/
def programsJson (programs : List RepositoryMaintenanceProgram) : JsonOf N :=
  .array (programs.map fun program => text program.text)

/-- The action ceiling of a repository as JSON. -/
def ceilingJson (actions : List AllowedAction) : JsonOf N :=
  .array (actions.map fun action => text action.text)

/-- An inspection as JSON. -/
def inspectionJson : RepositoryGitHubInspectionInput → JsonOf N
  | .missing => object [("kind", text "missing")]
  | .unavailable => object [("kind", text "unavailable")]
  | .found repositoryId owner name archived defaultBranch =>
    object [("kind", text "found"), ("repositoryId", text repositoryId), ("owner", text owner),
      ("name", text name), ("archived", .bool archived), ("defaultBranch", text defaultBranch)]

/-- A mode as GitHub spells it. -/
def modeText : TreeMode → String
  | .regular => "100644"
  | .executable => "100755"
  | .symlink => "120000"
  | .directory => "040000"
  | .submodule => "160000"

/-- A kind of object as GitHub spells it. -/
def objectTypeText : ObjectType → String
  | .blob => "blob"
  | .tree => "tree"
  | .commit => "commit"

/-- An entry of a listing as JSON. -/
def treeEntryJson (entry : RepositorySurfaceTreeEntry) : JsonOf N :=
  object [("path", text entry.path.1), ("mode", text (modeText entry.mode)),
    ("type", text (objectTypeText entry.type)), ("objectId", text entry.objectId.1),
    ("size", orNull (fun size => .number (p.nat size)) entry.size)]

/-- An entry of a probe as JSON, its bytes in base64. -/
def probeEntryJson : RepositorySurfaceProbeEntry → JsonOf N
  | .missing surfaceId path =>
    object [("surfaceId", text surfaceId), ("path", text path), ("kind", text "missing")]
  | .found surface =>
    object [("surfaceId", text surface.surfaceId), ("path", text surface.path),
      ("kind", text "found"), ("mode", text (modeText surface.mode)),
      ("objectType", text (objectTypeText surface.objectType)),
      ("objectId", text surface.objectId.1),
      ("bytesBase64",
        orNull (fun bytes => text (String.ofList (Base64.encode bytes))) surface.bytes),
      ("treeEntries",
        orNull (fun entries => .array (entries.map (treeEntryJson p))) surface.treeEntries)]

/-- A probe as JSON. -/
def probeJson : RepositorySurfaceProbeInput → JsonOf N
  | .unavailable => object [("kind", text "unavailable")]
  | .resolved defaultBranch repositoryCommitId repositoryTreeId surfaces =>
    object [("kind", text "resolved"), ("defaultBranch", text defaultBranch),
      ("repositoryCommitId", text repositoryCommitId.1),
      ("repositoryTreeId", text repositoryTreeId.1),
      ("surfaces", .array (surfaces.map (probeEntryJson p)))]

/-- The summary of a surface as JSON. -/
def summaryJson (summary : RepositorySurfaceSummary) : JsonOf N :=
  object [("surfaceId", text summary.surfaceId), ("path", text summary.path),
    ("artifactType", text (match summary.artifactType with
      | .file => "file"
      | .directory => "directory")),
    ("objectId", text summary.objectId.1), ("contentDigest", text summary.contentDigest),
    ("size", .number (p.nat summary.size))]

/-- The result of a requirement as JSON. -/
def requirementJson (requirement : RepositorySurfaceRequirementResult) : JsonOf N :=
  object [("requirementId", text requirement.requirementId),
    ("surfaceId", text requirement.surfaceId), ("result", text requirement.result.text),
    ("evidenceDigest", orNull text requirement.evidenceDigest)]

/-- The fields of a surface reconciliation that a context is made of too. -/
def surfaceFields (value : RepositorySurfaceReconciliationPayload) : List (String × JsonOf N) :=
  [("defaultBranch", orNull text value.defaultBranch),
    ("repositoryCommitId", orNull (fun id => text id.1) value.repositoryCommitId),
    ("repositoryTreeId", orNull (fun id => text id.1) value.repositoryTreeId),
    ("surfaceContractVersion", .number (p.nat value.surfaceContractVersion)),
    ("governanceSchemaVersion", .number (p.nat value.governanceSchemaVersion)),
    ("surfaceContractDigest", text value.surfaceContractDigest),
    ("governanceSchemaDigest", text value.governanceSchemaDigest),
    ("surfaces", .array (value.surfaces.map (summaryJson p))),
    ("governancePolicy", orNull (fun policy => (p.policy policy).1) value.governancePolicy),
    ("checkpoint", text "repository-enrollment"), ("decision", text value.decision.text),
    ("requirementResults", .array (value.requirementResults.map requirementJson)),
    ("exceptionRecordIds", .array []), ("probeDigest", text value.probeDigest)]

/-- The result of an evaluation as it is spelled. -/
def resultText : SurfaceResult → String
  | .unavailable => "unavailable"
  | .missing => "missing"
  | .wrongType => "wrong-type"
  | .invalid => "invalid"
  | .valid => "valid"

/-- A surface reconciliation as JSON. -/
def surfaceJson (value : RepositorySurfaceReconciliationPayload) : JsonOf N :=
  object ([("repositoryId", text value.repositoryId), ("coreSnapshotId", text value.coreSnapshotId),
    ("coreAuthorizationRecordId", text value.coreAuthorizationRecordId),
    ("githubReconciliationRecordId", text value.githubReconciliationRecordId),
    ("observationRecordId", text value.observationRecordId),
    ("policyDecisionRecordId", text value.policyDecisionRecordId),
    ("reconciliationRecordId", text value.reconciliationRecordId),
    ("eventRecordId", text value.eventRecordId), ("result", text (resultText value.result)),
    ("failedSurfaceId", orNull text value.failedSurfaceId),
    ("checkedAt", text (p.isoText value.checkedAt))] ++
    surfaceFields p value)

/-! ## The context of an enrollment -/

/-- The digest of a value as canonical JSON. -/
def digest (value : JsonOf N) : Except ControlError String :=
  (canonicalJson p.format value).map (sha256 p.world.sha256)

/-- `RepositoryAuthorityContextInput`. -/
structure RepositoryAuthorityContextInput where
  authority : RepositoryCoreAuthorityPayload
  github : RepositoryGitHubReconciliationPayload
  surfaces : RepositorySurfaceReconciliationPayload
  enrollment : RepositoryEnrollmentPayload

/-- The context as JSON: what established the enrollment, without the identities of the records
and the times they were made at. -/
def contextJson (input : RepositoryAuthorityContextInput) : JsonOf N :=
  let authority := input.authority
  let github := input.github
  let enrollment := input.enrollment
  object [("schemaVersion", .number (p.nat 1)), ("repositoryId", text authority.repositoryId),
    ("core", object [("snapshotId", text authority.coreSnapshotId),
      ("sourceCommitId", text authority.sourceCommitId),
      ("declarationPath", text authority.declarationPath),
      ("declarationDigest", text authority.declarationDigest), ("owner", text authority.owner),
      ("name", text authority.name),
      ("accountableOwners", .array (authority.accountableOwners.map ownerJson)),
      ("fleetState", text authority.fleetState.text),
      ("maintenancePrograms", programsJson authority.maintenancePrograms),
      ("actionCeiling", ceilingJson authority.actionCeiling),
      ("surfaceContractVersion", .number (p.nat authority.surfaceContractVersion))]),
    ("github", object [("declaredOwner", text github.declaredOwner),
      ("declaredName", text github.declaredName),
      ("declaredRepositoryId", text github.declaredRepositoryId),
      ("observedOwner", orNull text github.observedOwner),
      ("observedName", orNull text github.observedName),
      ("observedRepositoryId", orNull text github.observedRepositoryId),
      ("archived", orNull .bool github.archived),
      ("defaultBranch", orNull text github.observedDefaultBranch),
      ("responseDigest", text github.responseDigest)]),
    ("surfaces", object (surfaceFields p input.surfaces)),
    ("enrollment", object [("repositoryCommitId", text enrollment.repositoryCommitId.1),
      ("surfaceContractVersion", .number (p.nat enrollment.surfaceContractVersion)),
      ("maintenancePrograms", programsJson enrollment.maintenancePrograms),
      ("actionCeiling", ceilingJson enrollment.actionCeiling)])]

/-- **What `repositoryAuthorityContextDigest` refuses**: records that do not belong together, and
an enrollment that is not whole. Programs and actions are compared as canonical JSON there, which
is the comparison of the lists. -/
def Incoherent (input : RepositoryAuthorityContextInput) : Prop :=
  let authority := input.authority
  let github := input.github
  let surfaces := input.surfaces
  let enrollment := input.enrollment
  authority.repositoryId ≠ github.repositoryId ∨
    authority.repositoryId ≠ surfaces.repositoryId ∨
    authority.repositoryId ≠ enrollment.repositoryId ∨
    authority.coreSnapshotId ≠ github.coreSnapshotId ∨
    authority.coreSnapshotId ≠ surfaces.coreSnapshotId ∨
    authority.coreSnapshotId ≠ enrollment.coreSnapshotId ∨
    authority.coreAuthorizationRecordId ≠ github.coreAuthorizationRecordId ∨
    authority.coreAuthorizationRecordId ≠ surfaces.coreAuthorizationRecordId ∨
    authority.coreAuthorizationRecordId ≠ enrollment.coreAuthorizationRecordId ∨
    github.reconciliationRecordId ≠ surfaces.githubReconciliationRecordId ∨
    github.reconciliationRecordId ≠ enrollment.githubReconciliationRecordId ∨
    surfaces.reconciliationRecordId ≠ enrollment.surfaceReconciliationRecordId ∨
    surfaces.policyDecisionRecordId ≠ enrollment.surfacePolicyDecisionRecordId ∨
    authority.surfaceContractVersion ≠ surfaces.surfaceContractVersion ∨
    authority.surfaceContractVersion ≠ enrollment.surfaceContractVersion ∨
    github.observedDefaultBranch ≠ surfaces.defaultBranch ∨
    authority.maintenancePrograms ≠ enrollment.maintenancePrograms ∨
    authority.actionCeiling ≠ enrollment.actionCeiling ∨
    authority.fleetState ≠ .enabled ∨
    github.result ≠ .matched ∨
    surfaces.result ≠ .valid ∨
    surfaces.decision ≠ .permit ∨
    surfaces.repositoryCommitId ≠ some enrollment.repositoryCommitId

instance (input : RepositoryAuthorityContextInput) : Decidable (Incoherent input) := by
  unfold Incoherent
  infer_instance

/-- **`repositoryAuthorityContextDigest`.** -/
def repositoryAuthorityContextDigest (input : RepositoryAuthorityContextInput) :
    Except ControlError String := do
  refuseIf (Incoherent input)
    (.error "repository authority context requires one coherent enrolled repository")
  digest p (contextJson p input)

/-! ## Held work -/

/-- `RepositoryHeldWorkCause`. -/
inductive RepositoryHeldWorkCause where
  | githubUnavailable | surfacesUnavailable | corePaused | coreDisabled | operatorHold
  | githubReconciliationFailure | surfaceValidationFailure | authorityContextChanged
  deriving DecidableEq, Repr

/-- `RepositoryHeldWorkRecovery`. -/
inductive RepositoryHeldWorkRecovery where
  /-- `repository-not-enrolled` -/
  | remainHeld
  /-- `unchanged-transient-outage` -/
  | resumeAutomatically
  /-- `authority-context-changed` -/
  | contextChanged
  /-- `non-transient-hold` -/
  | nonTransientHold
  deriving DecidableEq, Repr

/-- **`evaluateRepositoryHeldWorkRecovery`.** -/
def evaluateRepositoryHeldWorkRecovery (cause : RepositoryHeldWorkCause)
    (heldAuthorityContextDigest : String) (currentAuthorityContextDigest : Option String)
    (currentRepositoryState : RepositoryState) :
    Except ControlError RepositoryHeldWorkRecovery := do
  refuseIf (p.isSha256 heldAuthorityContextDigest = false)
    (.error "held work requires a valid authority-context digest")
  refuseIf (currentAuthorityContextDigest.all p.isSha256 = false)
    (.error "held work recovery requires a valid current authority-context digest")
  if currentRepositoryState ≠ .enrolled ∨ currentAuthorityContextDigest = none then
    pure .remainHeld
  else if currentAuthorityContextDigest ≠ some heldAuthorityContextDigest then
    pure .contextChanged
  else if cause = .githubUnavailable ∨ cause = .surfacesUnavailable then
    pure .resumeAutomatically
  else pure .nonTransientHold

end Records

end Snowcat.Authority
