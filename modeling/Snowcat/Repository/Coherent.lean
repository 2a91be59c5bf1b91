import Snowcat.Control.Readiness
import Snowcat.Repository.EnrollmentCommands

/-!
# The records of an enrollment belong together

What each command writes names the records it was made from, and repeats what
they say (`Authorized`, `Identifies`, `Reconciles`, `Enrolls`). For each command
there is one lemma on what it can do: nothing, or append one record that is so.
-/

namespace Snowcat.Authority

open Patterns

variable {N : Type} {p : Platform N} {s s' : AuthorityTables} {m : Moment}

/-! ## Reading a table -/

section Rows

variable {P : Type} {rows : List (Row P)} {row row' : Row P}

theorem byId_eq_some {recordId : String} (h : byId rows recordId = some row) :
    row ∈ rows ∧ row.recordId = recordId := by
  unfold byId at h
  have hid := List.find?_some h
  exact ⟨List.mem_of_find?_eq_some h, of_decide_eq_true hid⟩

theorem newest_eq_some {q : P → Bool} (h : newest rows q = some row) :
    row ∈ rows ∧ q row.payload = true := by
  unfold newest at h
  have hq := List.find?_some h
  exact ⟨List.mem_reverse.mp (List.mem_of_find?_eq_some h), hq⟩

/-- A table whose records have identities of their own. -/
structure Distinct (recordIds : List String) (rows : List (Row P)) : Prop where
  nodup : (rows.map Row.recordId).Nodup
  taken : ∀ row ∈ rows, row.recordId ∈ recordIds

theorem Distinct.eq {recordIds : List String} (h : Distinct recordIds rows) (hrow : row ∈ rows)
    (hrow' : row' ∈ rows) (heq : row.recordId = row'.recordId) : row = row' :=
  List.inj_on_of_nodup_map h.nodup hrow hrow' heq

theorem Distinct.more {recordIds more : List String} (h : Distinct recordIds rows) :
    Distinct (recordIds ++ more) rows :=
  ⟨h.nodup, fun row hrow => List.mem_append_left _ (h.taken row hrow)⟩

theorem Distinct.concat {recordIds more : List String} (h : Distinct recordIds rows)
    (hmem : row.recordId ∈ more) (hfresh : ∀ id ∈ more, id ∉ recordIds) :
    Distinct (recordIds ++ more) (rows ++ [row]) := by
  refine ⟨?_, ?_⟩
  · rw [List.map_append, List.map_singleton, List.nodup_append_comm]
    refine List.nodup_cons.mpr ⟨fun hin => ?_, h.nodup⟩
    obtain ⟨other, hother, heq⟩ := List.mem_map.mp hin
    exact hfresh _ hmem (heq ▸ h.taken other hother)
  · intro other hother
    rcases List.mem_append.mp hother with hother | hother
    · exact List.mem_append_left _ (h.taken other hother)
    · rw [List.mem_singleton.mp hother]
      exact List.mem_append_right _ hmem

theorem assertRows_eq_ok {validate : P → Bool} {what : String}
    (h : ∀ row ∈ rows, validate row.payload = true) : assertRows validate what rows = .ok () := by
  have hnone : rows.reverse.find? (fun row => !validate row.payload) = none :=
    List.find?_eq_none.mpr fun row hrow => by
      rw [h row (List.mem_reverse.mp hrow)]
      exact Bool.false_ne_true
  rw [assertRows, hnone]
  rfl

end Rows

/-! ## What each command writes -/

theorem oncePerCommand_eq_ok {payload : RepositoryCommandPayload} {changed : String}
    {body : Except ControlError AuthorityTables}
    (h : oncePerCommand s payload changed body = .ok s') :
    s' = s ∨ payload ∉ s.receipts ∧ body = .ok s' := by
  unfold oncePerCommand at h
  split at h
  · simp only [except_bind_eq_ok, except_pure_eq_ok] at h
    obtain ⟨_, -, hs⟩ := h
    exact Or.inl hs.symm
  · next hnone =>
    refine Or.inr ⟨fun hmem => ?_, h⟩
    exact List.find?_eq_none.mp hnone payload hmem (decide_eq_true rfl)

/-- The tables behind a transaction, with its receipt and the identities of its records. -/
def AuthorityTables.recorded (s : AuthorityTables) (now : Time) (recordIds : List String)
    (payload : RepositoryCommandPayload) : AuthorityTables :=
  { s with
    core := s.core.recording now .other
    recordIds := s.recordIds ++ recordIds
    receipts := s.receipts ++ [payload] }

theorem recording_eq_ok {recordIds : List String} {payload : RepositoryCommandPayload} :
    s.recording m.now recordIds payload = .ok s' ↔
      recordIds.Nodup ∧ (∀ id ∈ recordIds, id ∉ s.recordIds) ∧
        s' = s.recorded m.now recordIds payload := by
  simp only [AuthorityTables.recording, except_bind_eq_ok, refuseIf_eq_ok, except_pure_eq_ok,
    not_or, not_not, not_exists, not_and]
  constructor
  · rintro ⟨-, ⟨hnodup, hfresh⟩, heq⟩
    exact ⟨hnodup, hfresh, heq.symm⟩
  · rintro ⟨hnodup, hfresh, heq⟩
    exact ⟨(), ⟨hnodup, hfresh⟩, heq.symm⟩

/-- **What an authority is**: of a snapshot that was active, and the only one of its repository
there, since the command that wrote it left a receipt. -/
structure Authorized (p : Platform N) (s : AuthorityTables)
    (row : Row RepositoryCoreAuthorityPayload) : Prop where
  recordId : row.payload.coreAuthorizationRecordId = row.recordId
  valid : isRepositoryCoreAuthorityPayload p row.payload = true
  snapshot : row.payload.coreSnapshotId ∈ s.snapshotIds
  receipt : .materializeCoreAuthority row.payload.coreSnapshotId row.payload.repositoryId ∈
    s.receipts

/-- **What GitHub says, behind an authority**: the reconciliation of an inspection. -/
def Identifies (p : Platform N) (s : AuthorityTables)
    (row : Row RepositoryGitHubReconciliationPayload)
    (inspection : RepositoryGitHubInspectionInput) : Prop :=
  isRepositoryGitHubReconciliationPayload p row.payload = true ∧
    ∃ authority ∈ s.authorizations, ∃ observationId eventId checkedAt responseDigest,
      digest p (inspectionJson inspection) = .ok responseDigest ∧
      row.payload = gitHubReconciliation authority.payload inspection authority.recordId
        observationId row.recordId eventId checkedAt responseDigest

/-- **The surfaces behind an identity**: the reconciliation of a probe, under the contract of the
snapshot. -/
def Reconciles (p : Platform N) (s : AuthorityTables)
    (row : Row RepositorySurfaceReconciliationPayload) (probe : RepositorySurfaceProbeInput) :
    Prop :=
  isRepositorySurfaceReconciliationPayload p row.payload = true ∧
    (∃ text, canonicalJson p.format (surfaceJson p row.payload) = .ok text) ∧
    ∃ github ∈ s.identities, ∃ authority ∈ s.authorizations,
      ∃ observationId policyId eventId contract evaluation defaultBranch checkedAt probeDigest,
        github.payload.coreAuthorizationRecordId = authority.recordId ∧
        github.payload.observedDefaultBranch = some defaultBranch ∧
        digest p (probeJson p probe) = .ok probeDigest ∧
        evaluateRepositorySurfaceProbe p.world probe defaultBranch contract.contract =
          .ok evaluation ∧
        (∀ active ∈ s.core.active, active.snapshotId = authority.payload.coreSnapshotId →
          activeCoreSurfaceContract p s.core authority.payload.surfaceContractVersion =
            .ok (some contract)) ∧
        row.payload = surfaceReconciliation authority.payload authority.recordId github.recordId
          observationId policyId row.recordId eventId contract evaluation checkedAt probeDigest

/-- **An enrollment**: of the surfaces it names, and their authority. -/
def Enrolls (s : AuthorityTables) (row : Row RepositoryEnrollmentPayload) : Prop :=
  isRepositoryEnrollmentPayload row.payload = true ∧
    ∃ surface ∈ s.surfaces, ∃ authority ∈ s.authorizations,
      ∃ repositoryCommitId controllerId eventId enrolledAt,
        surface.payload.coreAuthorizationRecordId = authority.recordId ∧
        surface.payload.repositoryCommitId = some repositoryCommitId ∧
        row.payload = enrollment authority.payload surface.payload repositoryCommitId
          surface.recordId controllerId row.recordId eventId enrolledAt

/-- The identities of some records are new. -/
def Unused (s : AuthorityTables) (recordIds : List String) : Prop := ∀ id ∈ recordIds, id ∉ s.recordIds

theorem materializeRepositoryCoreAuthority_eq_ok {input : RepositoryCoreAuthorityInput}
    (h : materializeRepositoryCoreAuthority p s m input = .ok s') :
    s' = s ∨ ∃ recordIds row, Unused s recordIds ∧ row.recordId ∈ recordIds ∧
      isRepositoryCoreAuthorityPayload p row.payload = true ∧
      row.payload.coreAuthorizationRecordId = row.recordId ∧
      (∃ active ∈ s.core.active, active.snapshotId = row.payload.coreSnapshotId) ∧
      RepositoryCommandPayload.materializeCoreAuthority row.payload.coreSnapshotId
        row.payload.repositoryId ∉ s.receipts ∧
      s' = { s.recorded m.now recordIds (.materializeCoreAuthority row.payload.coreSnapshotId
          row.payload.repositoryId) with
        authorizations := s.authorizations ++ [row] } := by
  simp only [materializeRepositoryCoreAuthority, except_bind_eq_ok] at h
  obtain ⟨_, -, _, -, _, -, h⟩ := h
  refine (oncePerCommand_eq_ok h).imp_right ?_
  rintro ⟨hreceipt, h⟩
  simp only [except_bind_eq_ok] at h
  obtain ⟨_, -, readiness, -, effective, -, _, -, catalog, hcatalog, h⟩ := h
  cases catalog with
  | none => cases h
  | some pair =>
    obtain ⟨snapshot, repositories⟩ := pair
    simp only [except_bind_eq_ok, refuseIf_eq_ok, not_not] at h
    obtain ⟨_, hsnapshot, h⟩ := h
    split at h
    · cases h
    · next declared hdeclared =>
      simp only [except_bind_eq_ok, refuseIf_eq_ok, except_pure_eq_ok, recording_eq_ok,
        Bool.not_eq_false] at h
      obtain ⟨declarationId, -, authorizationId, -, eventId, -, _, hvalid, _, ⟨-, hfresh, rfl⟩,
        rfl⟩ := h
      have hactive : s.core.active = some snapshot := by
        unfold activeCoreRepositoryCatalog at hcatalog
        split at hcatalog
        · cases Except.ok.inj hcatalog
        · next active hactive =>
          simp only [except_bind_eq_ok, except_pure_eq_ok] at hcatalog
          obtain ⟨candidate, -, hpair⟩ := hcatalog
          rw [hactive, (Prod.mk.inj (Option.some.inj hpair)).1]
      rw [← hsnapshot] at hreceipt ⊢
      exact ⟨_, ⟨authorizationId, _⟩, hfresh, List.mem_cons_of_mem _ List.mem_cons_self, hvalid,
        rfl, ⟨snapshot, hactive, rfl⟩, hreceipt, rfl⟩

theorem recordRepositoryGitHubIdentity_eq_ok {input : RepositoryGitHubReconciliationInput}
    (h : recordRepositoryGitHubIdentity p s m input = .ok s') :
    s' = s ∨ ∃ inspection recordIds command row,
      normalizeRepositoryGitHubInspection input.inspection = .ok inspection ∧
      Unused s recordIds ∧ row.recordId ∈ recordIds ∧ Identifies p s row inspection ∧
      s' = { s.recorded m.now recordIds command with identities := s.identities ++ [row] } := by
  simp only [recordRepositoryGitHubIdentity, except_bind_eq_ok] at h
  obtain ⟨_, -, inspection, hinspection, responseDigest, hdigest, _, -, h⟩ := h
  split at h
  · cases h
  · next authority hauthority =>
    obtain ⟨hmem, hid⟩ := byId_eq_some hauthority
    simp only [except_bind_eq_ok] at h
    obtain ⟨_, -, _, -, _, -, h⟩ := h
    split at h
    · exact Or.inl (Except.ok.inj h).symm
    · refine (oncePerCommand_eq_ok h).imp_right ?_
      rintro ⟨-, h⟩
      simp only [except_bind_eq_ok, refuseIf_eq_ok, except_pure_eq_ok, recording_eq_ok,
        Bool.not_eq_false] at h
      obtain ⟨observationId, -, reconciliationId, -, eventId, -, _, hvalid, _,
        ⟨-, hfresh, rfl⟩, rfl⟩ := h
      rw [← hid] at hvalid ⊢
      exact ⟨inspection, _, _, ⟨reconciliationId, _⟩, hinspection, hfresh,
        List.mem_cons_of_mem _ List.mem_cons_self,
        ⟨hvalid, authority, hmem, observationId, eventId, m.now, responseDigest, hdigest, rfl⟩, rfl⟩

theorem recordRepositoryCanonicalSurfaces_eq_ok {input : RepositorySurfaceReconciliationInput}
    (h : recordRepositoryCanonicalSurfaces p s m input = .ok s') :
    s' = s ∨ ∃ probe recordIds command row,
      safeSizes input.probe = true ∧
      normalizeRepositorySurfaceProbe p.world input.probe = .ok probe ∧
      Unused s recordIds ∧ row.recordId ∈ recordIds ∧ Reconciles p s row probe ∧
      (∃ active ∈ s.core.active, active.snapshotId = row.payload.coreSnapshotId) ∧
      s' = { s.recorded m.now recordIds command with surfaces := s.surfaces ++ [row] } := by
  simp only [recordRepositoryCanonicalSurfaces, except_bind_eq_ok, refuseIf_eq_ok,
    Bool.not_eq_false] at h
  obtain ⟨_, -, _, -, _, hsafe, probe, hprobe, probeDigest, hdigest, _, -, h⟩ := h
  split at h
  · cases h
  next github hgithub =>
  obtain ⟨hgithubMem, hgithubId⟩ := byId_eq_some hgithub
  simp only [except_bind_eq_ok, refuseIf_eq_ok, Bool.not_eq_false] at h
  obtain ⟨_, -, h⟩ := h
  split at h
  · cases h
  next defaultBranch hbranch =>
  simp only [except_bind_eq_ok, refuseIf_eq_ok, not_not] at h
  obtain ⟨_, -, _, -, _, hactive, h⟩ := h
  split at h
  · cases h
  next authority hauthority =>
  obtain ⟨hauthorityMem, hauthorityId⟩ := byId_eq_some hauthority
  simp only [except_bind_eq_ok, refuseIf_eq_ok, Bool.not_eq_false] at h
  obtain ⟨_, -, contract, hcontract, h⟩ := h
  cases contract with
  | none => cases h
  | some contract =>
  simp only [except_bind_eq_ok, refuseIf_eq_ok, not_not] at h
  obtain ⟨_, hsnapshot, _, -, h⟩ := h
  split at h
  · exact Or.inl (Except.ok.inj h).symm
  refine (oncePerCommand_eq_ok h).imp_right ?_
  rintro ⟨-, h⟩
  simp only [except_bind_eq_ok, refuseIf_eq_ok, except_pure_eq_ok, recording_eq_ok,
    Bool.not_eq_false] at h
  obtain ⟨evaluation, hevaluation, observationId, -, policyId, -, reconciliationId, -, eventId, -,
    _, hvalid, text, htext, _, ⟨-, hfresh, rfl⟩, rfl⟩ := h
  rw [← hgithubId, ← hauthorityId] at hvalid htext ⊢
  refine ⟨probe, _, _, ⟨reconciliationId, _⟩, hsafe, hprobe, hfresh,
    List.mem_cons_of_mem _ (List.mem_cons_of_mem _ List.mem_cons_self), ⟨hvalid, ⟨text, htext⟩,
      github, hgithubMem, authority, hauthorityMem, observationId, policyId, eventId, contract,
      evaluation, defaultBranch, m.now, probeDigest, hauthorityId.symm, hbranch, hdigest,
      hevaluation, fun _ _ _ => hcontract, rfl⟩, ?_, rfl⟩
  -- the contract is the one of the active snapshot
  unfold activeCoreSurfaceContract at hcontract
  split at hcontract
  · cases Except.ok.inj hcontract
  next snapshot hsome =>
  simp only [except_bind_eq_ok, except_pure_eq_ok] at hcontract
  obtain ⟨candidate, -, found, -, heq⟩ := hcontract
  refine ⟨snapshot, hsome, ?_⟩
  rw [← Option.some.inj heq] at hsnapshot
  exact hsnapshot

theorem establishRepositoryEnrollment_eq_ok {input : RepositoryEnrollmentInput}
    (h : establishRepositoryEnrollment p s m input = .ok s') :
    s' = s ∨ ∃ recordIds command row, Unused s recordIds ∧ row.recordId ∈ recordIds ∧
      Enrolls s row ∧
      s' = { s.recorded m.now recordIds command with enrollments := s.enrollments ++ [row] } := by
  simp only [establishRepositoryEnrollment, except_bind_eq_ok] at h
  obtain ⟨_, -, _, -, h⟩ := h
  refine (oncePerCommand_eq_ok h).imp_right ?_
  rintro ⟨-, h⟩
  simp only [except_bind_eq_ok] at h
  obtain ⟨_, -, readiness, -, _, -, h⟩ := h
  split at h
  · cases h
  next surface hsurface =>
  obtain ⟨hsurfaceMem, hsurfaceId⟩ := byId_eq_some hsurface
  simp only [except_bind_eq_ok] at h
  obtain ⟨_, -, h⟩ := h
  split at h
  · cases h
  next repositoryCommitId hcommit =>
  simp only [except_bind_eq_ok] at h
  obtain ⟨_, -, statuses, -, _, -, h⟩ := h
  split at h
  · cases h
  next authority hauthority =>
  obtain ⟨hauthorityMem, hauthorityId⟩ := byId_eq_some hauthority
  simp only [except_bind_eq_ok, refuseIf_eq_ok, except_pure_eq_ok, recording_eq_ok,
    Bool.not_eq_false] at h
  obtain ⟨_, -, controllerId, -, enrollmentId, -, eventId, -, _, hvalid, _, ⟨-, hfresh, rfl⟩,
    rfl⟩ := h
  rw [← hsurfaceId] at hvalid ⊢
  exact ⟨_, _, ⟨enrollmentId, _⟩, hfresh, List.mem_cons_of_mem _ List.mem_cons_self,
    ⟨hvalid, surface, hsurfaceMem, authority, hauthorityMem, repositoryCommitId, controllerId,
      eventId, m.now, hauthorityId.symm, hcommit, rfl⟩, rfl⟩

theorem recordRepositoryOperatorHoldDecision_eq_ok {choice : HoldChoice}
    {input : RepositoryOperatorHoldInput}
    (h : recordRepositoryOperatorHoldDecision p s m choice input = .ok s') :
    s' = s ∨ ∃ recordIds command row, Unused s recordIds ∧
      isRepositoryOperatorHoldDecisionPayload p row.payload = true ∧
      s' = { s.recorded m.now recordIds command with holds := s.holds ++ [row] } := by
  simp only [recordRepositoryOperatorHoldDecision, except_bind_eq_ok] at h
  obtain ⟨_, -, _, -, _, -, _, -, h⟩ := h
  refine (oncePerCommand_eq_ok h).imp_right ?_
  rintro ⟨-, h⟩
  simp only [except_bind_eq_ok] at h
  obtain ⟨_, -, statuses, -, h⟩ := h
  split at h
  · cases h
  next status authorizationId hstatus =>
  simp only [except_bind_eq_ok] at h
  obtain ⟨_, -, h⟩ := h
  split at h
  · cases h
  next authority hauthority =>
  simp only [except_bind_eq_ok, refuseIf_eq_ok, except_pure_eq_ok, recording_eq_ok,
    Bool.not_eq_false] at h
  obtain ⟨_, -, decisionId, -, eventId, -, _, hvalid, _, ⟨-, hfresh, rfl⟩, rfl⟩ := h
  exact ⟨_, _, ⟨decisionId, _⟩, hfresh, hvalid, rfl⟩

end Snowcat.Authority
