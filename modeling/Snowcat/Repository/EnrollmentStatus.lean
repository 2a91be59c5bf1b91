import Snowcat.Repository.EnrollmentRuns
import Snowcat.Repository.RecordsJson

/-!
# The status of an enrolled repository

An enrolled repository has its four records, each behind the one it names
(`Established`), and they repeat one another as the digest of their context asks
(`not_incoherent`). So `repositoryStatuses` never throws after a run
(`exists_repositoryStatuses`).
-/

namespace Snowcat.Authority

open Patterns

variable {N : Type} {p : Platform N} {s : AuthorityTables}
  {authority : Row RepositoryCoreAuthorityPayload}
  {github : Row RepositoryGitHubReconciliationPayload}
  {surface : Row RepositorySurfaceReconciliationPayload}
  {enrolled : Row RepositoryEnrollmentPayload}

/-- **Four records that establish an enrollment.** -/
structure Established (s : AuthorityTables) (authority : Row RepositoryCoreAuthorityPayload)
    (github : Row RepositoryGitHubReconciliationPayload)
    (surface : Row RepositorySurfaceReconciliationPayload)
    (enrolled : Row RepositoryEnrollmentPayload) : Prop where
  authorization : authority ∈ s.authorizations
  identity : github ∈ s.identities
  surfaces : surface ∈ s.surfaces
  enrollment : enrolled ∈ s.enrollments
  namesAuthority : github.payload.coreAuthorizationRecordId = authority.recordId
  namesIdentity : surface.payload.githubReconciliationRecordId = github.recordId
  namesSurfaces : enrolled.payload.surfaceReconciliationRecordId = surface.recordId
  enabled : authority.payload.fleetState = .enabled
  matched : github.payload.result = .matched
  valid : surface.payload.result = .valid

/-! ## What the records repeat -/

/-- The reconciliation of an inspection, with the authority it names. -/
theorem Identifies.form {inspection : RepositoryGitHubInspectionInput} (hs : Coherent p s)
    (h : Identifies p s github inspection) (hauthority : authority ∈ s.authorizations)
    (hnames : github.payload.coreAuthorizationRecordId = authority.recordId) :
    ∃ observationId eventId checkedAt responseDigest,
      digest p (inspectionJson inspection) = .ok responseDigest ∧
      github.payload = gitHubReconciliation authority.payload inspection authority.recordId
        observationId github.recordId eventId checkedAt responseDigest := by
  obtain ⟨-, other, hother, observationId, eventId, checkedAt, responseDigest, hdigest, hpayload⟩ :=
    h
  have hsame : other = authority := by
    refine hs.authorizations.eq hother hauthority ?_
    rw [← hnames, hpayload]
    rfl
  subst hsame
  exact ⟨observationId, eventId, checkedAt, responseDigest, hdigest, hpayload⟩

/-- The reconciliation of a probe, with the records it names. -/
theorem Reconciles.form {probe : RepositorySurfaceProbeInput} (hs : Coherent p s)
    (h : Reconciles p s surface probe) (hauthority : authority ∈ s.authorizations)
    (hgithub : github ∈ s.identities)
    (hnames : github.payload.coreAuthorizationRecordId = authority.recordId)
    (hnames' : surface.payload.githubReconciliationRecordId = github.recordId) :
    ∃ observationId policyId eventId contract evaluation defaultBranch checkedAt probeDigest,
      github.payload.observedDefaultBranch = some defaultBranch ∧
      digest p (probeJson p probe) = .ok probeDigest ∧
      evaluateRepositorySurfaceProbe p.world probe defaultBranch contract.contract =
        .ok evaluation ∧
      (∀ active ∈ s.core.active, active.snapshotId = authority.payload.coreSnapshotId →
        activeCoreSurfaceContract p s.core authority.payload.surfaceContractVersion =
          .ok (some contract)) ∧
      surface.payload = surfaceReconciliation authority.payload authority.recordId github.recordId
        observationId policyId surface.recordId eventId contract evaluation checkedAt
        probeDigest := by
  obtain ⟨-, -, github', hgithub', authority', hauthority', observationId, policyId, eventId,
    contract, evaluation, defaultBranch, checkedAt, probeDigest, hid, hbranch, hdigest,
    hevaluation, hcontract, hpayload⟩ := h
  have hsameGithub : github' = github := by
    refine hs.identities.eq hgithub' hgithub ?_
    rw [← hnames', hpayload]
    rfl
  subst hsameGithub
  have hsameAuthority : authority' = authority :=
    hs.authorizations.eq hauthority' hauthority (hid.symm.trans hnames)
  subst hsameAuthority
  exact ⟨observationId, policyId, eventId, contract, evaluation, defaultBranch, checkedAt,
    probeDigest, hbranch, hdigest, hevaluation, hcontract, hpayload⟩

/-- The enrollment, with the records it names. -/
theorem Enrolls.form (hs : Coherent p s) (h : Enrolls s enrolled)
    (hauthority : authority ∈ s.authorizations) (hsurface : surface ∈ s.surfaces)
    (hnames : surface.payload.coreAuthorizationRecordId = authority.recordId)
    (hnames' : enrolled.payload.surfaceReconciliationRecordId = surface.recordId) :
    ∃ repositoryCommitId controllerId eventId enrolledAt,
      surface.payload.repositoryCommitId = some repositoryCommitId ∧
      enrolled.payload = enrollment authority.payload surface.payload repositoryCommitId
        surface.recordId controllerId enrolled.recordId eventId enrolledAt := by
  obtain ⟨-, surface', hsurface', authority', hauthority', repositoryCommitId, controllerId,
    eventId, enrolledAt, hid, hcommit, hpayload⟩ := h
  have hsameSurface : surface' = surface := by
    refine hs.surfaces.eq hsurface' hsurface ?_
    rw [← hnames', hpayload]
    rfl
  subst hsameSurface
  have hsameAuthority : authority' = authority :=
    hs.authorizations.eq hauthority' hauthority (hid.symm.trans hnames)
  subst hsameAuthority
  exact ⟨repositoryCommitId, controllerId, eventId, enrolledAt, hcommit, hpayload⟩

/-- A valid evaluation is of the branch it was to be of. -/
theorem defaultBranch_of_valid {probe : RepositorySurfaceProbeInput} {expected : String}
    {contract : RepositorySurfaceContract} {evaluation : EvaluatedRepositorySurfaceProbe}
    (h : evaluateRepositorySurfaceProbe p.world probe expected contract = .ok evaluation)
    (hvalid : evaluation.result = .valid) : evaluation.defaultBranch = some expected := by
  cases probe with
  | unavailable =>
    rw [← Except.ok.inj h] at hvalid
    exact nomatch hvalid
  | resolved defaultBranch commitId treeId surfaces =>
    simp only [evaluateRepositorySurfaceProbe, except_bind_eq_ok, refuseIf_eq_ok, not_not] at h
    obtain ⟨_, rfl, outcome, -, h⟩ := h
    cases outcome with
    | failed summaries result failedSurfaceId => rw [← Except.ok.inj h]
    | passed summaries policy =>
      simp only [except_bind_eq_ok, except_pure_eq_ok] at h
      obtain ⟨_, -, rfl⟩ := h
      rfl

/-- **The records of an enrollment are coherent.** -/
theorem Established.not_incoherent (hs : Coherent p s)
    (h : Established s authority github surface enrolled) :
    ¬ Incoherent ⟨authority.payload, github.payload, surface.payload, enrolled.payload⟩ := by
  obtain ⟨inspection, hidentifies⟩ := hs.identified github h.identity
  obtain ⟨probe, hreconciles⟩ := hs.reconciled surface h.surfaces
  obtain ⟨observationId, eventId, checkedAt, responseDigest, -, hgithub⟩ :=
    hidentifies.form hs h.authorization h.namesAuthority
  obtain ⟨observationId', policyId, eventId', contract, evaluation, defaultBranch, checkedAt',
    probeDigest, hbranch, -, hevaluation, -, hsurface⟩ :=
    hreconciles.form hs h.authorization h.identity h.namesAuthority h.namesIdentity
  have hnames : surface.payload.coreAuthorizationRecordId = authority.recordId := by
    rw [hsurface]
    rfl
  obtain ⟨commitId, controllerId, eventId'', enrolledAt, hcommit, henrolled⟩ :=
    (hs.enrolled enrolled h.enrollment).form hs h.authorization h.surfaces hnames h.namesSurfaces
  have hauthorized := hs.authorized authority h.authorization
  have hversion : authority.payload.surfaceContractVersion = 1 := by
    have hvalid := hauthorized.valid
    simp only [isRepositoryCoreAuthorityPayload, Bool.and_eq_true, decide_eq_true_eq] at hvalid
    exact hvalid.1.1.1.1.1.1.2
  have hresult : evaluation.result = .valid := by
    rw [← h.valid, hsurface]
    rfl
  have hdefault := defaultBranch_of_valid hevaluation hresult
  have hmatched := h.matched
  have hvalid := h.valid
  rw [hgithub] at hbranch hmatched
  rw [hsurface] at hcommit hvalid
  unfold Incoherent
  rw [henrolled, hsurface, hgithub]
  simp only [not_or, not_not]
  exact ⟨rfl, rfl, rfl, rfl, rfl, rfl, hauthorized.recordId, hauthorized.recordId,
    hauthorized.recordId, rfl, rfl, rfl, rfl, hversion, hversion, hbranch.trans hdefault.symm, rfl,
    rfl, h.enabled, hmatched, hvalid, if_pos hresult, hcommit⟩

/-- **The digest of an enrollment's context never throws**, and is the one of its JSON. -/
theorem Established.exists_digest (hs : Coherent p s)
    (h : Established s authority github surface enrolled) :
    IsJson p.format
        (contextJson p ⟨authority.payload, github.payload, surface.payload, enrolled.payload⟩) ∧
      ∃ d, repositoryAuthorityContextDigest p
          ⟨authority.payload, github.payload, surface.payload, enrolled.payload⟩ = .ok d ∧
        digest p (contextJson p
          ⟨authority.payload, github.payload, surface.payload, enrolled.payload⟩) = .ok d := by
  obtain ⟨probe, -, ⟨t, ht⟩, -⟩ := hs.reconciled surface h.surfaces
  have hjson := @isJson_contextJson _ p
    ⟨authority.payload, github.payload, surface.payload, enrolled.payload⟩ t ht
  obtain ⟨d, hd⟩ := Authority.exists_digest hjson
  refine ⟨hjson, d, ?_, hd⟩
  rw [repositoryAuthorityContextDigest, refuseIf, if_neg (h.not_incoherent hs)]
  exact hd

/-! ## The statuses -/

theorem effectiveState_eq_enrolled {authority : RepositoryCoreAuthorityPayload} {held : Bool}
    {github : Option RepositoryGitHubReconciliationPayload}
    {surface : Option RepositorySurfaceReconciliationPayload} {isEnrolled : Bool}
    (h : effectiveState authority held github surface isEnrolled = .enrolled) :
    authority.fleetState = .enabled ∧ isEnrolled = true ∧
      (∃ g, github = some g ∧ g.result = .matched) ∧
      ∃ f, surface = some f ∧ f.result = .valid := by
  unfold effectiveState at h
  split at h
  · exact nomatch h
  · exact nomatch h
  next hfleet =>
  split at h
  · exact nomatch h
  split at h
  · exact nomatch h
  next g =>
  split at h
  · exact nomatch h
  next hmatched =>
  split at h
  · exact nomatch h
  next f =>
  split at h
  · exact nomatch h
  next hvalid =>
  split at h
  next henrolled =>
    exact ⟨hfleet, henrolled, ⟨g, rfl, not_not.mp hmatched⟩, f, rfl, not_not.mp hvalid⟩
  · exact nomatch h

/-- **What an enrolled status rests on**: four records that establish the enrollment, of the
repository and the active snapshot it names; its digest is the one of their context. -/
structure RestsOn (p : Platform N) (s : AuthorityTables) (status : RepositoryStatus)
    (authority : Row RepositoryCoreAuthorityPayload)
    (github : Row RepositoryGitHubReconciliationPayload)
    (surface : Row RepositorySurfaceReconciliationPayload)
    (enrolled : Row RepositoryEnrollmentPayload) : Prop where
  established : Established s authority github surface enrolled
  snapshot : status.coreSnapshotId = authority.payload.coreSnapshotId
  active : s.core.active.map ActiveCoreSnapshot.snapshotId = some status.coreSnapshotId
  repository : status.repositoryId = authority.payload.repositoryId
  namesIdentity : status.githubReconciliationRecordId = some github.recordId
  namesSurfaces : status.surfaceReconciliationRecordId = some surface.recordId
  digest : repositoryAuthorityContextDigest p
      ⟨authority.payload, github.payload, surface.payload, enrolled.payload⟩ =
    .ok (status.authorityContextDigest.getD "")
  isSome : status.authorityContextDigest.isSome = true

/-- **What a status says of a context**: an enrolled one rests on four records, and any other one
has no digest. -/
structure SaysContext (p : Platform N) (s : AuthorityTables) (status : RepositoryStatus) :
    Prop where
  rests : status.effectiveState = .enrolled → ∃ authority github surface enrolled,
    RestsOn p s status authority github surface enrolled
  none : status.effectiveState ≠ .enrolled → status.authorityContextDigest = none

/-- **The status of a repository**: there is one. -/
theorem exists_repositoryStatus (hs : Coherent p s) {snapshot : ActiveCoreSnapshot}
    (hactive : s.core.active = some snapshot) (repository : DeclaredRepository) :
    ∃ status, repositoryStatus p s snapshot repository = .ok status ∧ SaysContext p s status := by
  unfold repositoryStatus
  dsimp only
  split
  · refine ⟨_, rfl, ⟨fun h => ?_, fun _ => rfl⟩⟩
    exact nomatch h
  next authority hauthority =>
  obtain ⟨hauthorityMem, hauthorityKey⟩ := newest_eq_some hauthority
  rw [Bool.and_eq_true, decide_eq_true_eq, decide_eq_true_eq] at hauthorityKey
  generalize hstate : effectiveState authority.payload _ _ _ _ = state
  by_cases henrolled : state = .enrolled
  · -- each record is the newest behind the one in front of it
    rw [henrolled] at hstate ⊢
    obtain ⟨hfleet, hsome, ⟨g, hg, hmatched⟩, f, hf, hvalid⟩ := effectiveState_eq_enrolled hstate
    obtain ⟨github, hgithub, rfl⟩ := Option.map_eq_some_iff.mp hg
    rw [hgithub] at hf hsome ⊢
    obtain ⟨surface, hsurface, rfl⟩ := Option.map_eq_some_iff.mp hf
    rw [hsurface] at hsome ⊢
    obtain ⟨enrolled, henrollment⟩ := Option.isSome_iff_exists.mp hsome
    rw [henrollment]
    obtain ⟨hgithubMem, hgithubKey⟩ := newest_eq_some hgithub
    obtain ⟨hsurfaceMem, hsurfaceKey⟩ :=
      newest_eq_some (show s.surfaceOf github.recordId = some surface from hsurface)
    obtain ⟨henrolledMem, henrolledKey⟩ :=
      newest_eq_some (show s.enrollmentOf surface.recordId = some enrolled from henrollment)
    have hestablished : Established s authority github surface enrolled :=
      ⟨hauthorityMem, hgithubMem, hsurfaceMem, henrolledMem, of_decide_eq_true hgithubKey,
        of_decide_eq_true hsurfaceKey, of_decide_eq_true henrolledKey, hfleet, hmatched, hvalid⟩
    obtain ⟨-, d, hd, -⟩ := hestablished.exists_digest hs
    have hcontext : contextDigestOf p .enrolled authority.payload (some github) (some surface)
        (some enrolled) = .ok (some d) := by
      rw [contextDigestOf, hd]
      rfl
    simp only [Option.bind_some, Option.map_some, hcontext]
    exact ⟨_, rfl, ⟨fun _ => ⟨authority, github, surface, enrolled, hestablished,
      hauthorityKey.1.symm, by rw [hactive]; rfl, hauthorityKey.2.symm, rfl, rfl, hd, rfl⟩,
      fun h => absurd rfl h⟩⟩
  · have hcontext : ∀ github surface enrollment,
        contextDigestOf p state authority.payload github surface enrollment = .ok none := by
      intro github surface enrollment
      unfold contextDigestOf
      split
      · exact absurd rfl henrolled
      · rfl
    rw [hcontext]
    exact ⟨_, rfl, ⟨fun h => absurd h henrolled, fun _ => rfl⟩⟩

theorem exists_statusesOf (hs : Coherent p s) {snapshot : ActiveCoreSnapshot}
    (hactive : s.core.active = some snapshot) (repositories : List DeclaredRepository) :
    ∃ statuses, statusesOf p s snapshot repositories = .ok statuses ∧
      ∀ status ∈ statuses, SaysContext p s status := by
  induction repositories with
  | nil => exact ⟨[], rfl, List.forall_mem_nil _⟩
  | cons repository repositories ih =>
    obtain ⟨status, hstatus, hrests⟩ := exists_repositoryStatus hs hactive repository
    obtain ⟨statuses, hstatuses, hall⟩ := ih
    rw [statusesOf, hstatus, hstatuses]
    exact ⟨_, rfl, List.forall_mem_cons.mpr ⟨hrests, hall⟩⟩

/-- The catalog of the active snapshot is retained. -/
theorem exists_activeCoreRepositoryCatalog (hs : Coherent p s) :
    ∃ catalog, activeCoreRepositoryCatalog p s.core = .ok catalog ∧
      catalog.map Prod.fst = s.core.active := by
  unfold activeCoreRepositoryCatalog
  cases hactive : s.core.active with
  | none => exact ⟨none, rfl, rfl⟩
  | some snapshot =>
    obtain ⟨-, candidate, hlast, hretains⟩ := hs.active snapshot hactive
    have hfind : s.core.snapshots.reverse.find? (fun other =>
        other.commitId = snapshot.sourceCommitId) = some candidate := by
      obtain ⟨front, hfront⟩ := List.getLast?_eq_some_iff.mp hlast
      rw [hfront, List.reverse_concat, List.find?_cons_of_pos]
      exact decide_eq_true hretains.sourceCommitId.symm
    have hretained : retainedCoreCandidate p s.core snapshot.sourceCommitId =
        .ok (some candidate) := by
      have hcommit : ¬ commitSha.test snapshot.sourceCommitId = false := by
        rw [hretains.sourceCommitId, hretains.commit]
        exact Bool.noConfusion
      rw [retainedCoreCandidate, refuseIf, if_neg hcommit, hfind]
      show (p.catalog.validate candidate >>= _) = _
      rw [hretains.validated]
      rfl
    have hcandidate : exactCandidate p s.core snapshot "repository catalog" = .ok candidate := by
      rw [exactCandidate, hretained]
      show (refuseIf _ _ >>= _) = _
      rw [refuseIf, if_neg (not_not.mpr hretains.catalogDigest.symm)]
      rfl
    show ∃ catalog, (exactCandidate p s.core snapshot "repository catalog" >>= _) = _ ∧ _
    rw [hcandidate]
    exact ⟨_, rfl, rfl⟩

/-- **`repositoryStatuses` never throws.** -/
theorem exists_repositoryStatuses (hs : Coherent p s) :
    ∃ statuses, repositoryStatuses p s = .ok statuses ∧
      ∀ status ∈ statuses, SaysContext p s status := by
  obtain ⟨catalog, hcatalog, hactive⟩ := exists_activeCoreRepositoryCatalog hs
  unfold repositoryStatuses
  rw [hcatalog]
  match catalog with
  | none => exact ⟨[], rfl, List.forall_mem_nil _⟩
  | some (snapshot, repositories) =>
    obtain ⟨statuses, hstatuses, hall⟩ := exists_statusesOf hs hactive.symm repositories
    have hrows : assertRows (isRepositoryCoreAuthorityPayload p) "Core authorization"
          s.authorizations = .ok () ∧
        assertRows (isRepositoryGitHubReconciliationPayload p) "GitHub reconciliation"
          s.identities = .ok () ∧
        assertRows (isRepositorySurfaceReconciliationPayload p) "surface reconciliation"
          s.surfaces = .ok () ∧
        assertRows isRepositoryEnrollmentPayload "enrollment" s.enrollments = .ok () ∧
        assertRows (isRepositoryOperatorHoldDecisionPayload p) "operator hold decision"
          s.holds = .ok () := by
      refine ⟨assertRows_eq_ok fun row hrow => (hs.authorized row hrow).valid,
        assertRows_eq_ok fun row hrow => ?_, assertRows_eq_ok fun row hrow => ?_,
        assertRows_eq_ok fun row hrow => (hs.enrolled row hrow).1, assertRows_eq_ok hs.held⟩
      · obtain ⟨inspection, hvalid, -⟩ := hs.identified row hrow
        exact hvalid
      · obtain ⟨probe, hvalid, -⟩ := hs.reconciled row hrow
        exact hvalid
    obtain ⟨ha, hi, hf, he, hh⟩ := hrows
    show ∃ statuses, (assertRows _ _ _ >>= _) = _ ∧ _
    rw [ha]
    show ∃ statuses, (assertRows _ _ _ >>= _) = _ ∧ _
    rw [hi]
    show ∃ statuses, (assertRows _ _ _ >>= _) = _ ∧ _
    rw [hf]
    show ∃ statuses, (assertRows _ _ _ >>= _) = _ ∧ _
    rw [he]
    show ∃ statuses, (assertRows _ _ _ >>= _) = _ ∧ _
    rw [hh]
    show ∃ statuses, (statusesOf p s snapshot repositories >>= _) = _ ∧ _
    rw [hstatuses]
    exact ⟨_, rfl, fun status hstatus => hall status (List.mem_mergeSort.mp hstatus)⟩

end Snowcat.Authority
