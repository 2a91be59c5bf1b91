import Snowcat.Repository.Authentic
import Snowcat.Repository.EnrollmentStatus

/-!
# The digest of an authority context

Two enrolled statuses of one repository, anywhere in a run, have the same digest
exactly when they rest on the same: the active snapshot, the inspection of the
identity and the probe of the surfaces (`authorityContextDigest_eq_iff`). The
records in between, their identities and their times are not in it; the
authority, the contract and the evaluation follow from the three.
-/

namespace Snowcat.Authority

open CodeUnits JsonSyntax JsonValue

variable {N : Type} {p : Platform N} {s s' : AuthorityTables} {t₀ : Time} {operator : String}
  {calls more : List (Moment × AuthorityCommand)}

/-! ## The inspection and the probe behind a record -/

/-- **The inspection behind a record**: normalised, it is what the call was given that wrote the
record. -/
def Inspected (p : Platform N) (t₀ : Time) (operator : String)
    (calls : List (Moment × AuthorityCommand)) (recordId : String)
    (inspection : RepositoryGitHubInspectionInput) : Prop :=
  ∃ row input, row.recordId = recordId ∧
    normalizeRepositoryGitHubInspection input.inspection = .ok inspection ∧
    Wrote p t₀ operator AuthorityTables.identities calls row
      (.recordRepositoryGitHubIdentity input)

/-- **The probe behind a record**: normalised, it is what the call was given that wrote the
record. -/
def Probed (p : Platform N) (t₀ : Time) (operator : String)
    (calls : List (Moment × AuthorityCommand)) (recordId : String)
    (probe : RepositorySurfaceProbeInput) : Prop :=
  ∃ row input, row.recordId = recordId ∧
    normalizeRepositorySurfaceProbe p.world input.probe = .ok probe ∧
    Wrote p t₀ operator AuthorityTables.surfaces calls row
      (.recordRepositoryCanonicalSurfaces input)

/-- Only the command on identities writes one. -/
theorem identities_command {m : Moment} {command : AuthorityCommand}
    (h : runAuthorityCommand p s m command = .ok s') :
    s'.identities = s.identities ∨
      (∃ input inspection, command = .recordRepositoryGitHubIdentity input ∧
        normalizeRepositoryGitHubInspection input.inspection = .ok inspection) ∧
      ∃ row, s'.identities = s.identities ++ [row] := by
  cases command with
  | core command =>
    obtain ⟨core, ⟨-, -, rfl⟩ | ⟨snapshot, candidate, -, -, -, -, rfl⟩⟩ := runCore_eq_ok h
    · exact Or.inl rfl
    · exact Or.inl rfl
  | materializeRepositoryCoreAuthority input =>
    rcases materializeRepositoryCoreAuthority_eq_ok h with rfl | ⟨_, _, -, -, -, -, -, -, rfl⟩
    · exact Or.inl rfl
    · exact Or.inl rfl
  | recordRepositoryGitHubIdentity input =>
    rcases recordRepositoryGitHubIdentity_eq_ok h with rfl | ⟨inspection, _, _, row, hinspection,
      -, -, -, rfl⟩
    · exact Or.inl rfl
    · exact Or.inr ⟨⟨input, inspection, rfl, hinspection⟩, row, rfl⟩
  | recordRepositoryCanonicalSurfaces input =>
    rcases recordRepositoryCanonicalSurfaces_eq_ok h with rfl | ⟨_, _, _, _, -, -, -, -, -, -, rfl⟩
    · exact Or.inl rfl
    · exact Or.inl rfl
  | establishRepositoryEnrollment input =>
    rcases establishRepositoryEnrollment_eq_ok h with rfl | ⟨_, _, _, -, -, -, rfl⟩
    · exact Or.inl rfl
    · exact Or.inl rfl
  | recordRepositoryOperatorHoldDecision choice input =>
    rcases recordRepositoryOperatorHoldDecision_eq_ok h with rfl | ⟨_, _, _, -, -, rfl⟩
    · exact Or.inl rfl
    · exact Or.inl rfl

/-- Only the command on surfaces writes any. -/
theorem surfaces_command {m : Moment} {command : AuthorityCommand}
    (h : runAuthorityCommand p s m command = .ok s') :
    s'.surfaces = s.surfaces ∨
      (∃ input probe, command = .recordRepositoryCanonicalSurfaces input ∧
        normalizeRepositorySurfaceProbe p.world input.probe = .ok probe) ∧
      ∃ row, s'.surfaces = s.surfaces ++ [row] := by
  cases command with
  | core command =>
    obtain ⟨core, ⟨-, -, rfl⟩ | ⟨snapshot, candidate, -, -, -, -, rfl⟩⟩ := runCore_eq_ok h
    · exact Or.inl rfl
    · exact Or.inl rfl
  | materializeRepositoryCoreAuthority input =>
    rcases materializeRepositoryCoreAuthority_eq_ok h with rfl | ⟨_, _, -, -, -, -, -, -, rfl⟩
    · exact Or.inl rfl
    · exact Or.inl rfl
  | recordRepositoryGitHubIdentity input =>
    rcases recordRepositoryGitHubIdentity_eq_ok h with rfl | ⟨_, _, _, _, -, -, -, -, rfl⟩
    · exact Or.inl rfl
    · exact Or.inl rfl
  | recordRepositoryCanonicalSurfaces input =>
    rcases recordRepositoryCanonicalSurfaces_eq_ok h with rfl | ⟨probe, _, _, row, -, hprobe, -, -,
      -, -, rfl⟩
    · exact Or.inl rfl
    · exact Or.inr ⟨⟨input, probe, rfl, hprobe⟩, row, rfl⟩
  | establishRepositoryEnrollment input =>
    rcases establishRepositoryEnrollment_eq_ok h with rfl | ⟨_, _, _, -, -, -, rfl⟩
    · exact Or.inl rfl
    · exact Or.inl rfl
  | recordRepositoryOperatorHoldDecision choice input =>
    rcases recordRepositoryOperatorHoldDecision_eq_ok h with rfl | ⟨_, _, _, -, -, rfl⟩
    · exact Or.inl rfl
    · exact Or.inl rfl

/-- **Every identity has an inspection behind it.** -/
theorem exists_inspected {github : Row RepositoryGitHubReconciliationPayload}
    (h : github ∈ ((authorityControl p t₀ operator).run calls).identities) :
    ∃ inspection, Inspected p t₀ operator calls github.recordId inspection := by
  obtain ⟨command, ⟨input, inspection, rfl, hinspection⟩, hwrote⟩ :=
    exists_wrote (by rfl) identities_command h
  exact ⟨inspection, github, input, rfl, hinspection, hwrote⟩

/-- **Every record of surfaces has a probe behind it.** -/
theorem exists_probed {surface : Row RepositorySurfaceReconciliationPayload}
    (h : surface ∈ ((authorityControl p t₀ operator).run calls).surfaces) :
    ∃ probe, Probed p t₀ operator calls surface.recordId probe := by
  obtain ⟨command, ⟨input, probe, rfl, hprobe⟩, hwrote⟩ :=
    exists_wrote (by rfl) surfaces_command h
  exact ⟨probe, surface, input, rfl, hprobe, hwrote⟩

/-- **An identity is the reconciliation of the inspection behind it.** -/
theorem Inspected.identifies {github : Row RepositoryGitHubReconciliationPayload}
    {inspection : RepositoryGitHubInspectionInput}
    (h : Inspected p t₀ operator calls github.recordId inspection)
    (hmem : github ∈ ((authorityControl p t₀ operator).run calls).identities) :
    Identifies p ((authorityControl p t₀ operator).run calls) github inspection := by
  obtain ⟨row, input, hid, hinspection, hwrote⟩ := h
  obtain ⟨hrow, hidentifies⟩ := hwrote.mem_run
    (q := fun s => row ∈ s.identities ∧ Identifies p s row inspection)
    (fun {s s' m} hs hok hrow => by
      have hgrows := (coherent_command hs hok).1
      rcases recordRepositoryGitHubIdentity_eq_ok hok with rfl | ⟨inspection', _, _, row',
        hinspection', -, -, hidentifies, heq⟩
      · exact absurd (List.append_right_eq_self.mp hrow.symm) (List.cons_ne_nil _ _)
      · have hsame : row' = row := by
          rw [heq] at hrow
          exact List.singleton_injective (List.append_cancel_left hrow)
        subst hsame
        rw [Except.ok.inj (hinspection.symm.trans hinspection')]
        exact ⟨hrow ▸ List.mem_append_right _ (List.mem_singleton_self _),
          hidentifies.grows hgrows⟩)
    (fun _ hgrows h => ⟨hgrows.identities h.1, h.2.grows hgrows⟩)
  rw [← (coherent_run p t₀ operator calls).identities.eq hrow hmem hid]
  exact hidentifies

/-- The entries of a probe are normalised one by one. -/
theorem safeProbe_normalized {input probe : RepositorySurfaceProbeInput}
    (h : normalizeRepositorySurfaceProbe p.world input = .ok probe)
    (hsafe : safeSizes input = true) : SafeProbe probe := by
  cases input with
  | unavailable =>
    rw [← Except.ok.inj h]
    trivial
  | resolved defaultBranch commitId treeId surfaces =>
    simp only [normalizeRepositorySurfaceProbe, except_bind_eq_ok, except_pure_eq_ok] at h
    obtain ⟨_, -, _, -, rfl⟩ := h
    intro entry hentry
    obtain ⟨raw, hraw, rfl⟩ := List.mem_map.mp hentry
    have hall := List.all_eq_true.mp hsafe raw hraw
    cases raw with
    | missing surfaceId path => trivial
    | found surface =>
      intro entries hentries e he n hn
      obtain ⟨listing, hlisting, rfl⟩ := Option.map_eq_some_iff.mp hentries
      rw [Option.all_eq_true] at hall
      have hlist := List.all_eq_true.mp (hall listing hlisting) e
        ((List.perm_insertionSort _ _).mem_iff.mp he)
      rw [Option.all_eq_true] at hlist
      exact of_decide_eq_true (hlist n hn)

/-- **The surfaces are the reconciliation of the probe behind them.** -/
theorem Probed.reconciles {surface : Row RepositorySurfaceReconciliationPayload}
    {probe : RepositorySurfaceProbeInput}
    (h : Probed p t₀ operator calls surface.recordId probe)
    (hmem : surface ∈ ((authorityControl p t₀ operator).run calls).surfaces) :
    Reconciles p ((authorityControl p t₀ operator).run calls) surface probe ∧ SafeProbe probe := by
  obtain ⟨row, input, hid, hprobe, hwrote⟩ := h
  obtain ⟨hrow, hreconciles, hsafe⟩ := hwrote.mem_run
    (q := fun s => row ∈ s.surfaces ∧ Reconciles p s row probe ∧ SafeProbe probe)
    (fun {s s' m} hs hok hrow => by
      have hgrows := (coherent_command hs hok).1
      rcases recordRepositoryCanonicalSurfaces_eq_ok hok with rfl | ⟨probe', _, _, row', hsafe,
        hprobe', -, -, hreconciles, -, heq⟩
      · exact absurd (List.append_right_eq_self.mp hrow.symm) (List.cons_ne_nil _ _)
      · have hsame : row' = row := by
          rw [heq] at hrow
          exact List.singleton_injective (List.append_cancel_left hrow)
        subst hsame
        rw [Except.ok.inj (hprobe.symm.trans hprobe')]
        exact ⟨hrow ▸ List.mem_append_right _ (List.mem_singleton_self _),
          hreconciles.grows hgrows hs.authorized, safeProbe_normalized hprobe' hsafe⟩)
    (fun hs hgrows h => ⟨hgrows.surfaces h.1, h.2.1.grows hgrows hs.authorized, h.2.2⟩)
  rw [← (coherent_run p t₀ operator calls).surfaces.eq hrow hmem hid]
  exact ⟨hreconciles, hsafe⟩

/-! ## What the digests tell apart -/

theorem Identifies.responseDigest {github : Row RepositoryGitHubReconciliationPayload}
    {inspection : RepositoryGitHubInspectionInput} (h : Identifies p s github inspection) :
    digest p (inspectionJson inspection) = .ok github.payload.responseDigest := by
  obtain ⟨-, _, -, _, _, _, _, hdigest, hpayload⟩ := h
  rw [hpayload]
  exact hdigest

theorem Reconciles.probeDigest {surface : Row RepositorySurfaceReconciliationPayload}
    {probe : RepositorySurfaceProbeInput} (h : Reconciles p s surface probe) :
    digest p (probeJson p probe) = .ok surface.payload.probeDigest := by
  obtain ⟨-, -, _, -, _, -, _, _, _, _, _, _, _, _, -, -, hdigest, -, -, hpayload⟩ := h
  rw [hpayload]
  exact hdigest

theorem inspection_of_digest (hhash : Function.Injective p.world.sha256)
    {inspection inspection' : RepositoryGitHubInspectionInput}
    (h : digest p (inspectionJson inspection) = digest p (inspectionJson inspection')) :
    inspection = inspection' :=
  inspection_of_same
    ((digest_eq_iff hhash (isJson_inspectionJson _) (isJson_inspectionJson _)).mp h)

theorem probe_of_digest (hhash : Function.Injective p.world.sha256)
    {probe probe' : RepositorySurfaceProbeInput} (hsafe : SafeProbe probe)
    (hsafe' : SafeProbe probe') (h : digest p (probeJson p probe) = digest p (probeJson p probe')) :
    probe = probe' :=
  probe_of_same hsafe hsafe' ((digest_eq_iff hhash (isJson_probeJson _) (isJson_probeJson _)).mp h)

section Contexts

variable {authority authority' : Row RepositoryCoreAuthorityPayload}
  {github github' : Row RepositoryGitHubReconciliationPayload}
  {surface surface' : Row RepositorySurfaceReconciliationPayload}
  {enrolled enrolled' : Row RepositoryEnrollmentPayload}
  {inspection inspection' : RepositoryGitHubInspectionInput}
  {probe probe' : RepositorySurfaceProbeInput}

/-- **One authority, one inspection and one probe make one context**: the records differ in their
identities and their times only. -/
theorem Established.contextJson_eq (hs : Coherent p s)
    (h : Established s authority github surface enrolled)
    (h' : Established s authority github' surface' enrolled')
    (hidentifies : Identifies p s github inspection)
    (hidentifies' : Identifies p s github' inspection)
    (hreconciles : Reconciles p s surface probe) (hreconciles' : Reconciles p s surface' probe)
    (hactive : s.core.active.map ActiveCoreSnapshot.snapshotId =
      some authority.payload.coreSnapshotId) :
    contextJson p ⟨authority.payload, github.payload, surface.payload, enrolled.payload⟩ =
      contextJson p ⟨authority.payload, github'.payload, surface'.payload, enrolled'.payload⟩ := by
  obtain ⟨_, _, _, responseDigest, hdigest, hgithub⟩ :=
    hidentifies.form hs h.authorization h.namesAuthority
  obtain ⟨_, _, _, responseDigest', hdigest', hgithub'⟩ :=
    hidentifies'.form hs h'.authorization h'.namesAuthority
  have hresponse : responseDigest = responseDigest' :=
    Except.ok.inj (hdigest.symm.trans hdigest')
  obtain ⟨_, _, _, contract, evaluation, branch, _, probeDigest, hbranch, hprobe, hevaluation,
    hcontract, hsurface⟩ :=
    hreconciles.form hs h.authorization h.identity h.namesAuthority h.namesIdentity
  obtain ⟨_, _, _, contract', evaluation', branch', _, probeDigest', hbranch', hprobe',
    hevaluation', hcontract', hsurface'⟩ :=
    hreconciles'.form hs h'.authorization h'.identity h'.namesAuthority h'.namesIdentity
  have hprobeDigest : probeDigest = probeDigest' := Except.ok.inj (hprobe.symm.trans hprobe')
  -- the snapshot is still the active one, and its contract the one both were evaluated under
  obtain ⟨active, hsome, hid⟩ := Option.map_eq_some_iff.mp hactive
  have hcontracts : contract = contract' := Option.some.inj (Except.ok.inj
    ((hcontract active hsome hid).symm.trans (hcontract' active hsome hid)))
  have hbranches : branch = branch' := by
    refine Option.some.inj (hbranch.symm.trans (Eq.trans ?_ hbranch'))
    rw [hgithub, hgithub']
    rfl
  subst hresponse hprobeDigest hcontracts hbranches
  have hevaluations : evaluation = evaluation' :=
    Except.ok.inj (hevaluation.symm.trans hevaluation')
  subst hevaluations
  have hnames : surface.payload.coreAuthorizationRecordId = authority.recordId := by
    rw [hsurface]
    rfl
  have hnames' : surface'.payload.coreAuthorizationRecordId = authority.recordId := by
    rw [hsurface']
    rfl
  obtain ⟨commit, _, _, _, hcommit, henrolled⟩ :=
    (hs.enrolled enrolled h.enrollment).form hs h.authorization h.surfaces hnames h.namesSurfaces
  obtain ⟨commit', _, _, _, hcommit', henrolled'⟩ :=
    (hs.enrolled enrolled' h'.enrollment).form hs h'.authorization h'.surfaces hnames'
      h'.namesSurfaces
  have hcommits : commit = commit' := by
    refine Option.some.inj (hcommit.symm.trans (Eq.trans ?_ hcommit'))
    rw [hsurface, hsurface']
    rfl
  subst hcommits
  rw [henrolled, henrolled', hsurface, hsurface', hgithub, hgithub']
  rfl

/-- **The digests of two contexts** of one repository, the second one of the active snapshot. -/
theorem Established.digest_eq_iff (hhash : Function.Injective p.world.sha256) (hs : Coherent p s)
    (h : Established s authority github surface enrolled)
    (h' : Established s authority' github' surface' enrolled')
    (hrepository : authority.payload.repositoryId = authority'.payload.repositoryId)
    (hidentifies : Identifies p s github inspection)
    (hidentifies' : Identifies p s github' inspection')
    (hreconciles : Reconciles p s surface probe) (hreconciles' : Reconciles p s surface' probe')
    (hsafe : SafeProbe probe) (hsafe' : SafeProbe probe')
    (hactive : s.core.active.map ActiveCoreSnapshot.snapshotId =
      some authority'.payload.coreSnapshotId) :
    repositoryAuthorityContextDigest p
        ⟨authority.payload, github.payload, surface.payload, enrolled.payload⟩ =
      repositoryAuthorityContextDigest p
        ⟨authority'.payload, github'.payload, surface'.payload, enrolled'.payload⟩ ↔
      authority.payload.coreSnapshotId = authority'.payload.coreSnapshotId ∧
        inspection = inspection' ∧ probe = probe' := by
  obtain ⟨hjson, d, hcontext, hd⟩ := h.exists_digest hs
  obtain ⟨hjson', d', hcontext', hd'⟩ := h'.exists_digest hs
  rw [hcontext, hcontext', ← hd, ← hd']
  constructor
  · intro hdigest
    obtain ⟨hsnapshot, hresponse, hprobe⟩ :=
      same_contextJson ((Authority.digest_eq_iff hhash hjson hjson').mp hdigest)
    refine ⟨hsnapshot, inspection_of_digest hhash ?_, probe_of_digest hhash hsafe hsafe' ?_⟩
    · exact hidentifies.responseDigest.trans
        ((congrArg Except.ok hresponse).trans hidentifies'.responseDigest.symm)
    · exact hreconciles.probeDigest.trans
        ((congrArg Except.ok hprobe).trans hreconciles'.probeDigest.symm)
  · rintro ⟨hsnapshot, rfl, rfl⟩
    -- a repository has one authority under a snapshot
    have hsameAuthority : authority = authority' :=
      List.inj_on_of_nodup_map hs.unique h.authorization h'.authorization
        (Prod.ext hsnapshot hrepository)
    subst hsameAuthority
    rw [h.contextJson_eq hs h' hidentifies hidentifies' hreconciles hreconciles' hactive]

end Contexts

/-! ## Along a run -/

section Runs

variable {status status' : RepositoryStatus}
  {authority : Row RepositoryCoreAuthorityPayload}
  {github : Row RepositoryGitHubReconciliationPayload}
  {surface : Row RepositorySurfaceReconciliationPayload}
  {enrolled : Row RepositoryEnrollmentPayload}

/-- What an enrollment rests on, as the one who records it sees it. -/
structure AuthorityContext where
  coreSnapshotId : String
  inspection : RepositoryGitHubInspectionInput
  probe : RepositorySurfaceProbeInput

/-- **The context behind a status**: its active snapshot, the inspection behind the identity it
names and the probe behind the surfaces it names. -/
structure Behind (p : Platform N) (t₀ : Time) (operator : String)
    (calls : List (Moment × AuthorityCommand)) (status : RepositoryStatus)
    (context : AuthorityContext) : Prop where
  snapshot : status.coreSnapshotId = context.coreSnapshotId
  identity : ∃ recordId ∈ status.githubReconciliationRecordId,
    Inspected p t₀ operator calls recordId context.inspection
  surfaces : ∃ recordId ∈ status.surfaceReconciliationRecordId,
    Probed p t₀ operator calls recordId context.probe

theorem Established.grows (h : Established s authority github surface enrolled)
    (hgrows : Grows s s') : Established s' authority github surface enrolled :=
  { h with
    authorization := hgrows.authorizations h.authorization
    identity := hgrows.identities h.identity
    surfaces := hgrows.surfaces h.surfaces
    enrollment := hgrows.enrollments h.enrollment }

/-- Every enrolled status has a context behind it. -/
theorem RestsOn.exists_behind
    (h : RestsOn p ((authorityControl p t₀ operator).run calls) status authority github surface
      enrolled) :
    ∃ context, Behind p t₀ operator calls status context := by
  obtain ⟨inspection, hinspection⟩ := exists_inspected h.established.identity
  obtain ⟨probe, hprobe⟩ := exists_probed h.established.surfaces
  exact ⟨⟨status.coreSnapshotId, inspection, probe⟩, rfl, ⟨_, h.namesIdentity, hinspection⟩,
    _, h.namesSurfaces, hprobe⟩

/-- The records a status rests on are of the context behind it. -/
theorem Behind.of_records {context : AuthorityContext}
    (h : Behind p t₀ operator calls status context)
    (hrests : RestsOn p ((authorityControl p t₀ operator).run calls) status authority github surface
      enrolled) :
    authority.payload.coreSnapshotId = context.coreSnapshotId ∧
      Identifies p ((authorityControl p t₀ operator).run calls) github context.inspection ∧
      Reconciles p ((authorityControl p t₀ operator).run calls) surface context.probe ∧
      SafeProbe context.probe := by
  obtain ⟨githubId, hgithubId, hinspected⟩ := h.identity
  obtain ⟨surfaceId, hsurfaceId, hprobed⟩ := h.surfaces
  have hgithub : github.recordId = githubId :=
    Option.some.inj (hrests.namesIdentity.symm.trans hgithubId)
  have hsurface : surface.recordId = surfaceId :=
    Option.some.inj (hrests.namesSurfaces.symm.trans hsurfaceId)
  rw [← hgithub] at hinspected
  rw [← hsurface] at hprobed
  obtain ⟨hreconciles, hsafe⟩ := hprobed.reconciles hrests.established.surfaces
  exact ⟨hrests.snapshot.symm.trans h.snapshot,
    hinspected.identifies hrests.established.identity, hreconciles, hsafe⟩

/-- **There is one context behind an enrolled status.** -/
theorem Behind.unique (hhash : Function.Injective p.world.sha256)
    {context context' : AuthorityContext} (h : Behind p t₀ operator calls status context)
    (h' : Behind p t₀ operator calls status context')
    (hrests : RestsOn p ((authorityControl p t₀ operator).run calls) status authority github surface
      enrolled) : context = context' := by
  obtain ⟨hsnapshot, hidentifies, hreconciles, hsafe⟩ := h.of_records hrests
  obtain ⟨hsnapshot', hidentifies', hreconciles', hsafe'⟩ := h'.of_records hrests
  have hinspection := inspection_of_digest hhash
    (hidentifies.responseDigest.trans hidentifies'.responseDigest.symm)
  have hprobe := probe_of_digest hhash hsafe hsafe'
    (hreconciles.probeDigest.trans hreconciles'.probeDigest.symm)
  cases context
  cases context'
  congr
  exact hsnapshot.symm.trans hsnapshot'

/-- **Two enrolled statuses of a repository have one digest exactly when one context is behind
both.** -/
theorem RestsOn.digest_eq_iff (hhash : Function.Injective p.world.sha256)
    {authority' : Row RepositoryCoreAuthorityPayload}
    {github' : Row RepositoryGitHubReconciliationPayload}
    {surface' : Row RepositorySurfaceReconciliationPayload}
    {enrolled' : Row RepositoryEnrollmentPayload} {context : AuthorityContext}
    (h : RestsOn p ((authorityControl p t₀ operator).run calls) status authority github surface
      enrolled)
    (h' : RestsOn p ((authorityControl p t₀ operator).run (calls ++ more)) status' authority'
      github' surface' enrolled')
    (hrepository : status'.repositoryId = status.repositoryId)
    (hbehind : Behind p t₀ operator calls status context) :
    status'.authorityContextDigest = status.authorityContextDigest ↔
      Behind p t₀ operator (calls ++ more) status' context := by
  have hs := coherent_run p t₀ operator calls
  have hs' := coherent_run p t₀ operator (calls ++ more)
  have hgrows := grows_run p t₀ operator calls more
  obtain ⟨hsnapshot, hidentifies, hreconciles, hsafe⟩ := hbehind.of_records h
  obtain ⟨context', hbehind'⟩ := h'.exists_behind
  obtain ⟨hsnapshot', hidentifies', hreconciles', hsafe'⟩ := hbehind'.of_records h'
  have hdigests := (h.established.grows hgrows).digest_eq_iff hhash hs' h'.established
    (h.repository.symm.trans (hrepository.symm.trans h'.repository))
    (hidentifies.grows hgrows) hidentifies' (hreconciles.grows hgrows hs.authorized) hreconciles'
    hsafe hsafe' (h'.active.trans (congrArg some h'.snapshot))
  rw [h.digest, h'.digest, hsnapshot, hsnapshot'] at hdigests
  have hcontexts : status'.authorityContextDigest = status.authorityContextDigest ↔
      context = context' := by
    obtain ⟨d, hd⟩ := Option.isSome_iff_exists.mp h.isSome
    obtain ⟨d', hd'⟩ := Option.isSome_iff_exists.mp h'.isSome
    rw [hd, hd'] at hdigests ⊢
    cases context
    cases context'
    simp only [AuthorityContext.mk.injEq, ← hdigests, Option.getD_some, Except.ok.injEq,
      Option.some.injEq]
    exact eq_comm
  rw [hcontexts]
  constructor
  · rintro rfl
    exact hbehind'
  · exact fun hsame => hsame.unique hhash hbehind' h'

/-! ## Held work -/

theorem isSha256_of_digest (hformat : ∀ bytes, p.isSha256 (p.world.sha256 bytes) = true)
    {input : RepositoryAuthorityContextInput} {d : String}
    (h : repositoryAuthorityContextDigest p input = .ok d) : p.isSha256 d = true := by
  simp only [repositoryAuthorityContextDigest, except_bind_eq_ok] at h
  obtain ⟨_, -, h⟩ := h
  unfold digest at h
  cases htext : canonicalJson p.format (contextJson p input) with
  | error e =>
    rw [htext] at h
    exact nomatch h
  | ok t =>
    rw [htext] at h
    rw [← Except.ok.inj h]
    exact hformat _

/-- **When held work resumes by itself**: after an outage, with the digest it was held with. -/
theorem evaluateRepositoryHeldWorkRecovery_spec {cause : RepositoryHeldWorkCause} {held : String}
    {current : Option String} {state : RepositoryState} (hheld : p.isSha256 held = true)
    (hcurrent : ∀ d ∈ current, p.isSha256 d = true) :
    ∃ recovery,
      evaluateRepositoryHeldWorkRecovery p cause held current state = .ok recovery ∧
      (recovery = .resumeAutomatically ↔
        (cause = .githubUnavailable ∨ cause = .surfacesUnavailable) ∧ state = .enrolled ∧
          current = some held) := by
  have hall : ¬ current.all p.isSha256 = false := by
    rw [Bool.not_eq_false, Option.all_eq_true]
    exact hcurrent
  unfold evaluateRepositoryHeldWorkRecovery refuseIf
  rw [if_neg (by rw [hheld]; exact Bool.noConfusion), if_neg hall]
  show ∃ recovery, (if state ≠ .enrolled ∨ current = none then pure .remainHeld
    else if current ≠ some held then pure .contextChanged
    else if cause = .githubUnavailable ∨ cause = .surfacesUnavailable then
      pure .resumeAutomatically
    else pure .nonTransientHold : Except ControlError RepositoryHeldWorkRecovery) =
      .ok recovery ∧ _
  by_cases henrolled : state ≠ .enrolled ∨ current = none
  · rw [if_pos henrolled]
    refine ⟨_, rfl, iff_of_false (nomatch ·) ?_⟩
    rintro ⟨-, hstate, hsome⟩
    rcases henrolled with hne | hnone
    · exact hne hstate
    · rw [hnone] at hsome
      exact nomatch hsome
  rw [if_neg henrolled]
  rw [not_or, not_not] at henrolled
  by_cases hsame : current = some held
  · rw [if_neg (not_not.mpr hsame)]
    by_cases hcause : cause = .githubUnavailable ∨ cause = .surfacesUnavailable
    · rw [if_pos hcause]
      exact ⟨_, rfl, iff_of_true rfl ⟨hcause, henrolled.1, hsame⟩⟩
    · rw [if_neg hcause]
      exact ⟨_, rfl, iff_of_false (nomatch ·) fun h => hcause h.1⟩
  · rw [if_pos hsame]
    exact ⟨_, rfl, iff_of_false (nomatch ·) fun h => hsame h.2.2⟩

/-- The digest of a status is one, where it has one. -/
theorem SaysContext.isSha256 (hformat : ∀ bytes, p.isSha256 (p.world.sha256 bytes) = true)
    (h : SaysContext p s status) : ∀ d ∈ status.authorityContextDigest, p.isSha256 d = true := by
  intro d hd
  by_cases henrolled : status.effectiveState = .enrolled
  · obtain ⟨_, _, _, _, hrests⟩ := h.rests henrolled
    have hdigest := hrests.digest
    rw [show status.authorityContextDigest = some d from hd] at hdigest
    exact isSha256_of_digest hformat hdigest
  · rw [h.none henrolled] at hd
    exact nomatch hd

/-- **The digest of an authority context identifies the context.** Take an enrolled status, and a
status of the repository after any more of the run, where no two texts have one hash. Both have
been read without a failure, and one context is behind the first. The second, when enrolled, has
the same digest exactly when the same context is behind it. Work held with the digest resumes by
itself exactly when it was held by an outage of GitHub or of the surfaces, and the repository is
enrolled with the same context behind it. -/
theorem authorityContextDigest_eq_iff (p : Platform N)
    (hhash : Function.Injective p.world.sha256)
    (hformat : ∀ bytes, p.isSha256 (p.world.sha256 bytes) = true)
    (t₀ : Time) (operator : String) (calls more : List (Moment × AuthorityCommand)) :
    ∃ statuses statuses',
      repositoryStatuses p ((authorityControl p t₀ operator).run calls) = .ok statuses ∧
      repositoryStatuses p ((authorityControl p t₀ operator).run (calls ++ more)) =
        .ok statuses' ∧
      ∀ status ∈ statuses, status.effectiveState = .enrolled →
        ∃ d context, status.authorityContextDigest = some d ∧
          (∀ other, Behind p t₀ operator calls status other ↔ other = context) ∧
          ∀ status' ∈ statuses', status'.repositoryId = status.repositoryId →
            (status'.effectiveState = .enrolled →
              (status'.authorityContextDigest = some d ↔
                Behind p t₀ operator (calls ++ more) status' context)) ∧
            ∀ cause, ∃ recovery,
              evaluateRepositoryHeldWorkRecovery p cause d status'.authorityContextDigest
                status'.effectiveState = .ok recovery ∧
              (recovery = .resumeAutomatically ↔
                (cause = .githubUnavailable ∨ cause = .surfacesUnavailable) ∧
                  status'.effectiveState = .enrolled ∧
                  Behind p t₀ operator (calls ++ more) status' context) := by
  obtain ⟨statuses, hstatuses, hsay⟩ :=
    exists_repositoryStatuses (coherent_run p t₀ operator calls)
  obtain ⟨statuses', hstatuses', hsay'⟩ :=
    exists_repositoryStatuses (coherent_run p t₀ operator (calls ++ more))
  refine ⟨statuses, statuses', hstatuses, hstatuses', fun status hstatus henrolled => ?_⟩
  obtain ⟨_, _, _, _, hrests⟩ := (hsay status hstatus).rests henrolled
  obtain ⟨d, hd⟩ := Option.isSome_iff_exists.mp hrests.isSome
  obtain ⟨context, hbehind⟩ := hrests.exists_behind
  refine ⟨d, context, hd, fun other => ⟨fun h => h.unique hhash hbehind hrests, ?_⟩,
    fun status' hstatus' hrepository => ?_⟩
  · rintro rfl
    exact hbehind
  have hiff : status'.effectiveState = .enrolled →
      (status'.authorityContextDigest = some d ↔
        Behind p t₀ operator (calls ++ more) status' context) := by
    intro henrolled'
    obtain ⟨_, _, _, _, hrests'⟩ := (hsay' status' hstatus').rests henrolled'
    rw [← hd]
    exact hrests.digest_eq_iff hhash hrests' hrepository hbehind
  refine ⟨hiff, fun cause => ?_⟩
  obtain ⟨recovery, hrecovery, hresumes⟩ := @evaluateRepositoryHeldWorkRecovery_spec _ p cause d
    status'.authorityContextDigest status'.effectiveState
    ((hsay status hstatus).isSha256 hformat d hd) ((hsay' status' hstatus').isSha256 hformat)
  refine ⟨recovery, hrecovery, hresumes.trans ?_⟩
  constructor
  · rintro ⟨hcause, henrolled', hsame⟩
    exact ⟨hcause, henrolled', (hiff henrolled').mp hsame⟩
  · rintro ⟨hcause, henrolled', hsame⟩
    exact ⟨hcause, henrolled', (hiff henrolled').mpr hsame⟩

end Runs

/-! ### A sample run -/

/-- How the natural numbers are written. -/
def decimals : NumberFormat ℕ where
  finite _ := true
  unsign n := n
  render n := ofChars (Nat.toDigits 10 n)
  read t := some (Nat.ofDigitChars 10 (decode t) 0)
  unsign_unsign _ := rfl
  finite_unsign _ h := h
  render_ne n _ h := by
    have hchars := congrArg decode h
    rw [decode_ofChars] at hchars
    exact Nat.toDigits_ne_nil hchars
  render_units n _ u hu := by
    obtain ⟨c, hc, hu⟩ := List.mem_flatMap.mp hu
    have hdigit := Nat.isDigit_of_mem_toDigits (by decide) (by decide) hc
    have hrange : 48 ≤ c.toNat ∧ c.toNat ≤ 57 := Char.isDigit_iff_toNat.mp hdigit
    rw [ofChar, if_pos (by omega), List.mem_singleton] at hu
    have hval : u.val = c.toNat := by
      rw [hu]
      exact Nat.mod_eq_of_lt (by omega)
    unfold isNumberUnit
    rw [hval, decide_eq_true hrange.1, decide_eq_true hrange.2]
    rfl
  render_unsign _ _ := rfl
  read_render n _ := by rw [decode_ofChars, Nat.ofDigitChars_ten_toDigits]

mutual

/-- A policy as a value of JavaScript. -/
def policyValue : Json → JsonOf ℕ
  | .null => .null
  | .bool b => .bool b
  | .number (.int n) => .number n.toNat
  | .number .notInteger => .null
  | .text s => text s
  | .array values => .array (policyValues values)
  | .object fields => .object (policyFields fields)

/-- The values of a policy. -/
def policyValues : List Json → List (JsonOf ℕ)
  | [] => []
  | value :: values => policyValue value :: policyValues values

/-- The fields of a policy. -/
def policyFields : List (String × Json) → List (JsText × JsonOf ℕ)
  | [] => []
  | (key, value) :: fields => (jsText key, policyValue value) :: policyFields fields

end

/-- A hash of bytes: their text. -/
def sampleHash (bytes : List UInt8) : String :=
  String.ofList (bytes.map fun b => Char.ofNat b.toNat)

theorem sampleHash_injective : Function.Injective sampleHash := by
  intro bytes bytes' h
  refine List.map_injective_iff.mpr (fun b b' hb => ?_) (String.ofList_injective h)
  have hvalid : ∀ b : UInt8, b.toNat.isValidChar := fun b => by
    have := b.toNat_lt
    unfold Nat.isValidChar
    omega
  have hnat := congrArg Char.toNat hb
  rw [toNat_ofNat (hvalid b), toNat_ofNat (hvalid b')] at hnat
  exact UInt8.toNat_inj.mp hnat

/-- A Core that declares one repository. -/
def samplePlatform : Platform ℕ where
  format := decimals
  nat n := n
  finite_nat _ := rfl
  nat_inj _ _ h := h
  world := { sampleWorld with sha256 := sampleHash }
  isSha256 _ := true
  isoText _ := "2026-01-01T00:00:00.000Z"
  policy _ := ⟨policyValue samplePolicy, by
    simp [samplePolicy, policyValue, policyFields, policyValues, text, JsonValue.Keyed,
      JsonValue.Every, JsonValue.EveryField, JsonValue.EveryValue, jsText_injective.eq_iff]⟩
  catalog := .passing
  repositories _ := [⟨"organization/repositories/frostyard/snowcat.json",
    String.ofList (List.replicate 64 'd'), ⟨"1", "frostyard", "snowcat", [.githubUser "frostyard"],
      .enabled, [.quality], [.read], 1⟩⟩]
  surfaceContract _ _ := .ok (sampleContract, "contract", "schema")

/-- The identifiers a moment draws. -/
def sampleId (moment k : ℕ) : String :=
  "00000000-0000-7000-8000-0000000000" ++
    String.ofList [Nat.digitChar moment, Nat.digitChar k]

/-- A moment with identifiers of its own. -/
def sampleMoment (moment : ℕ) : Moment := ⟨moment, sampleId moment⟩

/-- What GitHub says of the repository. -/
def sampleInspection : RepositoryGitHubInspectionInput :=
  .found "1" "frostyard" "snowcat" false "next"

/-- What its surfaces are. -/
def sampleProbe : RepositorySurfaceProbeInput :=
  .resolved "next" ⟨String.ofList (List.replicate 40 'a'), by decide +kernel⟩ strippedTree
    strippedProbe

/-- A snapshot is activated and found eligible, and the repository is enrolled under it. -/
def sampleAuthorityCalls : List (Moment × AuthorityCommand) :=
  [(sampleMoment 1, .core (.activateCoreSnapshot ⟨sampleCoreCandidate '1', 1, none⟩)),
    (sampleMoment 2,
      .core (.recordCoreSourceCheckEligible ⟨sampleId 0 1, sampleCoreCandidate '1', 2⟩)),
    (sampleMoment 3, .materializeRepositoryCoreAuthority ⟨3, sampleId 1 0, "github.com:1"⟩),
    (sampleMoment 4, .recordRepositoryGitHubIdentity ⟨4, sampleId 3 2, sampleInspection⟩),
    (sampleMoment 5, .recordRepositoryCanonicalSurfaces ⟨5, sampleId 4 2, sampleProbe⟩),
    (sampleMoment 6, .establishRepositoryEnrollment ⟨6, sampleId 5 3⟩)]

/-- GitHub is out for a while, and what it says then is what it said. -/
def sampleOutage : List (Moment × AuthorityCommand) :=
  [(sampleMoment 7, .recordRepositoryGitHubIdentity ⟨7, sampleId 3 2, .unavailable⟩),
    (sampleMoment 8, .recordRepositoryGitHubIdentity ⟨8, sampleId 3 2, sampleInspection⟩),
    (sampleMoment 9, .recordRepositoryCanonicalSurfaces ⟨9, sampleId 8 2, sampleProbe⟩),
    (sampleMoment 10, .establishRepositoryEnrollment ⟨10, sampleId 9 3⟩)]

/-- Behind the outage an enrolled status has the digest of the one in front of it exactly when the
same context is behind it. -/
theorem authorityContextDigest_outage :
    ∃ statuses statuses',
      repositoryStatuses samplePlatform
        ((authorityControl samplePlatform 0 "operator").run sampleAuthorityCalls) =
          .ok statuses ∧
      repositoryStatuses samplePlatform ((authorityControl samplePlatform 0 "operator").run
        (sampleAuthorityCalls ++ sampleOutage)) = .ok statuses' ∧
      ∀ status ∈ statuses, status.effectiveState = .enrolled →
        ∃ d context, status.authorityContextDigest = some d ∧
          ∀ status' ∈ statuses', status'.repositoryId = status.repositoryId →
            status'.effectiveState = .enrolled →
              (status'.authorityContextDigest = some d ↔
                Behind samplePlatform 0 "operator" (sampleAuthorityCalls ++ sampleOutage) status'
                  context) := by
  obtain ⟨statuses, statuses', hstatuses, hstatuses', hall⟩ :=
    authorityContextDigest_eq_iff samplePlatform sampleHash_injective (fun _ => rfl) 0 "operator"
      sampleAuthorityCalls sampleOutage
  refine ⟨statuses, statuses', hstatuses, hstatuses', fun status hstatus henrolled => ?_⟩
  obtain ⟨d, context, hd, -, hlater⟩ := hall status hstatus henrolled
  exact ⟨d, context, hd, fun status' hstatus' hrepository =>
    (hlater status' hstatus' hrepository).1⟩

end Snowcat.Authority
