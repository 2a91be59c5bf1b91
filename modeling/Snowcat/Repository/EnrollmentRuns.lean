import Snowcat.Repository.Coherent

/-!
# The enrollments of a run

The tables only grow, and a snapshot that is active again was active all along
(`Grows`). So what was true of a record when it was written stays true
(`coherent_run`), and `repositoryStatuses` never throws after a run
(`exists_repositoryStatuses`): the digest of an enrolled repository's context
least of all.
-/

namespace Snowcat.Authority

open Patterns

variable {N : Type} {p : Platform N} {s s' s'' : AuthorityTables} {m : Moment}

/-! ## The snapshots -/

/-- A candidate is retained as the snapshot it became. -/
structure Retains (catalog : CoreCatalogChecks) (snapshot : ActiveCoreSnapshot)
    (candidate : CoreCandidate) : Prop where
  commit : commitSha.test candidate.commitId = true
  sourceCommitId : snapshot.sourceCommitId = candidate.commitId
  catalogDigest : snapshot.catalogDigest = candidate.catalogDigest
  validated : catalog.validate candidate = .ok ()

/-- **What a Core command does to the snapshots**: nothing, or it inserts one and makes it the
active one. -/
theorem runCoreCommand_eq_ok {catalog : CoreCatalogChecks} {core core' : CoreTables}
    {command : CoreCommand} (h : runCoreCommand catalog core m command = .ok core') :
    (core'.active = core.active ∧ core'.snapshots = core.snapshots) ∨
      ∃ snapshot candidate, Retains catalog snapshot candidate ∧
        core'.active = some snapshot ∧ core'.snapshots = core.snapshots ++ [candidate] := by
  have hcommit : ∀ {source : CoreCandidateSource} {u : Unit},
      assertMaterializedCoreCandidate source = .ok u → commitSha.test source.commitId = true := by
    intro source u hsource
    simp only [assertMaterializedCoreCandidate, except_bind_eq_ok, refuseIf_eq_ok, not_or,
      Bool.not_eq_false] at hsource
    obtain ⟨_, -, _, -, hids⟩ := hsource
    exact hids.1
  cases command with
  | activateCoreSnapshot input =>
    simp only [runCoreCommand, activateCoreSnapshot, except_bind_eq_ok] at h
    obtain ⟨_, -, _, hsource, _, hvalid, h⟩ := h
    rcases oncePerReceipt_eq_ok h with rfl | h
    · exact Or.inl ⟨rfl, rfl⟩
    · simp only [except_bind_eq_ok, except_pure_eq_ok] at h
      obtain ⟨_, -, _, -, _, -, snapshotId, -, rfl⟩ := h
      exact Or.inr ⟨_, _, ⟨hcommit hsource, rfl, rfl, hvalid⟩, rfl, rfl⟩
  | rollbackCoreSnapshot input =>
    simp only [runCoreCommand, rollbackCoreSnapshot, except_bind_eq_ok] at h
    obtain ⟨_, -, _, -, _, hsource, _, hvalid, h⟩ := h
    rcases oncePerReceipt_eq_ok h with rfl | h
    · exact Or.inl ⟨rfl, rfl⟩
    · simp only [except_bind_eq_ok, except_pure_eq_ok] at h
      obtain ⟨_, -, _, -, _, -, snapshotId, -, rfl⟩ := h
      exact Or.inr ⟨_, _, ⟨hcommit hsource, rfl, rfl, hvalid⟩, rfl, rfl⟩
  | recordCoreSourceCheckEligible input =>
    simp only [runCoreCommand, recordCoreSourceCheckEligible, except_bind_eq_ok] at h
    obtain ⟨_, -, _, -, _, -, _, -, h⟩ := h
    rcases oncePerReceipt_eq_ok h with rfl | h
    · exact Or.inl ⟨rfl, rfl⟩
    · simp only [except_bind_eq_ok, except_pure_eq_ok] at h
      obtain ⟨_, -, active, -, _, -, _, -, _, -, rfl⟩ := h
      exact Or.inl ⟨rfl, rfl⟩
  | issueCoreStaleSourceOverride input =>
    simp only [runCoreCommand, issueCoreStaleSourceOverride, except_bind_eq_ok] at h
    obtain ⟨_, -, _, -, h⟩ := h
    rcases oncePerReceipt_eq_ok h with rfl | h
    · exact Or.inl ⟨rfl, rfl⟩
    · simp only [except_bind_eq_ok, except_pure_eq_ok] at h
      obtain ⟨_, -, _, -, _, -, _, -, readiness, -, fields, -, _, -, _, -, rfl⟩ := h
      exact Or.inl ⟨rfl, rfl⟩
  | recordCoreCandidateRejection input =>
    simp only [runCoreCommand, recordCoreCandidateRejection, except_bind_eq_ok] at h
    obtain ⟨_, -, h⟩ := h
    rcases oncePerReceipt_eq_ok h with rfl | h
    · exact Or.inl ⟨rfl, rfl⟩
    · simp only [except_bind_eq_ok, except_pure_eq_ok] at h
      obtain ⟨_, -, _, -, rfl⟩ := h
      exact Or.inl ⟨rfl, rfl⟩
  | pruneCoreCheckDetail expected =>
    simp only [runCoreCommand, pruneCoreCheckDetail, except_bind_eq_ok] at h
    obtain ⟨_, -, h⟩ := h
    rcases oncePerReceipt_eq_ok h with rfl | h
    · exact Or.inl ⟨rfl, rfl⟩
    · simp only [except_bind_eq_ok, except_pure_eq_ok] at h
      obtain ⟨_, -, _, -, _, -, rfl⟩ := h
      exact Or.inl ⟨rfl, rfl⟩
  | other =>
    simp only [runCoreCommand, except_bind_eq_ok, except_pure_eq_ok] at h
    obtain ⟨_, -, rfl⟩ := h
    exact Or.inl ⟨rfl, rfl⟩

theorem runCore_eq_ok {command : CoreCommand} (h : runCore p s m command = .ok s') :
    ∃ core, (core.active = s.core.active ∧ core.snapshots = s.core.snapshots ∧
        s' = { s with core }) ∨
      ∃ snapshot candidate, Retains p.catalog snapshot candidate ∧
        core.active = some snapshot ∧ core.snapshots = s.core.snapshots ++ [candidate] ∧
        snapshot.snapshotId ∉ s.snapshotIds ∧
        s' = { s with core, snapshotIds := s.snapshotIds ++ [snapshot.snapshotId] } := by
  simp only [runCore, except_bind_eq_ok] at h
  obtain ⟨core, hcore, h⟩ := h
  refine ⟨core, ?_⟩
  rcases runCoreCommand_eq_ok hcore with ⟨hactive, hsnapshots⟩ | ⟨snapshot, candidate, hretains,
    hactive, hsnapshots⟩
  · rw [if_pos (by rw [hsnapshots])] at h
    exact Or.inl ⟨hactive, hsnapshots, (Except.ok.inj h).symm⟩
  · rw [if_neg (by rw [hsnapshots, List.length_append]; exact Nat.succ_ne_self _)] at h
    simp only [hactive, Option.toList_some, List.map_cons, List.map_nil, List.mem_singleton,
      exists_eq_left, except_bind_eq_ok, refuseIf_eq_ok, except_pure_eq_ok] at h
    obtain ⟨_, hfresh, rfl⟩ := h
    exact Or.inr ⟨snapshot, candidate, hretains, hactive, hsnapshots, hfresh, rfl⟩

/-! ## The tables grow -/

/-- **The tables only grow**, and a snapshot that was known before and is active now was active
then, with the same snapshots retained. -/
structure Grows (s s' : AuthorityTables) : Prop where
  authorizations : s.authorizations ⊆ s'.authorizations
  identities : s.identities ⊆ s'.identities
  surfaces : s.surfaces ⊆ s'.surfaces
  enrollments : s.enrollments ⊆ s'.enrollments
  receipts : s.receipts ⊆ s'.receipts
  snapshotIds : s.snapshotIds ⊆ s'.snapshotIds
  active : ∀ snapshot ∈ s'.core.active, snapshot.snapshotId ∈ s.snapshotIds →
    s'.core.active = s.core.active ∧ s'.core.snapshots = s.core.snapshots

theorem Grows.refl (s : AuthorityTables) : Grows s s :=
  ⟨fun _ h => h, fun _ h => h, fun _ h => h, fun _ h => h, fun _ h => h, fun _ h => h,
    fun _ _ _ => ⟨rfl, rfl⟩⟩

theorem Grows.trans (h : Grows s s') (h' : Grows s' s'') : Grows s s'' where
  authorizations := List.Subset.trans h.authorizations h'.authorizations
  identities := List.Subset.trans h.identities h'.identities
  surfaces := List.Subset.trans h.surfaces h'.surfaces
  enrollments := List.Subset.trans h.enrollments h'.enrollments
  receipts := List.Subset.trans h.receipts h'.receipts
  snapshotIds := List.Subset.trans h.snapshotIds h'.snapshotIds
  active snapshot hsnapshot hknown := by
    obtain ⟨hactive, hsnapshots⟩ := h'.active snapshot hsnapshot (h.snapshotIds hknown)
    obtain ⟨hactive', hsnapshots'⟩ := h.active snapshot (hactive ▸ hsnapshot) hknown
    exact ⟨hactive.trans hactive', hsnapshots.trans hsnapshots'⟩

/-- The tables with one more transaction, and one more record of some kind. -/
theorem grows_recorded {recordIds : List String} {command : RepositoryCommandPayload}
    {authorizations : List (Row RepositoryCoreAuthorityPayload)}
    {identities : List (Row RepositoryGitHubReconciliationPayload)}
    {surfaces : List (Row RepositorySurfaceReconciliationPayload)}
    {enrollments : List (Row RepositoryEnrollmentPayload)}
    {holds : List (Row RepositoryOperatorHoldDecisionPayload)}
    (ha : s.authorizations ⊆ authorizations) (hi : s.identities ⊆ identities)
    (hs : s.surfaces ⊆ surfaces) (he : s.enrollments ⊆ enrollments) :
    Grows s { s.recorded m.now recordIds command with
      authorizations, identities, surfaces, enrollments, holds } :=
  ⟨ha, hi, hs, he, List.subset_append_left _ _, fun _ h => h, fun _ _ _ => ⟨rfl, rfl⟩⟩

/-! ## What stays true of a record -/

theorem Authorized.grows {row : Row RepositoryCoreAuthorityPayload} (h : Authorized p s row)
    (hgrows : Grows s s') : Authorized p s' row :=
  ⟨h.recordId, h.valid, hgrows.snapshotIds h.snapshot, hgrows.receipts h.receipt⟩

theorem Identifies.grows {row : Row RepositoryGitHubReconciliationPayload}
    {inspection : RepositoryGitHubInspectionInput} (h : Identifies p s row inspection)
    (hgrows : Grows s s') : Identifies p s' row inspection := by
  obtain ⟨hvalid, authority, hauthority, hrest⟩ := h
  exact ⟨hvalid, authority, hgrows.authorizations hauthority, hrest⟩

theorem activeCoreSurfaceContract_congr {core core' : CoreTables}
    (hactive : core'.active = core.active) (hsnapshots : core'.snapshots = core.snapshots)
    (version : ℕ) :
    activeCoreSurfaceContract p core' version = activeCoreSurfaceContract p core version := by
  unfold activeCoreSurfaceContract exactCandidate retainedCoreCandidate
  rw [hactive, hsnapshots]

theorem Reconciles.grows {row : Row RepositorySurfaceReconciliationPayload}
    {probe : RepositorySurfaceProbeInput} (h : Reconciles p s row probe) (hgrows : Grows s s')
    (hauthorized : ∀ authority ∈ s.authorizations, Authorized p s authority) :
    Reconciles p s' row probe := by
  obtain ⟨hvalid, htext, github, hgithub, authority, hauthority, observationId, policyId, eventId,
    contract, evaluation, defaultBranch, checkedAt, probeDigest, hid, hbranch, hdigest,
    hevaluation, hcontract, hpayload⟩ := h
  refine ⟨hvalid, htext, github, hgrows.identities hgithub, authority,
    hgrows.authorizations hauthority, observationId, policyId, eventId, contract, evaluation,
    defaultBranch, checkedAt, probeDigest, hid, hbranch, hdigest, hevaluation, ?_, hpayload⟩
  intro active hactive heq
  obtain ⟨hsame, hsnapshots⟩ := hgrows.active active hactive
    (heq ▸ (hauthorized authority hauthority).snapshot)
  rw [activeCoreSurfaceContract_congr hsame hsnapshots]
  exact hcontract active (hsame ▸ hactive) heq

theorem Enrolls.grows {row : Row RepositoryEnrollmentPayload} (h : Enrolls s row)
    (hgrows : Grows s s') : Enrolls s' row := by
  obtain ⟨hvalid, surface, hsurface, authority, hauthority, hrest⟩ := h
  exact ⟨hvalid, surface, hgrows.surfaces hsurface, authority, hgrows.authorizations hauthority,
    hrest⟩

/-- **The tables belong together**: identities are told apart, the active snapshot is retained,
and every record is what its kind says. -/
structure Coherent (p : Platform N) (s : AuthorityTables) : Prop where
  active : ∀ snapshot ∈ s.core.active, snapshot.snapshotId ∈ s.snapshotIds ∧
    ∃ candidate ∈ s.core.snapshots.getLast?, Retains p.catalog snapshot candidate
  authorizations : Distinct s.recordIds s.authorizations
  identities : Distinct s.recordIds s.identities
  surfaces : Distinct s.recordIds s.surfaces
  enrollments : Distinct s.recordIds s.enrollments
  authorized : ∀ row ∈ s.authorizations, Authorized p s row
  unique : (s.authorizations.map fun row =>
    (row.payload.coreSnapshotId, row.payload.repositoryId)).Nodup
  identified : ∀ row ∈ s.identities, ∃ inspection, Identifies p s row inspection
  reconciled : ∀ row ∈ s.surfaces, ∃ probe, Reconciles p s row probe
  enrolled : ∀ row ∈ s.enrollments, Enrolls s row
  held : ∀ row ∈ s.holds, isRepositoryOperatorHoldDecisionPayload p row.payload = true

theorem coherent_initial (initializedAt : Time) (operatorPrincipalId : String) :
    Coherent p (.initial initializedAt operatorPrincipalId) where
  active := fun _ h => nomatch h
  authorizations := ⟨List.nodup_nil, List.forall_mem_nil _⟩
  identities := ⟨List.nodup_nil, List.forall_mem_nil _⟩
  surfaces := ⟨List.nodup_nil, List.forall_mem_nil _⟩
  enrollments := ⟨List.nodup_nil, List.forall_mem_nil _⟩
  authorized := List.forall_mem_nil _
  unique := List.nodup_nil
  identified := List.forall_mem_nil _
  reconciled := List.forall_mem_nil _
  enrolled := List.forall_mem_nil _
  held := List.forall_mem_nil _

/-- What holds of the rows of a table and of the one behind them. -/
theorem forall_mem_concat {α : Type} {rows : List α} {row : α} {q : α → Prop}
    (h : ∀ other ∈ rows, q other) (hrow : q row) : ∀ other ∈ rows ++ [row], q other := by
  intro other hother
  rcases List.mem_append.mp hother with hother | hother
  · exact h other hother
  · rw [List.mem_singleton.mp hother]
    exact hrow

/-- What the records of before are stays true. -/
theorem Coherent.kept (hs : Coherent p s) (hgrows : Grows s s') :
    (∀ row ∈ s.authorizations, Authorized p s' row) ∧
      (∀ row ∈ s.identities, ∃ inspection, Identifies p s' row inspection) ∧
      (∀ row ∈ s.surfaces, ∃ probe, Reconciles p s' row probe) ∧
      ∀ row ∈ s.enrollments, Enrolls s' row :=
  ⟨fun row hrow => (hs.authorized row hrow).grows hgrows,
    fun row hrow => (hs.identified row hrow).imp fun _ h => h.grows hgrows,
    fun row hrow => (hs.reconciled row hrow).imp fun _ h => h.grows hgrows hs.authorized,
    fun row hrow => (hs.enrolled row hrow).grows hgrows⟩

/-- **One command**: the tables grow, and still belong together. -/
theorem coherent_command {command : AuthorityCommand} (hs : Coherent p s)
    (h : runAuthorityCommand p s m command = .ok s') : Grows s s' ∧ Coherent p s' := by
  have hself : ∀ {α : Type} (rows : List α), rows ⊆ rows := fun _ _ h => h
  have hmore : ∀ {α : Type} (rows : List α) (row : α), rows ⊆ rows ++ [row] :=
    fun rows row => List.subset_append_left rows [row]
  cases command with
  | core command =>
    obtain ⟨core, ⟨hactive, hsnapshots, rfl⟩ | ⟨snapshot, candidate, hretains, hactive,
      hsnapshots, hfresh, rfl⟩⟩ := runCore_eq_ok h
    · have hgrows : Grows s { s with core } :=
        ⟨hself _, hself _, hself _, hself _, hself _, hself _, fun _ _ _ => ⟨hactive, hsnapshots⟩⟩
      obtain ⟨authorized, identified, reconciled, enrolled⟩ := hs.kept hgrows
      refine ⟨hgrows, { hs with active := ?_, authorized, identified, reconciled, enrolled }⟩
      · show ∀ snapshot ∈ core.active, _ ∧ ∃ candidate ∈ core.snapshots.getLast?, _
        rw [hactive, hsnapshots]
        exact hs.active
    · have hgrows : Grows s
          { s with core, snapshotIds := s.snapshotIds ++ [snapshot.snapshotId] } := by
        refine ⟨hself _, hself _, hself _, hself _, hself _, List.subset_append_left _ _, ?_⟩
        intro other hother hknown
        rw [← Option.some.inj (hactive.symm.trans hother)] at hknown
        exact absurd hknown hfresh
      obtain ⟨authorized, identified, reconciled, enrolled⟩ := hs.kept hgrows
      refine ⟨hgrows, { hs with active := ?_, authorized, identified, reconciled, enrolled }⟩
      · intro other hother
        rw [← Option.some.inj (hactive.symm.trans hother)]
        refine ⟨List.mem_append_right _ (List.mem_singleton_self _), candidate, ?_, hretains⟩
        show core.snapshots.getLast? = some candidate
        rw [hsnapshots, List.getLast?_concat]
  | materializeRepositoryCoreAuthority input =>
    rcases materializeRepositoryCoreAuthority_eq_ok h with rfl | ⟨recordIds, row, hfresh, hmem,
      hvalid, hid, ⟨active, hactive, hsnapshot⟩, hreceipt, rfl⟩
    · exact ⟨.refl _, hs⟩
    · have hgrows := @grows_recorded s m recordIds (.materializeCoreAuthority
        row.payload.coreSnapshotId row.payload.repositoryId) _ s.identities s.surfaces
        s.enrollments s.holds (hmore s.authorizations row) (hself _) (hself _) (hself _)
      obtain ⟨authorized, identified, reconciled, enrolled⟩ := hs.kept hgrows
      refine ⟨hgrows,
        { active := hs.active
          authorizations := hs.authorizations.concat hmem hfresh
          identities := hs.identities.more
          surfaces := hs.surfaces.more
          enrollments := hs.enrollments.more
          authorized := forall_mem_concat authorized
            ⟨hid, hvalid, hsnapshot ▸ (hs.active active hactive).1,
              List.mem_append_right _ (List.mem_singleton_self _)⟩
          unique := ?_
          identified, reconciled, enrolled
          held := hs.held }⟩
      · show ((s.authorizations ++ [row]).map _).Nodup
        rw [List.map_append, List.map_singleton, List.nodup_append_comm]
        refine List.nodup_cons.mpr ⟨fun hin => ?_, hs.unique⟩
        obtain ⟨other, hother, heq⟩ := List.mem_map.mp hin
        rw [← (Prod.mk.inj heq).1, ← (Prod.mk.inj heq).2] at hreceipt
        exact hreceipt (hs.authorized other hother).receipt
  | recordRepositoryGitHubIdentity input =>
    rcases recordRepositoryGitHubIdentity_eq_ok h with rfl | ⟨inspection, recordIds, receipt, row,
      -, hfresh, hmem, hrow, rfl⟩
    · exact ⟨.refl _, hs⟩
    · have hgrows := @grows_recorded s m recordIds receipt s.authorizations _ s.surfaces
        s.enrollments s.holds (hself _) (hmore s.identities row) (hself _) (hself _)
      obtain ⟨authorized, identified, reconciled, enrolled⟩ := hs.kept hgrows
      exact ⟨hgrows,
        { active := hs.active
          authorizations := hs.authorizations.more
          identities := hs.identities.concat hmem hfresh
          surfaces := hs.surfaces.more
          enrollments := hs.enrollments.more
          authorized
          unique := hs.unique
          identified := forall_mem_concat identified ⟨inspection, hrow.grows hgrows⟩
          reconciled, enrolled
          held := hs.held }⟩
  | recordRepositoryCanonicalSurfaces input =>
    rcases recordRepositoryCanonicalSurfaces_eq_ok h with rfl | ⟨probe, recordIds, receipt, row,
      -, -, hfresh, hmem, hrow, -, rfl⟩
    · exact ⟨.refl _, hs⟩
    · have hgrows := @grows_recorded s m recordIds receipt s.authorizations s.identities _
        s.enrollments s.holds (hself _) (hself _) (hmore s.surfaces row) (hself _)
      obtain ⟨authorized, identified, reconciled, enrolled⟩ := hs.kept hgrows
      exact ⟨hgrows,
        { active := hs.active
          authorizations := hs.authorizations.more
          identities := hs.identities.more
          surfaces := hs.surfaces.concat hmem hfresh
          enrollments := hs.enrollments.more
          authorized
          unique := hs.unique
          identified, enrolled
          reconciled := forall_mem_concat reconciled ⟨probe, hrow.grows hgrows hs.authorized⟩
          held := hs.held }⟩
  | establishRepositoryEnrollment input =>
    rcases establishRepositoryEnrollment_eq_ok h with rfl | ⟨recordIds, receipt, row, hfresh, hmem,
      hrow, rfl⟩
    · exact ⟨.refl _, hs⟩
    · have hgrows := @grows_recorded s m recordIds receipt s.authorizations s.identities s.surfaces
        _ s.holds (hself _) (hself _) (hself _) (hmore s.enrollments row)
      obtain ⟨authorized, identified, reconciled, enrolled⟩ := hs.kept hgrows
      exact ⟨hgrows,
        { active := hs.active
          authorizations := hs.authorizations.more
          identities := hs.identities.more
          surfaces := hs.surfaces.more
          enrollments := hs.enrollments.concat hmem hfresh
          authorized
          unique := hs.unique
          identified, reconciled
          enrolled := forall_mem_concat enrolled (hrow.grows hgrows)
          held := hs.held }⟩
  | recordRepositoryOperatorHoldDecision choice input =>
    rcases recordRepositoryOperatorHoldDecision_eq_ok h with rfl | ⟨recordIds, receipt, row, hfresh,
      hvalid, rfl⟩
    · exact ⟨.refl _, hs⟩
    · have hgrows := @grows_recorded s m recordIds receipt s.authorizations s.identities s.surfaces
        s.enrollments (s.holds ++ [row]) (hself _) (hself _) (hself _) (hself _)
      obtain ⟨authorized, identified, reconciled, enrolled⟩ := hs.kept hgrows
      exact ⟨hgrows,
        { active := hs.active
          authorizations := hs.authorizations.more
          identities := hs.identities.more
          surfaces := hs.surfaces.more
          enrollments := hs.enrollments.more
          authorized
          unique := hs.unique
          identified, reconciled, enrolled
          held := forall_mem_concat hs.held hvalid }⟩

/-! ## Runs -/

section Runs

variable {t₀ : Time} {operator : String} {calls more : List (Moment × AuthorityCommand)}

/-- What a call leaves behind: what its command does, or what there was. -/
theorem step_eq (t₀ : Time) (operator : String) (s : AuthorityTables)
    (call : Moment × AuthorityCommand) :
    ((authorityControl p t₀ operator).step s call).2 = s ∨
      runAuthorityCommand p s call.1 call.2 =
        .ok ((authorityControl p t₀ operator).step s call).2 := by
  unfold authorityControl
  dsimp only
  cases runAuthorityCommand p s call.1 call.2 with
  | error e => exact Or.inl rfl
  | ok s' => exact Or.inr rfl

theorem coherent_step (hs : Coherent p s) (call : Moment × AuthorityCommand) :
    Grows s ((authorityControl p t₀ operator).step s call).2 ∧
      Coherent p ((authorityControl p t₀ operator).step s call).2 := by
  rcases step_eq t₀ operator s call with heq | hok
  · rw [heq]
    exact ⟨.refl s, hs⟩
  · exact coherent_command hs hok

/-- **After every run** the records belong together. -/
theorem coherent_run (p : Platform N) (t₀ : Time) (operator : String)
    (calls : List (Moment × AuthorityCommand)) :
    Coherent p ((authorityControl p t₀ operator).run calls) :=
  (authorityControl p t₀ operator).invariant (coherent_initial t₀ operator)
    (fun _ call hs => (coherent_step hs call).2) calls

/-- A run that goes on grows the tables. -/
theorem grows_run (p : Platform N) (t₀ : Time) (operator : String)
    (calls more : List (Moment × AuthorityCommand)) :
    Grows ((authorityControl p t₀ operator).run calls)
      ((authorityControl p t₀ operator).run (calls ++ more)) := by
  induction more using List.reverseRecOn with
  | nil =>
    rw [List.append_nil]
    exact .refl _
  | append_singleton more call ih =>
    rw [← List.append_assoc, Machine.run_concat]
    exact ih.trans (coherent_step (coherent_run p t₀ operator _) call).1

/-! ## The calls behind the records -/

/-- **A call of a run wrote a record**: its command put the record behind the others of its
table. -/
def Wrote {P : Type} (p : Platform N) (t₀ : Time) (operator : String)
    (table : AuthorityTables → List (Row P)) (calls : List (Moment × AuthorityCommand))
    (row : Row P) (command : AuthorityCommand) : Prop :=
  ∃ before m after, calls = before ++ (m, command) :: after ∧
    table ((authorityControl p t₀ operator).run (before ++ [(m, command)])) =
      table ((authorityControl p t₀ operator).run before) ++ [row]

/-- A table that every command leaves as it is or puts one record behind, has a call behind each
record. -/
theorem exists_wrote {P : Type} {table : AuthorityTables → List (Row P)}
    {kind : AuthorityCommand → Prop} (hstart : table (.initial t₀ operator) = [])
    (hstep : ∀ {s s' m command}, runAuthorityCommand p s m command = .ok s' →
      table s' = table s ∨ kind command ∧ ∃ row, table s' = table s ++ [row])
    {row : Row P} (hrow : row ∈ table ((authorityControl p t₀ operator).run calls)) :
    ∃ command, kind command ∧ Wrote p t₀ operator table calls row command := by
  induction calls using List.reverseRecOn with
  | nil =>
    have hnil : row ∈ table (.initial t₀ operator) := hrow
    rw [hstart] at hnil
    exact nomatch hnil
  | append_singleton calls call ih =>
    have hearlier : row ∈ table ((authorityControl p t₀ operator).run calls) →
        ∃ command, kind command ∧ Wrote p t₀ operator table (calls ++ [call]) row command := by
      intro hmem
      obtain ⟨command, hkind, before, m, after, hcalls, hwrote⟩ := ih hmem
      exact ⟨command, hkind, before, m, after ++ [call], by rw [hcalls]; simp, hwrote⟩
    have hrun := Machine.run_concat (authorityControl p t₀ operator) calls call
    rcases step_eq t₀ operator ((authorityControl p t₀ operator).run calls) call with heq | hok
    · rw [hrun, heq] at hrow
      exact hearlier hrow
    · rw [← hrun] at hok
      rcases hstep hok with heq | ⟨hkind, last, heq⟩
      · rw [heq] at hrow
        exact hearlier hrow
      · rw [heq] at hrow
        rcases List.mem_append.mp hrow with hrow | hrow
        · exact hearlier hrow
        · rw [List.mem_singleton.mp hrow]
          exact ⟨call.2, hkind, calls, call.1, [], rfl, heq⟩

/-- What a call wrote is still there, and what its command did with it stays true. -/
theorem Wrote.mem_run {P : Type} {table : AuthorityTables → List (Row P)} {row : Row P}
    {command : AuthorityCommand} (h : Wrote p t₀ operator table calls row command)
    {q : AuthorityTables → Prop}
    (hdid : ∀ {s s' m}, Coherent p s → runAuthorityCommand p s m command = .ok s' →
      table s' = table s ++ [row] → q s')
    (hkept : ∀ {s s'}, Coherent p s → Grows s s' → q s → q s') :
    q ((authorityControl p t₀ operator).run calls) := by
  obtain ⟨before, m, after, rfl, hwrote⟩ := h
  have hcoherent := coherent_run p t₀ operator before
  have hrun := Machine.run_concat (authorityControl p t₀ operator) before (m, command)
  have hq : q ((authorityControl p t₀ operator).run (before ++ [(m, command)])) := by
    rcases step_eq t₀ operator ((authorityControl p t₀ operator).run before) (m, command) with
      heq | hok
    · rw [hrun, heq] at hwrote
      exact absurd (List.append_right_eq_self.mp hwrote.symm) (List.cons_ne_nil _ _)
    · rw [← hrun] at hok
      exact hdid hcoherent hok hwrote
  have hgrows := grows_run p t₀ operator (before ++ [(m, command)]) after
  rw [List.append_assoc] at hgrows
  exact hkept (coherent_run p t₀ operator _) hgrows hq

end Runs

end Snowcat.Authority
