import Snowcat.Control.CoreChecks

/-!
# Core admission readiness

What `coreAdmissionReadiness` reads of the tables is a property of the whole
history of the control plane, deleted checks included: which snapshot is
active, what the newest check that read a candidate says of it, and whether
the newest validated check, or an override of the very snapshot, still
reaches the instant (`Admits`).

The tables follow the history (`FollowsHistory`): a prune deletes checks, but never
the newest of a kind that the readiness asks for, and a transaction is behind
all the others.
-/

namespace Snowcat

open Newest

/-! ## What a history says -/

/-- The automatic checks of some transactions. -/
def checksOf (h : List CoreTransaction) : List CoreSourceCheck := h.filterMap CoreTransaction.check?

/-- The overrides of some transactions. -/
def overridesOf (h : List CoreTransaction) : List CoreStaleSourceOverrideDecisionPayload :=
  h.filterMap CoreTransaction.override?

/-- The snapshot that a transaction activated. -/
def CoreTransaction.activation? (tx : CoreTransaction) : Option ActiveCoreSnapshot :=
  match tx.record with
  | .snapshotActive snapshot => some snapshot
  | _ => none

/-- The snapshots that some transactions activated. -/
def activationsOf (h : List CoreTransaction) : List ActiveCoreSnapshot :=
  h.filterMap CoreTransaction.activation?

/-- The newest check of a kind. -/
def IsNewestCheck (q : CoreSourceCheck → Bool) (h : List CoreTransaction)
    (check : CoreSourceCheck) : Prop :=
  IsNewest CoreSourceCheck.transactionSequence q (checksOf h) check

/-- The snapshot that a history leaves active. -/
def IsActive (h : List CoreTransaction) (active : ActiveCoreSnapshot) : Prop :=
  IsNewest ActiveCoreSnapshot.transactionSequence (fun _ => true) (activationsOf h) active

/-- **What a check must say of the active snapshot**: it found exactly that commit eligible, or
it blocked that commit before the commit was activated. -/
def Clears (active : ActiveCoreSnapshot) (check : CoreSourceCheck) : Prop :=
  check.commitId = some active.sourceCommitId ∧
    (check.outcome = .eligible ∨
      check.outcome = .continuityBlocked ∧ check.transactionSequence < active.transactionSequence)

/-- **What an override must say**: it is of that very snapshot, it was decided and has not
expired, and it does not last longer than a day. -/
def Overrides (active : ActiveCoreSnapshot) (t : Time)
    (decision : CoreStaleSourceOverrideDecisionPayload) : Prop :=
  decision.activeSnapshotId = active.snapshotId ∧ decision.decidedAt ≤ t ∧
    t < decision.expiresAt ∧ decision.expiresAt ≤ decision.decidedAt + dayMilliseconds

/-- **Whether a history admits work** at an instant. -/
def Admits (h : List CoreTransaction) (t : Time) : Prop :=
  ∃ active, IsActive h active ∧
    (∀ check, IsNewestCheck CoreSourceCheck.substantive h check → Clears active check) ∧
    ((∃ check, IsNewestCheck CoreSourceCheck.validated h check ∧
        t < check.checkedAt + dayMilliseconds) ∨
      ∃ decision ∈ overridesOf h, Overrides active t decision)

/-! ## Reading the tables -/

section Reading

variable {s : CoreTables} {h : List CoreTransaction} {tx : CoreTransaction}
  {check : CoreSourceCheck} {q : CoreSourceCheck → Bool}

theorem transactionSequence_of_check? (h : tx.check? = some check) :
    check.transactionSequence = tx.sequence := by
  unfold CoreTransaction.check? at h
  split at h
  · exact (Option.some.inj h) ▸ rfl
  · split at h
    · exact (Option.some.inj h) ▸ rfl
    · exact nomatch h
  · exact nomatch h

theorem mem_checksOf : check ∈ checksOf h ↔ ∃ tx ∈ h, tx.check? = some check := List.mem_filterMap

theorem mem_overridesOf {decision : CoreStaleSourceOverrideDecisionPayload} :
    decision ∈ overridesOf h ↔ ∃ tx ∈ h, tx.override? = some decision := List.mem_filterMap

/-- A check is of the transaction with its sequence. -/
theorem check?_inj (hnum : (h.map CoreTransaction.sequence).Nodup) {tx tx' : CoreTransaction}
    (htx : tx ∈ h) (htx' : tx' ∈ h) (hseq : tx.sequence = tx'.sequence) : tx = tx' :=
  List.inj_on_of_nodup_map hnum htx htx' hseq

/-- The checks are read with the newest first. -/
theorem pairwise_checks (hnum : (s.transactions.map CoreTransaction.sequence).Nodup) :
    s.checks.Pairwise fun a b => b.transactionSequence < a.transactionSequence := by
  refine List.Pairwise.filterMap _ (fun a b hab c hc d hd => ?_) (pairwise_newestFirst hnum)
  rw [transactionSequence_of_check? hc, transactionSequence_of_check? hd]
  exact hab

/-- **Reading the newest check** of a kind. -/
theorem find?_checks (hnum : (s.transactions.map CoreTransaction.sequence).Nodup) :
    s.checks.find? q = some check ↔ IsNewestCheck q s.transactions check := by
  refine (find?_of_pairwise (pairwise_checks hnum)).trans (isNewest_congr fun c => ?_)
  rw [CoreTables.checks, checksOf, List.mem_filterMap, List.mem_filterMap]
  simp only [CoreTables.rows, mem_newestFirst]

theorem mem_overrides {decision : CoreStaleSourceOverrideDecisionPayload} :
    decision ∈ s.overrides ↔ decision ∈ overridesOf s.transactions := by
  rw [CoreTables.overrides, overridesOf, List.mem_filterMap, List.mem_filterMap]
  simp only [CoreTables.rows, mem_newestFirst]

end Reading

/-! ## What one step does -/

/-- A record that does not move the active snapshot: a check of that moment, an override that
lasts a day at most, or something else. -/
def CoreRecord.IsPlain (now : Time) : CoreRecord → Prop
  | .sourceCheckEligible payload => payload.checkedAt = now
  | .candidateRejection payload => payload.observedAt = now
  | .staleSourceOverride decision => decision.expiresAt ≤ decision.decidedAt + dayMilliseconds
  | .snapshotActive _ => False
  | .other => True

theorem CoreRecord.IsPlain.activation? {now : Time} {record : CoreRecord} (h : record.IsPlain now)
    (tx : CoreTransaction) (htx : tx.record = record) : tx.activation? = none := by
  unfold CoreTransaction.activation?
  rw [htx]
  cases record with
  | snapshotActive snapshot => exact h.elim
  | sourceCheckEligible payload => rfl
  | candidateRejection payload => rfl
  | staleSourceOverride payload => rfl
  | other => rfl

theorem CoreRecord.IsPlain.override? {now : Time} {record : CoreRecord} (h : record.IsPlain now)
    (tx : CoreTransaction) (htx : tx.record = record)
    {decision : CoreStaleSourceOverrideDecisionPayload} (hd : tx.override? = some decision) :
    decision.expiresAt ≤ decision.decidedAt + dayMilliseconds := by
  unfold CoreTransaction.override? at hd
  rw [htx] at hd
  cases record with
  | staleSourceOverride payload => exact (Option.some.inj hd) ▸ h
  | sourceCheckEligible payload => exact nomatch hd
  | candidateRejection payload => exact nomatch hd
  | snapshotActive snapshot => exact nomatch hd
  | other => exact nomatch hd

/-- What a prune deletes. -/
def CoreTables.pruned (s : CoreTables) (now : Time) : List ℕ :=
  (selectCoreCheckDetailForPrune s.histories s.protectedCheckIds
    (coreCheckDetailCutoff now)).map CoreCheckHistory.sequence

theorem CoreRecord.IsPlain.checkedAt {now : Time} {record : CoreRecord} (h : record.IsPlain now)
    (tx : CoreTransaction) (htx : tx.record = record) {check : CoreSourceCheck}
    (hcheck : tx.check? = some check) : check.checkedAt = now := by
  unfold CoreTransaction.check? at hcheck
  rw [htx] at hcheck
  cases record with
  | sourceCheckEligible payload => exact (Option.some.inj hcheck) ▸ h
  | candidateRejection payload =>
    simp only at hcheck
    split_ifs at hcheck
    exact (Option.some.inj hcheck) ▸ h
  | staleSourceOverride payload => exact nomatch hcheck
  | snapshotActive snapshot => exact nomatch hcheck
  | other => exact nomatch hcheck

/-- The sequence that a move of the active snapshot was sent at. -/
def CoreIdempotencyKey.moveSequence : CoreIdempotencyKey → Option ℕ
  | .activate expected _ => some expected
  | .rollback expected _ => some expected
  | _ => none

/-- Receipts that were there before, but for a move that was sent at the last sequence. -/
def KeepsReceipts (s : CoreTables) (receipts : List CoreReceipt) : Prop :=
  ∀ receipt ∈ receipts, receipt ∈ s.receipts ∨
    ∀ n ∈ receipt.payload.idempotencyKey.moveSequence, n = s.metadata.lastTransactionSequence

theorem keepsReceipts_concat {s : CoreTables} {receipts : List CoreReceipt}
    {payload : CoreCommandPayload} {sequence : ℕ} (hsub : ∀ r ∈ receipts, r ∈ s.receipts)
    (h : ∀ n ∈ payload.idempotencyKey.moveSequence, n = s.metadata.lastTransactionSequence) :
    KeepsReceipts s (receipts ++ [⟨payload, sequence⟩]) := by
  intro receipt hreceipt
  rcases List.mem_append.mp hreceipt with hreceipt | hreceipt
  · exact Or.inl (hsub receipt hreceipt)
  · rw [List.mem_singleton.mp hreceipt]
    exact Or.inr h

/-- **What a step can do**: nothing, record a transaction, activate a snapshot with it, or delete
what a prune selects before it. -/
inductive CoreStep (s : CoreTables) (now : Time) : CoreTables → Prop where
  | same : CoreStep s now s
  | recorded (record : CoreRecord) (receipts : List CoreReceipt)
      (hnow : s.metadata.controlTimeWatermark ≤ now) (hplain : record.IsPlain now)
      (hreceipts : KeepsReceipts s receipts) :
      CoreStep s now { s.recording now record with receipts }
  | activated (snapshot : ActiveCoreSnapshot) (snapshots : List CoreCandidate)
      (receipts : List CoreReceipt) (hnow : s.metadata.controlTimeWatermark ≤ now)
      (hsequence : snapshot.transactionSequence = s.nextSequence)
      (hreceipts : KeepsReceipts s receipts) :
      CoreStep s now
        { s.recording now (.snapshotActive snapshot) with
          snapshots, receipts, active := some snapshot }
  | pruned (receipts : List CoreReceipt) (hnow : s.metadata.controlTimeWatermark ≤ now)
      (hreceipts : KeepsReceipts s receipts) :
      CoreStep s now { (s.without (s.pruned now)).recording now .other with receipts }

theorem oncePerReceipt_eq_ok {s s' : CoreTables} {payload : CoreCommandPayload}
    {different : String} {body : Except ControlError CoreTables}
    (h : oncePerReceipt s payload different body = .ok s') : s' = s ∨ body = .ok s' := by
  unfold oncePerReceipt at h
  split at h
  · simp only [except_bind_eq_ok, except_pure_eq_ok] at h
    obtain ⟨_, -, hs⟩ := h
    exact Or.inl hs.symm
  · exact Or.inr h

theorem assertSequence_eq_ok {metadata : ControlPlaneMetadata} {expected : ℕ} {u : Unit} :
    assertSequence metadata expected = .ok u ↔ metadata.lastTransactionSequence = expected := by
  rw [assertSequence, refuseIf_eq_ok, not_not]

theorem assertControlTime_eq_ok {metadata : ControlPlaneMetadata} {now : Time} {u : Unit} :
    assertControlTime metadata now = .ok u ↔ metadata.controlTimeWatermark ≤ now := by
  rw [assertControlTime, refuseIf_eq_ok, not_lt]

section Steps

variable {catalog : CoreCatalogChecks} {s s' : CoreTables} {m : Moment}

theorem coreStep_activateCoreSnapshot {input : CoreSnapshotActivationInput}
    (h : activateCoreSnapshot catalog s m input = .ok s') : CoreStep s m.now s' := by
  simp only [activateCoreSnapshot, except_bind_eq_ok] at h
  obtain ⟨_, -, _, -, _, -, h⟩ := h
  rcases oncePerReceipt_eq_ok h with rfl | h
  · exact .same
  · simp only [except_bind_eq_ok, except_pure_eq_ok, assertControlTime_eq_ok,
      assertSequence_eq_ok] at h
    obtain ⟨_, hnow, _, hsequence, _, -, snapshotId, -, rfl⟩ := h
    refine .activated _ _ _ hnow rfl (keepsReceipts_concat (fun _ hr => hr) fun n hn => ?_)
    exact (Option.some.inj hn) ▸ hsequence.symm

theorem coreStep_rollbackCoreSnapshot {input : CoreSnapshotRollbackInput}
    (h : rollbackCoreSnapshot catalog s m input = .ok s') : CoreStep s m.now s' := by
  simp only [rollbackCoreSnapshot, except_bind_eq_ok] at h
  obtain ⟨_, -, _, -, _, -, _, -, h⟩ := h
  rcases oncePerReceipt_eq_ok h with rfl | h
  · exact .same
  · simp only [except_bind_eq_ok, except_pure_eq_ok, assertControlTime_eq_ok,
      assertSequence_eq_ok] at h
    obtain ⟨_, hnow, _, hsequence, _, -, snapshotId, -, rfl⟩ := h
    refine .activated _ _ _ hnow rfl (keepsReceipts_concat (fun _ hr => hr) fun n hn => ?_)
    exact (Option.some.inj hn) ▸ hsequence.symm

theorem coreStep_recordCoreSourceCheckEligible {input : CoreSourceCheckEligibleInput}
    (h : recordCoreSourceCheckEligible catalog s m input = .ok s') : CoreStep s m.now s' := by
  simp only [recordCoreSourceCheckEligible, except_bind_eq_ok] at h
  obtain ⟨_, -, _, -, _, -, _, -, h⟩ := h
  rcases oncePerReceipt_eq_ok h with rfl | h
  · exact .same
  · simp only [except_bind_eq_ok, except_pure_eq_ok, assertControlTime_eq_ok] at h
    obtain ⟨_, -, active, -, _, hnow, _, -, _, -, rfl⟩ := h
    exact .recorded _ _ hnow rfl (keepsReceipts_concat (fun _ hr => hr) (by rintro _ ⟨⟩))

theorem coreStep_issueCoreStaleSourceOverride {input : CoreStaleSourceOverrideInput}
    (h : issueCoreStaleSourceOverride s m input = .ok s') : CoreStep s m.now s' := by
  simp only [issueCoreStaleSourceOverride, except_bind_eq_ok] at h
  obtain ⟨_, -, _, -, h⟩ := h
  rcases oncePerReceipt_eq_ok h with rfl | h
  · exact .same
  · simp only [except_bind_eq_ok, except_pure_eq_ok, assertControlTime_eq_ok, refuseIf_eq_ok,
      not_lt] at h
    obtain ⟨_, hnow, _, -, _, -, _, hday, readiness, -, fields, -, _, -, _, -, rfl⟩ := h
    exact .recorded _ _ hnow hday (keepsReceipts_concat (fun _ hr => hr) (by rintro _ ⟨⟩))

theorem coreStep_recordCoreCandidateRejection {input : CoreCandidateRejectionInput}
    (h : recordCoreCandidateRejection s m input = .ok s') : CoreStep s m.now s' := by
  simp only [recordCoreCandidateRejection, except_bind_eq_ok] at h
  obtain ⟨_, -, h⟩ := h
  rcases oncePerReceipt_eq_ok h with rfl | h
  · exact .same
  · simp only [except_bind_eq_ok, except_pure_eq_ok, assertControlTime_eq_ok] at h
    obtain ⟨_, hnow, _, -, rfl⟩ := h
    exact .recorded _ _ hnow rfl (keepsReceipts_concat (fun _ hr => hr) (by rintro _ ⟨⟩))

theorem coreStep_pruneCoreCheckDetail {expected : ℕ}
    (h : pruneCoreCheckDetail s m expected = .ok s') : CoreStep s m.now s' := by
  simp only [pruneCoreCheckDetail, except_bind_eq_ok] at h
  obtain ⟨_, -, h⟩ := h
  rcases oncePerReceipt_eq_ok h with rfl | h
  · exact .same
  · simp only [except_bind_eq_ok, except_pure_eq_ok, assertControlTime_eq_ok] at h
    obtain ⟨_, hnow, _, -, _, -, rfl⟩ := h
    refine .pruned _ hnow (keepsReceipts_concat (fun _ hr => ?_) (by rintro _ ⟨⟩))
    exact (List.mem_filter.mp hr).1

/-- **Every step is one of these.** -/
theorem coreStep_step (catalog : CoreCatalogChecks) (t₀ : Time) (s : CoreTables)
    (call : Moment × CoreCommand) :
    CoreStep s call.1.now ((coreControl catalog t₀).step s call).2 := by
  unfold coreControl
  dsimp only
  cases hrun : runCoreCommand catalog s call.1 call.2 with
  | error e => exact .same
  | ok s' =>
    obtain ⟨m, command⟩ := call
    cases command with
    | activateCoreSnapshot input => exact coreStep_activateCoreSnapshot hrun
    | rollbackCoreSnapshot input => exact coreStep_rollbackCoreSnapshot hrun
    | recordCoreSourceCheckEligible input => exact coreStep_recordCoreSourceCheckEligible hrun
    | issueCoreStaleSourceOverride input => exact coreStep_issueCoreStaleSourceOverride hrun
    | recordCoreCandidateRejection input => exact coreStep_recordCoreCandidateRejection hrun
    | pruneCoreCheckDetail expected => exact coreStep_pruneCoreCheckDetail hrun
    | other =>
      simp only [runCoreCommand, except_bind_eq_ok, except_pure_eq_ok,
        assertControlTime_eq_ok] at hrun
      obtain ⟨_, hnow, rfl⟩ := hrun
      exact .recorded _ _ hnow trivial fun receipt hr => Or.inl hr

end Steps

/-! ## A prune keeps the newest checks -/

/-- The prune and the readiness see the same check. -/
structure SameCheck (k : CoreCheckHistory) (check : CoreSourceCheck) : Prop where
  checkId : k.checkId = check.checkId
  sequence : k.sequence = check.transactionSequence
  validated : k.validated = check.validated
  substantive : k.substantive = check.substantive

section Prune

variable {s : CoreTables} {h : List CoreTransaction} {tx : CoreTransaction}
  {k : CoreCheckHistory} {check : CoreSourceCheck}

theorem substantive_outcome (stage : CoreCandidateRejectionStage) :
    decide (stage ≠ .source) = decide (stage.outcome ≠ .sourceUnavailable) := by
  cases stage <;> rfl

theorem history?_of_check? (h : tx.check? = some check) :
    ∃ k, tx.history? = some k ∧ k.automatic = true ∧ SameCheck k check := by
  unfold CoreTransaction.check? at h
  unfold CoreTransaction.history?
  cases hrecord : tx.record with
  | sourceCheckEligible payload =>
    rw [hrecord] at h
    exact ⟨_, rfl, rfl, Option.some.inj h ▸ ⟨rfl, rfl, rfl, rfl⟩⟩
  | candidateRejection payload =>
    rw [hrecord] at h
    by_cases hauto : payload.operation = .automaticSourceCheck
    · simp only [hauto, if_true] at h
      refine ⟨_, rfl, decide_eq_true hauto, Option.some.inj h ▸ ⟨rfl, rfl, rfl, ?_⟩⟩
      exact substantive_outcome payload.stage
    · simp only [hauto, if_false] at h
      exact nomatch h
  | staleSourceOverride payload => rw [hrecord] at h; exact nomatch h
  | snapshotActive snapshot => rw [hrecord] at h; exact nomatch h
  | other => rw [hrecord] at h; exact nomatch h

theorem check?_of_history? (h : tx.history? = some k) (hauto : k.automatic = true) :
    ∃ check, tx.check? = some check ∧ SameCheck k check := by
  unfold CoreTransaction.history? at h
  unfold CoreTransaction.check?
  cases hrecord : tx.record with
  | sourceCheckEligible payload =>
    rw [hrecord] at h
    exact ⟨_, rfl, Option.some.inj h ▸ ⟨rfl, rfl, rfl, rfl⟩⟩
  | candidateRejection payload =>
    rw [hrecord] at h
    obtain rfl := Option.some.inj h
    have hoperation : payload.operation = .automaticSourceCheck := of_decide_eq_true hauto
    refine ⟨_, if_pos hoperation, ⟨rfl, rfl, rfl, ?_⟩⟩
    exact substantive_outcome payload.stage
  | staleSourceOverride payload => rw [hrecord] at h; exact nomatch h
  | snapshotActive snapshot => rw [hrecord] at h; exact nomatch h
  | other => rw [hrecord] at h; exact nomatch h

theorem sequence_of_history? (h : tx.history? = some k) : k.sequence = tx.sequence := by
  unfold CoreTransaction.history? at h
  split at h
  · exact (Option.some.inj h) ▸ rfl
  · exact (Option.some.inj h) ▸ rfl
  · exact nomatch h

theorem mem_histories : k ∈ s.histories ↔ ∃ tx ∈ s.transactions, tx.history? = some k := by
  rw [CoreTables.histories, List.mem_filterMap]
  simp only [CoreTables.rows, mem_newestFirst]

/-- What a prune selects is a check that is not protected. -/
theorem mem_selectCoreCheckDetailForPrune {candidates : List CoreCheckHistory}
    {protectedCheckIds : List String} {cutoffAt : Time}
    (h : k ∈ selectCoreCheckDetailForPrune candidates protectedCheckIds cutoffAt) :
    k ∈ candidates ∧ k.checkId ∉ protectedCheckIds := by
  unfold selectCoreCheckDetailForPrune at h
  have hmem := (List.mem_filter.mp (List.mem_reverse.mp h)).1
  rw [mem_newestFirst, List.mem_filter] at hmem
  refine ⟨hmem.1, fun hprotected => ?_⟩
  have hcontains := List.contains_iff_mem.mpr hprotected
  rw [hcontains] at hmem
  exact absurd hmem.2 (by decide)

/-- A transaction is deleted only as a check that is not protected. -/
theorem mem_without_pruned (hnum : (s.transactions.map CoreTransaction.sequence).Nodup)
    {now : Time} (htx : tx ∈ s.transactions)
    (hkept : ∀ k, tx.history? = some k → k.checkId ∈ s.protectedCheckIds) :
    tx ∈ (s.without (s.pruned now)).transactions := by
  refine List.mem_filter.mpr ⟨htx, ?_⟩
  rw [Bool.not_eq_true', ← Bool.not_eq_true, List.contains_iff_mem]
  intro hdeleted
  obtain ⟨k, hk, hseq⟩ := List.mem_map.mp hdeleted
  obtain ⟨hk, hunprotected⟩ := mem_selectCoreCheckDetailForPrune hk
  obtain ⟨tx', htx', hhistory⟩ := mem_histories.mp hk
  have heq : tx' = tx := by
    refine check?_inj hnum htx' htx ?_
    rw [← sequence_of_history? hhistory, hseq]
  exact hunprotected (hkept k (heq ▸ hhistory))

/-- **The newest check of a kind is what the prune finds** among the automatic ones. -/
theorem find?_automatic (hnum : (s.transactions.map CoreTransaction.sequence).Nodup)
    {q : CoreSourceCheck → Bool} {f : CoreCheckHistory → Bool}
    (hqf : ∀ k check, SameCheck k check → f k = q check)
    (htx : tx ∈ s.transactions) (hcheck : tx.check? = some check)
    (hnewest : IsNewestCheck q s.transactions check) (hk : tx.history? = some k) :
    (s.histories.filter CoreCheckHistory.automatic).find? f = some k := by
  obtain ⟨k', hk', hauto, hsame⟩ := history?_of_check? hcheck
  obtain rfl : k' = k := Option.some.inj (hk'.symm.trans hk)
  have hpairwise : s.histories.Pairwise fun a b => b.sequence < a.sequence := by
    refine List.Pairwise.filterMap _ (fun a b hab c hc d hd => ?_) (pairwise_newestFirst hnum)
    rw [sequence_of_history? hc, sequence_of_history? hd]
    exact hab
  refine (find?_of_pairwise (hpairwise.filter _)).mpr ⟨?_, ?_, fun b hb hfb => ?_⟩
  · exact List.mem_filter.mpr ⟨mem_histories.mpr ⟨tx, htx, hk⟩, hauto⟩
  · rw [hqf k' check hsame]
    exact hnewest.holds
  · obtain ⟨hb, hbauto⟩ := List.mem_filter.mp hb
    obtain ⟨tx', htx', hhistory⟩ := mem_histories.mp hb
    obtain ⟨other, hother, hbsame⟩ := check?_of_history? hhistory hbauto
    rw [hbsame.sequence, hsame.sequence]
    refine hnewest.newest other (mem_checksOf.mpr ⟨tx', htx', hother⟩) ?_
    rw [← hqf b other hbsame]
    exact hfb

/-- The kinds of check whose newest one decides the readiness. -/
def Decides (q : CoreSourceCheck → Bool) : Prop :=
  q = CoreSourceCheck.validated ∨ q = CoreSourceCheck.substantive

/-- **A prune keeps the newest check** of each kind that decides. -/
theorem newestCheck_mem_without (hnum : (s.transactions.map CoreTransaction.sequence).Nodup)
    {q : CoreSourceCheck → Bool} (hq : Decides q) {now : Time}
    (hnewest : IsNewestCheck q s.transactions check) :
    check ∈ checksOf (s.without (s.pruned now)).transactions := by
  obtain ⟨tx, htx, hcheck⟩ := mem_checksOf.mp hnewest.mem
  refine mem_checksOf.mpr ⟨tx, mem_without_pruned hnum htx fun k hk => ?_, hcheck⟩
  refine List.mem_append_left _ (List.mem_map.mpr ⟨k, ?_, rfl⟩)
  rcases hq with rfl | rfl
  · have hfind := find?_automatic hnum (fun _ _ hsame => hsame.validated) htx hcheck hnewest hk
    rw [hfind]
    exact List.mem_append_left _ (List.mem_append_right _ (List.mem_singleton_self k))
  · have hfind := find?_automatic hnum (fun _ _ hsame => hsame.substantive) htx hcheck hnewest hk
    rw [hfind]
    exact List.mem_append_right _ (List.mem_singleton_self k)

end Prune

/-! ## The tables follow the history -/

/-- **The tables follow a history**: they keep a part of it that has the newest check of each kind
that decides, every override, and the snapshot it leaves active. -/
structure FollowsHistory (h : List CoreTransaction) (s : CoreTables) : Prop where
  sublist : s.transactions.Sublist h
  numbered : (h.map CoreTransaction.sequence).Nodup
  le_last : ∀ tx ∈ h, tx.sequence ≤ s.metadata.lastTransactionSequence
  keeps : ∀ q, Decides q → ∀ check, IsNewestCheck q h check → check ∈ checksOf s.transactions
  overrides : ∀ decision ∈ overridesOf h, decision ∈ overridesOf s.transactions
  active : ∀ active, s.active = some active ↔ IsActive h active
  activated : ∀ active ∈ activationsOf h,
    active.transactionSequence ≤ s.metadata.lastTransactionSequence
  short : ∀ decision ∈ overridesOf h,
    decision.expiresAt ≤ decision.decidedAt + dayMilliseconds

section Following

variable {s s' : CoreTables} {h : List CoreTransaction} {tx : CoreTransaction}

theorem FollowsHistory.distinct (hf : FollowsHistory h s) :
    (s.transactions.map CoreTransaction.sequence).Nodup :=
  (hf.sublist.map _).nodup hf.numbered

/-- The checks of the tables are checks of the history, with the same newest ones. -/
theorem FollowsHistory.isNewestCheck_iff (hf : FollowsHistory h s) {q : CoreSourceCheck → Bool}
    (hq : Decides q) {check : CoreSourceCheck} :
    IsNewestCheck q s.transactions check ↔ IsNewestCheck q h check :=
  isNewest_of_keeps (fun _ hb => (hf.sublist.filterMap _).subset hb) (hf.keeps q hq)

theorem FollowsHistory.mem_overridesOf_iff (hf : FollowsHistory h s)
    {decision : CoreStaleSourceOverrideDecisionPayload} :
    decision ∈ overridesOf s.transactions ↔ decision ∈ overridesOf h :=
  ⟨fun hd => (hf.sublist.filterMap _).subset hd, hf.overrides decision⟩

theorem not_decides_of_override {decision : CoreStaleSourceOverrideDecisionPayload}
    (h : tx.override? = some decision) : tx.history? = none := by
  unfold CoreTransaction.override? at h
  unfold CoreTransaction.history?
  cases hrecord : tx.record with
  | staleSourceOverride payload => rfl
  | sourceCheckEligible payload => rw [hrecord] at h; exact nomatch h
  | candidateRejection payload => rw [hrecord] at h; exact nomatch h
  | snapshotActive snapshot => rfl
  | other => rfl

/-- The history is still followed once a prune has deleted what it selects. -/
theorem FollowsHistory.without (hf : FollowsHistory h s) (now : Time) :
    FollowsHistory h (s.without (s.pruned now)) where
  sublist := List.filter_sublist.trans hf.sublist
  numbered := hf.numbered
  le_last := hf.le_last
  keeps := fun _ hq _ hcheck =>
    newestCheck_mem_without hf.distinct hq ((hf.isNewestCheck_iff hq).mpr hcheck)
  overrides := fun decision hd => by
    obtain ⟨tx, htx, hoverride⟩ := mem_overridesOf.mp (hf.overrides decision hd)
    refine mem_overridesOf.mpr ⟨tx, mem_without_pruned hf.distinct htx fun k hk => ?_, hoverride⟩
    rw [not_decides_of_override hoverride] at hk
    exact nomatch hk
  active := hf.active
  activated := hf.activated
  short := hf.short

theorem checksOf_concat : checksOf (h ++ [tx]) = checksOf h ++ tx.check?.toList := by
  rw [checksOf, List.filterMap_append]
  cases hcheck : tx.check? with
  | none => rw [List.filterMap_cons_none hcheck]; rfl
  | some check => rw [List.filterMap_cons_some hcheck]; rfl

theorem overridesOf_concat : overridesOf (h ++ [tx]) = overridesOf h ++ tx.override?.toList := by
  rw [overridesOf, List.filterMap_append]
  cases hoverride : tx.override? with
  | none => rw [List.filterMap_cons_none hoverride]; rfl
  | some decision => rw [List.filterMap_cons_some hoverride]; rfl

theorem activationsOf_concat :
    activationsOf (h ++ [tx]) = activationsOf h ++ tx.activation?.toList := by
  rw [activationsOf, List.filterMap_append]
  cases hactivation : tx.activation? with
  | none => rw [List.filterMap_cons_none hactivation]; rfl
  | some active => rw [List.filterMap_cons_some hactivation]; rfl

/-- A check behind the history is of none of the sequences before. -/
theorem FollowsHistory.check_lt (hf : FollowsHistory h s) (htx : tx.sequence = s.nextSequence)
    {check : CoreSourceCheck} (hcheck : tx.check? = some check) :
    ∀ b ∈ checksOf h, b.transactionSequence < check.transactionSequence := by
  intro b hb
  obtain ⟨tx', htx', hb'⟩ := mem_checksOf.mp hb
  rw [transactionSequence_of_check? hb', transactionSequence_of_check? hcheck, htx]
  exact Nat.lt_succ_of_le (hf.le_last tx' htx')

/-- Which check is the newest after one more transaction. -/
theorem FollowsHistory.isNewestCheck_concat (hf : FollowsHistory h s) (htx : tx.sequence = s.nextSequence)
    {q : CoreSourceCheck → Bool} {check : CoreSourceCheck} :
    IsNewestCheck q (h ++ [tx]) check ↔
      if tx.check?.any q = true then tx.check? = some check else IsNewestCheck q h check := by
  rw [IsNewestCheck, checksOf_concat]
  cases hcheck : tx.check? with
  | none => simp only [Option.toList_none, List.append_nil, Option.any_none, IsNewestCheck]; simp
  | some other =>
    rw [Option.toList_some, isNewest_concat (hf.check_lt htx hcheck)]
    simp only [Option.any_some, Option.some.injEq, IsNewestCheck, eq_comm]

/-- **One more transaction** behind the history. -/
theorem FollowsHistory.record (hf : FollowsHistory h s) (htx : tx.sequence = s.nextSequence)
    (htransactions : s'.transactions = s.transactions ++ [tx])
    (hlast : s'.metadata.lastTransactionSequence = s.nextSequence)
    (hactive : ∀ active, s'.active = some active ↔ IsActive (h ++ [tx]) active)
    (hactivated : ∀ active, tx.activation? = some active →
      active.transactionSequence = s.nextSequence)
    (hshort : ∀ decision, tx.override? = some decision →
      decision.expiresAt ≤ decision.decidedAt + dayMilliseconds) :
    FollowsHistory (h ++ [tx]) s' where
  sublist := by
    rw [htransactions]
    exact hf.sublist.append (List.Sublist.refl _)
  numbered := by
    rw [List.map_append, List.map_singleton]
    refine List.Nodup.append hf.numbered (List.nodup_singleton _) ?_
    rw [List.disjoint_singleton, htx]
    intro hmem
    obtain ⟨tx', htx', hseq⟩ := List.mem_map.mp hmem
    exact absurd (hf.le_last tx' htx') (hseq ▸ Nat.not_succ_le_self _)
  le_last := by
    intro tx' htx'
    rw [hlast]
    rcases List.mem_append.mp htx' with htx' | htx'
    · exact le_trans (hf.le_last tx' htx') (Nat.le_succ _)
    · rw [List.mem_singleton.mp htx', htx]
  keeps := by
    intro q hq check hcheck
    rw [htransactions, checksOf_concat]
    rw [hf.isNewestCheck_concat htx] at hcheck
    by_cases hany : tx.check?.any q = true
    · rw [if_pos hany] at hcheck
      rw [hcheck]
      exact List.mem_append_right _ (List.mem_singleton_self check)
    · rw [if_neg hany] at hcheck
      exact List.mem_append_left _ (hf.keeps q hq check hcheck)
  overrides := by
    intro decision hd
    rw [overridesOf_concat] at hd
    rw [htransactions, overridesOf_concat]
    rcases List.mem_append.mp hd with hd | hd
    · exact List.mem_append_left _ (hf.overrides decision hd)
    · exact List.mem_append_right _ hd
  active := hactive
  activated := by
    intro active ha
    rw [hlast]
    rw [activationsOf_concat] at ha
    rcases List.mem_append.mp ha with ha | ha
    · exact le_trans (hf.activated active ha) (Nat.le_succ _)
    · rw [hactivated active (Option.mem_toList.mp ha)]
  short := by
    intro decision hd
    rw [overridesOf_concat] at hd
    rcases List.mem_append.mp hd with hd | hd
    · exact hf.short decision hd
    · exact hshort decision (Option.mem_toList.mp hd)

/-- A record that is no activation leaves the snapshot active. -/
theorem isActive_concat_of_none (h : List CoreTransaction) (hnone : tx.activation? = none)
    {active : ActiveCoreSnapshot} : IsActive (h ++ [tx]) active ↔ IsActive h active := by
  rw [IsActive, activationsOf_concat, hnone, Option.toList_none, List.append_nil]
  rfl

end Following

/-! ## The history of a run -/

/-- The transaction that a step recorded. -/
def recordedBy (e : Machine.Entry CoreTables (Moment × CoreCommand) (Except ControlError Unit)) :
    List CoreTransaction :=
  if e.before.metadata.lastTransactionSequence < e.next.metadata.lastTransactionSequence then
    e.next.transactions.getLast?.toList
  else []

/-- **Every transaction of a run**, the deleted ones included. -/
def coreHistory (catalog : CoreCatalogChecks) (initializedAt : Time)
    (calls : List (Moment × CoreCommand)) : List CoreTransaction :=
  (CoreTables.initial initializedAt).transactions ++
    ((coreControl catalog initializedAt).trace calls).flatMap recordedBy

section Runs

variable {catalog : CoreCatalogChecks} {t₀ : Time} {calls : List (Moment × CoreCommand)}
  {h : List CoreTransaction} {s s' : CoreTables}

theorem coreHistory_concat (call : Moment × CoreCommand) :
    coreHistory catalog t₀ (calls ++ [call]) = coreHistory catalog t₀ calls ++
      recordedBy ((coreControl catalog t₀).entry ((coreControl catalog t₀).run calls) call) := by
  rw [coreHistory, Machine.trace_concat, List.flatMap_append, ← List.append_assoc]
  simp only [List.flatMap_singleton, coreHistory]

theorem follows_initial (t₀ : Time) :
    FollowsHistory (CoreTables.initial t₀).transactions (.initial t₀) where
  sublist := List.Sublist.refl _
  numbered := List.nodup_singleton _
  le_last := fun tx htx => by rw [List.mem_singleton.mp htx]; exact le_rfl
  keeps := fun _ _ check hcheck => hcheck.mem
  overrides := fun _ hd => hd
  active := fun active => ⟨nofun, fun ha => absurd ha.mem List.not_mem_nil⟩
  activated := fun active ha => absurd ha List.not_mem_nil
  short := fun decision hd => absurd hd List.not_mem_nil

/-- What a step recorded, when it records a transaction at all. -/
theorem recordedBy_of_concat
    {e : Machine.Entry CoreTables (Moment × CoreCommand) (Except ControlError Unit)}
    {kept : List CoreTransaction} {tx : CoreTransaction}
    (hnext : e.next.transactions = kept ++ [tx])
    (hlast : e.next.metadata.lastTransactionSequence = e.before.nextSequence) :
    recordedBy e = [tx] := by
  have hlt : e.before.metadata.lastTransactionSequence < e.next.metadata.lastTransactionSequence :=
    hlast ▸ Nat.lt_succ_self _
  rw [recordedBy, if_pos hlt, hnext, List.getLast?_append, List.getLast?_singleton]
  rfl

/-- **One step** of the tables and of the history. -/
theorem FollowsHistory.step (hf : FollowsHistory h s) (call : Moment × CoreCommand) :
    FollowsHistory (h ++ recordedBy ((coreControl catalog t₀).entry s call))
      ((coreControl catalog t₀).step s call).2 := by
  have hrecorded : ∀ {kept : List CoreTransaction} {tx : CoreTransaction} {s' : CoreTables},
      ((coreControl catalog t₀).step s call).2 = s' → s'.transactions = kept ++ [tx] →
      s'.metadata.lastTransactionSequence = s.nextSequence →
      recordedBy ((coreControl catalog t₀).entry s call) = [tx] := by
    rintro kept tx s' rfl hkept hlast
    exact recordedBy_of_concat hkept hlast
  have hstep := coreStep_step catalog t₀ s call
  generalize hs' : ((coreControl catalog t₀).step s call).2 = s' at hstep
  cases hstep with
  | same =>
    have hnone : recordedBy ((coreControl catalog t₀).entry s call) = [] := by
      refine if_neg ?_
      show ¬ s.metadata.lastTransactionSequence <
        ((coreControl catalog t₀).step s call).2.metadata.lastTransactionSequence
      rw [hs']
      exact lt_irrefl _
    rw [hnone, List.append_nil]
    exact hf
  | recorded record receipts hnow hplain _ =>
    rw [hrecorded hs' rfl rfl]
    refine hf.record rfl rfl rfl (fun active => ?_) (fun active ha => ?_) fun decision hd => ?_
    · have hnone := hplain.activation? ⟨s.nextSequence, call.1.now, record⟩ rfl
      exact (hf.active active).trans (isActive_concat_of_none h hnone).symm
    · rw [hplain.activation? ⟨s.nextSequence, call.1.now, record⟩ rfl] at ha
      exact nomatch ha
    · exact hplain.override? ⟨s.nextSequence, call.1.now, record⟩ rfl hd
  | activated snapshot snapshots receipts hnow hsequence _ =>
    rw [hrecorded hs' rfl rfl]
    refine hf.record rfl rfl rfl (fun active => ?_) (fun active ha => ?_)
      fun decision hd => nomatch hd
    · rw [IsActive, activationsOf_concat]
      refine Iff.trans ?_ (isNewest_concat fun b hb => ?_).symm
      · rw [if_pos rfl, Option.some.injEq, eq_comm]
      · rw [hsequence]
        exact Nat.lt_succ_of_le (hf.activated b hb)
    · exact (Option.some.inj ha) ▸ hsequence
  | pruned receipts hnow _ =>
    rw [hrecorded hs' rfl rfl]
    refine (hf.without call.1.now).record rfl rfl rfl (fun active => ?_)
      (fun active ha => nomatch ha) fun decision hd => nomatch hd
    exact (hf.active active).trans (isActive_concat_of_none h rfl).symm

/-- **The tables of a run follow its history.** -/
theorem follows_run (catalog : CoreCatalogChecks) (t₀ : Time)
    (calls : List (Moment × CoreCommand)) :
    FollowsHistory (coreHistory catalog t₀ calls) ((coreControl catalog t₀).run calls) := by
  induction calls using List.reverseRecOn with
  | nil => exact follows_initial t₀
  | append_singleton calls call ih =>
    rw [coreHistory_concat, Machine.run_concat]
    exact ih.step call

end Runs

/-! ## What the readiness says -/

section Readiness

variable {s : CoreTables} {h : List CoreTransaction} {t : Time} {active : ActiveCoreSnapshot}

theorem substantiveReason_ne_sourceStale (check : Option CoreSourceCheck) :
    substantiveReason active check ≠ .sourceStale := by
  unfold substantiveReason
  split
  · exact nofun
  · split
    · split_ifs <;> exact nofun
    · exact nofun
    · exact nofun
    · split_ifs <;> exact nofun
    · exact nofun

/-- The newest check that read a candidate has nothing against the snapshot when it clears it. -/
theorem substantiveReason_eq_ready_iff {check : Option CoreSourceCheck}
    (hsubstantive : ∀ c ∈ check, c.substantive = true) :
    substantiveReason active check = .ready ↔ ∀ c ∈ check, Clears active c := by
  cases check with
  | none => exact ⟨fun _ => nofun, fun _ => rfl⟩
  | some c =>
    have hread : c.outcome ≠ .sourceUnavailable := of_decide_eq_true (hsubstantive c rfl)
    simp only [Option.mem_def, Option.some.injEq, forall_eq', Clears, substantiveReason]
    cases hout : c.outcome <;> simp_all

/-- When the reason is that all is well, and when that the source is stale. -/
theorem readinessReason_eq_iff {check : Option CoreSourceCheck} {staleAt : Option Time}
    (hsubstantive : ∀ c ∈ check, c.substantive = true) :
    (readinessReason s.active check staleAt t = .ready ↔
      ∃ active, s.active = some active ∧ (∀ c ∈ check, Clears active c) ∧
        ∃ staleAt' ∈ staleAt, t < staleAt') ∧
    (readinessReason s.active check staleAt t = .sourceStale ↔
      ∃ active, s.active = some active ∧ (∀ c ∈ check, Clears active c) ∧
        ∀ staleAt' ∈ staleAt, staleAt' ≤ t) := by
  cases hactive : s.active with
  | none => simp [readinessReason]
  | some active =>
    have hclears : substantiveReason active check = .ready ↔ ∀ c ∈ check, Clears active c :=
      substantiveReason_eq_ready_iff hsubstantive
    have hnot : substantiveReason active check ≠ .sourceStale :=
      substantiveReason_ne_sourceStale check
    simp only [readinessReason, Option.some.injEq, exists_eq_left']
    rw [← hclears]
    by_cases hready : substantiveReason active check = .ready
    · by_cases hstale : ∀ staleAt' ∈ staleAt, staleAt' ≤ t
      · rw [if_pos ⟨hready, hstale⟩]
        simp only [hready, reduceCtorEq, true_and, false_iff, true_iff, not_exists, not_and, not_lt]
        exact ⟨hstale, hstale⟩
      · rw [if_neg fun hboth => hstale hboth.2]
        simp only [hready, true_and, true_iff, reduceCtorEq, hstale]
        push Not at hstale
        exact ⟨hstale, trivial⟩
    · rw [if_neg fun hboth => hready hboth.1]
      simp only [hready, hnot, false_and, and_self]

/-- The reason that the tables give at an instant. -/
def CoreTables.reasonAt (s : CoreTables) (t : Time) : CoreAdmissionReadinessReason :=
  readinessReason s.active (s.checks.find? CoreSourceCheck.substantive)
    ((s.checks.find? CoreSourceCheck.validated).map fun check =>
      check.checkedAt + dayMilliseconds) t

/-- What the readiness without an override says. -/
theorem coreAdmissionReadinessWithoutOverride_eq_ok
    (ht : s.metadata.controlTimeWatermark ≤ t) :
    ∃ r, coreAdmissionReadinessWithoutOverride s t = .ok r ∧
      r.reason = s.reasonAt t ∧ (r.ready = true ↔ r.reason = .ready) ∧
      r.activeSnapshotId = s.active.map ActiveCoreSnapshot.snapshotId := by
  unfold coreAdmissionReadinessWithoutOverride refuseIf
  rw [if_neg (not_lt.mpr ht)]
  exact ⟨_, rfl, rfl, decide_eq_true_iff, rfl⟩

/-- What the overrides make of a readiness. -/
def overridden (s : CoreTables) (t : Time) (r₀ : CoreAdmissionReadiness) :
    Except ControlError CoreAdmissionReadiness :=
  match r₀.reason, r₀.activeSnapshotId with
  | .sourceStale, some snapshotId =>
    match s.overrides.find? fun payload => payload.permits snapshotId t with
    | some payload =>
      .ok
        { r₀ with
          ready := true
          reason := .ready
          overrideDecisionId := some payload.decisionId
          overrideExpiresAt := some payload.expiresAt
          degraded := true }
    | none => .ok r₀
  | _, _ => .ok r₀

/-- **What the readiness says**, with the overrides. -/
theorem coreAdmissionReadiness_eq_ok (ht : s.metadata.controlTimeWatermark ≤ t) :
    ∃ r r₀, coreAdmissionReadiness s t = .ok r ∧
      coreAdmissionReadinessWithoutOverride s t = .ok r₀ ∧
      (r₀.reason ≠ .sourceStale → r = r₀) ∧
      (r.ready = true ↔ s.reasonAt t = .ready ∨
        s.reasonAt t = .sourceStale ∧ ∃ active, s.active = some active ∧
          ∃ decision ∈ s.overrides, decision.permits active.snapshotId t = true) ∧
      r.reason = if r.ready = true then .ready else s.reasonAt t := by
  have hsame : ∀ r₀ : CoreAdmissionReadiness, (r₀.ready = true ↔ r₀.reason = .ready) →
      r₀.reason = s.reasonAt t → r₀.reason = if r₀.ready = true then .ready else s.reasonAt t := by
    intro r₀ hready hreason
    by_cases hr : r₀.ready = true
    · rw [if_pos hr]
      exact hready.mp hr
    · rw [if_neg hr]
      exact hreason
  obtain ⟨r₀, hr₀, hreason, hready, hactive⟩ := coreAdmissionReadinessWithoutOverride_eq_ok ht
  have heq : coreAdmissionReadiness s t = overridden s t r₀ := by
    unfold coreAdmissionReadiness
    rw [hr₀]
    rfl
  by_cases hstale : r₀.reason = .sourceStale
  · cases hsnapshot : s.active with
    | none =>
      rw [hreason] at hstale
      simp [CoreTables.reasonAt, readinessReason, hsnapshot] at hstale
    | some active =>
      rw [hsnapshot, Option.map_some] at hactive
      unfold overridden at heq
      rw [hstale, hactive] at heq
      have hstale' := hreason.symm.trans hstale
      simp only [hstale', reduceCtorEq, false_or, true_and, Option.some.injEq, exists_eq_left']
      cases hfind : s.overrides.find? fun payload => payload.permits active.snapshotId t with
      | some payload =>
        simp only [hfind] at heq
        refine ⟨_, r₀, heq, hr₀, fun hne => absurd hstale hne, ⟨fun _ => ?_, fun _ => rfl⟩, rfl⟩
        have hpermits := List.find?_some hfind
        exact ⟨payload, List.mem_of_find?_eq_some hfind, hpermits⟩
      | none =>
        simp only [hfind] at heq
        refine ⟨r₀, r₀, heq, hr₀, fun _ => rfl,
          ⟨fun hr => ?_, ?_⟩, hstale' ▸ hsame r₀ hready hreason⟩
        · rw [hready, hstale] at hr
          cases hr
        · rintro ⟨payload, hmem, hpermits⟩
          exact absurd hpermits (List.find?_eq_none.mp hfind payload hmem)
  · refine ⟨r₀, r₀, ?_, hr₀, fun _ => rfl, ?_, hsame r₀ hready hreason⟩
    · rw [heq, overridden]
      split
      · exact absurd (by assumption) hstale
      · rfl
    · rw [hready, hreason]
      rw [hreason] at hstale
      simp only [hstale, false_and, or_false]

/-- **The readiness of tables that follow a history** is what the history admits. -/
theorem FollowsHistory.ready_iff (hf : FollowsHistory h s) :
    (s.reasonAt t = .ready ∨ s.reasonAt t = .sourceStale ∧ ∃ active, s.active = some active ∧
        ∃ decision ∈ s.overrides, decision.permits active.snapshotId t = true) ↔ Admits h t := by
  have hread : ∀ c ∈ s.checks.find? CoreSourceCheck.substantive, c.substantive = true :=
    fun c hc => List.find?_some hc
  obtain ⟨hready, hstale⟩ := @readinessReason_eq_iff s t _
    ((s.checks.find? CoreSourceCheck.validated).map fun check =>
      check.checkedAt + dayMilliseconds) hread
  have hclears : ∀ active, (∀ c ∈ s.checks.find? CoreSourceCheck.substantive, Clears active c) ↔
      ∀ c, IsNewestCheck CoreSourceCheck.substantive h c → Clears active c := by
    intro active
    refine forall_congr' fun c => ?_
    rw [Option.mem_def, find?_checks hf.distinct, hf.isNewestCheck_iff (Or.inr rfl)]
  have hfresh : (∃ staleAt' ∈ (s.checks.find? CoreSourceCheck.validated).map fun check =>
        check.checkedAt + dayMilliseconds, t < staleAt') ↔
      ∃ c, IsNewestCheck CoreSourceCheck.validated h c ∧ t < c.checkedAt + dayMilliseconds := by
    simp only [Option.mem_def, Option.map_eq_some_iff, find?_checks hf.distinct,
      hf.isNewestCheck_iff (Or.inl rfl)]
    constructor
    · rintro ⟨_, ⟨c, hc, rfl⟩, ht⟩
      exact ⟨c, hc, ht⟩
    · rintro ⟨c, hc, ht⟩
      exact ⟨_, ⟨c, hc, rfl⟩, ht⟩
  have hpermits : ∀ active : ActiveCoreSnapshot,
      (∃ decision ∈ s.overrides, decision.permits active.snapshotId t = true) ↔
        ∃ decision ∈ overridesOf h, Overrides active t decision := by
    intro active
    refine exists_congr fun decision => ?_
    rw [mem_overrides, hf.mem_overridesOf_iff]
    refine and_congr_right fun hd => ?_
    simp only [CoreStaleSourceOverrideDecisionPayload.permits, Overrides, Bool.and_eq_true,
      decide_eq_true_eq, and_assoc, hf.short decision hd, and_true]
  rw [CoreTables.reasonAt, hready, hstale]
  constructor
  · rintro (⟨active, hactive, hc, hf'⟩ | ⟨⟨active, hactive, hc, -⟩, active', hactive', hd⟩)
    · exact ⟨active, (hf.active active).mp hactive, (hclears active).mp hc,
        Or.inl (hfresh.mp hf')⟩
    · obtain rfl : active = active' := Option.some.inj (hactive.symm.trans hactive')
      exact ⟨active, (hf.active active).mp hactive, (hclears active).mp hc,
        Or.inr ((hpermits active).mp hd)⟩
  · rintro ⟨active, hactive, hc, hreach⟩
    have hactive := (hf.active active).mpr hactive
    have hc := (hclears active).mpr hc
    by_cases hnow : ∃ staleAt' ∈ (s.checks.find? CoreSourceCheck.validated).map fun check =>
        check.checkedAt + dayMilliseconds, t < staleAt'
    · exact Or.inl ⟨active, hactive, hc, hnow⟩
    · have hd := hreach.resolve_left fun hfresh' => hnow (hfresh.mpr hfresh')
      refine Or.inr ⟨⟨active, hactive, hc, fun staleAt' hstaleAt => ?_⟩, active, hactive,
        (hpermits active).mpr hd⟩
      exact not_lt.mp fun hlt => hnow ⟨staleAt', hstaleAt, hlt⟩

end Readiness

/-! ## A check that read no candidate -/

section Unavailable

variable {catalog : CoreCatalogChecks} {t₀ : Time} {h : List CoreTransaction} {t : Time}

/-- A transaction that decides nothing. -/
structure CoreTransaction.Silent (tx : CoreTransaction) : Prop where
  check : ∀ q, Decides q → tx.check?.any q = false
  override : tx.override? = none
  activation : tx.activation? = none

theorem silent_of_source {sequence : ℕ} {now : Time} {input : CoreCandidateRejectionInput}
    (hstage : input.stage = .source) :
    CoreTransaction.Silent ⟨sequence, now, .candidateRejection ⟨input, now⟩⟩ where
  check := by
    intro q hq
    simp only [CoreTransaction.check?]
    split_ifs
    · rcases hq with rfl | rfl <;>
        simp [CoreSourceCheck.substantive, hstage, CoreCandidateRejectionStage.outcome,
          CoreCandidateRejectionStage.validated]
    · rfl
  override := rfl
  activation := rfl

/-- A transaction that decides nothing admits nothing. -/
theorem admits_concat_iff {s : CoreTables} {tx : CoreTransaction} (hf : FollowsHistory h s)
    (htx : tx.sequence = s.nextSequence) (hsilent : tx.Silent) :
    Admits (h ++ [tx]) t ↔ Admits h t := by
  have hcheck : ∀ q, Decides q → ∀ c, IsNewestCheck q (h ++ [tx]) c ↔ IsNewestCheck q h c := by
    intro q hq c
    rw [hf.isNewestCheck_concat htx, hsilent.check q hq]
    exact Iff.rfl
  have hoverrides : overridesOf (h ++ [tx]) = overridesOf h := by
    rw [overridesOf_concat, hsilent.override, Option.toList_none, List.append_nil]
  simp only [Admits, isActive_concat_of_none h hsilent.activation, hcheck _ (Or.inl rfl),
    hcheck _ (Or.inr rfl), hoverrides]

/-- What recording a rejection does. -/
theorem recordCoreCandidateRejection_eq_ok {s s' : CoreTables} {m : Moment}
    {input : CoreCandidateRejectionInput}
    (h : recordCoreCandidateRejection s m input = .ok s') :
    s' = s ∨ s.metadata.controlTimeWatermark ≤ m.now ∧
      s' = s.recorded m.now (.recordCandidateRejection input) (.candidateRejection ⟨input, m.now⟩) := by
  simp only [recordCoreCandidateRejection, except_bind_eq_ok] at h
  obtain ⟨_, -, h⟩ := h
  rcases oncePerReceipt_eq_ok h with rfl | h
  · exact Or.inl rfl
  · simp only [except_bind_eq_ok, except_pure_eq_ok, assertControlTime_eq_ok] at h
    obtain ⟨_, hnow, _, -, rfl⟩ := h
    exact Or.inr ⟨hnow, rfl⟩

/-- The step of a rejection. -/
theorem step_recordCoreCandidateRejection (catalog : CoreCatalogChecks) (t₀ : Time)
    (s : CoreTables) (m : Moment) (input : CoreCandidateRejectionInput) :
    ((coreControl catalog t₀).step s (m, .recordCoreCandidateRejection input)).2 = s ∨
      s.metadata.controlTimeWatermark ≤ m.now ∧
        ((coreControl catalog t₀).step s (m, .recordCoreCandidateRejection input)).2 =
          s.recorded m.now (.recordCandidateRejection input)
            (.candidateRejection ⟨input, m.now⟩) := by
  unfold coreControl runCoreCommand
  dsimp only
  cases hrun : recordCoreCandidateRejection s m input with
  | error e => exact Or.inl rfl
  | ok s' => exact recordCoreCandidateRejection_eq_ok hrun

/-- **A check that read no candidate** changes nothing that the history admits. -/
theorem admits_recorded_source_iff (calls : List (Moment × CoreCommand)) (m : Moment)
    {input : CoreCandidateRejectionInput} (hstage : input.stage = .source) :
    Admits (coreHistory catalog t₀ (calls ++ [(m, .recordCoreCandidateRejection input)])) t ↔
      Admits (coreHistory catalog t₀ calls) t := by
  rw [coreHistory_concat]
  rcases step_recordCoreCandidateRejection catalog t₀ ((coreControl catalog t₀).run calls) m input
    with hsame | ⟨-, hrecorded⟩
  · have hnone : recordedBy ((coreControl catalog t₀).entry ((coreControl catalog t₀).run calls)
        (m, .recordCoreCandidateRejection input)) = [] := by
      refine if_neg ?_
      simp only [Machine.entry, hsame]
      exact lt_irrefl _
    rw [hnone, List.append_nil]
  · rw [recordedBy_of_concat
      (e := (coreControl catalog t₀).entry ((coreControl catalog t₀).run calls)
        (m, .recordCoreCandidateRejection input))
      (congrArg CoreTables.transactions hrecorded)
      (congrArg (fun s => s.metadata.lastTransactionSequence) hrecorded)]
    exact admits_concat_iff (follows_run catalog t₀ calls) rfl (silent_of_source hstage)

end Unavailable

/-! ## The readiness of a run -/

/-- **Admission readiness is what the history admits**, at every instant from the watermark on.
An override changes nothing but a stale source, and recording a check that read no candidate
makes nothing ready. -/
theorem coreAdmissionReadiness_run (catalog : CoreCatalogChecks) (t₀ : Time)
    (calls : List (Moment × CoreCommand)) (t : Time)
    (ht : ((coreControl catalog t₀).run calls).metadata.controlTimeWatermark ≤ t) :
    ∃ r r₀, coreAdmissionReadiness ((coreControl catalog t₀).run calls) t = .ok r ∧
      coreAdmissionReadinessWithoutOverride ((coreControl catalog t₀).run calls) t = .ok r₀ ∧
      (r.ready = true ↔ Admits (coreHistory catalog t₀ calls) t) ∧
      (r₀.reason ≠ .sourceStale → r = r₀) ∧
      ∀ (m : Moment) (input : CoreCandidateRejectionInput), input.stage = .source →
        ∀ r', coreAdmissionReadiness ((coreControl catalog t₀).run
            (calls ++ [(m, .recordCoreCandidateRejection input)])) t = .ok r' →
          r'.ready = true → r.ready = true := by
  have hready : ∀ {calls : List (Moment × CoreCommand)},
      ((coreControl catalog t₀).run calls).metadata.controlTimeWatermark ≤ t →
      ∃ r r₀, coreAdmissionReadiness ((coreControl catalog t₀).run calls) t = .ok r ∧
        coreAdmissionReadinessWithoutOverride ((coreControl catalog t₀).run calls) t = .ok r₀ ∧
        (r₀.reason ≠ .sourceStale → r = r₀) ∧
        (r.ready = true ↔ Admits (coreHistory catalog t₀ calls) t) := by
    intro calls ht
    obtain ⟨r, r₀, hr, hr₀, hne, hiff, -⟩ := coreAdmissionReadiness_eq_ok ht
    exact ⟨r, r₀, hr, hr₀, hne, hiff.trans (follows_run catalog t₀ calls).ready_iff⟩
  obtain ⟨r, r₀, hr, hr₀, hne, hiff⟩ := hready ht
  refine ⟨r, r₀, hr, hr₀, hiff, hne, fun m input hstage r' hr' hready' => ?_⟩
  have ht' : ((coreControl catalog t₀).run
      (calls ++ [(m, .recordCoreCandidateRejection input)])).metadata.controlTimeWatermark ≤ t := by
    by_contra hlt
    unfold coreAdmissionReadiness coreAdmissionReadinessWithoutOverride refuseIf at hr'
    rw [if_pos (not_le.mp hlt)] at hr'
    exact nomatch hr'
  obtain ⟨r'', _, hr'', -, -, hiff'⟩ := hready ht'
  obtain rfl : r' = r'' := Except.ok.inj (hr'.symm.trans hr'')
  exact hiff.mpr ((admits_recorded_source_iff calls m hstage).mp (hiff'.mp hready'))

/-! ### A sample run -/

/-- Checks that any files pass. -/
def CoreCatalogChecks.passing : CoreCatalogChecks :=
  ⟨fun _ => .ok (), fun _ _ _ => .ok (), fun _ _ _ => .ok ()⟩

/-- A candidate of one commit. -/
def sampleCoreCandidate (digit : Char) : CoreCandidate where
  sourceUrl := "https://github.com/frostyard/core.git"
  ref := "refs/heads/main"
  commitId := String.ofList (List.replicate 40 digit)
  treeId := String.ofList (List.replicate 40 digit)
  catalogDigest := "sha256:" ++ String.ofList (List.replicate 64 digit)
  files := []

/-- A UUIDv7. -/
def sampleUuid (digit : Char) : String :=
  "00000000-0000-7000-8000-00000000000" ++ String.ofList [digit]

/-- A moment with one identifier to draw. -/
def sampleCoreMoment (now : Time) (digit : Char) : Moment := ⟨now, fun _ => sampleUuid digit⟩

/-- A snapshot is activated and found eligible; a day later its source is stale, and an override
lets it work on. -/
def sampleCoreCalls : List (Moment × CoreCommand) :=
  [(sampleCoreMoment 1 'a', .activateCoreSnapshot ⟨sampleCoreCandidate '1', 1, none⟩),
    (sampleCoreMoment 2 'b',
      .recordCoreSourceCheckEligible ⟨sampleUuid '1', sampleCoreCandidate '1', 2⟩),
    (sampleCoreMoment (2 + dayMilliseconds) 'c',
      .issueCoreStaleSourceOverride ⟨3, 3 + dayMilliseconds, "the source is down"⟩)]

theorem sampleCoreCalls_ready :
    ((coreControl .passing 0).run sampleCoreCalls).metadata.controlTimeWatermark ≤
        2 + dayMilliseconds ∧
      ((coreAdmissionReadiness ((coreControl .passing 0).run sampleCoreCalls)
        (2 + dayMilliseconds)).toOption.map fun r => (r.ready, r.degraded)) =
          some (true, true) := by
  decide +kernel

theorem coreAdmissionReadiness_run_sample :
    ∃ r r₀, coreAdmissionReadiness ((coreControl .passing 0).run sampleCoreCalls)
        (2 + dayMilliseconds) = .ok r ∧
      coreAdmissionReadinessWithoutOverride ((coreControl .passing 0).run sampleCoreCalls)
        (2 + dayMilliseconds) = .ok r₀ ∧
      (r.ready = true ↔ Admits (coreHistory .passing 0 sampleCoreCalls) (2 + dayMilliseconds)) ∧
      (r₀.reason ≠ .sourceStale → r = r₀) ∧
      ∀ (m : Moment) (input : CoreCandidateRejectionInput), input.stage = .source →
        ∀ r', coreAdmissionReadiness ((coreControl .passing 0).run
            (sampleCoreCalls ++ [(m, .recordCoreCandidateRejection input)]))
            (2 + dayMilliseconds) = .ok r' →
          r'.ready = true → r.ready = true :=
  coreAdmissionReadiness_run .passing 0 sampleCoreCalls (2 + dayMilliseconds)
    sampleCoreCalls_ready.1

end Snowcat
