import Snowcat.Lib.Intervals
import Snowcat.Lib.Machine
import Snowcat.Source.Coverage

/-!
# What the commands admit to the ledger

Each command leaves the ledger as it was or records one entry, admitted for
what stands before it: a checkpoint follows the latest one and no gap is
open, a gap opens at the end of the latest checkpoint, a repair closes the
open gap with a checkpoint that ends later. A ledger all of whose entries
were admitted so is `Lawful`, and every run of the commands leaves it
lawful (`lawful_run`).

The boundaries of a checkpoint are compared as texts, and times with years
outside `0000`–`9999` are not ordered as their texts: a checkpoint that
goes back can be recorded. The runs that give none (`SourceCall.InOrder`)
record none (`forward_run`).
-/

namespace Snowcat

open Calendar (Instant)

variable {sha256 : Sha256}

/-! ## What a transaction is admitted for -/

/-- One checkpoint continues another. -/
def Continues (previous c : GitHubSourceCheckpointPayload) : Prop :=
  c.coveredFrom = previous.coveredThrough ∧ c.appId = previous.appId ∧
    c.installationId = previous.installationId ∧
    c.previousCheckpointRecordId = some previous.checkpointRecordId

/-- A checkpoint follows the latest one, or is a point when there is none. -/
def Follows : Option GitHubSourceCheckpointPayload → GitHubSourceCheckpointPayload → Prop
  | some previous, c => Continues previous c
  | none, c => c.coveredFrom = c.coveredThrough ∧ c.previousCheckpointRecordId = none

/-- A gap opens at the end of a checkpoint. -/
def OpensAt (g : GitHubSourceGapPayload) (c : GitHubSourceCheckpointPayload) : Prop :=
  g.lowerBoundAt = c.coveredThrough ∧ g.checkpointRecordId = c.checkpointRecordId ∧
    g.appId = c.appId ∧ g.installationId = c.installationId

/-- **What an entry is admitted for**, behind the entries before it. -/
def Admitted (before : List SourceTransaction) : SourceEntry → Prop
  | .direct _ _ | .audited _ _ => True
  | .checkpoint c _ => openGaps c.repositoryId before = [] ∧
      Follows (checkpointsOf c.repositoryId before).getLast? c
  | .gap g _ => openGaps g.repositoryId before = [] ∧ encodable g.detectedAt ∧
      ∃ c, (checkpointsOf g.repositoryId before).getLast? = some c ∧ OpensAt g c
  | .repair c r => c.repositoryId = r.repositoryId ∧
      ∃ g, (openGaps r.repositoryId before).getLast? = some g ∧ r.gapRecordId = g.gapRecordId ∧
        c.coveredFrom = g.lowerBoundAt ∧ g.lowerBoundAt < c.coveredThrough ∧
        c.previousCheckpointRecordId = some g.checkpointRecordId ∧ c.appId = g.appId ∧
        c.installationId = g.installationId

/-- **A ledger is lawful**: each of its entries was admitted behind those
before it, with records of its own. -/
inductive Lawful : List SourceTransaction → Prop
  | nil : Lawful []
  | snoc {ts : List SourceTransaction} {t : SourceTransaction} (h : Lawful ts)
      (hadmitted : Admitted ts t.entry)
      (hfresh : ∀ id ∈ t.entry.recordIds, id ∉ ts.flatMap (·.entry.recordIds)) :
      Lawful (ts ++ [t])

/-- A checkpoint does not end before it starts. -/
def SourceEntry.Forward : SourceEntry → Prop
  | .checkpoint c _ => c.coveredFrom ≤ c.coveredThrough
  | _ => True

/-- The boundaries of a checkpoint that are in order as texts are in order as
times. -/
def SourceCall.InOrder : SourceCall → Prop
  | .checkpoint input => ¬ input.coveredThrough.text < input.coveredFrom.text →
      input.coveredFrom ≤ input.coveredThrough
  | _ => True

instance (call : SourceCall) : Decidable call.InOrder :=
  match call with
  | .checkpoint input => inferInstanceAs (Decidable (¬ input.coveredThrough.text <
      input.coveredFrom.text → input.coveredFrom ≤ input.coveredThrough))
  | .deliver _ | .audit _ | .openGap _ | .repairGap _ | .other _ _ => isTrue trivial

/-! ## What the commands do -/

/-- **A command under a key** answers with what it has recorded before, or does
what it is for. -/
theorem returns_underKey {m : SourceMoment} {kind : SourceCommandKind} {key payloadDigest : String}
    {reused : ControlError} {body : SourceTx SourceTransaction} {db db' : SourceLedger}
    {t : SourceTransaction} :
    (underKey m kind key payloadDigest reused body).Returns db t db' ↔ m.verified = .ok () ∧
      match db.receipts.find? (fun receipt => receipt.kind = kind ∧ receipt.key = key) with
      | some prior => prior.payloadDigest = payloadDigest ∧ t = prior.result ∧ db' = db
      | none => body.Returns db t db' := by
  simp only [underKey, Tx.returns_atomically, Tx.returns_bind, Tx.returns_ofExcept,
    Tx.returns_read, and_assoc, exists_and_left, exists_eq_left]
  have hunit : ∀ P : Prop, (∃ u : Unit, m.verified = .ok u ∧ P) ↔ m.verified = .ok () ∧ P :=
    fun P => ⟨fun h => h.choose_spec, fun h => ⟨(), h⟩⟩
  rw [hunit]
  refine and_congr_right fun _ => ?_
  cases db.receipts.find? (fun receipt => receipt.kind = kind ∧ receipt.key = key) with
  | some prior =>
    simp only [Tx.returns_bind, Tx.returns_failIf, Tx.returns_pure, and_assoc, exists_and_left,
      exists_eq_left, not_not, exists_const, ne_eq]
  | none => exact Iff.rfl

/-- **What is committed stands behind the ledger**, with records of its own. -/
theorem returns_commitEntry {kind : SourceCommandKind} {key payloadDigest : String}
    {now : Instant} {entry : SourceEntry} {db db' : SourceLedger} {t : SourceTransaction} :
    (commitEntry kind key payloadDigest now entry).Returns db t db' ↔
      entry.recordIds.Nodup ∧ (∀ recordId ∈ entry.recordIds, recordId ∉ db.recordIds) ∧
      t = ⟨db.lastTransactionSequence + 1, entry⟩ ∧
      db' = { db with
        transactions := db.transactions ++ [t]
        receipts := ⟨kind, key, payloadDigest, t⟩ :: db.receipts
        lastTransactionSequence := t.sequence
        controlTimeWatermark := now } := by
  simp only [commitEntry, Tx.returns_bind, Tx.returns_read, Tx.returns_failIf, Tx.returns_update,
    Tx.returns_pure, and_assoc, exists_and_left, exists_eq_left, not_or, not_not, id, not_exists,
    not_and, exists_const]
  refine and_congr_right fun _ => and_congr_right fun _ => and_congr_right ?_
  rintro rfl
  exact Iff.rfl

theorem returns_latest {repositoryId : String} {db db' : SourceLedger}
    {latest : Option GitHubSourceCheckpointPayload} :
    (latestGitHubSourceCheckpoint repositoryId).Returns db latest db' ↔
      latest = (checkpointsOf repositoryId db.transactions).getLast? ∧
      (∀ c ∈ latest, isGitHubSourceCheckpointPayload c = true) ∧ db' = db := by
  simp only [latestGitHubSourceCheckpoint, Tx.returns_bind, Tx.returns_read, and_assoc,
    exists_and_left, exists_eq_left]
  cases (checkpointsOf repositoryId db.transactions).getLast? with
  | none =>
    simp only [Tx.returns_pure]
    exact and_congr_right fun hnone => by simp [hnone]
  | some payload =>
    simp only [Tx.returns_bind, Tx.returns_failIf, Tx.returns_pure, and_assoc, exists_and_left,
      exists_eq_left, exists_const, Bool.not_eq_false]
    constructor
    · rintro ⟨hvalid, rfl, rfl⟩
      exact ⟨rfl, by simpa using hvalid, rfl⟩
    · rintro ⟨rfl, hvalid, rfl⟩
      exact ⟨hvalid payload rfl, rfl, rfl⟩

theorem returns_openGap {repositoryId : String} {db db' : SourceLedger}
    {gap : Option GitHubSourceGapPayload} :
    (findOpenGitHubSourceGap repositoryId).Returns db gap db' ↔
      gap = (openGaps repositoryId db.transactions).getLast? ∧
      (∀ g ∈ gap, isGitHubSourceGapPayload g = true) ∧ db' = db := by
  simp only [findOpenGitHubSourceGap, Tx.returns_bind, Tx.returns_read, and_assoc,
    exists_and_left, exists_eq_left]
  cases (openGaps repositoryId db.transactions).getLast? with
  | none =>
    simp only [Tx.returns_pure]
    exact and_congr_right fun hnone => by simp [hnone]
  | some payload =>
    simp only [Tx.returns_bind, Tx.returns_failIf, Tx.returns_pure, and_assoc, exists_and_left,
      exists_eq_left, exists_const, Bool.not_eq_false]
    constructor
    · rintro ⟨hvalid, rfl, rfl⟩
      exact ⟨rfl, by simpa using hvalid, rfl⟩
    · rintro ⟨rfl, hvalid, rfl⟩
      exact ⟨hvalid payload rfl, rfl, rfl⟩

theorem returns_coverageWrite {expectedSequence : ℕ} {repositoryId : String}
    {db db' : SourceLedger} {u : Unit} :
    (assertGitHubCoverageWrite expectedSequence repositoryId).Returns db u db' ↔
      db.lastTransactionSequence = expectedSequence ∧ repositoryId ∈ db.enrolled ∧ db' = db := by
  simp only [assertGitHubCoverageWrite, Tx.returns_bind, Tx.returns_read, Tx.returns_failIf,
    and_assoc, exists_and_left, exists_eq_left, id, not_not, exists_const, ne_eq]

theorem returns_coverageTime {m : SourceMoment} {boundary : Instant} {db db' : SourceLedger}
    {u : Unit} :
    (checkedGitHubCoverageTime m boundary).Returns db u db' ↔
      ¬ m.now.text < db.controlTimeWatermark.text ∧ ¬ m.now.text < boundary.text ∧ db' = db := by
  simp only [checkedGitHubCoverageTime, Tx.returns_bind, Tx.returns_read, Tx.returns_failIf,
    and_assoc, exists_and_left, exists_eq_left, exists_const]

/-- A ledger that a command has left: as it was, or one entry longer. The
entry does not go back when the call is in order. -/
def Lengthened (ordered : Prop) (db db' : SourceLedger) : Prop :=
  (db'.transactions = db.transactions ∧
      db.lastTransactionSequence ≤ db'.lastTransactionSequence) ∨
    ∃ t, db'.transactions = db.transactions ++ [t] ∧
      t.sequence = db.lastTransactionSequence + 1 ∧
      db'.lastTransactionSequence = t.sequence ∧ Admitted db.transactions t.entry ∧
      (∀ id ∈ t.entry.recordIds, id ∉ db.transactions.flatMap (·.entry.recordIds)) ∧
      (ordered → t.entry.Forward)

/-- A command under a key records what its body commits. -/
theorem lengthened_of_underKey {ordered : Prop} {m : SourceMoment} {kind : SourceCommandKind}
    {key payloadDigest : String} {reused : ControlError} {body : SourceTx SourceTransaction}
    {db db' : SourceLedger} {t : SourceTransaction}
    (h : (underKey m kind key payloadDigest reused body).Returns db t db')
    (hbody : body.Returns db t db' → ∃ kind key payloadDigest entry,
      Admitted db.transactions entry ∧ (ordered → entry.Forward) ∧
        (commitEntry kind key payloadDigest m.now entry).Returns db t db') :
    Lengthened ordered db db' := by
  obtain ⟨-, h⟩ := returns_underKey.mp h
  split at h
  · obtain ⟨-, -, rfl⟩ := h
    exact Or.inl ⟨rfl, Nat.le_refl _⟩
  · obtain ⟨_, _, _, entry, hadmitted, hforward, hcommit⟩ := hbody h
    obtain ⟨-, hfresh, rfl, rfl⟩ := returns_commitEntry.mp hcommit
    exact Or.inr ⟨_, rfl, rfl, rfl, hadmitted, fun id hid hthere =>
      hfresh id hid (List.mem_append_right _ hthere), hforward⟩

/-- No gap that is found is no gap that is open. -/
theorem openGaps_eq_nil {repositoryId : String} {ts : List SourceTransaction}
    (h : ¬ (openGaps repositoryId ts).getLast?.isSome = true) : openGaps repositoryId ts = [] := by
  simpa using h

theorem deliver_lengthens {ordered : Prop} {m : SourceMoment} {input : GitHubPullRequestDeliveryInput}
    {db db' : SourceLedger} {t : SourceTransaction}
    (h : (recordVerifiedGitHubPullRequestDelivery sha256 m input).Returns db t db') :
    Lengthened ordered db db' := by
  simp only [recordVerifiedGitHubPullRequestDelivery, Tx.returns_bind, Tx.returns_ofExcept,
    and_assoc, exists_and_left, exists_eq_left] at h
  obtain ⟨normalized, -, hrun⟩ := h
  refine lengthened_of_underKey hrun fun hbody => ?_
  simp only [Tx.returns_bind, Tx.returns_read, Tx.returns_failIf, Tx.returns_ofExcept, and_assoc,
    exists_and_left, exists_eq_left, exists_const] at hbody
  obtain ⟨-, -, entry, hentry, hcommit⟩ := hbody
  refine ⟨_, _, _, entry, ?_, ?_, hcommit⟩ <;>
  · simp only [directEntry, except_bind_eq_ok] at hentry
    obtain ⟨_, -, _, -, _, -, _, -, _, -, hpayload⟩ := hentry
    cases hpayload
    simp only [Admitted, SourceEntry.Forward, implies_true]

theorem audit_lengthens {ordered : Prop} {m : SourceMoment} {input : GitHubPullRequestDeliveryRepairInput}
    {db db' : SourceLedger} {t : SourceTransaction}
    (h : (recordAuditedGitHubPullRequestDelivery sha256 m input).Returns db t db') :
    Lengthened ordered db db' := by
  simp only [recordAuditedGitHubPullRequestDelivery, Tx.returns_bind, Tx.returns_ofExcept,
    and_assoc, exists_and_left, exists_eq_left] at h
  obtain ⟨normalized, -, hrun⟩ := h
  refine lengthened_of_underKey hrun fun hbody => ?_
  simp only [Tx.returns_bind, Tx.returns_read, Tx.returns_failIf, Tx.returns_ofExcept, and_assoc,
    exists_and_left, exists_eq_left, exists_const] at hbody
  obtain ⟨-, -, -, -, entry, hentry, hcommit⟩ := hbody
  refine ⟨_, _, _, entry, ?_, ?_, hcommit⟩ <;>
  · simp only [auditedEntry, except_bind_eq_ok] at hentry
    obtain ⟨_, -, _, -, _, -, _, -, _, -, hpayload⟩ := hentry
    cases hpayload
    simp only [Admitted, SourceEntry.Forward, implies_true]

theorem checkpoint_lengthens {m : SourceMoment} {input : GitHubSourceCheckpointInput}
    {db db' : SourceLedger} {t : SourceTransaction}
    (h : (recordGitHubSourceCheckpoint sha256 m input).Returns db t db') :
    Lengthened (SourceCall.checkpoint input).InOrder db db' := by
  simp only [recordGitHubSourceCheckpoint, Tx.returns_bind, Tx.returns_ofExcept, and_assoc,
    exists_and_left, exists_eq_left] at h
  obtain ⟨normalized, hnormalize, hrun⟩ := h
  simp only [normalizeGitHubSourceCheckpointInput, except_bind_eq_ok, refuseIf_eq_ok,
    except_pure_eq_ok] at hnormalize
  obtain ⟨_, -, _, -, _, htexts, rfl⟩ := hnormalize
  refine lengthened_of_underKey hrun fun hbody => ?_
  simp only [Tx.returns_bind, returns_coverageWrite, returns_openGap, returns_latest,
    Tx.returns_failIf, Tx.returns_ofExcept, returns_coverageTime, and_assoc, exists_and_left,
    exists_eq_left, exists_const] at hbody
  obtain ⟨-, -, -, hnone, -, _, hcontinues, -, -, entry, hentry, hcommit⟩ := hbody
  simp only [checkpointEntry, except_bind_eq_ok, except_pure_eq_ok] at hentry
  obtain ⟨_, -, _, -, rfl⟩ := hentry
  refine ⟨_, _, _, _, ?_, ?_, hcommit⟩
  swap
  · exact fun horder => horder htexts
  refine ⟨openGaps_eq_nil hnone, ?_⟩
  cases hlatest : (checkpointsOf input.repositoryId db.transactions).getLast? with
  | some previous =>
    rw [hlatest] at hcontinues
    simp only [assertContinues, refuseIf_eq_ok, not_or, not_not, ne_eq] at hcontinues
    exact ⟨hcontinues.1, hcontinues.2.1, hcontinues.2.2, rfl⟩
  | none =>
    rw [hlatest] at hcontinues
    simp only [assertContinues, refuseIf_eq_ok, not_not, ne_eq] at hcontinues
    exact ⟨hcontinues, rfl⟩

theorem openGap_lengthens {ordered : Prop} {m : SourceMoment} {input : GitHubSourceGapInput}
    {db db' : SourceLedger} {t : SourceTransaction}
    (h : (openGitHubSourceGap sha256 m input).Returns db t db') : Lengthened ordered db db' := by
  simp only [openGitHubSourceGap, Tx.returns_bind, Tx.returns_ofExcept, and_assoc,
    exists_and_left, exists_eq_left] at h
  obtain ⟨normalized, hnormalize, hrun⟩ := h
  simp only [normalizeGitHubSourceGapInput, except_bind_eq_ok, refuseIf_eq_ok,
    except_pure_eq_ok] at hnormalize
  obtain ⟨_, -, _, -, rfl⟩ := hnormalize
  refine lengthened_of_underKey hrun fun hbody => ?_
  simp only [Tx.returns_bind, returns_coverageWrite, returns_openGap, returns_latest,
    Tx.returns_failIf, Tx.returns_ofExcept, Tx.returns_ofOption, returns_coverageTime, and_assoc,
    exists_and_left, exists_eq_left, exists_const] at hbody
  obtain ⟨-, -, -, hnone, -, checkpoint, hlatest, -, -, entry, hentry, hcommit⟩ := hbody
  obtain ⟨hlatest, hmatches⟩ := Option.filter_eq_some_iff.mp hlatest
  simp only [decide_eq_true_eq] at hmatches
  simp only [gapEntry, SourceMoment.uuidV7, except_bind_eq_ok, refuseIf_eq_ok, not_not,
    except_pure_eq_ok] at hentry
  obtain ⟨_, ⟨_, hencodable, -⟩, _, -, rfl⟩ := hentry
  refine ⟨_, _, _, _, ?_, ?_, hcommit⟩
  swap
  · exact fun _ => trivial
  exact ⟨openGaps_eq_nil hnone, hencodable, checkpoint, hlatest, rfl, hmatches.1.symm,
    hmatches.2.1.symm, hmatches.2.2.symm⟩

theorem repairGap_lengthens {ordered : Prop} {m : SourceMoment} {input : GitHubSourceGapRepairInput}
    {db db' : SourceLedger} {t : SourceTransaction}
    (h : (repairGitHubSourceGap sha256 m input).Returns db t db') : Lengthened ordered db db' := by
  simp only [repairGitHubSourceGap, Tx.returns_bind, Tx.returns_ofExcept, and_assoc,
    exists_and_left, exists_eq_left] at h
  obtain ⟨normalized, hnormalize, hrun⟩ := h
  simp only [normalizeGitHubSourceGapRepairInput, except_bind_eq_ok, refuseIf_eq_ok,
    except_pure_eq_ok] at hnormalize
  obtain ⟨_, -, _, -, _, -, _, -, rfl⟩ := hnormalize
  refine lengthened_of_underKey hrun fun hbody => ?_
  simp only [Tx.returns_bind, returns_coverageWrite, returns_openGap, Tx.returns_read,
    Tx.returns_failIf, Tx.returns_ofExcept, Tx.returns_ofOption, returns_coverageTime, and_assoc,
    exists_and_left, exists_eq_left, exists_const] at hbody
  obtain ⟨-, -, -, gap, hgap, _, -, hlater, -, -, entry, hentry, hcommit⟩ := hbody
  obtain ⟨hgap, hmatches⟩ := Option.filter_eq_some_iff.mp hgap
  simp only [decide_eq_true_eq] at hmatches
  simp only [repairEntry, except_bind_eq_ok, except_pure_eq_ok] at hentry
  obtain ⟨_, -, _, -, _, -, rfl⟩ := hentry
  refine ⟨_, _, _, _, ?_, ?_, hcommit⟩
  swap
  · exact fun _ => trivial
  exact ⟨rfl, gap, hgap, rfl, rfl, not_le.mp hlater, rfl, hmatches.2.1.symm, hmatches.2.2.symm⟩

/-- **A command lengthens the ledger by what it was admitted for.** -/
theorem exec_lengthens {i : SourceInput} {db db' : SourceLedger}
    {answer : Option SourceTransaction} (h : (i.exec sha256).Returns db answer db') :
    Lengthened i.call.InOrder db db' := by
  unfold SourceInput.exec at h
  cases hcall : i.call with
  | deliver input =>
    simp only [hcall, Tx.returns_bind, Tx.returns_pure] at h
    obtain ⟨t, _, hrun, rfl, rfl⟩ := h
    exact deliver_lengthens hrun
  | audit input =>
    simp only [hcall, Tx.returns_bind, Tx.returns_pure] at h
    obtain ⟨t, _, hrun, rfl, rfl⟩ := h
    exact audit_lengthens hrun
  | checkpoint input =>
    simp only [hcall, Tx.returns_bind, Tx.returns_pure] at h
    obtain ⟨t, _, hrun, rfl, rfl⟩ := h
    exact checkpoint_lengthens hrun
  | openGap input =>
    simp only [hcall, Tx.returns_bind, Tx.returns_pure] at h
    obtain ⟨t, _, hrun, rfl, rfl⟩ := h
    exact openGap_lengthens hrun
  | repairGap input =>
    simp only [hcall, Tx.returns_bind, Tx.returns_pure] at h
    obtain ⟨t, _, hrun, rfl, rfl⟩ := h
    exact repairGap_lengthens hrun
  | other recordIds enrolled =>
    simp only [hcall, commitOther, Tx.returns_bind, Tx.returns_read, Tx.returns_failIf,
      Tx.returns_update, Tx.returns_pure, and_assoc, exists_and_left, exists_eq_left,
      exists_const] at h
    obtain ⟨-, -, rfl⟩ := h
    exact Or.inl ⟨rfl, Nat.le_succ _⟩

/-! ## Runs -/

/-- The ledger as a machine: one command after the other, from a fresh
database. -/
def sourceMachine (sha256 : Sha256) (evaluationTime : Instant) (recordIds : List String) :
    Machine SourceLedger SourceInput (Except ControlError (Option SourceTransaction)) where
  start := SourceLedger.initial evaluationTime recordIds
  step db i := i.exec sha256 db

/-- A command under a key that throws changes nothing. -/
theorem keeps_underKey {α : Type} {m : SourceMoment} (x : Except ControlError α)
    (kind : SourceCommandKind) (key payloadDigest : α → String) (reused : ControlError)
    (body : α → SourceTx SourceTransaction) :
    Tx.Keeps Eq (Tx.ofExcept x >>= fun a =>
      underKey m kind (key a) (payloadDigest a) reused (body a)) := by
  refine Tx.keeps_bind_of_still (fun _ => rfl) (Tx.still_ofExcept x) fun a => ?_
  exact Tx.keeps_atomically (r := Eq) (fun _ _ => rfl) _

/-- **A command that throws changes nothing.** -/
theorem keeps_sourceExec (i : SourceInput) : Tx.Keeps Eq (i.exec sha256) := by
  unfold SourceInput.exec
  split
  · exact Tx.keeps_bind_pure (keeps_underKey _ _ _ _ _ _)
  · exact Tx.keeps_bind_pure (keeps_underKey _ _ _ _ _ _)
  · exact Tx.keeps_bind_pure (keeps_underKey _ _ _ _ _ _)
  · exact Tx.keeps_bind_pure (keeps_underKey _ _ _ _ _ _)
  · exact Tx.keeps_bind_pure (keeps_underKey _ _ _ _ _ _)
  · exact Tx.keeps_bind_pure (Tx.keeps_bind_of_still (fun _ => rfl) (Tx.still_read _) fun _ =>
      Tx.keeps_bind_of_still (fun _ => rfl) (Tx.still_failIf _ _) fun _ => Tx.keeps_update _)

/-- A command of a run throws and leaves the ledger, or lengthens it. -/
theorem step_lengthens (db : SourceLedger) (i : SourceInput) :
    Lengthened i.call.InOrder db (i.exec sha256 db).2 := by
  rcases hexec : i.exec sha256 db with ⟨err | answer, db'⟩
  · rw [← keeps_sourceExec i db err db' hexec]
    exact Or.inl ⟨rfl, Nat.le_refl _⟩
  · exact exec_lengthens hexec

variable {evaluationTime : Instant} {recordIds : List String}

/-- **The ledger stays lawful.** -/
theorem lawful_run (calls : List SourceInput) :
    Lawful ((sourceMachine sha256 evaluationTime recordIds).run calls).transactions := by
  refine (sourceMachine sha256 evaluationTime recordIds).invariant
    (P := fun db => Lawful db.transactions) .nil ?_ calls
  intro db i hlawful
  rcases @step_lengthens sha256 db i with
    ⟨hsame, -⟩ | ⟨t, hlonger, -, -, hadmitted, hfresh, -⟩
  · exact hsame ▸ hlawful
  · exact hlonger ▸ hlawful.snoc hadmitted hfresh

/-- **No entry goes back**, in a run whose checkpoints are in order. -/
theorem forward_run {calls : List SourceInput} (horder : ∀ i ∈ calls, i.call.InOrder) :
    ∀ t ∈ ((sourceMachine sha256 evaluationTime recordIds).run calls).transactions,
      t.entry.Forward := by
  refine (sourceMachine sha256 evaluationTime recordIds).invariant_on
    (P := fun db => ∀ t ∈ db.transactions, t.entry.Forward) (C := fun i => i.call.InOrder)
    (fun _ h => nomatch h) ?_ horder
  intro db i hi hforward t ht
  rcases @step_lengthens sha256 db i with ⟨hsame, -⟩ | ⟨t', hlonger, -, -, -, -, hnew⟩
  · exact hforward t (hsame ▸ ht)
  · rcases List.mem_append.mp (hlonger ▸ ht : t ∈ db.transactions ++ [t']) with ht | ht
    · exact hforward t ht
    · exact List.mem_singleton.mp ht ▸ hnew hi

/-- The sequences of the entries are the ledger's, up to the last. -/
theorem sequence_le_run (calls : List SourceInput) :
    ∀ t ∈ ((sourceMachine sha256 evaluationTime recordIds).run calls).transactions,
      t.sequence ≤
        ((sourceMachine sha256 evaluationTime recordIds).run calls).lastTransactionSequence := by
  refine (sourceMachine sha256 evaluationTime recordIds).invariant
    (P := fun db => ∀ t ∈ db.transactions, t.sequence ≤ db.lastTransactionSequence)
    (fun _ h => nomatch h) ?_ calls
  intro db i hle t ht
  show t.sequence ≤ (i.exec sha256 db).2.lastTransactionSequence
  rcases @step_lengthens sha256 db i with
    ⟨hsame, hlast⟩ | ⟨t', hlonger, hsequence, hlast, -, -, -⟩
  · exact Nat.le_trans (hle t (hsame ▸ ht)) hlast
  · rw [hlast]
    rcases List.mem_append.mp (hlonger ▸ ht : t ∈ db.transactions ++ [t']) with ht | ht
    · have := hle t ht
      omega
    · rw [List.mem_singleton.mp ht]

end Snowcat
