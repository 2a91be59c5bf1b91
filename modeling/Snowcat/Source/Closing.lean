import Snowcat.Lib.Selection
import Snowcat.Source.Chain

/-!
# Which source gaps can be closed

A gap of delivery content is closed by a repair that cites, for each
affected delivery, an audit recorded after the gap. An audit is refused for
a delivery that also arrived by webhook, and is recorded once for an
identity of the delivery API: an audit that is older than the gap is no
evidence and stands in the way of a newer one. So a gap can be closed
exactly when each affected delivery has such evidence, or can still be
audited (`gap_closes_iff`).
-/

namespace Snowcat

open Calendar (Instant)
open Selection (mem_of_mapM mapM_eq_map)

variable {sha256 : Sha256}

/-! ## What is there to go on with -/

/-- The deliveries that GitHub's delivery API serves: each with what an audit of
it is given, whatever the sequence. -/
structure GitHubDeliveries where
  served : List GitHubPullRequestDeliveryRepairInput
  /-- An App gives an identity to one delivery. -/
  identified : ∀ d ∈ served, ∀ d' ∈ served, d.appId = d'.appId → d.deliveryId = d'.deliveryId →
    d = d'

namespace GitHubPullRequestDeliveryRepairInput

/-- An audit of a delivery, at a sequence. -/
def at_ (d : GitHubPullRequestDeliveryRepairInput) (sequence : ℕ) :
    GitHubPullRequestDeliveryRepairInput := { d with expectedLastTransactionSequence := sequence }

/-- The key an audit of a delivery is received under. -/
def key (d : GitHubPullRequestDeliveryRepairInput) : String :=
  s!"github-delivery-repair:{d.appId}:{d.deliveryId}"

theorem key_eq (d : GitHubPullRequestDeliveryRepairInput) :
    s!"github-delivery-repair:{d.appId}:{d.deliveryId}" = d.key := rfl

@[simp] theorem key_at (d : GitHubPullRequestDeliveryRepairInput) (n : ℕ) :
    (d.at_ n).key = d.key := rfl

/-- A delivery to a gap's repository, of its App and installation. -/
def Of (d : GitHubPullRequestDeliveryRepairInput) (gap : GitHubSourceGapPayload) : Prop :=
  d.repositoryId = gap.repositoryId ∧ d.appId = gap.appId ∧ d.installationId = gap.installationId

/-- A delivery that the command can record: its input is taken, and there is a
moment at which its records meet their contracts. -/
def Recordable (sha256 : Sha256) (d : GitHubPullRequestDeliveryRepairInput) : Prop :=
  normalizeGitHubPullRequestDeliveryRepairInput (d.at_ 1) = .ok (d.at_ 1) ∧
    ∃ m entry, auditedEntry sha256 m d = .ok entry

end GitHubPullRequestDeliveryRepairInput

/-- Whether a command was received under a key. -/
def SourceLedger.Received (db : SourceLedger) (kind : SourceCommandKind) (key : String) : Prop :=
  ∃ receipt ∈ db.receipts, receipt.kind = kind ∧ receipt.key = key

/-- A delivery has an audit that is evidence for the gap. -/
def AuditedAfter (ts : List SourceTransaction) (gap : GitHubSourceGapPayload) (guid : String) :
    Prop :=
  ∃ sequence auditRecordId, gapSequence ts gap.gapRecordId = some sequence ∧
    eligibleAudit ts gap sequence auditRecordId = some guid

/-- A delivery can be audited: it did not arrive by webhook, and GitHub serves it
under an identity that no audit was received for. -/
def Auditable (db : SourceLedger) (gap : GitHubSourceGapPayload) (github : GitHubDeliveries)
    (guid : String) : Prop :=
  findDirectGitHubDeliveryReceipt db gap.appId guid = false ∧
    ∃ d ∈ github.served, d.deliveryGuid = guid ∧ d.Of gap ∧
      ¬ db.Received .recordPullRequestDeliveryRepair d.key

/-- **A gap can be closed**, by what the ledger says and GitHub serves. -/
structure Closable (db : SourceLedger) (gap : GitHubSourceGapPayload) (github : GitHubDeliveries) :
    Prop where
  enrolled : gap.repositoryId ∈ db.enrolled
  contract : isGitHubSourceGapPayload gap = true
  evidence : ∀ guid ∈ gap.affectedDeliveryGuids,
    AuditedAfter db.transactions gap guid ∨ Auditable db gap github guid

/-- **A continuation of a run closes a gap**: calls that audit deliveries GitHub
serves, and a repair that is accepted and after which the gap is not open. -/
structure Closes (sha256 : Sha256) (evaluationTime : Instant) (recordIds : List String)
    (calls : List SourceInput) (gap : GitHubSourceGapPayload) (github : GitHubDeliveries)
    (audits : List SourceInput) (repair : SourceInput) : Prop where
  audited : ∀ i ∈ audits, ∃ d ∈ github.served, ∃ sequence, i.call = .audit (d.at_ sequence)
  repaired : ∃ input, repair.call = .repairGap input
  closed : ∃ t db', (repair.exec sha256).Returns
    ((sourceMachine sha256 evaluationTime recordIds).run (calls ++ audits)) (some t) db' ∧
      gap ∉ openGaps gap.repositoryId db'.transactions

/-- What the generator and the ledger have left for closing a gap: sequences,
identifiers of records, and one of a run. -/
structure Room (db : SourceLedger) (gap : GitHubSourceGapPayload) : Prop where
  sequences : db.lastTransactionSequence + gap.affectedDeliveryGuids.length ≤ maximumSafeInteger
  records : ∃ ids : List { id : String // isUuidV7 id = true },
    ids.length = 3 * gap.affectedDeliveryGuids.length + 3 ∧ ids.Nodup ∧
      ∀ id ∈ ids, id.1 ∉ db.recordIds
  run : ∃ runId, isUuidV7 runId = true ∧
    ¬ db.Received .repairSourceGap s!"github-gap-repair:{runId}"

/-- A reading of the clock that the commands take. -/
structure Ready (db : SourceLedger) (gap : GitHubSourceGapPayload) (github : GitHubDeliveries)
    (now : Instant) : Prop where
  encodable : encodable now
  watermark : ¬ now.text < db.controlTimeWatermark.text
  delivered : ∀ d ∈ github.served, d.Of gap → d.deliveryGuid ∈ gap.affectedDeliveryGuids →
    ¬ now.text < d.deliveredAt
  later : ∃ through, gap.lowerBoundAt < through ∧ ¬ now.text < through.text

/-! ## What the commands do -/

/-- The receipt that a command is found under. -/
theorem find?_receipt {db : SourceLedger} {kind : SourceCommandKind} {key : String} :
    db.receipts.find? (fun receipt => receipt.kind = kind ∧ receipt.key = key) = none ↔
      ¬ db.Received kind key := by
  simp only [List.find?_eq_none, SourceLedger.Received, decide_eq_true_eq, not_exists, not_and]

/-- An input that is taken is taken as it is. -/
theorem normalizeRepair_eq {d d' : GitHubPullRequestDeliveryRepairInput}
    (h : normalizeGitHubPullRequestDeliveryRepairInput d = .ok d') : d' = d := by
  simp only [normalizeGitHubPullRequestDeliveryRepairInput, except_bind_eq_ok,
    except_pure_eq_ok] at h
  obtain ⟨_, -, _, -, _, -, _, -, rfl⟩ := h
  rfl

/-- An input that is taken is taken as it is. -/
theorem normalizeGapRepair_eq {input input' : GitHubSourceGapRepairInput}
    (h : normalizeGitHubSourceGapRepairInput input = .ok input') : input' = input := by
  simp only [normalizeGitHubSourceGapRepairInput, except_bind_eq_ok, except_pure_eq_ok] at h
  obtain ⟨_, -, _, -, _, -, _, -, rfl⟩ := h
  rfl

/-- What an audit does under its key. -/
def auditBody (sha256 : Sha256) (m : SourceMoment) (d : GitHubPullRequestDeliveryRepairInput)
    (db : SourceLedger) (t : SourceTransaction) (db' : SourceLedger) : Prop :=
  db.lastTransactionSequence = d.expectedLastTransactionSequence ∧
    d.repositoryId ∈ db.enrolled ∧
    findDirectGitHubDeliveryReceipt db d.appId d.deliveryGuid = false ∧
    ¬ m.now.text < db.controlTimeWatermark.text ∧ ¬ m.now.text < d.deliveredAt ∧
    ∃ entry, auditedEntry sha256 m d = .ok entry ∧
      (commitEntry .recordPullRequestDeliveryRepair d.key (sha256 (.deliveryRepair d)).1
        m.now entry).Returns db t db'

theorem returns_auditBody {m : SourceMoment} {d : GitHubPullRequestDeliveryRepairInput}
    {db db' : SourceLedger} {t : SourceTransaction} :
    (do
      let db ← Tx.read id
      Tx.failIf (db.lastTransactionSequence ≠ d.expectedLastTransactionSequence)
        (.error (s!"expected control-plane sequence {d.expectedLastTransactionSequence} " ++
          s!"but current sequence is {db.lastTransactionSequence}"))
      Tx.failIf (d.repositoryId ∉ db.enrolled)
        (.error "GitHub delivery repair requires a previously enrolled repository")
      Tx.failIf (findDirectGitHubDeliveryReceipt db d.appId d.deliveryGuid = true)
        (.error "GitHub delivery repair cannot replace an observed direct receipt")
      Tx.failIf (m.now.text < db.controlTimeWatermark.text ∨ m.now.text < d.deliveredAt)
        (.error "control-plane clock moved backwards while recording GitHub delivery repair")
      let entry ← Tx.ofExcept (auditedEntry sha256 m d)
      commitEntry .recordPullRequestDeliveryRepair d.key (sha256 (.deliveryRepair d)).1
        m.now entry : SourceTx SourceTransaction).Returns db t db' ↔
      auditBody sha256 m d db t db' := by
  simp only [Tx.returns_bind, Tx.returns_read, Tx.returns_failIf, Tx.returns_ofExcept, and_assoc,
    exists_and_left, exists_eq_left, exists_const, id, not_not, not_or, ne_eq, Bool.not_eq_true,
    auditBody]

/-- **An audit** answers with what was recorded under its key, or is recorded. -/
theorem returns_audit {m : SourceMoment} {d : GitHubPullRequestDeliveryRepairInput}
    {db db' : SourceLedger} {t : SourceTransaction} :
    (recordAuditedGitHubPullRequestDelivery sha256 m d).Returns db t db' ↔
      normalizeGitHubPullRequestDeliveryRepairInput d = .ok d ∧ m.verified = .ok () ∧
      match db.receipts.find? (fun receipt =>
        receipt.kind = .recordPullRequestDeliveryRepair ∧ receipt.key = d.key) with
      | some prior => prior.payloadDigest = (sha256 (.deliveryRepair d)).1 ∧ t = prior.result ∧
          db' = db
      | none => auditBody sha256 m d db t db' := by
  simp only [recordAuditedGitHubPullRequestDelivery, Tx.returns_bind, Tx.returns_ofExcept,
    and_assoc, exists_and_left, exists_eq_left, GitHubPullRequestDeliveryRepairInput.key_eq]
  constructor
  · rintro ⟨d', hd, hrun⟩
    obtain rfl := normalizeRepair_eq hd
    refine ⟨hd, ?_⟩
    rw [returns_underKey] at hrun
    refine hrun.imp_right fun hrun => ?_
    cases hprior : db.receipts.find? (fun receipt =>
        receipt.kind = .recordPullRequestDeliveryRepair ∧ receipt.key = d'.key) with
    | some prior => rwa [hprior] at hrun
    | none =>
      rw [hprior] at hrun
      exact returns_auditBody.mp hrun
  · rintro ⟨hd, hrun⟩
    refine ⟨d, hd, ?_⟩
    rw [returns_underKey]
    refine hrun.imp_right fun hrun => ?_
    cases hprior : db.receipts.find? (fun receipt =>
        receipt.kind = .recordPullRequestDeliveryRepair ∧ receipt.key = d.key) with
    | some prior => rwa [hprior] at hrun
    | none =>
      rw [hprior] at hrun
      exact returns_auditBody.mpr hrun

/-- What a repair does under its key. -/
def repairBody (sha256 : Sha256) (m : SourceMoment) (input : GitHubSourceGapRepairInput)
    (db : SourceLedger) (t : SourceTransaction) (db' : SourceLedger) : Prop :=
  db.lastTransactionSequence = input.expectedLastTransactionSequence ∧
    input.repositoryId ∈ db.enrolled ∧
    ∃ gap, (openGaps input.repositoryId db.transactions).getLast? = some gap ∧
      isGitHubSourceGapPayload gap = true ∧ gap.gapRecordId = input.gapRecordId ∧
      gap.appId = input.appId ∧ gap.installationId = input.installationId ∧
      assertEvidence db.transactions gap input.repairAuditRecordIds = .ok () ∧
      gap.lowerBoundAt < input.coveredThrough ∧
      ¬ m.now.text < db.controlTimeWatermark.text ∧ ¬ m.now.text < input.coveredThrough.text ∧
      ∃ entry, repairEntry sha256 m input gap = .ok entry ∧
        (commitEntry .repairSourceGap s!"github-gap-repair:{input.runId}"
          (sha256 (.gapRepairInput input)).1 m.now entry).Returns db t db'

theorem returns_repairBody {m : SourceMoment} {input : GitHubSourceGapRepairInput}
    {db db' : SourceLedger} {t : SourceTransaction} :
    (do
      assertGitHubCoverageWrite input.expectedLastTransactionSequence input.repositoryId
      let current ← findOpenGitHubSourceGap input.repositoryId
      let gap ← Tx.ofOption (current.filter fun g => g.gapRecordId = input.gapRecordId ∧
          g.appId = input.appId ∧ g.installationId = input.installationId)
        (.error "GitHub source-gap repair requires the current open gap")
      let transactions ← Tx.read SourceLedger.transactions
      Tx.ofExcept (assertEvidence transactions gap input.repairAuditRecordIds)
      Tx.failIf (input.coveredThrough ≤ gap.lowerBoundAt)
        (.error "GitHub source-gap repair must establish a later exclusive end")
      checkedGitHubCoverageTime m input.coveredThrough
      let entry ← Tx.ofExcept (repairEntry sha256 m input gap)
      commitEntry .repairSourceGap s!"github-gap-repair:{input.runId}"
        (sha256 (.gapRepairInput input)).1 m.now entry : SourceTx SourceTransaction).Returns db t db' ↔
      repairBody sha256 m input db t db' := by
  simp only [Tx.returns_bind, returns_coverageWrite, returns_openGap, Tx.returns_read,
    Tx.returns_failIf, Tx.returns_ofExcept, Tx.returns_ofOption, returns_coverageTime, and_assoc,
    exists_and_left, exists_eq_left, exists_const, repairBody, Option.filter_eq_some_iff, not_le,
    decide_eq_true_eq]
  refine and_congr_right fun _ => and_congr_right fun _ => ?_
  constructor
  · rintro ⟨hvalid, gap, hgap, hid, happ, hinstallation, _, hevidence, hrest⟩
    exact ⟨gap, hgap, hvalid gap hgap, hid, happ, hinstallation, hevidence, hrest⟩
  · rintro ⟨gap, hgap, hvalid, hid, happ, hinstallation, hevidence, hrest⟩
    refine ⟨fun g hg => ?_, gap, hgap, hid, happ, hinstallation, (), hevidence, hrest⟩
    obtain rfl : gap = g := Option.some.inj (hgap.symm.trans hg)
    exact hvalid

/-- **A repair** answers with what was recorded under its key, or is recorded. -/
theorem returns_repair {m : SourceMoment} {input : GitHubSourceGapRepairInput}
    {db db' : SourceLedger} {t : SourceTransaction} :
    (repairGitHubSourceGap sha256 m input).Returns db t db' ↔
      normalizeGitHubSourceGapRepairInput input = .ok input ∧ m.verified = .ok () ∧
      match db.receipts.find? (fun receipt => receipt.kind = .repairSourceGap ∧
        receipt.key = s!"github-gap-repair:{input.runId}") with
      | some prior => prior.payloadDigest = (sha256 (.gapRepairInput input)).1 ∧
          t = prior.result ∧ db' = db
      | none => repairBody sha256 m input db t db' := by
  simp only [repairGitHubSourceGap, Tx.returns_bind, Tx.returns_ofExcept, and_assoc,
    exists_and_left, exists_eq_left]
  constructor
  · rintro ⟨supplied, hinput, hrun⟩
    obtain rfl := normalizeGapRepair_eq hinput
    refine ⟨hinput, ?_⟩
    rw [returns_underKey] at hrun
    refine hrun.imp_right fun hrun => ?_
    cases hprior : db.receipts.find? (fun receipt => receipt.kind = .repairSourceGap ∧
      receipt.key = s!"github-gap-repair:{supplied.runId}") with
    | some prior => rwa [hprior] at hrun
    | none =>
      rw [hprior] at hrun
      exact returns_repairBody.mp hrun
  · rintro ⟨hinput, hrun⟩
    refine ⟨input, hinput, ?_⟩
    rw [returns_underKey]
    refine hrun.imp_right fun hrun => ?_
    cases hprior : db.receipts.find? (fun receipt => receipt.kind = .repairSourceGap ∧
      receipt.key = s!"github-gap-repair:{input.runId}") with
    | some prior => rwa [hprior] at hrun
    | none =>
      rw [hprior] at hrun
      exact returns_repairBody.mpr hrun

/-- The audit that is recorded of a delivery. -/
theorem auditedEntry_eq_ok {m : SourceMoment} {d : GitHubPullRequestDeliveryRepairInput}
    {entry : SourceEntry} (h : auditedEntry sha256 m d = .ok entry) :
    ∃ audit observation, entry = .audited audit observation ∧ audit.appId = d.appId ∧
      audit.repositoryId = d.repositoryId ∧ audit.installationId = d.installationId ∧
      audit.deliveryGuid = d.deliveryGuid ∧ isGitHubDeliveryAuditPayload audit = true := by
  simp only [auditedEntry, except_bind_eq_ok, except_pure_eq_ok, refuseIf_eq_ok,
    Bool.not_eq_false] at h
  obtain ⟨_, -, _, -, _, -, _, haudit, _, -, rfl⟩ := h
  exact ⟨_, _, rfl, rfl, rfl, rfl, rfl, haudit⟩

/-! ## What audits leave -/

/-- What a list of audits does to a ledger: it appends audits of deliveries that
could be audited before. -/
structure AuditsOf (github : GitHubDeliveries) (db db' : SourceLedger) : Prop where
  enrolled : db'.enrolled = db.enrolled
  direct : ∀ appId guid, findDirectGitHubDeliveryReceipt db' appId guid =
    findDirectGitHubDeliveryReceipt db appId guid
  receipts : ∀ kind key, db.Received kind key → db'.Received kind key
  entries : ∃ new, db'.transactions = db.transactions ++ new ∧ ∀ t ∈ new,
    ∃ audit observation, t.entry = .audited audit observation ∧
      ∃ d ∈ github.served, audit.appId = d.appId ∧ audit.repositoryId = d.repositoryId ∧
        audit.installationId = d.installationId ∧ audit.deliveryGuid = d.deliveryGuid ∧
        findDirectGitHubDeliveryReceipt db d.appId d.deliveryGuid = false ∧
        ¬ db.Received .recordPullRequestDeliveryRepair d.key

namespace AuditsOf

variable {github : GitHubDeliveries} {db db' db'' : SourceLedger}

theorem refl (db : SourceLedger) : AuditsOf github db db :=
  ⟨rfl, fun _ _ => rfl, fun _ _ h => h, [], (List.append_nil _).symm, fun _ h => nomatch h⟩

theorem trans (h : AuditsOf github db db') (h' : AuditsOf github db' db'') :
    AuditsOf github db db'' := by
  obtain ⟨new, hnew, hentries⟩ := h.entries
  obtain ⟨new', hnew', hentries'⟩ := h'.entries
  refine ⟨h'.enrolled.trans h.enrolled, fun appId guid =>
    (h'.direct appId guid).trans (h.direct appId guid),
    fun kind key hreceived => h'.receipts kind key (h.receipts kind key hreceived),
    new ++ new', by rw [hnew', hnew, List.append_assoc], fun t ht => ?_⟩
  rcases List.mem_append.mp ht with ht | ht
  · exact hentries t ht
  · obtain ⟨audit, observation, hentry, d, hd, happ, hrepo, hinstallation, hguid, hdirect, hkey⟩ :=
      hentries' t ht
    refine ⟨audit, observation, hentry, d, hd, happ, hrepo, hinstallation, hguid, ?_, ?_⟩
    · rw [← h.direct]
      exact hdirect
    · exact fun hreceived => hkey (h.receipts _ _ hreceived)

/-- **One audit.** -/
theorem of_returns {m : SourceMoment} {d : GitHubPullRequestDeliveryRepairInput} {n : ℕ}
    {t : SourceTransaction} (hd : d ∈ github.served)
    (h : (recordAuditedGitHubPullRequestDelivery sha256 m (d.at_ n)).Returns db t db') :
    AuditsOf github db db' := by
  obtain ⟨-, -, h⟩ := returns_audit.mp h
  cases hprior : db.receipts.find? (fun receipt =>
    receipt.kind = .recordPullRequestDeliveryRepair ∧ receipt.key = (d.at_ n).key) with
  | some prior =>
    rw [hprior] at h
    obtain ⟨-, -, rfl⟩ := h
    exact refl db'
  | none =>
    rw [hprior] at h
    obtain ⟨-, -, hdirect, -, -, entry, hentry, hcommit⟩ := h
    obtain ⟨-, -, rfl, rfl⟩ := returns_commitEntry.mp hcommit
    obtain ⟨audit, observation, rfl, happ, hrepo, hinstallation, hguid, -⟩ :=
      auditedEntry_eq_ok hentry
    refine ⟨rfl, fun appId guid => ?_, ?_, _, rfl, ?_⟩
    · simp [findDirectGitHubDeliveryReceipt]
    · rintro kind key ⟨receipt, hreceipt, hmatches⟩
      exact ⟨receipt, List.mem_cons_of_mem _ hreceipt, hmatches⟩
    · intro t ht
      rw [List.mem_singleton.mp ht]
      exact ⟨audit, observation, rfl, d, hd, happ, hrepo, hinstallation, hguid, hdirect,
        find?_receipt.mp hprior⟩

/-- **A list of audits.** -/
theorem of_after {evaluationTime : Instant} {recordIds : List String} {audits : List SourceInput}
    (haudits : ∀ i ∈ audits, ∃ d ∈ github.served, ∃ n, i.call = .audit (d.at_ n))
    (db : SourceLedger) :
    AuditsOf github db ((sourceMachine sha256 evaluationTime recordIds).after db audits) := by
  induction audits generalizing db with
  | nil => exact refl db
  | cons i is ih =>
    refine trans ?_ (ih (fun j hj => haudits j (List.mem_cons_of_mem _ hj)) _)
    show AuditsOf github db (i.exec sha256 db).2
    obtain ⟨d, hd, n, hcall⟩ := haudits i List.mem_cons_self
    rcases hexec : i.exec sha256 db with ⟨err | answer, db'⟩
    · rw [← keeps_sourceExec i db err db' hexec]
      exact refl db
    · have hreturns : (i.exec sha256).Returns db answer db' := hexec
      simp only [SourceInput.exec, hcall, Tx.returns_bind, Tx.returns_pure] at hreturns
      obtain ⟨t, _, hrun, rfl, rfl⟩ := hreturns
      exact of_returns hd hrun

end AuditsOf

/-! ## The evidence of a repair -/

/-- The sequence of a gap is where it was opened, whatever follows. -/
theorem gapSequence_append {ts new : List SourceTransaction} {repositoryId : String}
    {gap : GitHubSourceGapPayload} (hgap : gap ∈ gapsOf repositoryId ts) :
    gapSequence (ts ++ new) gap.gapRecordId = gapSequence ts gap.gapRecordId ∧
      ∃ t ∈ ts, gapSequence ts gap.gapRecordId = some t.sequence := by
  obtain ⟨t, ht, e, hentry, -⟩ := mem_gapsOf.mp hgap
  have hsome : (ts.find? (·.entry.opens gap.gapRecordId)).isSome = true := by
    rw [List.find?_isSome]
    exact ⟨t, ht, by simp [hentry, SourceEntry.opens]⟩
  obtain ⟨found, hfound⟩ := Option.isSome_iff_exists.mp hsome
  simp only [gapSequence, List.find?_append, hfound, Option.some_or, Option.map_some, true_and]
  exact ⟨found, List.mem_of_find?_eq_some hfound, rfl⟩

/-- **The evidence for a gap of content**: an eligible audit of each of its
deliveries, and of no other. -/
theorem assertEvidence_eq_ok {ts : List SourceTransaction} {gap : GitHubSourceGapPayload}
    {ids : List String} (hcontent : gap.coverageFailureKind = .deliveryContent) :
    assertEvidence ts gap ids = .ok () ↔ ids.length = gap.affectedDeliveryGuids.length ∧
      ∃ sequence, gapSequence ts gap.gapRecordId = some sequence ∧
        ∃ guids, ids.mapM (eligibleAudit ts gap sequence) = some guids ∧
          sortTexts guids = gap.affectedDeliveryGuids := by
  simp only [assertEvidence, hcontent, assertGitHubContentGapRepairEvidence, except_bind_eq_ok,
    refuseIf_eq_ok, ne_eq, not_not]
  have hunit : ∀ P Q : Prop, (∃ _ : Unit, P ∧ Q) ↔ P ∧ Q :=
    fun P Q => ⟨fun h => h.choose_spec, fun h => ⟨(), h⟩⟩
  rw [hunit]
  refine and_congr_right fun _ => ?_
  cases gapSequence ts gap.gapRecordId with
  | none => simp [throw, throwThe, MonadExceptOf.throw]
  | some sequence =>
    simp only [Option.some.injEq, exists_eq_left']
    cases ids.mapM (eligibleAudit ts gap sequence) with
    | none => simp [throw, throwThe, MonadExceptOf.throw]
    | some guids => simp only [refuseIf_eq_ok, not_not, Option.some.injEq, exists_eq_left']

/-- An audit that is eligible. -/
theorem eligible_eq_some {t : SourceTransaction} {gap : GitHubSourceGapPayload} {sequence : ℕ}
    {auditRecordId guid : String} (h : t.eligible gap sequence auditRecordId = some guid) :
    ∃ audit observation, t.entry = .audited audit observation ∧
      audit.auditRecordId = auditRecordId ∧ isGitHubDeliveryAuditPayload audit = true ∧
      sequence < t.sequence ∧ audit.repositoryId = gap.repositoryId ∧ audit.appId = gap.appId ∧
      audit.installationId = gap.installationId ∧ audit.deliveryGuid = guid := by
  unfold SourceTransaction.eligible at h
  split at h
  · next audit observation hentry =>
    simp only [Option.ite_none_right_eq_some, Option.some.injEq] at h
    obtain ⟨⟨hid, hvalid, hlater, hrepo, happ, hinstallation⟩, hguid⟩ := h
    exact ⟨audit, observation, hentry, hid, hvalid, hlater, hrepo, happ, hinstallation, hguid⟩
  · exact nomatch h

/-! ## What a gap that is closed had -/

section Closed

variable {evaluationTime : Instant} {recordIds : List String} {calls : List SourceInput}
  {gap : GitHubSourceGapPayload} {github : GitHubDeliveries} {audits : List SourceInput}
  {repair : SourceInput}

/-- Audits leave a gap open. -/
theorem AuditsOf.openGap {db db' : SourceLedger} (h : AuditsOf github db db')
    (hopen : gap ∈ openGaps gap.repositoryId db.transactions) :
    gap ∈ openGaps gap.repositoryId db'.transactions := by
  obtain ⟨new, hnew, hentries⟩ := h.entries
  obtain ⟨hgap, hunrepaired⟩ := mem_openGaps.mp hopen
  rw [hnew]
  refine mem_openGaps.mpr ⟨?_, fun t ht => ?_⟩
  · obtain ⟨t, ht, hentry⟩ := mem_gapsOf.mp hgap
    exact mem_gapsOf.mpr ⟨t, List.mem_append_left _ ht, hentry⟩
  · rcases List.mem_append.mp ht with ht | ht
    · exact hunrepaired t ht
    · obtain ⟨audit, observation, hentry, -⟩ := hentries t ht
      simp [hentry, SourceEntry.repairs]

/-- **An affected delivery whose audit is cited** had one before the audits, or
could be audited. -/
theorem AuditsOf.evidence {db db' : SourceLedger} (h : AuditsOf github db db')
    (hgap : gap ∈ gapsOf gap.repositoryId db.transactions) {guid : String}
    (haudited : AuditedAfter db'.transactions gap guid) :
    AuditedAfter db.transactions gap guid ∨ Auditable db gap github guid := by
  obtain ⟨new, hnew, hentries⟩ := h.entries
  obtain ⟨sequence, auditRecordId, hsequence, heligible⟩ := haudited
  rw [hnew, (gapSequence_append hgap).1] at hsequence
  rw [hnew, eligibleAudit, List.findSome?_append] at heligible
  cases hbefore : db.transactions.findSome? (·.eligible gap sequence auditRecordId) with
  | some found =>
    rw [hbefore, Option.some_or] at heligible
    exact Or.inl ⟨sequence, auditRecordId, hsequence, hbefore.trans heligible⟩
  | none =>
    rw [hbefore, Option.none_or] at heligible
    obtain ⟨t, ht, heligible⟩ := List.exists_of_findSome?_eq_some heligible
    obtain ⟨audit, observation, hentry, d, hd, happ, hrepo, hinstallation, hguid, hdirect, hkey⟩ :=
      hentries t ht
    obtain ⟨audit', _, hentry', -, -, -, hrepo', happ', hinstallation', hguid'⟩ :=
      eligible_eq_some heligible
    obtain ⟨rfl, -⟩ := SourceEntry.audited.inj (hentry.symm.trans hentry')
    have hof : d.Of gap := ⟨hrepo.symm.trans hrepo', happ.symm.trans happ',
      hinstallation.symm.trans hinstallation'⟩
    rw [hguid] at hguid'
    rw [hof.2.1, hguid'] at hdirect
    exact Or.inr ⟨hdirect, d, hd, hguid', hof, hkey⟩

/-- **A gap that a continuation closes can be closed.** -/
theorem Closes.closable (h : Closes sha256 evaluationTime recordIds calls gap github audits repair)
    (hopen : gap ∈ openGaps gap.repositoryId
      ((sourceMachine sha256 evaluationTime recordIds).run calls).transactions)
    (hcontent : gap.coverageFailureKind = .deliveryContent) :
    Closable ((sourceMachine sha256 evaluationTime recordIds).run calls) gap github := by
  obtain ⟨input, hcall⟩ := h.repaired
  obtain ⟨t, db', hreturns, hclosed⟩ := h.closed
  simp only [SourceInput.exec, hcall, Tx.returns_bind, Tx.returns_pure] at hreturns
  obtain ⟨t', dbRepaired, hrun, -, rfl⟩ := hreturns
  have haudits := @AuditsOf.of_after sha256 _ evaluationTime recordIds _ h.audited
    ((sourceMachine sha256 evaluationTime recordIds).run calls)
  have hlawful := @lawful_run sha256 evaluationTime recordIds (calls ++ audits)
  rw [Machine.run_append] at hrun hlawful
  have hgap := (mem_openGaps.mp hopen).1
  have hopen := haudits.openGap hopen
  generalize (sourceMachine sha256 evaluationTime recordIds).after
    ((sourceMachine sha256 evaluationTime recordIds).run calls) audits = dbAudited at *
  obtain ⟨-, -, hrun⟩ := returns_repair.mp hrun
  cases hprior : dbAudited.receipts.find? (fun receipt => receipt.kind = .repairSourceGap ∧
    receipt.key = s!"github-gap-repair:{input.runId}") with
  | some prior =>
    -- a repair that was recorded before closes nothing
    rw [hprior] at hrun
    obtain ⟨-, -, rfl⟩ := hrun
    exact absurd hopen hclosed
  | none =>
    rw [hprior] at hrun
    obtain ⟨-, henrolled, gap', hgap', hvalid, -, -, -, hevidence, -, -, -, entry, hentry,
      hcommit⟩ := hrun
    obtain ⟨-, -, rfl, rfl⟩ := returns_commitEntry.mp hcommit
    simp only [repairEntry, except_bind_eq_ok, except_pure_eq_ok] at hentry
    obtain ⟨_, -, _, -, _, -, rfl⟩ := hentry
    have hsame : gap'.gapRecordId = gap.gapRecordId := by
      by_contra hne
      obtain ⟨hthere, hunrepaired⟩ := mem_openGaps.mp hopen
      refine hclosed (mem_openGaps.mpr ⟨?_, fun t ht => ?_⟩)
      · rw [gapsOf_concat]
        exact List.mem_append_left _ hthere
      · rcases List.mem_append.mp ht with ht | ht
        · exact hunrepaired t ht
        · rw [List.mem_singleton.mp ht]
          simpa [SourceEntry.repairs] using hne
    have hthere := (mem_openGaps.mp (List.mem_of_getLast? hgap')).1
    obtain rfl := hlawful.gap_unique hthere (mem_openGaps.mp hopen).1 hsame
    obtain ⟨_, _, _, _, hrepo⟩ := mem_gapsOf.mp hthere
    refine ⟨?_, hvalid, fun guid hguid => haudits.evidence hgap ?_⟩
    · rw [← haudits.enrolled, hrepo]
      exact henrolled
    · obtain ⟨-, sequence, hsequence, guids, hguids, hsorted⟩ :=
        (assertEvidence_eq_ok hcontent).mp hevidence
      rw [← hsorted] at hguid
      obtain ⟨auditRecordId, -, heligible⟩ :=
        mem_of_mapM hguids ((List.perm_insertionSort _ _).mem_iff.mp hguid)
      exact ⟨sequence, auditRecordId, hsequence, heligible⟩

end Closed

/-! ## Closing a gap -/

/-- The moments of the continuation: a reading of the clock, with three
identifiers. -/
def momentOf (now : Instant) (a b c : { id : String // isUuidV7 id = true }) : SourceMoment :=
  ⟨now, fun k => if k = 1 then a else if k = 2 then b else c, .ok ()⟩

theorem uuidV7_momentOf {now : Instant} (hnow : encodable now)
    (a b c : { id : String // isUuidV7 id = true }) (k : ℕ) :
    (momentOf now a b c).uuidV7 k = .ok ((momentOf now a b c).drawn k).1 := by
  simp only [SourceMoment.uuidV7, except_bind_eq_ok, refuseIf_eq_ok, not_not, except_pure_eq_ok]
  exact ⟨(), hnow, trivial⟩

/-- **A delivery that can be recorded is recorded at any moment.** -/
theorem auditedEntry_of_recordable {d : GitHubPullRequestDeliveryRepairInput}
    (h : d.Recordable sha256) {now : Instant} (hnow : encodable now)
    {a b c : { id : String // isUuidV7 id = true }} (hab : a ≠ b) (hac : a ≠ c) (hbc : b ≠ c)
    (n : ℕ) : ∃ audit observation,
      auditedEntry sha256 (momentOf now a b c) (d.at_ n) = .ok (.audited audit observation) ∧
      SourceEntry.recordIds (.audited audit observation) = [a.1, b.1, c.1] ∧
      audit.appId = d.appId ∧ audit.repositoryId = d.repositoryId ∧
      audit.installationId = d.installationId ∧ audit.deliveryGuid = d.deliveryGuid ∧
      isGitHubDeliveryAuditPayload audit = true := by
  obtain ⟨-, m, entry, hentry⟩ := h
  simp only [auditedEntry, except_bind_eq_ok, except_pure_eq_ok, refuseIf_eq_ok,
    Bool.not_eq_false] at hentry
  obtain ⟨_, -, _, -, _, -, _, haudit, _, hobservation, -⟩ := hentry
  simp only [isGitHubDeliveryAuditPayload, Bool.and_eq_true] at haudit
  obtain ⟨⟨⟨⟨haudit, -⟩, -⟩, -⟩, -⟩ := haudit
  simp only [isGitHubPullRequestObservationPayload, Bool.and_eq_true] at hobservation
  obtain ⟨⟨⟨⟨⟨hobservation, -⟩, -⟩, hdigest⟩, hfits⟩, hshape⟩ := hobservation
  have hthree : threeRecords a.1 b.1 c.1 = true := by
    have hne {x y : { id : String // isUuidV7 id = true }} (h : x ≠ y) : (x.1 != y.1) = true :=
      bne_iff_ne.mpr fun heq => h (Subtype.ext heq)
    simp only [threeRecords, hne hab, hne hac, hne hbc, Bool.and_self]
  simp only [auditedEntry, uuidV7_momentOf hnow, except_bind_eq_ok, refuseIf_eq_ok, except_pure_eq_ok,
    Bool.not_eq_false, Except.ok.injEq, exists_eq_left']
  refine ⟨_, _, ⟨(), ?_, (), ?_, rfl⟩, rfl, rfl, rfl, rfl, rfl, ?_⟩
  · simp only [isGitHubDeliveryAuditPayload, Bool.and_eq_true]
    exact ⟨⟨⟨⟨haudit, a.2⟩, b.2⟩, c.2⟩, hthree⟩
  · simp only [isGitHubPullRequestObservationPayload, Bool.and_eq_true]
    exact ⟨⟨⟨⟨⟨hobservation, a.2⟩, b.2⟩, hdigest⟩, hfits⟩, hshape⟩
  · simp only [isGitHubDeliveryAuditPayload, Bool.and_eq_true]
    exact ⟨⟨⟨⟨haudit, a.2⟩, b.2⟩, c.2⟩, hthree⟩

/-- Deliveries of one App have keys of their own. -/
theorem deliveryId_eq_of_key {d d' : GitHubPullRequestDeliveryRepairInput}
    (happ : d.appId = d'.appId) (h : d.key = d'.key) : d.deliveryId = d'.deliveryId := by
  rw [← GitHubPullRequestDeliveryRepairInput.key_eq, ← GitHubPullRequestDeliveryRepairInput.key_eq,
    happ] at h
  exact (String.append_right_inj _).mp h

/-- **A ledger on the way to closing a gap**: some deliveries are still to be
audited. -/
structure Stage (gap : GitHubSourceGapPayload) (github : GitHubDeliveries) (now : Instant)
    (runId : String) (pending : List String) (db : SourceLedger) : Prop where
  enrolled : gap.repositoryId ∈ db.enrolled
  opened : gap ∈ gapsOf gap.repositoryId db.transactions
  sequences : ∀ t ∈ db.transactions, t.sequence ≤ db.lastTransactionSequence
  positive : 1 ≤ db.lastTransactionSequence
  room : db.lastTransactionSequence + pending.length ≤ maximumSafeInteger
  ids : ∃ ids : List { id : String // isUuidV7 id = true }, ids.length = 3 * pending.length + 3 ∧
    ids.Nodup ∧ ∀ id ∈ ids, id.1 ∉ db.recordIds
  clock : ¬ now.text < db.controlTimeWatermark.text
  run : ¬ db.Received .repairSourceGap s!"github-gap-repair:{runId}"
  distinct : pending.Nodup
  auditable : ∀ guid ∈ pending, Auditable db gap github guid

/-- An input that is taken is taken at any sequence. -/
theorem normalizeRepair_at {d : GitHubPullRequestDeliveryRepairInput} {n : ℕ}
    (h : normalizeGitHubPullRequestDeliveryRepairInput (d.at_ 1) = .ok (d.at_ 1)) (hpos : 1 ≤ n)
    (hle : n ≤ maximumSafeInteger) :
    normalizeGitHubPullRequestDeliveryRepairInput (d.at_ n) = .ok (d.at_ n) := by
  simp only [normalizeGitHubPullRequestDeliveryRepairInput, except_bind_eq_ok,
    except_pure_eq_ok] at h ⊢
  obtain ⟨_, -, u, hfields, v, htime, w, hinput, -⟩ := h
  have hsequence : assertExpectedSequence n = .ok () := by
    rw [assertExpectedSequence, refuseIf_eq_ok]
    omega
  exact ⟨(), hsequence, u, hfields, v, htime, w, hinput, trivial⟩

/-- What audits do not change of a gap's evidence. -/
theorem AuditedAfter.append {ts new : List SourceTransaction} {gap : GitHubSourceGapPayload}
    {guid : String} (hgap : gap ∈ gapsOf gap.repositoryId ts) (h : AuditedAfter ts gap guid) :
    AuditedAfter (ts ++ new) gap guid := by
  obtain ⟨sequence, auditRecordId, hsequence, heligible⟩ := h
  refine ⟨sequence, auditRecordId, ?_, ?_⟩
  · rw [(gapSequence_append hgap).1]
    exact hsequence
  · rw [eligibleAudit] at heligible
    rw [eligibleAudit, List.findSome?_append, heligible, Option.some_or]

/-- A ledger with one entry more. -/
def SourceLedger.committed (db : SourceLedger) (kind : SourceCommandKind)
    (key payloadDigest : String) (now : Instant) (entry : SourceEntry) : SourceLedger :=
  { db with
    transactions := db.transactions ++ [⟨db.lastTransactionSequence + 1, entry⟩]
    receipts := ⟨kind, key, payloadDigest, ⟨db.lastTransactionSequence + 1, entry⟩⟩ :: db.receipts
    lastTransactionSequence := db.lastTransactionSequence + 1
    controlTimeWatermark := now }

theorem received_committed {db : SourceLedger} {kind kind' : SourceCommandKind}
    {key key' payloadDigest : String} {now : Instant} {entry : SourceEntry} :
    (db.committed kind key payloadDigest now entry).Received kind' key' ↔
      (kind = kind' ∧ key = key') ∨ db.Received kind' key' := by
  simp [SourceLedger.Received, SourceLedger.committed]

theorem recordIds_committed {db : SourceLedger} {kind : SourceCommandKind}
    {key payloadDigest : String} {now : Instant} {entry : SourceEntry} :
    (db.committed kind key payloadDigest now entry).recordIds = db.recordIds ++ entry.recordIds := by
  simp [SourceLedger.recordIds, SourceLedger.committed]

section Closing

variable {gap : GitHubSourceGapPayload} {github : GitHubDeliveries} {now : Instant} {runId : String}
  {db : SourceLedger}

/-- **An audit of a delivery that can be audited is recorded.** -/
theorem exec_audit {d : GitHubPullRequestDeliveryRepairInput} (hrecord : d.Recordable sha256)
    (hnow : encodable now) (hclock : ¬ now.text < db.controlTimeWatermark.text)
    (hdelivered : ¬ now.text < d.deliveredAt) (henrolled : d.repositoryId ∈ db.enrolled)
    (hdirect : findDirectGitHubDeliveryReceipt db d.appId d.deliveryGuid = false)
    (hkey : ¬ db.Received .recordPullRequestDeliveryRepair d.key)
    (hpositive : 1 ≤ db.lastTransactionSequence)
    (hroom : db.lastTransactionSequence ≤ maximumSafeInteger)
    {a b c : { id : String // isUuidV7 id = true }} (hab : a ≠ b) (hac : a ≠ c) (hbc : b ≠ c)
    (hfresh : ∀ id ∈ [a, b, c], id.1 ∉ db.recordIds) : ∃ audit observation,
      (SourceInput.exec sha256 ⟨.audit (d.at_ db.lastTransactionSequence), momentOf now a b c⟩
        db).2 = db.committed .recordPullRequestDeliveryRepair d.key
          (sha256 (.deliveryRepair (d.at_ db.lastTransactionSequence))).1 now
          (.audited audit observation) ∧
      SourceEntry.recordIds (.audited audit observation) = [a.1, b.1, c.1] ∧
      audit.appId = d.appId ∧ audit.repositoryId = d.repositoryId ∧
      audit.installationId = d.installationId ∧ audit.deliveryGuid = d.deliveryGuid ∧
      isGitHubDeliveryAuditPayload audit = true := by
  obtain ⟨audit, observation, hentry, hrecords, hfields⟩ :=
    auditedEntry_of_recordable hrecord hnow hab hac hbc db.lastTransactionSequence
  refine ⟨audit, observation, ?_, hrecords, hfields⟩
  have hcommit : (commitEntry .recordPullRequestDeliveryRepair d.key
      (sha256 (.deliveryRepair (d.at_ db.lastTransactionSequence))).1 now
      (.audited audit observation)).Returns db
      ⟨db.lastTransactionSequence + 1, .audited audit observation⟩
      (db.committed .recordPullRequestDeliveryRepair d.key
        (sha256 (.deliveryRepair (d.at_ db.lastTransactionSequence))).1 now
        (.audited audit observation)) := by
    refine returns_commitEntry.mpr ⟨?_, ?_, rfl, rfl⟩
    · rw [hrecords]
      simp [Subtype.val_inj, hab, hac, hbc]
    · rw [hrecords]
      simpa using hfresh
  have hnone := find?_receipt.mpr hkey
  have hreturns : (recordAuditedGitHubPullRequestDelivery sha256 (momentOf now a b c)
      (d.at_ db.lastTransactionSequence)).Returns db
      ⟨db.lastTransactionSequence + 1, .audited audit observation⟩
      (db.committed .recordPullRequestDeliveryRepair d.key
        (sha256 (.deliveryRepair (d.at_ db.lastTransactionSequence))).1 now
        (.audited audit observation)) := by
    refine returns_audit.mpr ⟨normalizeRepair_at hrecord.1 hpositive hroom, rfl, ?_⟩
    rw [GitHubPullRequestDeliveryRepairInput.key_at, hnone]
    exact ⟨rfl, henrolled, hdirect, hclock, hdelivered, _, hentry, hcommit⟩
  have hexec : (SourceInput.exec sha256 ⟨.audit (d.at_ db.lastTransactionSequence),
      momentOf now a b c⟩).Returns db _ _ :=
    Tx.returns_bind.mpr ⟨_, _, hreturns, Tx.returns_pure.mpr ⟨rfl, rfl⟩⟩
  rw [hexec]

/-- **One delivery is audited.** -/
theorem Stage.audit {guid : String} {pending : List String}
    (h : Stage gap github now runId (guid :: pending) db) (hnow : encodable now)
    (hrecordable : ∀ d ∈ github.served, d.Of gap → d.deliveryGuid = guid →
      d.Recordable sha256 ∧ ¬ now.text < d.deliveredAt) :
    ∃ i : SourceInput, i.moment.now = now ∧
      (∃ d ∈ github.served, ∃ sequence, i.call = .audit (d.at_ sequence)) ∧
      Stage gap github now runId pending (i.exec sha256 db).2 ∧
      AuditedAfter (i.exec sha256 db).2.transactions gap guid := by
  obtain ⟨hdirect, d, hd, rfl, hof, hkey⟩ := h.auditable guid List.mem_cons_self
  obtain ⟨hrecord, hdelivered⟩ := hrecordable d hd hof rfl
  obtain ⟨ids, hlength, hnodup, hfresh⟩ := h.ids
  obtain ⟨a, b, c, ids, rfl⟩ : ∃ a b c rest, ids = a :: b :: c :: rest := by
    match ids, hlength with
    | a :: b :: c :: rest, _ => exact ⟨a, b, c, rest, rfl⟩
  have hroom := h.room
  simp only [List.length_cons] at hroom hlength
  simp only [List.nodup_cons, List.mem_cons, not_or] at hnodup
  obtain ⟨⟨hab, hac, ha⟩, ⟨hbc, hb⟩, hc, hnodup⟩ := hnodup
  obtain ⟨hguid, hdistinct⟩ := List.nodup_cons.mp h.distinct
  obtain ⟨audit, observation, hexec, hrecords, happ, hrepo, hinstallation, hsame, hvalid⟩ :=
    exec_audit hrecord hnow h.clock hdelivered (hof.1 ▸ h.enrolled) (hof.2.1 ▸ hdirect) hkey
      h.positive (by omega) hab hac hbc fun id hid => hfresh id (by
        simp only [List.mem_cons, List.not_mem_nil, or_false] at hid ⊢
        tauto)
  refine ⟨⟨.audit (d.at_ db.lastTransactionSequence), momentOf now a b c⟩, rfl, ⟨d, hd, _, rfl⟩,
    ?_, ?_⟩
  · rw [hexec]
    refine ⟨h.enrolled, ?_, ?_, Nat.le_add_left 1 _, ?_, ⟨ids, by omega, hnodup, ?_⟩, ?_, ?_,
      hdistinct, ?_⟩
    · rw [SourceLedger.committed, gapsOf_concat]
      exact List.mem_append_left _ h.opened
    · intro t ht
      rcases List.mem_append.mp ht with ht | ht
      · exact Nat.le_succ_of_le (h.sequences t ht)
      · rw [List.mem_singleton.mp ht]
        exact Nat.le_refl _
    · show db.lastTransactionSequence + 1 + pending.length ≤ _
      omega
    · -- the identifiers that are left are not those of the new records
      intro id hid
      rw [recordIds_committed, hrecords, List.mem_append, not_or]
      refine ⟨hfresh id (by simp [hid]), ?_⟩
      simp only [List.mem_cons, List.not_mem_nil, or_false, Subtype.val_inj]
      rintro (rfl | rfl | rfl)
      · exact ha hid
      · exact hb hid
      · exact hc hid
    · exact lt_irrefl now.text
    · rw [received_committed]
      rintro (⟨hkind, -⟩ | hreceived)
      · exact nomatch hkind
      · exact h.run hreceived
    · -- a delivery with another guid has an identity, and so a key, of its own
      intro guid hpending
      obtain ⟨hdirect', d', hd', rfl, hof', hkey'⟩ :=
        h.auditable guid (List.mem_cons_of_mem _ hpending)
      refine ⟨?_, d', hd', rfl, hof', ?_⟩
      · rw [← hdirect']
        simp [findDirectGitHubDeliveryReceipt, SourceLedger.committed]
      · rw [received_committed]
        rintro (⟨-, hsameKey⟩ | hreceived)
        · have hsameApp := hof.2.1.trans hof'.2.1.symm
          have := github.identified d hd d' hd' hsameApp (deliveryId_eq_of_key hsameApp hsameKey)
          exact hguid (this ▸ hpending)
        · exact hkey' hreceived
  · rw [hexec]
    obtain ⟨t, ht, hsequence⟩ := (@gapSequence_append _ [] _ _ h.opened).2
    refine ⟨t.sequence, audit.auditRecordId, ?_, ?_⟩
    · rw [SourceLedger.committed, (gapSequence_append h.opened).1]
      exact hsequence
    · -- no earlier audit has the new record's identifier
      have hrecord : audit.auditRecordId = a.1 := (List.cons.inj hrecords).1
      have hnone : db.transactions.findSome? (·.eligible gap t.sequence audit.auditRecordId) =
          none := by
        refine List.findSome?_eq_none_iff.mpr fun t' ht' => ?_
        by_contra heligible
        obtain ⟨found, hfound⟩ := Option.ne_none_iff_exists'.mp heligible
        obtain ⟨audit', observation', hentry', hid, -⟩ := eligible_eq_some hfound
        refine hfresh a List.mem_cons_self (List.mem_append_right _ ?_)
        refine List.mem_flatMap.mpr ⟨t', ht', ?_⟩
        rw [hentry', ← hrecord, ← hid]
        exact List.mem_cons_self
      rw [eligibleAudit, SourceLedger.committed, List.findSome?_append, hnone, Option.none_or,
        List.findSome?_singleton]
      have hlater : t.sequence < db.lastTransactionSequence + 1 :=
        Nat.lt_succ_of_le (h.sequences t ht)
      simp only [SourceTransaction.eligible]
      rw [if_pos ⟨trivial, hvalid, hlater, hrepo.trans hof.1, happ.trans hof.2.1,
        hinstallation.trans hof.2.2⟩, hsame]

/-- **All the deliveries are audited**, one after the other. -/
theorem Stage.audits {pending : List String} (h : Stage gap github now runId pending db)
    (hnow : encodable now)
    (hrecordable : ∀ d ∈ github.served, d.Of gap → d.deliveryGuid ∈ pending →
      d.Recordable sha256 ∧ ¬ now.text < d.deliveredAt)
    (evaluationTime : Instant) (recordIds : List String) :
    ∃ audits : List SourceInput, (∀ i ∈ audits, i.moment.now = now) ∧
      (∀ i ∈ audits, ∃ d ∈ github.served, ∃ sequence, i.call = .audit (d.at_ sequence)) ∧
      Stage gap github now runId []
        ((sourceMachine sha256 evaluationTime recordIds).after db audits) ∧
      ∀ guid ∈ pending, AuditedAfter
        ((sourceMachine sha256 evaluationTime recordIds).after db audits).transactions gap guid := by
  induction pending generalizing db with
  | nil => exact ⟨[], (fun _ h => nomatch h), (fun _ h => nomatch h), h, (fun _ h => nomatch h)⟩
  | cons guid pending ih =>
    obtain ⟨i, hclock, hcall, hstage, haudited⟩ := h.audit hnow fun d hd hof hguid =>
      hrecordable d hd hof (hguid ▸ List.mem_cons_self)
    obtain ⟨audits, hclocks, hcalls, hdone, hall⟩ := ih hstage fun d hd hof hguid =>
      hrecordable d hd hof (List.mem_cons_of_mem _ hguid)
    refine ⟨i :: audits, List.forall_mem_cons.mpr ⟨hclock, hclocks⟩,
      List.forall_mem_cons.mpr ⟨hcall, hcalls⟩, hdone, ?_⟩
    rintro guid' hguid'
    rcases List.mem_cons.mp hguid' with rfl | hguid'
    · obtain ⟨new, hnew, -⟩ := (@AuditsOf.of_after sha256 _ evaluationTime recordIds _ hcalls
        (i.exec sha256 db).2).entries
      show AuditedAfter ((sourceMachine sha256 evaluationTime recordIds).after
        (i.exec sha256 db).2 audits).transactions gap guid'
      rw [hnew]
      exact haudited.append hstage.opened
    · exact hall guid' hguid'

/-- Texts are put in one order, whatever the order they come in. -/
theorem sortTexts_eq_of_perm {texts texts' : List String} (h : texts.Perm texts') :
    sortTexts texts = sortTexts texts' :=
  (((List.perm_insertionSort _ texts).trans h).trans
    (List.perm_insertionSort _ texts').symm).eq_of_pairwise'
    (List.pairwise_insertionSort _ _) (List.pairwise_insertionSort _ _)

/-- **Deliveries that all have an audit are evidence**: the records of the audits,
in order. -/
theorem evidence_of_audited {ts : List SourceTransaction}
    (hcontent : gap.coverageFailureKind = .deliveryContent)
    (hcanonical : isCanonicalGitHubDeliveryGuidSet gap.affectedDeliveryGuids = true)
    (hgap : gap ∈ gapsOf gap.repositoryId ts)
    (haudited : ∀ guid ∈ gap.affectedDeliveryGuids, AuditedAfter ts gap guid) :
    ∃ ids : List String, ids.length = gap.affectedDeliveryGuids.length ∧
      (∀ id ∈ ids, isUuidV7 id = true) ∧ ids.Nodup ∧ ids = sortTexts ids ∧
      assertEvidence ts gap ids = .ok () := by
  obtain ⟨found, -, hsequence⟩ := (@gapSequence_append _ [] _ _ hgap).2
  simp only [isCanonicalGitHubDeliveryGuidSet, Bool.and_eq_true, decide_eq_true_eq,
    beq_iff_eq] at hcanonical
  obtain ⟨⟨-, hnodup⟩, hsorted⟩ := hcanonical
  -- one audit for each delivery
  have hchoice : ∀ guid ∈ gap.affectedDeliveryGuids, ∃ id,
      eligibleAudit ts gap found.sequence id = some guid := by
    intro guid hguid
    obtain ⟨sequence, id, hfound, heligible⟩ := haudited guid hguid
    obtain rfl := Option.some.inj (hsequence.symm.trans hfound)
    exact ⟨id, heligible⟩
  choose! f hf using hchoice
  have hread : (gap.affectedDeliveryGuids.map f).map
      (fun id => (eligibleAudit ts gap found.sequence id).getD "") = gap.affectedDeliveryGuids := by
    rw [List.map_map]
    refine (List.map_congr_left fun guid hguid => ?_).trans (List.map_id _)
    simp [hf guid hguid]
  have hperm : (sortTexts (gap.affectedDeliveryGuids.map f)).Perm
      (gap.affectedDeliveryGuids.map f) := List.perm_insertionSort _ _
  have hlength : (sortTexts (gap.affectedDeliveryGuids.map f)).length =
      gap.affectedDeliveryGuids.length := by
    rw [hperm.length_eq, List.length_map]
  have heach : ∀ id ∈ sortTexts (gap.affectedDeliveryGuids.map f),
      ∃ guid, eligibleAudit ts gap found.sequence id = some guid := by
    intro id hid
    obtain ⟨guid, hguid, rfl⟩ := List.mem_map.mp (hperm.mem_iff.mp hid)
    exact ⟨guid, hf guid hguid⟩
  refine ⟨sortTexts (gap.affectedDeliveryGuids.map f), hlength, fun id hid => ?_, ?_,
    sortTexts_eq_of_perm hperm.symm, ?_⟩
  · obtain ⟨guid, heligible⟩ := heach id hid
    obtain ⟨t, -, ht⟩ := List.exists_of_findSome?_eq_some heligible
    obtain ⟨audit, _, -, rfl, hvalid, -⟩ := eligible_eq_some ht
    simp only [isGitHubDeliveryAuditPayload, Bool.and_eq_true] at hvalid
    exact hvalid.1.1.1.2
  · refine hperm.nodup_iff.mpr (hnodup.map_on fun guid hguid guid' hguid' hsame => ?_)
    have heq := hf guid hguid
    rw [hsame, hf guid' hguid'] at heq
    exact (Option.some.inj heq).symm
  · refine (assertEvidence_eq_ok hcontent).mpr ⟨hlength, found.sequence, hsequence, _,
      mapM_eq_map (g := fun id => (eligibleAudit ts gap found.sequence id).getD "") ?_, ?_⟩
    · intro id hid
      obtain ⟨guid, heligible⟩ := heach id hid
      rw [heligible]
      rfl
    · rw [sortTexts_eq_of_perm (hperm.map _), hread]
      exact hsorted.symm

/-- What the contract of a gap asks for. -/
theorem gap_contract (h : isGitHubSourceGapPayload gap = true) :
    Patterns.repositoryId.test gap.repositoryId = true ∧ Patterns.appId.test gap.appId = true ∧
      Patterns.installationId.test gap.installationId = true ∧
      isUuidV7 gap.gapRecordId = true ∧
      isCanonicalGitHubDeliveryGuidSet gap.affectedDeliveryGuids = true ∧
      gap.lowerBoundAt ≤ gap.detectedAt := by
  simp only [isGitHubSourceGapPayload, Bool.and_eq_true, decide_eq_true_eq] at h
  obtain ⟨⟨⟨⟨⟨⟨⟨⟨⟨hrepo, happ⟩, hinstallation⟩, -⟩, -⟩, hid⟩, hguids⟩, -⟩, -⟩, hbound⟩ := h
  exact ⟨hrepo, happ, hinstallation, hid, hguids, hbound⟩

/-- The input of a repair is taken. -/
theorem normalizeGapRepair_ok {input : GitHubSourceGapRepairInput}
    (hsequence : 1 ≤ input.expectedLastTransactionSequence ∧
      input.expectedLastTransactionSequence ≤ maximumSafeInteger)
    (hrun : isUuidV7 input.runId = true) (happ : Patterns.appId.test input.appId = true)
    (hinstallation : Patterns.installationId.test input.installationId = true)
    (hrepo : Patterns.repositoryId.test input.repositoryId = true) (hpages : input.pageCount = 1)
    (hdeliveries : input.deliveryCount = 0)
    (hproof : Patterns.sha256Digest.test input.pageProofDigest = true)
    (hselected : Patterns.sha256Digest.test input.selectedResponseDigest = true)
    (hgap : isUuidV7 input.gapRecordId = true) (hlength : input.repairAuditRecordIds.length ≤ 100)
    (hids : ∀ id ∈ input.repairAuditRecordIds, isUuidV7 id = true)
    (hnodup : input.repairAuditRecordIds.Nodup)
    (hsorted : input.repairAuditRecordIds = sortTexts input.repairAuditRecordIds) :
    normalizeGitHubSourceGapRepairInput input = .ok input := by
  simp only [normalizeGitHubSourceGapRepairInput, assertExpectedSequence, assertCoverage,
    except_bind_eq_ok, refuseIf_eq_ok, except_pure_eq_ok, hrun, happ, hinstallation, hrepo, hpages,
    hdeliveries, hproof, hselected, hgap]
  refine ⟨(), by omega, (), by decide, (), by decide, (), ?_, trivial⟩
  rintro (hlong | hid | hrepeated | hunsorted)
  · omega
  · have := List.all_eq_true.mpr hids
    rw [this] at hid
    cases hid
  · exact hrepeated hnodup
  · exact hunsorted hsorted

/-- The records of a repair, at any moment. -/
theorem repairEntry_momentOf {input : GitHubSourceGapRepairInput} (hnow : encodable now)
    (a b c : { id : String // isUuidV7 id = true }) : ∃ entry,
      repairEntry sha256 (momentOf now a b c) input gap = .ok entry ∧
      entry.recordIds = [c.1, a.1, b.1] ∧ entry.repairs gap.gapRecordId = true := by
  simp only [repairEntry, uuidV7_momentOf hnow, except_bind_eq_ok, except_pure_eq_ok,
    Except.ok.injEq, exists_eq_left']
  exact ⟨rfl, beq_self_eq_true _⟩

/-- **The repair is recorded, and closes the gap.** -/
theorem Stage.repair (h : Stage gap github now runId [] db) (hnow : encodable now)
    (hlawful : Lawful db.transactions)
    (hopen : gap ∈ openGaps gap.repositoryId db.transactions)
    (hcontract : isGitHubSourceGapPayload gap = true) (hrun : isUuidV7 runId = true)
    {through : Instant} (hlater : gap.lowerBoundAt < through) (hthrough : ¬ now.text < through.text)
    {ids : List String} (hlength : ids.length = gap.affectedDeliveryGuids.length)
    (hids : ∀ id ∈ ids, isUuidV7 id = true) (hnodup : ids.Nodup) (hsorted : ids = sortTexts ids)
    (hevidence : assertEvidence db.transactions gap ids = .ok ()) :
    ∃ i : SourceInput, i.moment.now = now ∧ (∃ input, i.call = .repairGap input) ∧
      ∃ t db', (i.exec sha256).Returns db (some t) db' ∧
        gap ∉ openGaps gap.repositoryId db'.transactions := by
  obtain ⟨unused, hcount, hdistinct, hfresh⟩ := h.ids
  obtain ⟨a, b, c, rfl⟩ : ∃ a b c, unused = [a, b, c] := by
    match unused, hcount with
    | [a, b, c], _ => exact ⟨a, b, c, rfl⟩
  simp only [List.nodup_cons, List.mem_cons, List.not_mem_nil, or_false, not_or, not_false_eq_true,
    List.nodup_nil, and_true] at hdistinct
  obtain ⟨⟨hab, hac⟩, hbc⟩ := hdistinct
  let digest := (sha256 (.gap gap)).1
  have hdigest : Patterns.sha256Digest.test digest = true := (sha256 (.gap gap)).2
  let input : GitHubSourceGapRepairInput := ⟨db.lastTransactionSequence, runId, gap.repositoryId,
    gap.appId, gap.installationId, through, 1, 0, digest, digest, gap.gapRecordId, ids⟩
  have hroom := h.room
  have hpositive := h.positive
  obtain ⟨hrepo, happ, hinstallation, hid, hguids, -⟩ := gap_contract hcontract
  have hhundred : ids.length ≤ 100 := by
    simp only [isCanonicalGitHubDeliveryGuidSet, Bool.and_eq_true, decide_eq_true_eq] at hguids
    rw [hlength]
    exact hguids.1.1.1
  have hinput : normalizeGitHubSourceGapRepairInput input = .ok input :=
    normalizeGapRepair_ok ⟨hpositive, by simpa using hroom⟩ hrun happ hinstallation hrepo rfl rfl
      hdigest hdigest hid hhundred hids hnodup hsorted
  have hlast : (openGaps gap.repositoryId db.transactions).getLast? = some gap := by
    rcases @Lawful.openGaps_latest _ gap.repositoryId hlawful with hnone | ⟨g, _, hone, -⟩
    · rw [hnone] at hopen
      exact nomatch hopen
    · rw [hone] at hopen ⊢
      rw [List.mem_singleton.mp hopen]
      rfl
  obtain ⟨entry, hentry, hrecords, hrepairs⟩ :=
    @repairEntry_momentOf sha256 gap _ input hnow a b c
  have hcommit : (commitEntry .repairSourceGap s!"github-gap-repair:{input.runId}"
      (sha256 (.gapRepairInput input)).1 now entry).Returns db
      ⟨db.lastTransactionSequence + 1, entry⟩ (db.committed .repairSourceGap
        s!"github-gap-repair:{input.runId}" (sha256 (.gapRepairInput input)).1 now entry) := by
    refine returns_commitEntry.mpr ⟨?_, ?_, rfl, rfl⟩
    · rw [hrecords]
      simp [Subtype.val_inj, hab, Ne.symm hac, Ne.symm hbc]
    · rw [hrecords]
      simp only [List.mem_cons, List.not_mem_nil, or_false]
      rintro id (rfl | rfl | rfl)
      · exact hfresh c (by simp)
      · exact hfresh a (by simp)
      · exact hfresh b (by simp)
  have hnone := find?_receipt.mpr h.run
  have hreturns : (repairGitHubSourceGap sha256 (momentOf now a b c) input).Returns db
      ⟨db.lastTransactionSequence + 1, entry⟩ (db.committed .repairSourceGap
        s!"github-gap-repair:{input.runId}" (sha256 (.gapRepairInput input)).1 now entry) := by
    refine returns_repair.mpr ⟨hinput, rfl, ?_⟩
    rw [show input.runId = runId from rfl, hnone]
    exact ⟨rfl, h.enrolled, gap, hlast, hcontract, rfl, rfl, rfl, hevidence, hlater, h.clock,
      hthrough, entry, hentry, hcommit⟩
  refine ⟨⟨.repairGap input, momentOf now a b c⟩, rfl, ⟨input, rfl⟩, _, _,
    Tx.returns_bind.mpr ⟨_, _, hreturns, Tx.returns_pure.mpr ⟨rfl, rfl⟩⟩, fun hstill => ?_⟩
  have := (mem_openGaps.mp hstill).2 ⟨db.lastTransactionSequence + 1, entry⟩
    (List.mem_append_right _ List.mem_cons_self)
  rw [hrepairs] at this
  exact nomatch this

end Closing

/-! ## Which gaps can be closed -/

section Runs

variable {evaluationTime : Instant} {recordIds : List String} {calls : List SourceInput}
  {gap : GitHubSourceGapPayload} {github : GitHubDeliveries} {now : Instant}

theorem one_le_sequence_run (calls : List SourceInput) : 1 ≤
    ((sourceMachine sha256 evaluationTime recordIds).run calls).lastTransactionSequence := by
  refine (sourceMachine sha256 evaluationTime recordIds).invariant
    (P := fun db => 1 ≤ db.lastTransactionSequence) (Nat.le_refl 1) ?_ calls
  intro db i hpos
  show 1 ≤ (i.exec sha256 db).2.lastTransactionSequence
  rcases @step_lengthens sha256 db i with ⟨-, hlast⟩ | ⟨t, -, hsequence, hlast, -⟩
  · exact Nat.le_trans hpos hlast
  · omega

/-- A gap was detected at a time that identifiers encode. -/
theorem Lawful.encodable {ts : List SourceTransaction} (h : Lawful ts) {repositoryId : String}
    (hgap : gap ∈ gapsOf repositoryId ts) : Snowcat.encodable gap.detectedAt := by
  obtain ⟨t, ht, e, hentry, -⟩ := mem_gapsOf.mp hgap
  obtain ⟨pre, post, hsplit⟩ := List.append_of_mem ht
  have hadmitted := (h.admitted hsplit).2
  rw [hentry] at hadmitted
  exact hadmitted.2.1

/-- The source time of a delivery that can be recorded is an instant's text. -/
theorem GitHubPullRequestDeliveryRepairInput.Recordable.deliveredAt
    {d : GitHubPullRequestDeliveryRepairInput} (h : d.Recordable sha256) :
    ∃ i : Instant, i.text = d.deliveredAt := by
  have hnormalized := h.1
  simp only [normalizeGitHubPullRequestDeliveryRepairInput, except_bind_eq_ok, refuseIf_eq_ok,
    Bool.not_eq_false] at hnormalized
  obtain ⟨_, -, _, -, _, htime, -⟩ := hnormalized
  exact Instant.isCanonical_iff.mp htime

/-- **There is always a reading of the clock to go on at**: the last of the
four-digit years. -/
theorem ready_greatest
    (hgap : gap ∈ gapsOf gap.repositoryId
      ((sourceMachine sha256 evaluationTime recordIds).run calls).transactions)
    (hcontract : isGitHubSourceGapPayload gap = true)
    (hrecordable : ∀ d ∈ github.served, d.Of gap → d.deliveryGuid ∈ gap.affectedDeliveryGuids →
      d.Recordable sha256) :
    Ready ((sourceMachine sha256 evaluationTime recordIds).run calls) gap github
      Instant.greatest where
  encodable := by decide
  watermark := Instant.not_greatest_text_lt _
  delivered d hd hof hguid := by
    obtain ⟨i, hi⟩ := (hrecordable d hd hof hguid).deliveredAt
    rw [← hi]
    exact Instant.not_greatest_text_lt i
  later := by
    refine ⟨newYear 20000 (by decide), ?_, Instant.not_greatest_text_lt _⟩
    have hbound : gap.lowerBoundAt.key ≤ gap.detectedAt.key := (gap_contract hcontract).2.2.2.2.2
    have hdetected := ((lawful_run calls).encodable hgap).2
    have hyear : Calendar.order 10889 8 2 5 31 50 655 < (newYear 20000 (by decide)).key := by decide
    show gap.lowerBoundAt.key < (newYear 20000 (by decide)).key
    exact lt_of_le_of_lt (hbound.trans hdetected) hyear

/-- **A gap that can be closed is closed at any reading of the clock that the
commands take.** -/
theorem Closable.closes_at
    (h : Closable ((sourceMachine sha256 evaluationTime recordIds).run calls) gap github)
    (hopen : gap ∈ openGaps gap.repositoryId
      ((sourceMachine sha256 evaluationTime recordIds).run calls).transactions)
    (hcontent : gap.coverageFailureKind = .deliveryContent)
    (hrecordable : ∀ d ∈ github.served, d.Of gap → d.deliveryGuid ∈ gap.affectedDeliveryGuids →
      d.Recordable sha256)
    (hroom : Room ((sourceMachine sha256 evaluationTime recordIds).run calls) gap)
    (hready : Ready ((sourceMachine sha256 evaluationTime recordIds).run calls) gap github now) :
    ∃ audits repair, Closes sha256 evaluationTime recordIds calls gap github audits repair ∧
      (∀ i ∈ audits, i.moment.now = now) ∧ repair.moment.now = now := by
  classical
  obtain ⟨-, -, -, -, hguids, -⟩ := gap_contract h.contract
  have hdistinct : gap.affectedDeliveryGuids.Nodup := by
    simp only [isCanonicalGitHubDeliveryGuidSet, Bool.and_eq_true, decide_eq_true_eq] at hguids
    exact hguids.1.2
  obtain ⟨runId, hrunId, hrun⟩ := hroom.run
  obtain ⟨ids, hlength, hnodup, hfresh⟩ := hroom.records
  -- the deliveries without an audit that is evidence are audited first
  let db := (sourceMachine sha256 evaluationTime recordIds).run calls
  let pending := gap.affectedDeliveryGuids.filter fun guid =>
    decide (¬ AuditedAfter db.transactions gap guid)
  have hpending : pending.length ≤ gap.affectedDeliveryGuids.length := List.length_filter_le _ _
  have hstage : Stage gap github now runId pending db := by
    refine ⟨h.enrolled, (mem_openGaps.mp hopen).1, sequence_le_run calls, one_le_sequence_run calls,
      ?_, ⟨ids.take (3 * pending.length + 3), ?_, hnodup.sublist (List.take_sublist _ _), ?_⟩,
      hready.watermark, hrun, hdistinct.filter _, ?_⟩
    · exact Nat.le_trans (Nat.add_le_add_left hpending _) hroom.sequences
    · rw [List.length_take]
      omega
    · exact fun id hid => hfresh id (List.mem_of_mem_take hid)
    · intro guid hguid
      obtain ⟨haffected, hunaudited⟩ := List.mem_filter.mp hguid
      exact (h.evidence guid haffected).resolve_left (of_decide_eq_true hunaudited)
  obtain ⟨audits, hclocks, hcalls, hdone, haudited⟩ := @Stage.audits sha256 _ _ _ _ _ _ hstage
    hready.encodable (fun d hd hof hguid =>
      ⟨hrecordable d hd hof (List.mem_filter.mp hguid).1,
        hready.delivered d hd hof (List.mem_filter.mp hguid).1⟩) evaluationTime recordIds
  have haudits := @AuditsOf.of_after sha256 _ evaluationTime recordIds _ hcalls db
  have hlawful := @lawful_run sha256 evaluationTime recordIds (calls ++ audits)
  rw [Machine.run_append] at hlawful
  have hall : ∀ guid ∈ gap.affectedDeliveryGuids, AuditedAfter
      ((sourceMachine sha256 evaluationTime recordIds).after db audits).transactions gap guid := by
    intro guid hguid
    by_cases hbefore : AuditedAfter db.transactions gap guid
    · obtain ⟨new, hnew, -⟩ := haudits.entries
      rw [hnew]
      exact hbefore.append (mem_openGaps.mp hopen).1
    · exact haudited guid (List.mem_filter.mpr ⟨hguid, decide_eq_true hbefore⟩)
  obtain ⟨citations, hcount, huuids, hcited, hsorted, hevidence⟩ :=
    evidence_of_audited hcontent hguids hdone.opened hall
  obtain ⟨through, hlater, hthrough⟩ := hready.later
  obtain ⟨repair, hclock, hcall, t, db', hrepaired, hclosed⟩ := hdone.repair hready.encodable hlawful
    (haudits.openGap hopen) h.contract hrunId hlater hthrough hcount huuids hcited hsorted hevidence
  refine ⟨audits, repair, ⟨hcalls, hcall, t, db', ?_, hclosed⟩, hclocks, hclock⟩
  rw [Machine.run_append]
  exact hrepaired

end Runs

/-- A delivery of an open pull request. -/
def samplePullRequest : GitHubPullRequest :=
  { number := 1, actorId := "github.com:user:1", state := .open, draft := false, merged := false,
    baseRepositoryId := "github.com:1", baseRef := "main",
    baseCommitId := "sha1:0000000000000000000000000000000000000000",
    headRepositoryId := "github.com:1", headRef := "topic",
    headCommitId := "sha1:0000000000000000000000000000000000000000",
    observedTestMergeCommitId := none, mergedAt := none, mergeCommitId := none,
    sourceUpdatedAt := "2025-06-01T00:00:00.000Z" }

/-- Its guid. -/
def sampleGuid : String := "00000000-0000-0000-0000-000000000000"

/-- The delivery, as GitHub serves it. -/
def sampleDelivery : GitHubPullRequestDeliveryRepairInput :=
  ⟨1, "1", "1", sampleGuid, "2025-06-01T00:00:00.000Z", false, 502, sampleDigest,
    "github.com:installation:1", "github.com:1", .synchronize, samplePullRequest⟩

def sampleGitHub : GitHubDeliveries where
  served := [sampleDelivery]
  identified _ hd _ hd' _ _ := (List.mem_singleton.mp hd).trans (List.mem_singleton.mp hd').symm

/-- A repository whose coverage starts, and whose gap names the delivery. -/
def sampleGapCalls : List SourceInput :=
  sampleStart (newYear 2025 inRange_2025) ++
    [⟨.openGap ⟨3, sampleId 0, "github.com:1", "1", "github.com:installation:1", sampleId 1,
      .sourceUnavailable, .deliveryContent, [sampleGuid]⟩,
      sampleMoment (newYear 2026 inRange_2026) 3⟩]

/-- The gap. -/
def sampleGap : GitHubSourceGapPayload :=
  ⟨"github.com:1", "1", "github.com:installation:1", sampleId 0, sampleId 1, sampleId 3,
    newYear 2025 inRange_2025, .sourceUnavailable, .deliveryContent, [sampleGuid], sampleDigest,
    newYear 2026 inRange_2026⟩

/-- The delivery arrives by webhook after all. -/
def sampleRedelivery : SourceInput :=
  ⟨.deliver ⟨"1", sampleGuid, sampleDigest, 1, "github.com:installation:1", "github.com:1",
    .synchronize, samplePullRequest⟩, sampleMoment (newYear 2026 inRange_2026) 5⟩

/-- The digests of the samples are all the same. -/
def sampleSha256 : Sha256 := fun _ => ⟨sampleDigest, test_sampleDigest⟩

theorem sampleDelivery_recordable : sampleDelivery.Recordable sampleSha256 := by
  refine ⟨by decide +kernel, sampleMoment (newYear 2026 (by decide)) 5, ?_⟩
  have hsome : (auditedEntry sampleSha256 (sampleMoment (newYear 2026 (by decide)) 5)
      sampleDelivery).toOption.isSome = true := by decide +kernel
  obtain ⟨entry, hentry⟩ := Option.isSome_iff_exists.mp hsome
  exact ⟨entry, Tx.except_eq_ok_of_toOption hentry⟩

/-- The ledger behind the gap. -/
def sampleLedger : SourceLedger :=
  let checkpoint : GitHubSourceCheckpointPayload :=
    ⟨"github.com:1", "1", "github.com:installation:1", sampleId 0, none,
      newYear 2025 inRange_2025, newYear 2025 inRange_2025, 1, 0, sampleDigest, sampleDigest,
      sampleDigest, sampleId 1, newYear 2026 inRange_2026⟩
  let first : SourceTransaction := ⟨3, .checkpoint checkpoint (sampleId 2)⟩
  let second : SourceTransaction := ⟨4, .gap sampleGap (sampleId 4)⟩
  { transactions := [first, second]
    receipts :=
      [⟨.openSourceGap, s!"github-gap:{sampleId 0}", sampleDigest, second⟩,
        ⟨.recordSourceCheckpoint, s!"github-checkpoint:{sampleId 0}", sampleDigest, first⟩]
    otherRecordIds := []
    lastTransactionSequence := 4
    controlTimeWatermark := newYear 2026 inRange_2026
    enrolled := ["github.com:1"] }

theorem run_sampleGapCalls : (sourceMachine sampleSha256 (newYear 2026 (by decide)) []).run
    sampleGapCalls = sampleLedger := by decide +kernel

theorem sampleGap_open : sampleGap ∈ openGaps sampleGap.repositoryId sampleLedger.transactions := by
  decide +kernel

theorem sampleGap_room : Room sampleLedger sampleGap where
  sequences := by decide
  records := by
    refine ⟨[5, 6, 7, 8, 9, 10].map fun k => ⟨sampleId k, isUuidV7_sampleId k⟩, rfl, ?_, ?_⟩
    · decide +kernel
    · decide +kernel
  run := by
    refine ⟨sampleId 11, isUuidV7_sampleId 11, ?_⟩
    rintro ⟨receipt, hreceipt, hkind, -⟩
    have hkinds : ∀ receipt ∈ sampleLedger.receipts, receipt.kind ≠ .repairSourceGap := by decide
    exact hkinds receipt hreceipt hkind

/-- Whether a record is that of an audit. -/
def SourceEntry.isAudited : SourceEntry → Bool
  | .audited _ _ => true
  | _ => false

end Snowcat
