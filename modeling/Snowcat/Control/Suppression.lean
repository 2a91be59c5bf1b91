import Snowcat.Control.Readiness

/-!
# A rejection that is not repeated

An automatic check that is rejected just as the newest one was is not
recorded again (`shouldSuppressCoreCandidateRejection`). Two runs are compared
here: one that suppresses such a rejection, and one that records it. Whatever
moves the active snapshot afterwards, in both runs alike, the first run admits
nothing that the second one does not.

The two runs differ in the newest check and in how far their transactions are
numbered (`Beside`). The recorded check is a later copy of the one before: it
is fresh for longer, and it was recorded before every later move, as the one
before was.
-/

namespace Snowcat

open Newest

/-! ## Numbered tables -/

/-- What the tables of every run are: their transactions are numbered up to the last sequence,
their checks were made until the watermark, and no move was sent at the last sequence yet. -/
structure CoreTables.Sound (s : CoreTables) : Prop where
  distinct : (s.transactions.map CoreTransaction.sequence).Nodup
  le_last : ∀ tx ∈ s.transactions, tx.sequence ≤ s.metadata.lastTransactionSequence
  positive : 1 ≤ s.metadata.lastTransactionSequence
  checked : ∀ tx ∈ s.transactions, ∀ check, tx.check? = some check →
    check.checkedAt ≤ s.metadata.controlTimeWatermark
  receipts : ∀ receipt ∈ s.receipts, ∀ n ∈ receipt.payload.idempotencyKey.moveSequence,
    n < s.metadata.lastTransactionSequence

section Sound

variable {s s' : CoreTables} {now : Time}

/-- One more transaction. -/
theorem CoreTables.Sound.record (hs : s.Sound) {kept : List CoreTransaction}
    {tx : CoreTransaction} (hkept : kept.Sublist s.transactions)
    (htransactions : s'.transactions = kept ++ [tx]) (htx : tx.sequence = s.nextSequence)
    (hlast : s'.metadata.lastTransactionSequence = s.nextSequence)
    (hnow : s.metadata.controlTimeWatermark ≤ s'.metadata.controlTimeWatermark)
    (hchecked : ∀ check, tx.check? = some check →
      check.checkedAt ≤ s'.metadata.controlTimeWatermark)
    (hreceipts : KeepsReceipts s s'.receipts) : s'.Sound where
  distinct := by
    rw [htransactions, List.map_append, List.map_singleton]
    refine List.Nodup.append ((hkept.map _).nodup hs.distinct) (List.nodup_singleton _) ?_
    rw [List.disjoint_singleton, htx]
    intro hmem
    obtain ⟨tx', htx', hseq⟩ := List.mem_map.mp hmem
    exact absurd (hs.le_last tx' (hkept.subset htx')) (hseq ▸ Nat.not_succ_le_self _)
  le_last := by
    intro tx' htx'
    rw [htransactions] at htx'
    rw [hlast]
    rcases List.mem_append.mp htx' with htx' | htx'
    · exact le_trans (hs.le_last tx' (hkept.subset htx')) (Nat.le_succ _)
    · rw [List.mem_singleton.mp htx', htx]
  positive := hlast ▸ Nat.le_add_left 1 _
  checked := by
    intro tx' htx' check hcheck
    rw [htransactions] at htx'
    rcases List.mem_append.mp htx' with htx' | htx'
    · exact le_trans (hs.checked tx' (hkept.subset htx') check hcheck) hnow
    · rw [List.mem_singleton.mp htx'] at hcheck
      exact hchecked check hcheck
  receipts := by
    intro receipt hreceipt n hn
    rw [hlast]
    rcases hreceipts receipt hreceipt with hold | hnew
    · exact Nat.lt_succ_of_lt (hs.receipts receipt hold n hn)
    · rw [hnew n hn]
      exact Nat.lt_succ_self _

theorem CoreTables.Sound.step (hs : s.Sound) (h : CoreStep s now s') : s'.Sound := by
  cases h with
  | same => exact hs
  | recorded record receipts hnow hplain hreceipts =>
    refine hs.record (List.Sublist.refl _) rfl rfl rfl hnow (fun check hcheck => ?_) hreceipts
    exact (hplain.checkedAt ⟨s.nextSequence, now, record⟩ rfl hcheck).le
  | activated snapshot snapshots receipts hnow hsequence hreceipts =>
    exact hs.record (List.Sublist.refl _) rfl rfl rfl hnow nofun hreceipts
  | pruned receipts hnow hreceipts =>
    exact hs.record List.filter_sublist rfl rfl rfl hnow nofun hreceipts

/-- **The tables of every run are sound.** -/
theorem sound_run (catalog : CoreCatalogChecks) (t₀ : Time) (calls : List (Moment × CoreCommand)) :
    ((coreControl catalog t₀).run calls).Sound := by
  refine (coreControl catalog t₀).invariant ?_ (fun s call hs => hs.step (coreStep_step _ _ s call))
    calls
  refine ⟨List.nodup_singleton _, fun tx htx => ?_, le_rfl, fun tx htx check hcheck => ?_,
    fun _ hr => absurd hr List.not_mem_nil⟩
  · rw [List.mem_singleton.mp htx]
    exact le_rfl
  · rw [List.mem_singleton.mp htx] at hcheck
    exact nomatch hcheck

/-- The rows after one more transaction. -/
theorem CoreTables.Sound.rows_recording (hs : s.Sound) (record : CoreRecord)
    (hs' : s'.transactions = s.transactions ++ [⟨s.nextSequence, now, record⟩]) :
    s'.rows = ⟨s.nextSequence, now, record⟩ :: s.rows := by
  rw [CoreTables.rows, hs']
  refine newestFirst_concat hs.distinct fun tx htx => ?_
  exact Nat.lt_succ_of_le (hs.le_last tx htx)

end Sound

/-! ## Moving the active snapshot -/

/-- **A move of the active snapshot**, whatever the sequence it is sent at. -/
inductive CoreMove where
  | activate (candidate : CoreCandidate) (continuityAncestorCommitId : Option String)
  | rollback (candidate : CoreCandidate) (reason : String)

/-- The command of a move: who sends it has read the last sequence. -/
def CoreMove.command (s : CoreTables) : CoreMove → CoreCommand
  | .activate candidate ancestor =>
    .activateCoreSnapshot ⟨candidate, s.metadata.lastTransactionSequence, ancestor⟩
  | .rollback candidate reason =>
    .rollbackCoreSnapshot ⟨candidate, s.metadata.lastTransactionSequence, reason⟩

section Moves

variable (catalog : CoreCatalogChecks) (t₀ : Time)

/-- The tables after some moves. -/
def movedBy (s : CoreTables) : List (Moment × CoreMove) → CoreTables
  | [] => s
  | (m, move) :: moves =>
    movedBy ((coreControl catalog t₀).step s (m, move.command s)).2 moves

/-- The candidate of a move. -/
def CoreMove.candidate : CoreMove → CoreCandidate
  | .activate candidate _ => candidate
  | .rollback candidate _ => candidate

/-- The payload of a move. -/
def CoreMove.payload (s : CoreTables) : CoreMove → CoreCommandPayload
  | .activate candidate _ =>
    .activateSnapshot candidate.toCoreCandidateSource s.metadata.lastTransactionSequence
  | .rollback candidate reason =>
    .rollbackSnapshot candidate.toCoreCandidateSource s.metadata.lastTransactionSequence reason

/-- What a move asks, the clock and the sequence apart, and the identifier of its snapshot. -/
def CoreMove.verdict (snapshots : List CoreCandidate) (activeCommitId : Option String)
    (m : Moment) : CoreMove → Except ControlError String
  | .activate candidate ancestor => do
    assertMaterializedCoreCandidate candidate.toCoreCandidateSource
    catalog.validate candidate
    assertActivation catalog snapshots activeCommitId candidate ancestor
    uuidV7 m 0
  | .rollback candidate reason => do
    assertBoundedReason reason "Core rollback reason"
    assertMaterializedCoreCandidate candidate.toCoreCandidateSource
    catalog.validate candidate
    assertRollback catalog snapshots activeCommitId candidate
    uuidV7 m 1

variable {s s' : CoreTables} {m : Moment}

/-- A move that was sent at the last sequence has no receipt. -/
theorem oncePerReceipt_of_move (hs : s.Sound) {payload : CoreCommandPayload}
    (hpayload : payload.idempotencyKey.moveSequence = some s.metadata.lastTransactionSequence)
    {different : String} {body : Except ControlError CoreTables} :
    oncePerReceipt s payload different body = body := by
  have hnone : (s.receipts.find? fun receipt =>
      receipt.payload.idempotencyKey = payload.idempotencyKey) = none := by
    refine List.find?_eq_none.mpr fun receipt hreceipt hkey => ?_
    have hlt := hs.receipts receipt hreceipt s.metadata.lastTransactionSequence
      (by rw [of_decide_eq_true hkey, hpayload]; rfl)
    exact lt_irrefl _ hlt
  unfold oncePerReceipt
  rw [hnone]

/-- **What a move does**: nothing, when it is refused or the clock is behind, and else it
activates its candidate. -/
theorem runCoreCommand_move (hs : s.Sound) (move : CoreMove) (s' : CoreTables) :
    runCoreCommand catalog s m (move.command s) = .ok s' ↔
      ∃ snapshotId, s.metadata.controlTimeWatermark ≤ m.now ∧
        move.verdict catalog s.snapshots (s.active.map ActiveCoreSnapshot.sourceCommitId) m =
          .ok snapshotId ∧
        s' = s.activating m.now (move.payload s) move.candidate snapshotId := by
  have hpositive : assertPositiveSequence s.metadata.lastTransactionSequence = .ok () := by
    rw [assertPositiveSequence, refuseIf_eq_ok, not_lt]
    exact hs.positive
  have honce := fun different body =>
    @oncePerReceipt_of_move s hs (move.payload s) (by cases move <;> rfl) different body
  cases move with
  | activate candidate ancestor =>
    show activateCoreSnapshot catalog s m _ = _ ↔ _
    simp only [CoreMove.payload] at honce
    simp only [activateCoreSnapshot, hpositive, honce, except_bind_eq_ok, except_pure_eq_ok,
      assertControlTime_eq_ok, assertSequence_eq_ok, CoreMove.verdict]
    constructor
    · rintro ⟨_, -, u, hmaterialized, v, hvalid, _, hnow, _, -, w, hactivation, id, hid, rfl⟩
      exact ⟨id, hnow, ⟨u, hmaterialized, v, hvalid, w, hactivation, hid⟩, rfl⟩
    · rintro ⟨id, hnow, ⟨u, hmaterialized, v, hvalid, w, hactivation, hid⟩, rfl⟩
      exact ⟨(), trivial, u, hmaterialized, v, hvalid, (), hnow, (), trivial, w, hactivation, id,
        hid, rfl⟩
  | rollback candidate reason =>
    show rollbackCoreSnapshot catalog s m _ = _ ↔ _
    simp only [CoreMove.payload] at honce
    simp only [rollbackCoreSnapshot, hpositive, honce, except_bind_eq_ok, except_pure_eq_ok,
      assertControlTime_eq_ok, assertSequence_eq_ok, CoreMove.verdict]
    constructor
    · rintro ⟨_, -, x, hreason, u, hmaterialized, v, hvalid, _, hnow, _, -, w, hrollback, id, hid,
        rfl⟩
      exact ⟨id, hnow, ⟨x, hreason, u, hmaterialized, v, hvalid, w, hrollback, hid⟩, rfl⟩
    · rintro ⟨id, hnow, ⟨x, hreason, u, hmaterialized, v, hvalid, w, hrollback, hid⟩, rfl⟩
      exact ⟨(), trivial, x, hreason, u, hmaterialized, v, hvalid, (), hnow, (), trivial, w,
        hrollback, id, hid, rfl⟩

/-- The tables after a move. -/
theorem step_move (hs : s.Sound) (move : CoreMove) :
    ((coreControl catalog t₀).step s (m, move.command s)).2 =
      match move.verdict catalog s.snapshots (s.active.map ActiveCoreSnapshot.sourceCommitId) m with
      | .ok snapshotId =>
        if s.metadata.controlTimeWatermark ≤ m.now then
          s.activating m.now (move.payload s) move.candidate snapshotId
        else s
      | .error _ => s := by
  unfold coreControl
  dsimp only
  have hrun := runCoreCommand_move catalog (m := m) hs move
  cases hrun' : runCoreCommand catalog s m (move.command s) with
  | ok s' =>
    obtain ⟨snapshotId, hnow, hverdict, rfl⟩ := (hrun s').mp hrun'
    rw [hverdict]
    exact (if_pos hnow).symm
  | error e =>
    cases hverdict : move.verdict catalog s.snapshots
        (s.active.map ActiveCoreSnapshot.sourceCommitId) m with
    | error e => rfl
    | ok snapshotId =>
      refine (if_neg fun hnow => ?_).symm
      have hok := (hrun _).mpr ⟨snapshotId, hnow, hverdict, rfl⟩
      cases hok.symm.trans hrun'

end Moves

/-! ## The two runs, side by side -/

/-- Where the active snapshot is. -/
def ActiveCoreSnapshot.place (active : ActiveCoreSnapshot) : String × String :=
  (active.snapshotId, active.sourceCommitId)

/-- **A run that suppressed a rejection, beside a run that recorded it**: the newest check that
read a candidate is `c` in the one and its later copy `c'` in the other. -/
structure Beside (now : Time) (c c' : CoreSourceCheck) (s s' : CoreTables) : Prop where
  sound : s.Sound
  sound' : s'.Sound
  outcome : c'.outcome = c.outcome
  commitId : c'.commitId = c.commitId
  substantive : s.checks.find? CoreSourceCheck.substantive = some c
  substantive' : s'.checks.find? CoreSourceCheck.substantive = some c'
  validated : ∀ v ∈ s.checks.find? CoreSourceCheck.validated,
    ∃ v' ∈ s'.checks.find? CoreSourceCheck.validated, v.checkedAt ≤ v'.checkedAt
  overrides : s'.overrides = s.overrides
  snapshots : s'.snapshots = s.snapshots
  place : s'.active.map ActiveCoreSnapshot.place = s.active.map ActiveCoreSnapshot.place
  behind : c.transactionSequence ≤ s.metadata.lastTransactionSequence
  behind' : c'.transactionSequence ≤ s'.metadata.lastTransactionSequence
  -- Either block was recorded before the active snapshot, or neither was.
  resolved : c.outcome = .continuityBlocked → ∀ a ∈ s.active, ∀ a' ∈ s'.active,
    c.commitId = some a.sourceCommitId →
      (c.transactionSequence < a.transactionSequence ↔
        c'.transactionSequence < a'.transactionSequence)
  watermark : s.metadata.controlTimeWatermark ≤ s'.metadata.controlTimeWatermark
  clock : ∀ later, now ≤ later →
    (s.metadata.controlTimeWatermark ≤ later ↔ s'.metadata.controlTimeWatermark ≤ later)

section TwoRuns

variable {catalog : CoreCatalogChecks} {t₀ : Time} {now t : Time} {c c' : CoreSourceCheck}
  {s s' : CoreTables}

theorem CoreTables.Sound.checks_activating (hs : s.Sound) (now : Time)
    (payload : CoreCommandPayload) (candidate : CoreCandidate) (snapshotId : String) :
    (s.activating now payload candidate snapshotId).checks = s.checks := by
  rw [CoreTables.checks, hs.rows_recording _ rfl, List.filterMap_cons_none rfl, CoreTables.checks]

theorem CoreTables.Sound.overrides_activating (hs : s.Sound) (now : Time)
    (payload : CoreCommandPayload) (candidate : CoreCandidate) (snapshotId : String) :
    (s.activating now payload candidate snapshotId).overrides = s.overrides := by
  rw [CoreTables.overrides, hs.rows_recording _ rfl, List.filterMap_cons_none rfl,
    CoreTables.overrides]

/-- The active commit is the same in both runs. -/
theorem Beside.activeCommit (h : Beside now c c' s s') :
    s'.active.map ActiveCoreSnapshot.sourceCommitId =
      s.active.map ActiveCoreSnapshot.sourceCommitId := by
  have hplace := congrArg (Option.map Prod.snd) h.place
  rw [Option.map_map, Option.map_map] at hplace
  exact hplace

/-- **One move in both runs.** -/
theorem Beside.move (h : Beside now c c' s s') {m : Moment} (hm : now ≤ m.now) (move : CoreMove) :
    Beside now c c' ((coreControl catalog t₀).step s (m, move.command s)).2
      ((coreControl catalog t₀).step s' (m, move.command s')).2 := by
  have hsound := h.sound.step (coreStep_step catalog t₀ s (m, move.command s))
  have hsound' := h.sound'.step (coreStep_step catalog t₀ s' (m, move.command s'))
  rw [step_move catalog t₀ h.sound move] at hsound ⊢
  rw [step_move catalog t₀ h.sound' move, h.activeCommit, h.snapshots] at hsound' ⊢
  cases hverdict : move.verdict catalog s.snapshots
      (s.active.map ActiveCoreSnapshot.sourceCommitId) m with
  | error e => exact h
  | ok snapshotId =>
    by_cases hnow : s.metadata.controlTimeWatermark ≤ m.now
    · have hnow' := (h.clock m.now hm).mp hnow
      simp only [hverdict, if_pos hnow, if_pos hnow'] at hsound hsound' ⊢
      exact
        { sound := hsound
          sound' := hsound'
          outcome := h.outcome
          commitId := h.commitId
          substantive := by rw [h.sound.checks_activating]; exact h.substantive
          substantive' := by rw [h.sound'.checks_activating]; exact h.substantive'
          validated := by
            rw [h.sound.checks_activating, h.sound'.checks_activating]
            exact h.validated
          overrides := by
            rw [h.sound.overrides_activating, h.sound'.overrides_activating]
            exact h.overrides
          snapshots := congrArg (· ++ [move.candidate]) h.snapshots
          place := rfl
          behind := Nat.le_succ_of_le h.behind
          behind' := Nat.le_succ_of_le h.behind'
          resolved := by
            rintro - a ha a' ha' -
            obtain rfl := Option.some.inj ha
            obtain rfl := Option.some.inj ha'
            exact ⟨fun _ => Nat.lt_succ_of_le h.behind', fun _ => Nat.lt_succ_of_le h.behind⟩
          watermark := le_rfl
          clock := fun _ _ => Iff.rfl }
    · have hnow' := fun hnow' => hnow ((h.clock m.now hm).mpr hnow')
      simp only [if_neg hnow, if_neg hnow']
      exact h

/-- **All moves in both runs.** -/
theorem Beside.movedBy (h : Beside now c c' s s') {moves : List (Moment × CoreMove)}
    (hmoves : ∀ move ∈ moves, now ≤ move.1.now) :
    Beside now c c' (movedBy catalog t₀ s moves) (movedBy catalog t₀ s' moves) := by
  induction moves generalizing s s' with
  | nil => exact h
  | cons move moves ih =>
    exact ih (h.move (hmoves move List.mem_cons_self) move.2)
      fun move hmove => hmoves move (List.mem_cons_of_mem _ hmove)

/-- The two checks say the same of the active snapshot. -/
theorem Beside.substantiveReason_eq (h : Beside now c c' s s') {a a' : ActiveCoreSnapshot}
    (ha : s.active = some a) (ha' : s'.active = some a') :
    substantiveReason a' (some c') = substantiveReason a (some c) := by
  have hcommit : a'.sourceCommitId = a.sourceCommitId := by
    have hactive := h.activeCommit
    rw [ha, ha'] at hactive
    exact Option.some.inj hactive
  simp only [substantiveReason, h.outcome, h.commitId, hcommit]
  cases hblocked : c.outcome with
  | continuityBlocked =>
    by_cases hc : c.commitId = some a.sourceCommitId
    · simp only [hc, true_and, h.resolved hblocked a ha a' ha' hc]
    · simp only [hc, false_and]
  | eligible => rfl
  | sourceUnavailable => rfl
  | candidateInvalid => rfl
  | persistenceFailed => rfl

/-- A source that is stale in the run that recorded is stale in the other one. -/
theorem Beside.stale (h : Beside now c c' s s')
    (hstale : ∀ staleAt ∈ (s'.checks.find? CoreSourceCheck.validated).map fun check =>
      check.checkedAt + dayMilliseconds, staleAt ≤ t) :
    ∀ staleAt ∈ (s.checks.find? CoreSourceCheck.validated).map fun check =>
      check.checkedAt + dayMilliseconds, staleAt ≤ t := by
  intro staleAt hstaleAt
  obtain ⟨v, hv, rfl⟩ := Option.map_eq_some_iff.mp hstaleAt
  obtain ⟨v', hv', hle⟩ := h.validated v hv
  refine le_trans (Int.add_le_add_right hle _) (hstale _ ?_)
  exact Option.map_eq_some_iff.mpr ⟨v', hv', rfl⟩

/-- **The reasons of the two runs**: one that is neither readiness nor staleness is that of both,
and else the run that recorded is ready when the other one is. -/
theorem Beside.reasonAt (h : Beside now c c' s s') (t : Time) :
    (s.reasonAt t = s'.reasonAt t ∧ s.reasonAt t ≠ .ready ∧ s.reasonAt t ≠ .sourceStale) ∨
      (s.reasonAt t = .ready ∨ s.reasonAt t = .sourceStale) ∧
      (s'.reasonAt t = .ready ∨ s'.reasonAt t = .sourceStale) ∧
      (s.reasonAt t = .ready → s'.reasonAt t = .ready) := by
  rw [CoreTables.reasonAt, CoreTables.reasonAt, h.substantive, h.substantive']
  cases ha : s.active with
  | none =>
    have ha' : s'.active = none := by
      have hplace := h.place
      rw [ha] at hplace
      exact Option.map_eq_none_iff.mp hplace
    rw [ha']
    exact Or.inl ⟨rfl, by rintro ⟨⟩, by rintro ⟨⟩⟩
  | some a =>
    cases ha' : s'.active with
    | none =>
      have hplace := h.place
      rw [ha, ha'] at hplace
      cases hplace
    | some a' =>
      simp only [readinessReason, h.substantiveReason_eq ha ha']
      by_cases hready : substantiveReason a (some c) = .ready
      · refine Or.inr ⟨?_, ?_, fun hfresh => ?_⟩
        · split_ifs
          · exact Or.inr rfl
          · exact Or.inl hready
        · split_ifs
          · exact Or.inr rfl
          · exact Or.inl hready
        · refine (if_neg fun hboth => ?_).trans hready
          rw [if_pos ⟨hready, h.stale hboth.2⟩] at hfresh
          cases hfresh
      · rw [if_neg fun hboth => hready hboth.1, if_neg fun hboth => hready hboth.1]
        exact Or.inl ⟨rfl, hready, substantiveReason_ne_sourceStale _⟩

/-- **What the readiness of the two runs says.** -/
theorem Beside.readiness (h : Beside now c c' s s')
    (ht : s'.metadata.controlTimeWatermark ≤ t) :
    ∃ r r', coreAdmissionReadiness s t = .ok r ∧ coreAdmissionReadiness s' t = .ok r' ∧
      (r.ready = true → r'.ready = true) ∧
      (r.reason ≠ .sourceStale → r'.reason ≠ .sourceStale → r.reason = r'.reason) := by
  obtain ⟨r, -, hr, -, -, hready, hreason⟩ :=
    coreAdmissionReadiness_eq_ok (s := s) (le_trans h.watermark ht)
  obtain ⟨r', -, hr', -, -, hready', hreason'⟩ := coreAdmissionReadiness_eq_ok (s := s') ht
  have hpermits : ∀ t, (∃ active, s.active = some active ∧ ∃ decision ∈ s.overrides,
        decision.permits active.snapshotId t = true) →
      ∃ active, s'.active = some active ∧ ∃ decision ∈ s'.overrides,
        decision.permits active.snapshotId t = true := by
    rintro t ⟨a, ha, hd⟩
    have hplace := h.place
    rw [ha] at hplace
    obtain ⟨a', ha', hsame⟩ := Option.map_eq_some_iff.mp hplace
    have hid : a'.snapshotId = a.snapshotId := congrArg Prod.fst hsame
    exact ⟨a', ha', by rw [h.overrides, hid]; exact hd⟩
  refine ⟨r, r', hr, hr', fun hrun => ?_, fun hne hne' => ?_⟩
  · rcases h.reasonAt t with ⟨-, hnot, hnot'⟩ | ⟨-, heither, hkeeps⟩
    · rcases hready.mp hrun with hrun | ⟨hrun, -⟩
      · exact absurd hrun hnot
      · exact absurd hrun hnot'
    · refine hready'.mpr ?_
      rcases hready.mp hrun with hrun | ⟨-, hpermit⟩
      · exact Or.inl (hkeeps hrun)
      · exact heither.imp_right fun hstale => ⟨hstale, hpermits t hpermit⟩
  · rcases h.reasonAt t with ⟨hsame, hnot, hnot'⟩ | ⟨heither, heither', -⟩
    · have hno : ¬ r.ready = true := fun hrun => by
        rcases hready.mp hrun with hrun | ⟨hrun, -⟩
        · exact hnot hrun
        · exact hnot' hrun
      have hno' : ¬ r'.ready = true := fun hrun => by
        rcases hready'.mp hrun with hrun | ⟨hrun, -⟩
        · exact hnot (hsame.trans hrun)
        · exact hnot' (hsame.trans hrun)
      rw [hreason, hreason', if_neg hno, if_neg hno', hsame]
    · have hall : ∀ {ready : Bool} {reason given : CoreAdmissionReadinessReason},
          reason = (if ready = true then .ready else given) →
          given = .ready ∨ given = .sourceStale → reason ≠ .sourceStale → reason = .ready := by
        intro ready reason given hreason heither hne
        by_cases hr : ready = true
        · rw [hreason, if_pos hr]
        · rw [if_neg hr] at hreason
          exact hreason.trans (heither.resolve_right fun hstale => hne (hreason.trans hstale))
      rw [hall hreason heither hne, hall hreason' heither' hne']

end TwoRuns

/-! ## Suppressing and recording -/

section Suppressing

variable {s : CoreTables} {input : CoreCandidateRejectionInput}

/-- The rows that suppress a rejection start with a check like it. -/
theorem exists_check_of_suppressedBy {rows : List CoreTransaction}
    (h : suppressedBy input rows = true) :
    ∃ c rest, rows.filterMap CoreTransaction.check? = c :: rest ∧
      c.outcome = input.stage.outcome ∧ c.commitId = input.commitId := by
  induction rows with
  | nil => exact nomatch h
  | cons tx rows ih =>
    rw [suppressedBy] at h
    cases hrecord : tx.record with
    | sourceCheckEligible payload =>
      rw [hrecord] at h
      exact nomatch h
    | candidateRejection payload =>
      rw [hrecord] at h
      simp only at h
      by_cases hauto : payload.operation = .automaticSourceCheck
      · rw [if_neg (not_not.mpr hauto), CoreCandidateRejectionPayload.repeatedBy] at h
        split_ifs at h with hdiffers
        simp only [not_or, not_not] at hdiffers
        have hcheck : tx.check? = some ⟨payload.checkId, payload.stage.outcome, payload.observedAt,
            payload.commitId, tx.sequence, payload.stage.validated⟩ := by
          unfold CoreTransaction.check?
          rw [hrecord]
          exact if_pos hauto
        refine ⟨_, _, List.filterMap_cons_some hcheck, ?_, hdiffers.2.2⟩
        exact congrArg CoreCandidateRejectionStage.outcome hdiffers.1
      · rw [if_pos hauto] at h
        have hcheck : tx.check? = none := by
          unfold CoreTransaction.check?
          rw [hrecord]
          exact if_neg hauto
        rw [List.filterMap_cons_none hcheck]
        exact ih h
    | staleSourceOverride payload =>
      rw [hrecord] at h
      rw [List.filterMap_cons_none (by unfold CoreTransaction.check?; rw [hrecord])]
      exact ih h
    | snapshotActive snapshot =>
      rw [hrecord] at h
      rw [List.filterMap_cons_none (by unfold CoreTransaction.check?; rw [hrecord])]
      exact ih h
    | other =>
      rw [hrecord] at h
      rw [List.filterMap_cons_none (by unfold CoreTransaction.check?; rw [hrecord])]
      exact ih h

/-- **The two runs where they part.** -/
theorem exists_beside (catalog : CoreCatalogChecks) (t₀ : Time) (hs : s.Sound) (m : Moment)
    (hsuppress : shouldSuppressCoreCandidateRejection s input = true)
    (hactive : input.stage = .continuity → ∃ active, s.active = some active ∧
      input.activeCommitId = some active.sourceCommitId ∧
      input.commitId ≠ some active.sourceCommitId) :
    ∃ c c', Beside m.now c c' s
      ((coreControl catalog t₀).step s (m, .recordCoreCandidateRejection input)).2 := by
  unfold shouldSuppressCoreCandidateRejection at hsuppress
  split_ifs at hsuppress with hskip
  simp only [not_or, not_and_or, not_not] at hskip
  obtain ⟨hauto, hstage⟩ := hskip
  obtain ⟨c, rest, hchecks, houtcome, hcommit⟩ := exists_check_of_suppressedBy hsuppress
  have hread : input.stage.outcome ≠ .sourceUnavailable := by
    rcases hstage with hstage | hstage <;> rw [hstage] <;> rintro ⟨⟩
  have hc : s.checks.find? CoreSourceCheck.substantive = some c := by
    rw [show s.checks = c :: rest from hchecks, List.find?_cons_of_pos]
    exact decide_eq_true (houtcome ▸ hread)
  obtain ⟨tx, htx, hcheck⟩ := mem_checksOf.mp ((find?_checks hs.distinct).mp hc).mem
  have hbehind : c.transactionSequence ≤ s.metadata.lastTransactionSequence := by
    rw [transactionSequence_of_check? hcheck]
    exact hs.le_last tx htx
  have hsound := hs.step
    (coreStep_step catalog t₀ s (m, .recordCoreCandidateRejection input))
  rcases step_recordCoreCandidateRejection catalog t₀ s m input with hsame | ⟨hnow, hrecorded⟩
  · rw [hsame]
    exact ⟨c, c, hs, hs, rfl, rfl, hc, hc, fun v hv => ⟨v, hv, le_rfl⟩, rfl, rfl, rfl, hbehind,
      hbehind, fun _ a ha a' ha' _ => by rw [Option.some.inj (ha.symm.trans ha')], le_rfl,
      fun _ _ => Iff.rfl⟩
  · rw [hrecorded] at hsound ⊢
    let c' : CoreSourceCheck := ⟨input.checkId, input.stage.outcome, m.now, input.commitId,
      s.nextSequence, input.stage.validated⟩
    have hrows : (s.recorded m.now (.recordCandidateRejection input)
        (.candidateRejection ⟨input, m.now⟩)).rows =
          ⟨s.nextSequence, m.now, .candidateRejection ⟨input, m.now⟩⟩ :: s.rows :=
      hs.rows_recording _ rfl
    have hchecks' : (s.recorded m.now (.recordCandidateRejection input)
        (.candidateRejection ⟨input, m.now⟩)).checks = c' :: s.checks := by
      rw [CoreTables.checks, hrows]
      exact List.filterMap_cons_some (if_pos hauto)
    refine ⟨c, c', hs, hsound, houtcome.symm, hcommit.symm, hc, ?_, fun v hv => ?_, ?_, rfl, rfl,
      hbehind, le_rfl, fun hblocked a ha a' _ hca => ?_, hnow, fun later hlater => ?_⟩
    · rw [hchecks', List.find?_cons_of_pos]
      exact decide_eq_true hread
    · by_cases hvalidated : c'.validated = true
      · refine ⟨c', by rw [hchecks', List.find?_cons_of_pos hvalidated]; rfl, ?_⟩
        obtain ⟨tx, htx, hv⟩ := mem_checksOf.mp ((find?_checks hs.distinct).mp hv).mem
        exact le_trans (hs.checked tx htx v hv) hnow
      · exact ⟨v, by rw [hchecks', List.find?_cons_of_neg hvalidated]; exact hv, le_rfl⟩
    · rw [CoreTables.overrides, hrows, List.filterMap_cons_none rfl, CoreTables.overrides]
    · -- The block is not on the active commit.
      rcases hstage with hstage | hstage
      · rw [houtcome, hstage] at hblocked
        cases hblocked
      · obtain ⟨active, hactive, -, hne⟩ := hactive hstage
        obtain rfl : active = a := Option.some.inj (hactive.symm.trans ha)
        exact absurd (hcommit ▸ hca) hne
    · exact ⟨fun _ => hlater, fun hle => le_trans hnow hle⟩

/-- **Suppressing a repeated rejection never opens admission.** The run that suppresses and the run
that records then make the same moves, at any later moments; at every instant from their
watermarks on, the second is ready when the first is, and two reasons that are not staleness
agree. -/
theorem coreAdmissionReadiness_suppressed (catalog : CoreCatalogChecks) (t₀ : Time)
    (calls : List (Moment × CoreCommand)) (input : CoreCandidateRejectionInput)
    (hsuppress :
      shouldSuppressCoreCandidateRejection ((coreControl catalog t₀).run calls) input = true)
    (hactive : input.stage = .continuity →
      ∃ active, ((coreControl catalog t₀).run calls).active = some active ∧
        input.activeCommitId = some active.sourceCommitId ∧
        input.commitId ≠ some active.sourceCommitId)
    (m : Moment) (moves : List (Moment × CoreMove)) (hlater : ∀ move ∈ moves, m.now ≤ move.1.now)
    (t : Time)
    (ht : (movedBy catalog t₀ ((coreControl catalog t₀).run
      (calls ++ [(m, .recordCoreCandidateRejection input)])) moves).metadata.controlTimeWatermark
        ≤ t) :
    ∃ r r',
      coreAdmissionReadiness (movedBy catalog t₀ ((coreControl catalog t₀).run calls) moves) t =
        .ok r ∧
      coreAdmissionReadiness (movedBy catalog t₀ ((coreControl catalog t₀).run
        (calls ++ [(m, .recordCoreCandidateRejection input)])) moves) t = .ok r' ∧
      (r.ready = true → r'.ready = true) ∧
      (r.reason ≠ .sourceStale → r'.reason ≠ .sourceStale → r.reason = r'.reason) := by
  rw [Machine.run_concat] at ht ⊢
  obtain ⟨c, c', hbeside⟩ :=
    exists_beside catalog t₀ (sound_run catalog t₀ calls) m hsuppress hactive
  exact (hbeside.movedBy hlater).readiness ht

end Suppressing

/-! ### A sample -/

/-- A commit that does not descend from the active one. -/
def sampleRejection (digit : Char) : CoreCandidateRejectionInput where
  checkId := sampleUuid digit
  operation := .automaticSourceCheck
  stage := .continuity
  code := .candidateNotDescendant
  summary := "not a descendant"
  details := []
  sourceUrl := "https://github.com/frostyard/core.git"
  sourceRef := "refs/heads/main"
  commitId := some (sampleCoreCandidate '2').commitId
  treeId := some (sampleCoreCandidate '2').treeId
  catalogDigest := some (sampleCoreCandidate '2').catalogDigest
  activeCommitId := some (sampleCoreCandidate '1').commitId

/-- A snapshot is activated, and the next commit does not descend from it. -/
def sampleBlockedCalls : List (Moment × CoreCommand) :=
  [(sampleCoreMoment 1 'a', .activateCoreSnapshot ⟨sampleCoreCandidate '1', 1, none⟩),
    (sampleCoreMoment 2 'b', .recordCoreCandidateRejection (sampleRejection '1'))]

/-- The blocked commit is then taken by a rollback. -/
def sampleMoves : List (Moment × CoreMove) :=
  [(sampleCoreMoment 4 'd', .rollback (sampleCoreCandidate '2') "take the commit")]

/-- The snapshot that is active when the check is repeated. -/
def sampleActive : ActiveCoreSnapshot :=
  ⟨sampleUuid 'a', (sampleCoreCandidate '1').commitId, (sampleCoreCandidate '1').treeId,
    (sampleCoreCandidate '1').catalogDigest, 1, 2⟩

theorem sampleBlockedCalls_suppress :
    shouldSuppressCoreCandidateRejection ((coreControl .passing 0).run sampleBlockedCalls)
        (sampleRejection '2') = true ∧
      ((coreControl .passing 0).run sampleBlockedCalls).active = some sampleActive ∧
      (movedBy .passing 0 ((coreControl .passing 0).run (sampleBlockedCalls ++
        [(sampleCoreMoment 3 'c', .recordCoreCandidateRejection (sampleRejection '2'))]))
          sampleMoves).metadata.controlTimeWatermark ≤ 5 := by
  decide +kernel

theorem coreAdmissionReadiness_suppressed_sample :
    ∃ r r',
      coreAdmissionReadiness
        (movedBy .passing 0 ((coreControl .passing 0).run sampleBlockedCalls) sampleMoves) 5 =
          .ok r ∧
      coreAdmissionReadiness (movedBy .passing 0 ((coreControl .passing 0).run
        (sampleBlockedCalls ++
          [(sampleCoreMoment 3 'c', .recordCoreCandidateRejection (sampleRejection '2'))]))
          sampleMoves) 5 = .ok r' ∧
      (r.ready = true → r'.ready = true) ∧
      (r.reason ≠ .sourceStale → r'.reason ≠ .sourceStale → r.reason = r'.reason) :=
  coreAdmissionReadiness_suppressed .passing 0 sampleBlockedCalls (sampleRejection '2')
    sampleBlockedCalls_suppress.1
    (fun _ => ⟨sampleActive, sampleBlockedCalls_suppress.2.1, rfl, by decide +kernel⟩)
    (sampleCoreMoment 3 'c') sampleMoves (by decide) 5 sampleBlockedCalls_suppress.2.2

end Snowcat
