import Mathlib.Data.Int.Order.Basic
import Snowcat.Control.Schedule
import Snowcat.Lib.Leases
import Snowcat.Lib.Machine

/-!
# The leases of the schedules exclude one another

Each schedule is a desk: a claim that is granted is a `Leases.Desk.Step`,
so is a completion that is accepted, and everything else leaves the desk as
it was – a call that throws, because its transaction rolls back, and a call
on the other schedule, because it writes another row. The log a run leaves
is therefore one the desk has taken, and what the leases promise is read
off it by `Leases.Desk.Reaches.knows_and_exclusive`.
-/

namespace Snowcat

open Leases

/-! ## What each call can do -/

section Specs

variable {m : Moment} {ledger : Except ControlError Unit} {s t : Schedules}

@[simp] theorem returns_immediately {α : Type} {body : ScheduleTx α} {a : α} :
    (immediately body).Returns s a t ↔ body.Returns s a t :=
  Tx.returns_atomically

theorem decodeCorePollState_eq_ok {row row' : CorePollState}
    (h : decodeCorePollState row = .ok row') : row' = row := by
  simp only [decodeCorePollState, except_bind_eq_ok, except_pure_eq_ok] at h
  obtain ⟨-, -, -, -, -, -, -, -, -, -, -, -, -, -, rfl⟩ := h
  rfl

theorem decodeGitHubDeliveryAuditState_eq_ok {row row' : GitHubDeliveryAuditState}
    (h : decodeGitHubDeliveryAuditState row = .ok row') : row' = row := by
  simp only [decodeGitHubDeliveryAuditState, except_bind_eq_ok, except_pure_eq_ok] at h
  obtain ⟨-, -, -, -, -, -, -, -, -, -, -, -, -, -, -, -, rfl⟩ := h
  rfl

theorem returns_corePollState {row : CorePollState} (h : corePollState.Returns s row t) :
    t = s ∧ row = s.corePoll := by
  simp only [corePollState, Tx.returns_bind, Tx.returns_read, Tx.returns_ofExcept] at h
  obtain ⟨_, _, ⟨rfl, rfl⟩, hdecode, rfl⟩ := h
  exact ⟨rfl, decodeCorePollState_eq_ok hdecode⟩

theorem returns_githubDeliveryAuditState {row : GitHubDeliveryAuditState}
    (h : githubDeliveryAuditState.Returns s row t) : t = s ∧ row = s.githubDeliveryAudit := by
  simp only [githubDeliveryAuditState, Tx.returns_bind, Tx.returns_read, Tx.returns_ofExcept] at h
  obtain ⟨_, _, ⟨rfl, rfl⟩, hdecode, rfl⟩ := h
  exact ⟨rfl, decodeGitHubDeliveryAuditState_eq_ok hdecode⟩

theorem returns_verifySchedules {u : Unit} (h : (verifySchedules ledger).Returns s u t) :
    t = s := by
  simp only [verifySchedules, Tx.returns_bind, Tx.returns_ofExcept] at h
  obtain ⟨_, _, hpoll, _, _, haudit, -, rfl⟩ := h
  obtain ⟨rfl, -⟩ := returns_corePollState hpoll
  exact (returns_githubDeliveryAuditState haudit).1

/-- No unexpired lease, as the rows have it. -/
theorem unexpired_eq_none {now : Time} {flight : Option InFlight} :
    unexpired now flight = none ↔ ∀ f ∈ flight, f.expiresAt ≤ now := by
  cases flight with
  | none => simp [unexpired]
  | some f => simp [unexpired, Option.filter]

/-- The run a claim was granted, with its lease. -/
def CorePollClaimResult.granted? : CorePollClaimResult → Option (String × Time × Time)
  | .claimed runId startedAt expiresAt _ _ _ => some (runId, startedAt, expiresAt)
  | .notDue .. => none
  | .inFlight .. => none

/-- The run a claim was granted, with its lease. -/
def GitHubDeliveryAuditClaimResult.granted? :
    GitHubDeliveryAuditClaimResult → Option (String × Time × Time)
  | .claimed runId startedAt expiresAt _ _ => some (runId, startedAt, expiresAt)
  | .notDue .. => none
  | .inFlight .. => none

/-- **What a claim of the Core poll does**: nothing, or it grants the run it
drew, when no lease is unexpired and the poll is due. -/
theorem claimCorePoll_spec {interval : JsNumber} {r : CorePollClaimResult}
    (h : (claimCorePoll m ledger interval).Returns s r t) :
    (t = s ∧ r.granted? = none) ∨
      ∃ n, (∀ f ∈ s.corePoll.inFlight, f.expiresAt ≤ m.now) ∧ s.corePoll.nextPollAt ≤ m.now ∧
        r.granted? = some (m.drawn 0, m.now, addSeconds m.now leaseSeconds) ∧
        t = { s with corePoll := s.corePoll.claimedBy n (m.drawn 0) m.now } := by
  simp only [claimCorePoll, returns_immediately, Tx.returns_bind, Tx.returns_ofExcept,
    Tx.returns_read, Tx.returns_failIf] at h
  obtain ⟨n, _, ⟨-, rfl⟩, _, s₁, hverify, _, _, ⟨rfl, rfl⟩, state, _, hstate, _, s₂, ⟨-, rfl⟩, h⟩ := h
  obtain rfl := returns_verifySchedules hverify
  obtain ⟨rfl, rfl⟩ := returns_corePollState hstate
  cases hfree : unexpired m.now s₂.corePoll.inFlight with
  | some flight =>
    rw [hfree] at h
    obtain ⟨rfl, rfl⟩ := Tx.returns_pure.mp h
    exact Or.inl ⟨rfl, rfl⟩
  | none =>
    rw [hfree] at h
    by_cases hdue : m.now < s₂.corePoll.nextPollAt
    · rw [if_pos hdue] at h
      obtain ⟨rfl, rfl⟩ := Tx.returns_pure.mp h
      exact Or.inl ⟨rfl, rfl⟩
    · simp only [if_neg hdue, Tx.returns_bind, Tx.returns_ofExcept, Tx.returns_update,
        Tx.returns_pure] at h
      obtain ⟨runId, _, ⟨hrun, rfl⟩, _, _, ⟨-, rfl⟩, claimed, _, hclaimed, rfl, rfl⟩ := h
      obtain ⟨rfl, -⟩ := returns_corePollState hclaimed
      rw [uuidV7_eq_ok hrun]
      exact Or.inr ⟨n, unexpired_eq_none.mp hfree, Int.not_lt.mp hdue, rfl, rfl⟩

/-- **What a completion of the Core poll does**: it clears the lease of the
run in flight, which it names. -/
theorem completeCorePoll_spec {input : CorePollCompletionInput} {r : CorePollState}
    (h : (completeCorePoll m ledger input).Returns s r t) :
    ∃ flight, s.corePoll.inFlight = some flight ∧ flight.runId = input.runId ∧
      flight.startedAt ≤ m.now ∧
      t = { s with corePoll := s.corePoll.completedBy input flight.startedAt m.now } := by
  simp only [completeCorePoll, returns_immediately, Tx.returns_bind, Tx.returns_ofExcept,
    Tx.returns_read, Tx.returns_failIf, Tx.returns_ofOption, Tx.returns_update] at h
  obtain ⟨_, _, ⟨-, rfl⟩, _, s₁, hverify, _, _, ⟨rfl, rfl⟩, state, _, hstate, flight, _,
    ⟨hflight, rfl⟩, _, s₂, ⟨hclock, rfl⟩, _, _, ⟨-, rfl⟩, hread⟩ := h
  obtain rfl := returns_verifySchedules hverify
  obtain ⟨rfl, rfl⟩ := returns_corePollState hstate
  obtain ⟨rfl, -⟩ := returns_corePollState hread
  obtain ⟨hsome, hrun⟩ := Option.filter_eq_some_iff.mp hflight
  exact ⟨flight, hsome, of_decide_eq_true hrun, Int.not_lt.mp (not_or.mp hclock).2, rfl⟩

/-- **What a claim of the delivery audit does**: nothing, or it grants the
run it drew, when no lease is unexpired and the audit is due. -/
theorem claimGitHubDeliveryAudit_spec {appId : String} {interval : JsNumber}
    {r : GitHubDeliveryAuditClaimResult}
    (h : (claimGitHubDeliveryAudit m ledger appId interval).Returns s r t) :
    (t = s ∧ r.granted? = none) ∨
      ∃ n, (∀ f ∈ s.githubDeliveryAudit.inFlight, f.expiresAt ≤ m.now) ∧
        s.githubDeliveryAudit.nextAuditAt ≤ m.now ∧
        r.granted? = some (m.drawn 0, m.now, addSeconds m.now leaseSeconds) ∧
        t = { s with
          githubDeliveryAudit := s.githubDeliveryAudit.claimedBy appId n (m.drawn 0) m.now } := by
  simp only [claimGitHubDeliveryAudit, returns_immediately, Tx.returns_bind, Tx.returns_ofExcept,
    Tx.returns_read, Tx.returns_failIf] at h
  obtain ⟨_, _, ⟨-, rfl⟩, n, _, ⟨-, rfl⟩, _, s₁, hverify, _, _, ⟨rfl, rfl⟩, state, _, hstate,
    _, _, ⟨-, rfl⟩, _, s₂, ⟨-, rfl⟩, h⟩ := h
  obtain rfl := returns_verifySchedules hverify
  obtain ⟨rfl, rfl⟩ := returns_githubDeliveryAuditState hstate
  cases hfree : unexpired m.now s₂.githubDeliveryAudit.inFlight with
  | some flight =>
    rw [hfree] at h
    obtain ⟨rfl, rfl⟩ := Tx.returns_pure.mp h
    exact Or.inl ⟨rfl, rfl⟩
  | none =>
    rw [hfree] at h
    by_cases hdue : m.now < s₂.githubDeliveryAudit.nextAuditAt
    · rw [if_pos hdue] at h
      obtain ⟨rfl, rfl⟩ := Tx.returns_pure.mp h
      exact Or.inl ⟨rfl, rfl⟩
    · simp only [if_neg hdue, Tx.returns_bind, Tx.returns_ofExcept, Tx.returns_update,
        Tx.returns_pure] at h
      obtain ⟨runId, _, ⟨hrun, rfl⟩, _, _, ⟨-, rfl⟩, claimed, _, hclaimed, rfl, rfl⟩ := h
      obtain ⟨rfl, -⟩ := returns_githubDeliveryAuditState hclaimed
      rw [uuidV7_eq_ok hrun]
      exact Or.inr ⟨n, unexpired_eq_none.mp hfree, Int.not_lt.mp hdue, rfl, rfl⟩

/-- **What a completion of the delivery audit does**: it clears the lease of
the run in flight, which it names, and brings no earlier boundary. -/
theorem completeGitHubDeliveryAudit_spec {input : GitHubDeliveryAuditCompletionInput}
    {r : GitHubDeliveryAuditState}
    (h : (completeGitHubDeliveryAudit m ledger input).Returns s r t) :
    ∃ flight delay, s.githubDeliveryAudit.inFlight = some flight ∧
      flight.runId = input.runId ∧ flight.startedAt ≤ m.now ∧
      (∀ boundary ∈ input.sourceBoundaryAt,
        ∀ before ∈ s.githubDeliveryAudit.lastCompleteBoundaryAt, before ≤ boundary) ∧
      t = { s with
        githubDeliveryAudit :=
          s.githubDeliveryAudit.completedBy input delay flight.startedAt m.now } := by
  simp only [completeGitHubDeliveryAudit, returns_immediately, Tx.returns_bind,
    Tx.returns_ofExcept, Tx.returns_read, Tx.returns_failIf, Tx.returns_ofOption,
    Tx.returns_update] at h
  obtain ⟨_, _, ⟨-, rfl⟩, _, s₁, hverify, _, _, ⟨rfl, rfl⟩, state, _, hstate, flight, _,
    ⟨hflight, rfl⟩, _, _, ⟨hclock, rfl⟩, delay, s₂, ⟨-, rfl⟩, _, _, ⟨-, rfl⟩, hread⟩ := h
  obtain rfl := returns_verifySchedules hverify
  obtain ⟨rfl, rfl⟩ := returns_githubDeliveryAuditState hstate
  obtain ⟨rfl, -⟩ := returns_githubDeliveryAuditState hread
  obtain ⟨hsome, hrun⟩ := Option.filter_eq_some_iff.mp hflight
  obtain ⟨-, hstarted, -, hboundary⟩ := by simpa only [not_or] using hclock
  refine ⟨flight, delay, hsome, of_decide_eq_true hrun, Int.not_lt.mp hstarted, ?_, rfl⟩
  intro boundary hb before hbefore
  exact Int.not_lt.mp fun hlt => hboundary ⟨boundary, hb, before, hbefore, hlt⟩

/-- Another command's commit touches neither row. -/
theorem advanceControlMetadata_spec {u : Unit} (h : (advanceControlMetadata m).Returns s u t) :
    t.corePoll = s.corePoll ∧ t.githubDeliveryAudit = s.githubDeliveryAudit := by
  simp only [advanceControlMetadata, Tx.returns_bind, Tx.returns_read, Tx.returns_failIf,
    Tx.returns_update] at h
  obtain ⟨_, _, ⟨rfl, rfl⟩, _, _, ⟨-, rfl⟩, -, rfl⟩ := h
  exact ⟨rfl, rfl⟩

end Specs

/-! ## Runs of calls -/

/-- The schedules as a machine: one call after the other, from the rows a
new database has. -/
def scheduleMachine (start : Time) :
    Machine Schedules ScheduleInput (Except ControlError ScheduleAnswer) where
  start := Schedules.initial start
  step s i := i.exec s

/-- A call as it was taken. -/
abbrev ScheduleStep : Type :=
  Machine.Entry Schedules ScheduleInput (Except ControlError ScheduleAnswer)

/-- What a call logs at the desk of the Core poll. -/
def pollEntry (e : ScheduleStep) :
    Option (Leases.Entry String Time (Option CoreSourceCheckOutcome)) :=
  match e.input.call, e.output with
  | .claimCorePoll _, .ok (.corePollClaim result) =>
    result.granted?.map fun (runId, startedAt, expiresAt) => .granted runId startedAt expiresAt
  | .completeCorePoll input, .ok (.corePoll _) =>
    some (.completed input.runId e.input.moment.now input.sourceOutcome)
  | _, _ => none

/-- What a call logs at the desk of the delivery audit. -/
def auditEntry (e : ScheduleStep) :
    Option (Leases.Entry String Time (Option GitHubDeliveryAuditOutcome)) :=
  match e.input.call, e.output with
  | .claimGitHubDeliveryAudit _ _, .ok (.githubDeliveryAuditClaim result) =>
    result.granted?.map fun (runId, startedAt, expiresAt) => .granted runId startedAt expiresAt
  | .completeGitHubDeliveryAudit input, .ok (.githubDeliveryAudit _) =>
    some (.completed input.runId e.input.moment.now input.outcome)
  | _, _ => none

/-- The row of the Core poll, as a desk. -/
def Schedules.pollDesk (s : Schedules) : Desk String Time :=
  ⟨s.corePoll.inFlight.map fun f => ⟨f.runId, f.startedAt, f.expiresAt⟩, s.corePoll.nextPollAt⟩

/-- The row of the delivery audit, as a desk. -/
def Schedules.auditDesk (s : Schedules) : Desk String Time :=
  ⟨s.githubDeliveryAudit.inFlight.map fun f => ⟨f.runId, f.startedAt, f.expiresAt⟩,
    s.githubDeliveryAudit.nextAuditAt⟩

/-- The streak of polls that found the source unavailable. -/
def pollStreak : List (Option CoreSourceCheckOutcome) → ℕ :=
  streak (fun o => decide (o = some .sourceUnavailable))
    fun o => decide (o ≠ some .sourceUnavailable ∧ o ≠ none)

/-- The streak of audits that were not complete. -/
def auditStreak : List (Option GitHubDeliveryAuditOutcome) → ℕ :=
  streak (fun o => decide (o ≠ some .complete)) fun o => decide (o = some .complete)

/-- The run a claim would be granted: the first identifier it draws. -/
def ScheduleInput.drawnRun? (i : ScheduleInput) : Option String :=
  match i.call with
  | .claimCorePoll _ => some (i.moment.drawn 0)
  | .claimGitHubDeliveryAudit _ _ => some (i.moment.drawn 0)
  | _ => none

/-- **What one call does to the desk of the Core poll.** -/
structure PollStep (e : ScheduleStep) : Prop where
  /-- What is logged is a step of the desk. -/
  desk : ∀ x ∈ pollEntry e, Desk.Step e.before.pollDesk x e.next.pollDesk
  /-- A run that is granted is the one the call drew. -/
  drawn : ∀ x ∈ pollEntry e, ∀ run ∈ x.grant?, e.input.drawnRun? = some run
  /-- The counters count completions. -/
  counters : ∀ x ∈ pollEntry e,
    e.next.corePoll.completedRunCount =
        e.before.corePoll.completedRunCount + (x.outcome?.toList).length ∧
      e.next.corePoll.sourceUnavailableStreak =
        (x.outcome?.elim e.before.corePoll.sourceUnavailableStreak e.before.corePoll.streakAfter)
  /-- A call that logs nothing leaves the row as it was. -/
  still : pollEntry e = none → e.next.corePoll = e.before.corePoll

/-- **What one call does to the desk of the delivery audit.** -/
structure AuditStep (e : ScheduleStep) : Prop where
  /-- What is logged is a step of the desk. -/
  desk : ∀ x ∈ auditEntry e, Desk.Step e.before.auditDesk x e.next.auditDesk
  /-- A run that is granted is the one the call drew. -/
  drawn : ∀ x ∈ auditEntry e, ∀ run ∈ x.grant?, e.input.drawnRun? = some run
  /-- The counters count completions. -/
  counters : ∀ x ∈ auditEntry e,
    e.next.githubDeliveryAudit.completedRunCount =
        e.before.githubDeliveryAudit.completedRunCount + (x.outcome?.toList).length ∧
      e.next.githubDeliveryAudit.incompleteStreak =
        (x.outcome?.elim e.before.githubDeliveryAudit.incompleteStreak
          e.before.githubDeliveryAudit.streakAfter)
  /-- The boundary only moves on. -/
  boundary : ∀ before ∈ e.before.githubDeliveryAudit.lastCompleteBoundaryAt,
    ∃ after ∈ e.next.githubDeliveryAudit.lastCompleteBoundaryAt, before ≤ after
  /-- A call that logs nothing leaves the row as it was. -/
  still : auditEntry e = none → e.next.githubDeliveryAudit = e.before.githubDeliveryAudit

/-! ## A call that throws -/

/-- What `BEGIN IMMEDIATE` guards is undone when it throws. -/
theorem keeps_immediately {α : Type} (body : ScheduleTx α) : Tx.Keeps Eq (immediately body) :=
  Tx.keeps_atomically (r := Eq) (fun _ _ => rfl) body

/-- Checks that read no row may stand before a transaction. -/
theorem keeps_guarded {α β : Type} {x : ScheduleTx α} {f : α → ScheduleTx β} (hx : x.Still)
    (hf : ∀ a, Tx.Keeps Eq (f a)) : Tx.Keeps Eq (x >>= f) :=
  Tx.keeps_bind_of_still (fun _ => rfl) hx hf

/-- **A call that throws changes nothing.** -/
theorem keeps_exec (i : ScheduleInput) : Tx.Keeps Eq i.exec := by
  unfold ScheduleInput.exec
  split
  · exact Tx.keeps_bind_pure (keeps_guarded (Tx.still_ofExcept _) fun _ => keeps_immediately _)
  · exact Tx.keeps_bind_pure (keeps_guarded (Tx.still_ofExcept _) fun _ => keeps_immediately _)
  · exact Tx.keeps_bind_pure (keeps_guarded (Tx.still_failIf _ _) fun _ =>
      keeps_guarded (Tx.still_ofExcept _) fun _ => keeps_immediately _)
  · exact Tx.keeps_bind_pure (keeps_guarded (Tx.still_ofExcept _) fun _ => keeps_immediately _)
  · exact Tx.keeps_bind_pure (keeps_guarded (Tx.still_read _) fun _ =>
      keeps_guarded (Tx.still_failIf _ _) fun _ => Tx.keeps_update _)

/-! ## One call at the desks -/

/-- A call throws and changes nothing, or it returns. -/
theorem step_cases (start : Time) (s : Schedules) (i : ScheduleInput) :
    (∃ e, ((scheduleMachine start).entry s i).output = .error e ∧
      ((scheduleMachine start).entry s i).next = s) ∨
    ∃ answer t, i.exec.Returns s answer t ∧
      (scheduleMachine start).entry s i = ⟨s, i, .ok answer, t⟩ := by
  rcases hx : i.exec s with ⟨answer | e, t⟩
  · refine Or.inl ⟨answer, ?_, ?_⟩
    · show (i.exec s).1 = _
      rw [hx]
    · show (i.exec s).2 = s
      rw [hx]
      exact (keeps_exec i s answer t hx).symm
  · refine Or.inr ⟨e, t, hx, ?_⟩
    show (⟨s, i, (i.exec s).1, (i.exec s).2⟩ : ScheduleStep) = _
    rw [hx]

/-- A completion of the Core poll is taken at its desk: the delay it sets puts
the next poll no earlier. -/
theorem pollDesk_completedBy {s : Schedules} {input : CorePollCompletionInput} {now : Time}
    {flight : InFlight} (hflight : s.corePoll.inFlight = some flight)
    (hrun : flight.runId = input.runId) (hstarted : flight.startedAt ≤ now) :
    Desk.Step s.pollDesk (.completed input.runId now input.sourceOutcome)
      ({ s with
        corePoll := s.corePoll.completedBy input flight.startedAt now } : Schedules).pollDesk := by
  rw [← hrun]
  exact Desk.Step.completed (f := ⟨flight.runId, flight.startedAt, flight.expiresAt⟩)
    (by rw [Schedules.pollDesk, hflight]; rfl) hstarted (le_addSeconds _ _)

/-- A call that logs nothing and leaves the row. -/
theorem PollStep.of_still {e : ScheduleStep} (hlog : pollEntry e = none)
    (hrow : e.next.corePoll = e.before.corePoll) : PollStep e where
  desk x hx := by rw [hlog] at hx; exact nomatch hx
  drawn x hx := by rw [hlog] at hx; exact nomatch hx
  counters x hx := by rw [hlog] at hx; exact nomatch hx
  still _ := hrow

theorem pollEntry_of_error {e : ScheduleStep} {err : ControlError} (h : e.output = .error err) :
    pollEntry e = none := by
  unfold pollEntry
  rw [h]
  cases e.input.call <;> rfl

/-- **One call at the desk of the Core poll.** -/
theorem pollStep (start : Time) (s : Schedules) (i : ScheduleInput) :
    PollStep ((scheduleMachine start).entry s i) := by
  rcases step_cases start s i with ⟨err, hout, hnext⟩ | ⟨answer, t, hreturns, hentry⟩
  · refine PollStep.of_still (pollEntry_of_error hout) ?_
    rw [hnext]
    rfl
  · rw [hentry]
    unfold ScheduleInput.exec at hreturns
    cases hcall : i.call with
    | claimCorePoll interval =>
      simp only [hcall, Tx.returns_bind, Tx.returns_pure] at hreturns
      obtain ⟨result, _, hclaim, rfl, rfl⟩ := hreturns
      rcases claimCorePoll_spec hclaim with ⟨rfl, hnone⟩ | ⟨n, hfree, hdue, hgranted, rfl⟩
      · exact PollStep.of_still (by simp [pollEntry, hcall, hnone]) rfl
      · have hlog : pollEntry ⟨s, i, .ok (.corePollClaim result), { s with
            corePoll := s.corePoll.claimedBy n (i.moment.drawn 0) i.moment.now }⟩ =
            some (.granted (i.moment.drawn 0) i.moment.now
              (addSeconds i.moment.now leaseSeconds)) := by
          simp [pollEntry, hcall, hgranted]
        refine ⟨?_, ?_, ?_, fun hnone => by cases hlog.symm.trans hnone⟩
        · intro x hx
          cases hlog.symm.trans hx
          refine Desk.Step.granted (d := s.pollDesk) ?_ hdue (le_addSeconds _ _)
          intro f hf
          obtain ⟨flight, hflight, rfl⟩ := Option.map_eq_some_iff.mp hf
          exact hfree flight hflight
        · intro x hx run hrun
          cases hlog.symm.trans hx
          cases hrun
          simp [ScheduleInput.drawnRun?, hcall]
        · intro x hx
          cases hlog.symm.trans hx
          exact ⟨rfl, rfl⟩
    | completeCorePoll input =>
      simp only [hcall, Tx.returns_bind, Tx.returns_pure] at hreturns
      obtain ⟨result, _, hcomplete, rfl, rfl⟩ := hreturns
      obtain ⟨flight, hflight, hrun, hstarted, rfl⟩ := completeCorePoll_spec hcomplete
      have hlog : pollEntry ⟨s, i, .ok (.corePoll result), { s with
          corePoll := s.corePoll.completedBy input flight.startedAt i.moment.now }⟩ =
          some (.completed input.runId i.moment.now input.sourceOutcome) := by
        simp [pollEntry, hcall]
      refine ⟨?_, ?_, ?_, fun hnone => by cases hlog.symm.trans hnone⟩
      · intro x hx
        cases hlog.symm.trans hx
        exact pollDesk_completedBy hflight hrun hstarted
      · intro x hx run hrun
        cases hlog.symm.trans hx
        cases hrun
      · intro x hx
        cases hlog.symm.trans hx
        exact ⟨rfl, rfl⟩
    | claimGitHubDeliveryAudit appId interval =>
      simp only [hcall, Tx.returns_bind, Tx.returns_pure] at hreturns
      obtain ⟨result, _, hclaim, rfl, rfl⟩ := hreturns
      refine PollStep.of_still (by simp [pollEntry, hcall]) ?_
      rcases claimGitHubDeliveryAudit_spec hclaim with ⟨rfl, -⟩ | ⟨n, -, -, -, rfl⟩
      · rfl
      · rfl
    | completeGitHubDeliveryAudit input =>
      simp only [hcall, Tx.returns_bind, Tx.returns_pure] at hreturns
      obtain ⟨result, _, hcomplete, rfl, rfl⟩ := hreturns
      refine PollStep.of_still (by simp [pollEntry, hcall]) ?_
      obtain ⟨flight, delay, -, -, -, -, rfl⟩ := completeGitHubDeliveryAudit_spec hcomplete
      rfl
    | commit =>
      simp only [hcall, Tx.returns_bind, Tx.returns_pure] at hreturns
      obtain ⟨_, _, hadvance, rfl, rfl⟩ := hreturns
      exact PollStep.of_still (by simp [pollEntry, hcall]) (advanceControlMetadata_spec hadvance).1

/-- A completion of the delivery audit is taken at its desk: a later retry
only puts the next audit further off. -/
theorem auditDesk_completedBy {s : Schedules} {input : GitHubDeliveryAuditCompletionInput}
    {delay : ℕ} {now : Time} {flight : InFlight}
    (hflight : s.githubDeliveryAudit.inFlight = some flight)
    (hrun : flight.runId = input.runId) (hstarted : flight.startedAt ≤ now) :
    Desk.Step s.auditDesk (.completed input.runId now input.outcome)
      ({ s with
        githubDeliveryAudit :=
          s.githubDeliveryAudit.completedBy input delay flight.startedAt now } :
        Schedules).auditDesk := by
  rw [← hrun]
  refine Desk.Step.completed (f := ⟨flight.runId, flight.startedAt, flight.expiresAt⟩)
    (by rw [Schedules.auditDesk, hflight]; rfl) hstarted ?_
  show now ≤ (input.retryAt.filter (addSeconds now delay < ·)).getD (addSeconds now delay)
  cases hretry : input.retryAt.filter (addSeconds now delay < ·) with
  | none => exact le_addSeconds _ _
  | some retryAt =>
    have hlt := of_decide_eq_true (Option.filter_eq_some_iff.mp hretry).2
    exact le_trans (le_addSeconds _ _) (le_of_lt hlt)

/-- A call that logs nothing and leaves the row. -/
theorem AuditStep.of_still {e : ScheduleStep} (hlog : auditEntry e = none)
    (hrow : e.next.githubDeliveryAudit = e.before.githubDeliveryAudit) : AuditStep e where
  desk x hx := by rw [hlog] at hx; exact nomatch hx
  drawn x hx := by rw [hlog] at hx; exact nomatch hx
  counters x hx := by rw [hlog] at hx; exact nomatch hx
  boundary before hbefore := ⟨before, by rwa [hrow], le_refl _⟩
  still _ := hrow

theorem auditEntry_of_error {e : ScheduleStep} {err : ControlError} (h : e.output = .error err) :
    auditEntry e = none := by
  unfold auditEntry
  rw [h]
  cases e.input.call <;> rfl

/-- **One call at the desk of the delivery audit.** -/
theorem auditStep (start : Time) (s : Schedules) (i : ScheduleInput) :
    AuditStep ((scheduleMachine start).entry s i) := by
  rcases step_cases start s i with ⟨err, hout, hnext⟩ | ⟨answer, t, hreturns, hentry⟩
  · refine AuditStep.of_still (auditEntry_of_error hout) ?_
    rw [hnext]
    rfl
  · rw [hentry]
    unfold ScheduleInput.exec at hreturns
    cases hcall : i.call with
    | claimCorePoll interval =>
      simp only [hcall, Tx.returns_bind, Tx.returns_pure] at hreturns
      obtain ⟨result, _, hclaim, rfl, rfl⟩ := hreturns
      refine AuditStep.of_still (by simp [auditEntry, hcall]) ?_
      rcases claimCorePoll_spec hclaim with ⟨rfl, -⟩ | ⟨n, -, -, -, rfl⟩
      · rfl
      · rfl
    | completeCorePoll input =>
      simp only [hcall, Tx.returns_bind, Tx.returns_pure] at hreturns
      obtain ⟨result, _, hcomplete, rfl, rfl⟩ := hreturns
      refine AuditStep.of_still (by simp [auditEntry, hcall]) ?_
      obtain ⟨flight, -, -, -, rfl⟩ := completeCorePoll_spec hcomplete
      rfl
    | claimGitHubDeliveryAudit appId interval =>
      simp only [hcall, Tx.returns_bind, Tx.returns_pure] at hreturns
      obtain ⟨result, _, hclaim, rfl, rfl⟩ := hreturns
      rcases claimGitHubDeliveryAudit_spec hclaim with ⟨rfl, hnone⟩ | ⟨n, hfree, hdue, hgranted, rfl⟩
      · exact AuditStep.of_still (by simp [auditEntry, hcall, hnone]) rfl
      · have hlog : auditEntry ⟨s, i, .ok (.githubDeliveryAuditClaim result), { s with
            githubDeliveryAudit :=
              s.githubDeliveryAudit.claimedBy appId n (i.moment.drawn 0) i.moment.now }⟩ =
            some (.granted (i.moment.drawn 0) i.moment.now
              (addSeconds i.moment.now leaseSeconds)) := by
          simp [auditEntry, hcall, hgranted]
        refine ⟨?_, ?_, ?_, fun before hbefore => ⟨before, hbefore, le_refl _⟩,
          fun hnone => by cases hlog.symm.trans hnone⟩
        · intro x hx
          cases hlog.symm.trans hx
          refine Desk.Step.granted (d := s.auditDesk) ?_ hdue (le_addSeconds _ _)
          intro f hf
          obtain ⟨flight, hflight, rfl⟩ := Option.map_eq_some_iff.mp hf
          exact hfree flight hflight
        · intro x hx run hrun
          cases hlog.symm.trans hx
          cases hrun
          simp [ScheduleInput.drawnRun?, hcall]
        · intro x hx
          cases hlog.symm.trans hx
          exact ⟨rfl, rfl⟩
    | completeGitHubDeliveryAudit input =>
      simp only [hcall, Tx.returns_bind, Tx.returns_pure] at hreturns
      obtain ⟨result, _, hcomplete, rfl, rfl⟩ := hreturns
      obtain ⟨flight, delay, hflight, hrun, hstarted, hboundary, rfl⟩ :=
        completeGitHubDeliveryAudit_spec hcomplete
      have hlog : auditEntry ⟨s, i, .ok (.githubDeliveryAudit result), { s with
          githubDeliveryAudit :=
            s.githubDeliveryAudit.completedBy input delay flight.startedAt i.moment.now }⟩ =
          some (.completed input.runId i.moment.now input.outcome) := by
        simp [auditEntry, hcall]
      refine ⟨?_, ?_, ?_, ?_, fun hnone => by cases hlog.symm.trans hnone⟩
      · intro x hx
        cases hlog.symm.trans hx
        exact auditDesk_completedBy hflight hrun hstarted
      · intro x hx run hrun
        cases hlog.symm.trans hx
        cases hrun
      · intro x hx
        cases hlog.symm.trans hx
        exact ⟨rfl, rfl⟩
      · -- the boundary a completion brings, or the one that was there
        intro before hbefore
        cases hnew : input.sourceBoundaryAt with
        | some boundary =>
          exact ⟨boundary, by simp [GitHubDeliveryAuditState.completedBy, hnew],
            hboundary boundary hnew before hbefore⟩
        | none =>
          refine ⟨before, ?_, le_refl _⟩
          simpa [GitHubDeliveryAuditState.completedBy, hnew] using hbefore
    | commit =>
      simp only [hcall, Tx.returns_bind, Tx.returns_pure] at hreturns
      obtain ⟨_, _, hadvance, rfl, rfl⟩ := hreturns
      exact AuditStep.of_still (by simp [auditEntry, hcall]) (advanceControlMetadata_spec hadvance).2

/-! ## The law -/

/-- What a run logs at the desk of the Core poll. -/
def pollLog (trace : List ScheduleStep) :
    List (Leases.Entry String Time (Option CoreSourceCheckOutcome)) :=
  trace.filterMap pollEntry

/-- What a run logs at the desk of the delivery audit. -/
def auditLog (trace : List ScheduleStep) :
    List (Leases.Entry String Time (Option GitHubDeliveryAuditOutcome)) :=
  trace.filterMap auditEntry

/-- **What the desk of the Core poll has seen**: its log, and the counters of
its row. -/
structure PollHistory (trace : List ScheduleStep) (s : Schedules) (start : Time) : Prop where
  reaches : Desk.Reaches (Schedules.initial start).pollDesk (pollLog trace) s.pollDesk
  count : s.corePoll.completedRunCount = (completions (pollLog trace)).length
  streak : s.corePoll.sourceUnavailableStreak = pollStreak (outcomes (pollLog trace))

/-- **What the desk of the delivery audit has seen**: its log, and the
counters of its row. -/
structure AuditHistory (trace : List ScheduleStep) (s : Schedules) (start : Time) : Prop where
  reaches : Desk.Reaches (Schedules.initial start).auditDesk (auditLog trace) s.auditDesk
  count : s.githubDeliveryAudit.completedRunCount = (completions (auditLog trace)).length
  streak : s.githubDeliveryAudit.incompleteStreak = auditStreak (outcomes (auditLog trace))

/-- What one more call adds to a log. -/
theorem filterMap_concat {α β : Type} (f : α → Option β) (as : List α) (a : α) :
    (as ++ [a]).filterMap f = as.filterMap f ++ (f a).toList := by
  rw [List.filterMap_append, List.filterMap_cons]
  cases f a with
  | none => rfl
  | some b => rfl

/-- The streak of the row moves as the streak of the outcomes does. -/
theorem pollStreak_concat (row : CorePollState) (os : List (Option CoreSourceCheckOutcome))
    (o : Option CoreSourceCheckOutcome) (h : row.sourceUnavailableStreak = pollStreak os) :
    row.streakAfter o = pollStreak (os ++ [o]) := by
  unfold pollStreak CorePollState.streakAfter at *
  rw [streak_concat, h]
  by_cases hunavailable : o = some .sourceUnavailable
  · simp [hunavailable]
  · by_cases hnone : o = none
    · simp [hnone]
    · simp [hunavailable, hnone]

/-- The streak of the row moves as the streak of the outcomes does. -/
theorem auditStreak_concat (row : GitHubDeliveryAuditState)
    (os : List (Option GitHubDeliveryAuditOutcome)) (o : Option GitHubDeliveryAuditOutcome)
    (h : row.incompleteStreak = auditStreak os) :
    row.streakAfter o = auditStreak (os ++ [o]) := by
  unfold auditStreak GitHubDeliveryAuditState.streakAfter at *
  rw [streak_concat, h]
  by_cases hcomplete : o = some .complete
  · simp [hcomplete]
  · simp [hcomplete]

/-- **One more call carries the history of the Core poll on.** -/
theorem PollHistory.concat {start : Time} {trace : List ScheduleStep} {s : Schedules}
    {e : ScheduleStep} (h : PollHistory trace s start) (hbefore : e.before = s)
    (hstep : PollStep e) : PollHistory (trace ++ [e]) e.next start := by
  subst hbefore
  have hlog : pollLog (trace ++ [e]) = pollLog trace ++ (pollEntry e).toList :=
    filterMap_concat pollEntry trace e
  cases hx : pollEntry e with
  | none =>
    have hrow := hstep.still hx
    rw [hx, Option.toList_none, List.append_nil] at hlog
    refine ⟨?_, ?_, ?_⟩
    · have hdesk : e.next.pollDesk = e.before.pollDesk := by
        rw [Schedules.pollDesk, Schedules.pollDesk, hrow]
      rw [hlog, hdesk]
      exact h.reaches
    · rw [hlog, hrow]
      exact h.count
    · rw [hlog, hrow]
      exact h.streak
  | some x =>
    obtain ⟨hcount, hstreak⟩ := hstep.counters x hx
    rw [hx, Option.toList_some] at hlog
    refine ⟨?_, ?_, ?_⟩
    · rw [hlog]
      exact h.reaches.concat (hstep.desk x hx)
    · rw [hlog, hcount, h.count]
      cases x with
      | granted => simp [Leases.Entry.outcome?]
      | completed => simp [Leases.Entry.outcome?]
    · rw [hlog, hstreak]
      cases x with
      | granted =>
        rw [outcomes_granted]
        exact h.streak
      | completed =>
        rw [outcomes_completed]
        exact pollStreak_concat _ _ _ h.streak

/-- **One more call carries the history of the delivery audit on.** -/
theorem AuditHistory.concat {start : Time} {trace : List ScheduleStep} {s : Schedules}
    {e : ScheduleStep} (h : AuditHistory trace s start) (hbefore : e.before = s)
    (hstep : AuditStep e) : AuditHistory (trace ++ [e]) e.next start := by
  subst hbefore
  have hlog : auditLog (trace ++ [e]) = auditLog trace ++ (auditEntry e).toList :=
    filterMap_concat auditEntry trace e
  cases hx : auditEntry e with
  | none =>
    have hrow := hstep.still hx
    rw [hx, Option.toList_none, List.append_nil] at hlog
    refine ⟨?_, ?_, ?_⟩
    · have hdesk : e.next.auditDesk = e.before.auditDesk := by
        rw [Schedules.auditDesk, Schedules.auditDesk, hrow]
      rw [hlog, hdesk]
      exact h.reaches
    · rw [hlog, hrow]
      exact h.count
    · rw [hlog, hrow]
      exact h.streak
  | some x =>
    obtain ⟨hcount, hstreak⟩ := hstep.counters x hx
    rw [hx, Option.toList_some] at hlog
    refine ⟨?_, ?_, ?_⟩
    · rw [hlog]
      exact h.reaches.concat (hstep.desk x hx)
    · rw [hlog, hcount, h.count]
      cases x with
      | granted => simp [Leases.Entry.outcome?]
      | completed => simp [Leases.Entry.outcome?]
    · rw [hlog, hstreak]
      cases x with
      | granted =>
        rw [outcomes_granted]
        exact h.streak
      | completed =>
        rw [outcomes_completed]
        exact auditStreak_concat _ _ _ h.streak

theorem pollHistory (start : Time) (calls : List ScheduleInput) :
    PollHistory ((scheduleMachine start).trace calls) ((scheduleMachine start).run calls) start :=
  (scheduleMachine start).history (P := fun trace s => PollHistory trace s start)
    ⟨.nil, rfl, rfl⟩ (fun _ i h => h.concat rfl (pollStep start _ i)) calls

theorem auditHistory (start : Time) (calls : List ScheduleInput) :
    AuditHistory ((scheduleMachine start).trace calls) ((scheduleMachine start).run calls) start :=
  (scheduleMachine start).history (P := fun trace s => AuditHistory trace s start)
    ⟨.nil, rfl, rfl⟩ (fun _ i h => h.concat rfl (auditStep start _ i)) calls

/-- The runs a trace grants are among those its calls drew, in order. -/
theorem grants_sublist {start : Time} {ο : Type}
    (entry : ScheduleStep → Option (Leases.Entry String Time ο))
    (hdrawn : ∀ s i, ∀ x ∈ entry ((scheduleMachine start).entry s i), ∀ run ∈ x.grant?,
      i.drawnRun? = some run) (calls : List ScheduleInput) :
    (grants (((scheduleMachine start).trace calls).filterMap entry)).Sublist
      (calls.filterMap ScheduleInput.drawnRun?) := by
  induction calls using List.reverseRecOn with
  | nil => exact List.Sublist.slnil
  | append_singleton is i ih =>
    rw [Machine.trace_concat, filterMap_concat, filterMap_concat, grants, List.filterMap_append]
    refine ih.append ?_
    cases hx : entry ((scheduleMachine start).entry ((scheduleMachine start).run is) i) with
    | none => exact List.nil_sublist _
    | some x =>
      cases hgrant : x.grant? with
      | none => simp [hgrant]
      | some run =>
        rw [hdrawn _ _ x hx run hgrant]
        simp [hgrant]

/-- **The law of the Core poll's schedule**, over a run of calls. -/
structure CorePollLaw (trace : List ScheduleStep) (s : Schedules) : Prop where
  /-- No run is granted into another's unexpired lease, and only the run
  granted last completes, once. -/
  exclusive : Exclusive (pollLog trace)
  /-- No run completes twice. -/
  once : (completions (pollLog trace)).Nodup
  /-- No run is granted before the scheduled time. -/
  due : ∀ e ∈ trace, ∀ run now expires,
    pollEntry e = some (.granted run now expires) → e.before.corePoll.nextPollAt ≤ now
  /-- The row counts the completions that were accepted. -/
  count : s.corePoll.completedRunCount = (completions (pollLog trace)).length
  /-- The row's streak is the streak of the outcomes that were accepted. -/
  streak : s.corePoll.sourceUnavailableStreak = pollStreak (outcomes (pollLog trace))
  /-- The next scheduled time is not before the completion that set it. -/
  next : ∀ e ∈ trace, ∀ run now outcome,
    pollEntry e = some (.completed run now outcome) → now ≤ e.next.corePoll.nextPollAt

/-- **The law of the delivery audit's schedule**, over a run of calls. -/
structure GitHubDeliveryAuditLaw (trace : List ScheduleStep) (s : Schedules) : Prop where
  /-- No run is granted into another's unexpired lease, and only the run
  granted last completes, once. -/
  exclusive : Exclusive (auditLog trace)
  /-- No run completes twice. -/
  once : (completions (auditLog trace)).Nodup
  /-- No run is granted before the scheduled time. -/
  due : ∀ e ∈ trace, ∀ run now expires,
    auditEntry e = some (.granted run now expires) → e.before.githubDeliveryAudit.nextAuditAt ≤ now
  /-- The row counts the completions that were accepted. -/
  count : s.githubDeliveryAudit.completedRunCount = (completions (auditLog trace)).length
  /-- The row's streak is the streak of the outcomes that were accepted. -/
  streak : s.githubDeliveryAudit.incompleteStreak = auditStreak (outcomes (auditLog trace))
  /-- The next scheduled time is not before the completion that set it. -/
  next : ∀ e ∈ trace, ∀ run now outcome,
    auditEntry e = some (.completed run now outcome) → now ≤ e.next.githubDeliveryAudit.nextAuditAt
  /-- The last complete boundary never goes back. -/
  boundary : ∀ e ∈ trace, ∀ before ∈ e.before.githubDeliveryAudit.lastCompleteBoundaryAt,
    ∃ after ∈ e.next.githubDeliveryAudit.lastCompleteBoundaryAt, before ≤ after

theorem corePollLaw (start : Time) (calls : List ScheduleInput)
    (hfresh : (calls.filterMap ScheduleInput.drawnRun?).Nodup) :
    CorePollLaw ((scheduleMachine start).trace calls) ((scheduleMachine start).run calls) := by
  have hhistory := pollHistory start calls
  have hgrants : (grants (pollLog ((scheduleMachine start).trace calls))).Nodup :=
    hfresh.sublist (grants_sublist pollEntry (fun s i => (pollStep start s i).drawn) calls)
  have hexclusive := (hhistory.reaches.knows_and_exclusive rfl hgrants).2
  have hstep : ∀ e ∈ (scheduleMachine start).trace calls, PollStep e := by
    intro e he
    obtain ⟨pre, post, -, hentry⟩ := (scheduleMachine start).mem_trace he
    rw [hentry]
    exact pollStep start _ _
  refine ⟨hexclusive, hexclusive.nodup_completions, ?_, hhistory.count, hhistory.streak, ?_⟩
  · intro e he run now expires hx
    exact ((hstep e he).desk _ hx).due
  · intro e he run now outcome hx
    exact ((hstep e he).desk _ hx).next

theorem githubDeliveryAuditLaw (start : Time) (calls : List ScheduleInput)
    (hfresh : (calls.filterMap ScheduleInput.drawnRun?).Nodup) :
    GitHubDeliveryAuditLaw ((scheduleMachine start).trace calls)
      ((scheduleMachine start).run calls) := by
  have hhistory := auditHistory start calls
  have hgrants : (grants (auditLog ((scheduleMachine start).trace calls))).Nodup :=
    hfresh.sublist (grants_sublist auditEntry (fun s i => (auditStep start s i).drawn) calls)
  have hexclusive := (hhistory.reaches.knows_and_exclusive rfl hgrants).2
  have hstep : ∀ e ∈ (scheduleMachine start).trace calls, AuditStep e := by
    intro e he
    obtain ⟨pre, post, -, hentry⟩ := (scheduleMachine start).mem_trace he
    rw [hentry]
    exact auditStep start _ _
  refine ⟨hexclusive, hexclusive.nodup_completions, ?_, hhistory.count, hhistory.streak, ?_,
    fun e he => (hstep e he).boundary⟩
  · intro e he run now expires hx
    exact ((hstep e he).desk _ hx).due
  · intro e he run now outcome hx
    exact ((hstep e he).desk _ hx).next

/-- **A completion that is not owed is refused**: in a log whose leases
exclude one another, a call that completes a run which is not the one
granted last, or which has completed, throws. -/
theorem refused_of_not_owed {ο : Type} {start : Time}
    {entry : ScheduleStep → Option (Leases.Entry String Time ο)} {calls : List ScheduleInput}
    (hexclusive : Exclusive (((scheduleMachine start).trace calls).filterMap entry))
    {pre post : List ScheduleStep} {e : ScheduleStep}
    (htrace : (scheduleMachine start).trace calls = pre ++ e :: post) {run : String} {now : Time}
    {outcome : ο} (hentry : ∀ answer, e.output = .ok answer →
      entry e = some (.completed run now outcome))
    (howed : (grants (pre.filterMap entry)).getLast? ≠ some run ∨
      run ∈ completions (pre.filterMap entry)) :
    ∃ err, e.output = .error err := by
  cases hout : e.output with
  | error err => exact ⟨err, rfl⟩
  | ok answer =>
    rw [htrace, List.filterMap_append, List.filterMap_cons_some (hentry answer hout)] at hexclusive
    obtain ⟨hlast, hnot⟩ := hexclusive.completed _ run now outcome _ rfl
    exact (howed.elim (fun hne => hne hlast) hnot).elim

/-- A call that throws leaves the schedules as they were. -/
theorem unchanged_of_error {start : Time} {calls : List ScheduleInput} {e : ScheduleStep}
    (he : e ∈ (scheduleMachine start).trace calls) {err : ControlError}
    (hout : e.output = .error err) : e.next = e.before := by
  obtain ⟨pre, post, -, hentry⟩ := (scheduleMachine start).mem_trace he
  rw [hentry] at hout ⊢
  rcases step_cases start ((scheduleMachine start).run pre) e.input with
    ⟨_, -, hnext⟩ | ⟨answer, t, -, hreturned⟩
  · exact hnext
  · rw [hreturned] at hout
    exact nomatch hout

/-- A completion of the Core poll that returns is logged. -/
theorem pollEntry_of_completed {start : Time} {s : Schedules} {i : ScheduleInput}
    {input : CorePollCompletionInput} (hcall : i.call = .completeCorePoll input)
    {answer : ScheduleAnswer} (hout : ((scheduleMachine start).entry s i).output = .ok answer) :
    pollEntry ((scheduleMachine start).entry s i) =
      some (.completed input.runId i.moment.now input.sourceOutcome) := by
  rcases step_cases start s i with ⟨err, herr, -⟩ | ⟨returned, t, hreturns, hentry⟩
  · exact nomatch herr.symm.trans hout
  · rw [hentry]
    simp only [ScheduleInput.exec, hcall, Tx.returns_bind, Tx.returns_pure] at hreturns
    obtain ⟨result, _, -, rfl, rfl⟩ := hreturns
    simp [pollEntry, hcall]

/-- A completion of the delivery audit that returns is logged. -/
theorem auditEntry_of_completed {start : Time} {s : Schedules} {i : ScheduleInput}
    {input : GitHubDeliveryAuditCompletionInput}
    (hcall : i.call = .completeGitHubDeliveryAudit input) {answer : ScheduleAnswer}
    (hout : ((scheduleMachine start).entry s i).output = .ok answer) :
    auditEntry ((scheduleMachine start).entry s i) =
      some (.completed input.runId i.moment.now input.outcome) := by
  rcases step_cases start s i with ⟨err, herr, -⟩ | ⟨returned, t, hreturns, hentry⟩
  · exact nomatch herr.symm.trans hout
  · rw [hentry]
    simp only [ScheduleInput.exec, hcall, Tx.returns_bind, Tx.returns_pure] at hreturns
    obtain ⟨result, _, -, rfl, rfl⟩ := hreturns
    simp [auditEntry, hcall]

/-- A run of calls: a poll is claimed, its lease runs out, another is claimed
and completes, and the first one tries to. -/
def sampleCalls : List ScheduleInput :=
  let moment (now : Time) (run : String) : Moment := ⟨now, fun _ => run⟩
  let first := "00000000-0000-7000-8000-000000000001"
  let second := "00000000-0000-7000-8000-000000000002"
  let completion (run : String) : CorePollCompletionInput :=
    ⟨run, .completed, some .eligible, .recorded, false⟩
  [⟨.claimCorePoll (.int 60), moment 0 first, .ok ()⟩,
    ⟨.claimCorePoll (.int 60), moment 600000 second, .ok ()⟩,
    ⟨.completeCorePoll (completion second), moment 610000 first, .ok ()⟩,
    ⟨.completeCorePoll (completion first), moment 620000 first, .ok ()⟩]

end Snowcat
