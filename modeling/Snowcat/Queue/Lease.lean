import Snowcat.Queue.Lifecycle

/-!
# Lease fencing

A lease is a token only its claim has seen. Whoever acts on an item shows
the token and the worker, and the store compares them with the row. That
the row is the right thing to compare with is what has to be shown: the
lease columns of a claimed row are those of its most recent `work.claimed`
event, and no event ended that lease since (`LeaseHistory`). The invariant
speaks of a run and not of a state, because the token of an event is not in
the ledger – it is in the answer of the call that recorded the event
(`Issued`). With fresh UUIDs a token names one such call, so a worker whose
lease lapsed, was released by an operator or was claimed again can show
nothing that passes.
-/

namespace Snowcat

variable {env : Env} {op : Op} {lo hi : ℕ} {db db' : Db}

/-! ## Calls under a lease -/

/-- The item, token and worker of a call that acts under a lease. -/
def Op.leaseCall : Op → Option (String × String × String)
  | .heartbeat id leaseToken worker _ => some (id, leaseToken, worker)
  | .complete input => some (input.id, input.leaseToken, input.worker)
  | .block id leaseToken worker _ => some (id, leaseToken, worker)
  | .release id leaseToken worker _ => some (id, leaseToken, worker)
  | _ => none

/-- A body that starts from `assertActiveLease` returns only to the holder. -/
theorem holdsLease_of_guarded {α β : Type} {checks : Except QueueError α}
    {body : WorkItem → QueueTx β} {w w' : World} {b : β} {id token worker : String}
    (h : (checked checks fun _ => assertActiveLease env id token worker >>= body).Returns w b w') :
    ∃ item, HoldsLease w.db item id token worker (env.clock w.ticks) := by
  simp only [returns_checked, Tx.returns_bind, returns_assertActiveLease] at h
  obtain ⟨_, -, item, _, ⟨hlease, -⟩, -⟩ := h
  exact ⟨item, hlease⟩

/-- **A call under a lease returns only to its holder.** -/
theorem holdsLease_of_returns {w w' : World} {r : Reply} {id token worker : String}
    (h : (op.run env).Returns w r w') (hcall : op.leaseCall = some (id, token, worker)) :
    ∃ item, HoldsLease w.db item id token worker (env.clock w.ticks) := by
  cases op with
  | heartbeat | complete | block | release =>
    obtain ⟨rfl, rfl, rfl⟩ : _ = id ∧ _ = token ∧ _ = worker := by simpa [Op.leaseCall] using hcall
    obtain ⟨_, h, -⟩ := returns_reply.mp h
    exact holdsLease_of_guarded h
  | _ => exact nomatch hcall

/-! ## Who holds an item -/

/-- **The holder of an item**: the owner and the token of its lease, while it
is claimed. -/
def Db.holder (db : Db) (id : String) : Option (Option String × Option String) :=
  (db.items.find? id).bind fun item =>
    if item.rowStatus = .claimed then some (item.leaseOwner, item.leaseToken) else none

theorem Db.holder_of_claimed {id : String} {item : WorkItem} (hitem : db.items.find? id = some item)
    (hclaimed : item.rowStatus = .claimed) :
    db.holder id = some (item.leaseOwner, item.leaseToken) := by
  rw [Db.holder, hitem]
  exact if_pos hclaimed

theorem Db.holder_of_free {id : String} {item : WorkItem} (hitem : db.items.find? id = some item)
    (hfree : item.rowStatus ≠ .claimed) : db.holder id = none := by
  rw [Db.holder, hitem]
  exact if_neg hfree

theorem Db.holder_of_find?_eq_none {id : String} (h : db.items.find? id = none) :
    db.holder id = none := by
  rw [Db.holder, h]
  rfl

/-- The lifecycle events an addition to the ledger makes. -/
theorem lifecycle_adds {id : String} {ps : List Posting} (h : db.ledger.Adds db'.ledger id ps) :
    ∃ new, lifecycle db' id = lifecycle db id ++ new ∧
      new.map WorkEvent.posting = leasePostings ps := by
  obtain ⟨new, hof, rfl⟩ := h
  refine ⟨new.filter fun e => e.type.isLifecycle, ?_, ?_⟩
  · rw [lifecycle, hof, List.filter_append, lifecycle]
  · rw [leasePostings, List.filter_map]
    rfl

theorem lifecycle_eq_of_adds {id : String} {ps : List Posting}
    (h : db.ledger.Adds db'.ledger id ps) (hnone : leasePostings ps = []) :
    lifecycle db' id = lifecycle db id := by
  obtain ⟨new, hnew, hps⟩ := lifecycle_adds h
  rw [hnone, List.map_eq_nil_iff] at hps
  rw [hnew, hps, List.append_nil]

/-- A lifecycle event that is recorded is the last one of its item. -/
theorem getLast?_lifecycle_post {l : Ledger} {id : String} {p : Posting}
    (h : db.ledger = l.post id p) (htype : p.payload.type.isLifecycle = true) :
    (lifecycle db id).getLast? = some (p.event (l.events.length + 1) id) := by
  have hlast : [p.event (l.events.length + 1) id].filter (fun e => e.type.isLifecycle) =
      [p.event (l.events.length + 1) id] := by
    rw [List.filter_singleton, show (p.event (l.events.length + 1) id).type.isLifecycle = true from
      htype]
    rfl
  rw [lifecycle, h, Ledger.of_post_self, List.filter_append, hlast, List.getLast?_concat]

/-- The lease of an item is what it was, and no lifecycle event was
recorded. -/
def LeaseKept (db db' : Db) (id : String) : Prop :=
  lifecycle db' id = lifecycle db id ∧ db'.holder id = db.holder id

/-- The item is free, and its last lifecycle event is the end of a lease. -/
def LeaseEnded (db : Db) (id : String) : Prop :=
  db.holder id = none ∧ ∀ e ∈ (lifecycle db id).getLast?, e.type ≠ .workClaimed

/-- **A move that is not a claim** leaves the lease of an item alone, or ends
it. -/
theorem Move.lease (hop : ∀ input, op ≠ .claim input) (hm : Move env op lo hi db db')
    (id : String) : LeaseKept db db' id ∨ LeaseEnded db' id := by
  cases hm.rowStep id with
  | stays hrow hledger =>
    exact Or.inl ⟨lifecycle_eq_of_adds hledger rfl, by rw [Db.holder, hrow, Db.holder]⟩
  | renamed _ hrow hledger =>
    refine Or.inl ⟨lifecycle_eq_of_adds hledger rfl, ?_⟩
    rw [Db.holder, hrow, Db.holder]
    cases db.items.find? id with
    | none => rfl
    | some item =>
      show (if (item.renamed _ _).rowStatus = .claimed then _ else _) = _
      unfold WorkItem.renamed
      split <;> rfl
  | @born row posting hfresh hrow hbirth hledger =>
    refine Or.inl ⟨lifecycle_eq_of_adds hledger hbirth.leasePostings, ?_⟩
    rw [Db.holder_of_find?_eq_none hfresh]
    refine Db.holder_of_free hrow ?_
    cases hbirth <;> exact nofun
  | @written item item' postings hitem hitem' hmove hledger =>
    obtain ⟨new, hnew, hps⟩ := lifecycle_adds hledger
    have heffect := hmove.leaseEffect
    rw [← hps] at heffect
    generalize hposted : new.map WorkEvent.posting = posted at heffect
    cases heffect with
    | keeps hstatus hlease =>
      rw [List.map_eq_nil_iff] at hposted
      refine Or.inl ⟨by rw [hnew, hposted, List.append_nil], ?_⟩
      by_cases hclaimed : item.rowStatus = .claimed
      · obtain ⟨howner, htoken⟩ := hlease hclaimed
        rw [Db.holder_of_claimed hitem hclaimed, Db.holder_of_claimed hitem' (hstatus.mpr hclaimed),
          howner, htoken]
      · rw [Db.holder_of_free hitem hclaimed,
          Db.holder_of_free hitem' fun h => hclaimed (hstatus.mp h)]
    | @ends p hclaimed hends hfree =>
      obtain ⟨e, rfl, hp⟩ := List.map_eq_singleton_iff.mp hposted
      refine Or.inr ⟨Db.holder_of_free hitem' hfree, fun f hf => ?_⟩
      rw [hnew, List.getLast?_concat] at hf
      obtain rfl := Option.some.inj hf
      have hopens := opensLease_of_endsLease hends
      rw [← hp] at hopens
      exact of_decide_eq_false hopens
    | begins hclaim => exact absurd hclaim (hop _)

theorem Moves.lease (hop : ∀ input, op ≠ .claim input) (hm : Moves env op lo hi db db')
    (id : String) : LeaseKept db db' id ∨ LeaseEnded db' id := by
  induction hm with
  | refl => exact Or.inl ⟨rfl, rfl⟩
  | tail _ hlast ih =>
    rcases hlast.lease hop id with hkept | hended
    · rcases ih with hkept' | hended'
      · exact Or.inl ⟨hkept.1.trans hkept'.1, hkept.2.trans hkept'.2⟩
      · exact Or.inr ⟨hkept.2.trans hended'.1, by rw [hkept.1]; exact hended'.2⟩
    · exact Or.inr hended

/-! ## The step that issued a lease -/

/-- **A step issued a lease**: it was a claim, its answer carries the token,
and the event it recorded last is the claim of the item by the worker. -/
structure Issued (e : Machine.Entry World Op Outcome) (id token worker : String)
    (claimed : WorkEvent) : Prop where
  asked : ∃ input, e.input = .claim input
  answered : ∃ leased : WorkItem, e.output = .ok (.found (some leased)) ∧ leased.id = id ∧
    leased.leaseToken = some token ∧ leased.leaseOwner = some worker
  recorded : e.next.db.ledger.events.getLast? = some claimed
  event : claimed.workItemId = id ∧ claimed.type = .workClaimed ∧ claimed.actor = worker

/-- **What a claim that leased did to the ledger and the row**, seen from the
step that took it. -/
structure ClaimStep (env : Env) (w w' : World) (id token worker : String)
    (claimed : WorkEvent) : Prop where
  fresh : ∃ k, w.ticks ≤ k ∧ k < w'.ticks ∧ token = env.randomUUID k
  event : claimed.workItemId = id ∧ claimed.type = .workClaimed ∧ claimed.actor = worker
  recorded : w'.db.ledger.events.getLast? = some claimed
  newest : (lifecycle w'.db id).getLast? = some claimed
  new : claimed ∉ w.db.ledger.events
  holder : w'.db.holder id = some (some worker, some token)
  others : ∀ other, other ≠ id → LeaseKept w.db w'.db other

/-- A lease that was written is a claim step. -/
theorem claimStep_of_leased {w w' : World} {request : ClaimRequest} {atTime : Time}
    {row leased : WorkItem} (hrow : w.db.items.find? row.id = some row)
    (h : Leased env request atTime w.ticks w'.ticks w.db row leased w'.db) :
    ∃ token claimed, leased.id = row.id ∧ leased.leaseToken = some token ∧
      leased.leaseOwner = some request.worker ∧
      ClaimStep env w w' row.id token request.worker claimed := by
  obtain ⟨token, expiresAt, t₁, t₂, hfresh, rfl, hdb⟩ := h.written
  obtain ⟨p, hactor, htype, hledger⟩ : ∃ p : Posting, p.actor = request.worker ∧
      p.payload.type = .workClaimed ∧ w'.db.ledger =
        (w.db.ledger.postAll row.id (expiryPostings row t₁)).post row.id p := by
    refine ⟨⟨request.worker, .workClaimed expiresAt request.label request.restriction request.grant,
      t₂⟩, rfl, rfl, ?_⟩
    rw [hdb]
    exact Ledger.postAll_concat ..
  generalize hbefore : w.db.ledger.postAll row.id (expiryPostings row t₁) = before at hledger
  have hrow' : ∀ id, w'.db.items.find? id = if id = row.id then some
      { row with
        rowStatus := .claimed
        leaseOwner := some request.worker
        leaseToken := some token
        leaseExpiresAt := some expiresAt
        updatedAt := atTime } else w.db.items.find? id := by
    rw [hdb]
    exact Db.find?_write hrow
  refine ⟨token, p.event (before.events.length + 1) row.id, rfl, rfl, rfl, hfresh,
    ⟨rfl, htype, hactor⟩, ?_, ?_, ?_, ?_, ?_⟩
  · rw [hledger, Ledger.events_post, List.getLast?_concat]
  · exact getLast?_lifecycle_post hledger (by rw [htype]; rfl)
  · obtain ⟨more, hmore⟩ : w.db.ledger.events <+: before.events :=
      hbefore ▸ Ledger.prefix_postAll ..
    have hevents : w'.db.ledger.events = w.db.ledger.events ++
        (more ++ [p.event (before.events.length + 1) row.id]) := by
      rw [hledger, Ledger.events_post, ← hmore, List.append_assoc]
    exact fun hmem => Ledger.not_mem_of_append hevents hmem
      (List.mem_append_right _ (List.mem_singleton_self _))
  · exact Db.holder_of_claimed ((hrow' row.id).trans (if_pos rfl)) rfl
  · intro other hne
    have hadds : w.db.ledger.Adds w'.db.ledger other [] := by
      rw [hdb]
      exact Ledger.adds_postAll_of_ne _ _ hne
    refine ⟨lifecycle_eq_of_adds hadds rfl, ?_⟩
    rw [Db.holder, hrow' other, if_neg hne, Db.holder]

/-- **What a step does to the leases**: it issued one, or it left every lease
alone or ended it. -/
inductive StepLease (env : Env) (w : World) (op : Op) : Prop
  | issues {id token worker : String} {claimed : WorkEvent}
      (hissued : Issued ((queue env).entry w op) id token worker claimed)
      (hstep : ClaimStep env w (op.run env w).2 id token worker claimed)
  | quiet (hnone : ∀ id token worker claimed,
        ¬ Issued ((queue env).entry w op) id token worker claimed)
      (hleases : ∀ id, LeaseKept w.db (op.run env w).2.db id ∨ LeaseEnded (op.run env w).2.db id)

/-- A step that answered no item and wrote nothing is quiet. -/
theorem StepLease.of_nothing {w : World} {op : Op}
    (hout : ∀ leased, (op.run env w).1 ≠ .ok (.found (some leased)))
    (hdb : (op.run env w).2.db = w.db) : StepLease env w op := by
  refine .quiet (fun id token worker claimed hissued => ?_) fun id => Or.inl ?_
  · obtain ⟨leased, hleased, -⟩ := hissued.answered
    exact hout leased hleased
  · rw [hdb]
    exact ⟨rfl, rfl⟩

/-- A claim step whose answer carries its token issued the lease. -/
theorem StepLease.of_claimStep {w : World} {op : Op} {token worker : String} {leased : WorkItem}
    {claimed : WorkEvent} (hop : ∃ input, op = .claim input)
    (hout : (op.run env w).1 = .ok (.found (some leased))) (htoken : leased.leaseToken = some token)
    (howner : leased.leaseOwner = some worker)
    (hstep : ClaimStep env w (op.run env w).2 leased.id token worker claimed) : StepLease env w op :=
  .issues ⟨hop, ⟨leased, hout, rfl, htoken, howner⟩, hstep.recorded, hstep.event⟩ hstep

theorem stepLease_of_claim {w : World} {input : ClaimInput} {reply : Option WorkItem}
    (hout : ((Op.claim input).run env w).1 = .ok (.found reply))
    (h : (claim env input).Returns w reply ((Op.claim input).run env w).2) :
    StepLease env w (.claim input) := by
  obtain ⟨request, -, ⟨-, rfl, hw⟩ | ⟨-, -, ⟨-, rfl, hdb⟩ | ⟨row, leased, -, rfl, hrow, hleased⟩⟩⟩ :=
    claim_spec h
  · exact .of_nothing (fun leased hl => nomatch hout.symm.trans hl) (by rw [hw])
  · exact .of_nothing (fun leased hl => nomatch hout.symm.trans hl) hdb
  · obtain ⟨token, claimed, hid, htoken, howner, hstep⟩ := claimStep_of_leased hrow hleased
    rw [← hid] at hstep
    exact .of_claimStep ⟨input, rfl⟩ hout htoken howner hstep

theorem step_lease (env : Env) (w : World) (op : Op) : StepLease env w op := by
  rcases run_cases env op w with ⟨r, hreturns, hr⟩ | ⟨e, he, hdb⟩
  · by_cases hop : ∃ input, op = .claim input
    · obtain ⟨input, rfl⟩ := hop
      obtain ⟨reply, hclaim, rfl⟩ := returns_reply.mp hreturns
      exact stepLease_of_claim hr hclaim
    · exact .quiet (fun id token worker claimed hissued => hop hissued.asked) fun id =>
        (moves_of_returns hreturns).lease (fun input h => hop ⟨input, h⟩) id
  · exact .of_nothing (fun leased hl => nomatch he.symm.trans hl) hdb

/-! ## The history of a lease -/

/-- **The rows tell the claims.** Whoever the row says holds an item was
issued the lease by a step of the run whose event is the item's last
lifecycle event; and a step whose event is still the last one issued the
lease the row has. -/
structure LeaseHistory (trace : List (Machine.Entry World Op Outcome)) (w : World) : Prop where
  issued : ∀ id owner token, w.db.holder id = some (owner, token) →
    ∃ e ∈ trace, ∃ worker tok claimed, owner = some worker ∧ token = some tok ∧
      Issued e id tok worker claimed ∧ (lifecycle w.db id).getLast? = some claimed
  recorded : ∀ e ∈ trace, ∀ id token worker claimed, Issued e id token worker claimed →
    claimed ∈ w.db.ledger.events
  current : ∀ e ∈ trace, ∀ id token worker claimed, Issued e id token worker claimed →
    (lifecycle w.db id).getLast? = some claimed → w.db.holder id = some (some worker, some token)

theorem LeaseHistory.start : LeaseHistory [] World.empty where
  issued _ _ _ h := nomatch h
  recorded _ h := nomatch h
  current _ h := nomatch h

/-- The claims of a run stay recorded. -/
theorem LeaseHistory.recorded_step {trace : List (Machine.Entry World Op Outcome)} {w : World}
    (h : LeaseHistory trace w) (op : Op) {e : Machine.Entry World Op Outcome} (he : e ∈ trace)
    {id token worker : String} {claimed : WorkEvent} (hissued : Issued e id token worker claimed) :
    claimed ∈ (op.run env w).2.db.ledger.events :=
  (step_moves op w).prefix_events.subset (h.recorded e he _ _ _ _ hissued)

/-- **The step of the history**: a quiet step keeps what the rows tell, lease
by lease, and a claim puts its own event last. -/
theorem LeaseHistory.step {trace : List (Machine.Entry World Op Outcome)} {w : World}
    (h : LeaseHistory trace w) (op : Op) :
    LeaseHistory (trace ++ [(queue env).entry w op]) (op.run env w).2 := by
  cases step_lease env w op with
  | quiet hnone hleases =>
    refine ⟨fun id owner token hholder => ?_, fun e he id token worker claimed hissued => ?_,
      fun e he id token worker claimed hissued hlast => ?_⟩
    · rcases hleases id with ⟨hsame, hkept⟩ | ⟨hfree, -⟩
      · rw [hkept] at hholder
        obtain ⟨e, he, worker, tok, claimed, ho, ht, hissued, hlast⟩ := h.issued id owner token hholder
        exact ⟨e, List.mem_append_left _ he, worker, tok, claimed, ho, ht, hissued, by rw [hsame, hlast]⟩
      · exact nomatch hfree.symm.trans hholder
    · rcases List.mem_append.mp he with he | he
      · exact h.recorded_step op he hissued
      · exact absurd (List.mem_singleton.mp he ▸ hissued) (hnone _ _ _ _)
    · rcases List.mem_append.mp he with he | he
      · rcases hleases id with ⟨hsame, hkept⟩ | ⟨-, hended⟩
        · rw [hkept]
          exact h.current e he id token worker claimed hissued (by rw [← hsame, hlast])
        · exact absurd hissued.event.2.1 (hended claimed hlast)
      · exact absurd (List.mem_singleton.mp he ▸ hissued) (hnone _ _ _ _)
  | @issues id₀ token₀ worker₀ claimed₀ hissued₀ hstep =>
    have hnew : ∀ {e id token worker claimed}, e ∈ trace ++ [(queue env).entry w op] →
        Issued e id token worker claimed → e ∈ trace ∨ (id = id₀ ∧ token = token₀ ∧
          worker = worker₀ ∧ claimed = claimed₀) := by
      intro e id token worker claimed he hissued
      refine (List.mem_append.mp he).imp_right fun he => ?_
      rw [List.mem_singleton.mp he] at hissued
      obtain ⟨leased, hleased, rfl, htoken, howner⟩ := hissued.answered
      obtain ⟨leased', hleased', rfl, htoken', howner'⟩ := hissued₀.answered
      obtain rfl : leased = leased' := by
        have := hleased.symm.trans hleased'
        simpa using this
      exact ⟨rfl, Option.some.inj (htoken.symm.trans htoken'),
        Option.some.inj (howner.symm.trans howner'),
        Option.some.inj (hissued.recorded.symm.trans hissued₀.recorded)⟩
    refine ⟨fun id owner token hholder => ?_, fun e he id token worker claimed hissued => ?_,
      fun e he id token worker claimed hissued hlast => ?_⟩
    · by_cases hid : id = id₀
      · subst hid
        rw [hstep.holder] at hholder
        obtain ⟨rfl, rfl⟩ : some worker₀ = owner ∧ some token₀ = token := by simpa using hholder
        exact ⟨_, List.mem_append_right _ (List.mem_singleton_self _), worker₀, token₀, claimed₀, rfl,
          rfl, hissued₀, hstep.newest⟩
      · obtain ⟨hsame, hkept⟩ := hstep.others id hid
        rw [hkept] at hholder
        obtain ⟨e, he, worker, tok, claimed, ho, ht, hissued, hlast⟩ := h.issued id owner token hholder
        exact ⟨e, List.mem_append_left _ he, worker, tok, claimed, ho, ht, hissued, by rw [hsame, hlast]⟩
    · rcases hnew he hissued with he | ⟨-, -, -, rfl⟩
      · exact h.recorded_step op he hissued
      · exact List.mem_of_getLast? hstep.recorded
    · rcases hnew he hissued with he | ⟨rfl, rfl, rfl, rfl⟩
      · by_cases hid : id = id₀
        · subst hid
          obtain rfl : claimed₀ = claimed := Option.some.inj (hstep.newest.symm.trans hlast)
          exact absurd (h.recorded e he _ _ _ _ hissued) hstep.new
        · obtain ⟨hsame, hkept⟩ := hstep.others id hid
          rw [hkept]
          exact h.current e he id token worker claimed hissued (by rw [← hsame, hlast])
      · exact hstep.holder

/-- The history of every run. -/
theorem leaseHistory_exec (ops : List Op) : LeaseHistory (steps env ops) (exec env ops) :=
  (queue env).history .start (fun _ op h => h.step op) ops

/-! ## Fresh tokens -/

/-- A token was drawn in the step that issued it. -/
theorem Issued.token_fresh {ops : List Op} {e : Machine.Entry World Op Outcome}
    {id token worker : String} {claimed : WorkEvent} (h : Issued e id token worker claimed)
    (he : e ∈ steps env ops) :
    ∃ k, e.before.ticks ≤ k ∧ k < e.next.ticks ∧ token = env.randomUUID k := by
  obtain ⟨pre, post, -, hentry⟩ := mem_steps he
  rw [hentry] at h ⊢
  generalize e.input = op at h ⊢
  cases step_lease env (exec env pre) op with
  | quiet hnone _ => exact absurd h (hnone _ _ _ _)
  | @issues id₀ token₀ worker₀ claimed₀ hissued₀ hstep =>
    obtain ⟨leased, hleased, -, htoken, -⟩ := h.answered
    obtain ⟨leased', hleased', -, htoken', -⟩ := hissued₀.answered
    obtain rfl : leased = leased' := by
      have := hleased.symm.trans hleased'
      simpa using this
    obtain rfl := Option.some.inj (htoken.symm.trans htoken')
    exact hstep.fresh

/-- **A fresh token names the step that issued it.** -/
theorem eq_of_issued (hfresh : Function.Injective env.randomUUID) {ops : List Op}
    {e e' : Machine.Entry World Op Outcome} (he : e ∈ steps env ops) (he' : e' ∈ steps env ops)
    {id id' token worker worker' : String} {claimed claimed' : WorkEvent}
    (h : Issued e id token worker claimed) (h' : Issued e' id' token worker' claimed') : e' = e := by
  obtain ⟨k, hk, hk', rfl⟩ := h.token_fresh he
  obtain ⟨l, hl, hl', htoken⟩ := h'.token_fresh he'
  have hkl := hfresh htoken
  by_contra hne
  rcases windows_steps he' he hne with hle | hle <;> omega

/-! ## Completions -/

/-- The completions among postings. -/
def completions (ps : List Posting) : ℕ := ps.countP fun p => p.payload.type = .workCompleted

/-- An item is completed when its completion was recorded, which happened
once. -/
def CompletedOnce (item : WorkItem) (hist : List Posting) : Prop :=
  completions hist = if item.rowStatus = .completed then 1 else 0

theorem RowMove.completed_cases {item item' : WorkItem} {ps : List Posting}
    (hm : RowMove env op lo hi item item' ps) :
    (completions ps = 1 ∧ item.rowStatus ≠ .completed ∧ item'.rowStatus = .completed) ∨
      (completions ps = 0 ∧ (item'.rowStatus = .completed ↔ item.rowStatus = .completed)) := by
  have hnone : ∀ {p : Posting}, p.payload.type ≠ .workCompleted → completions [p] = 0 := by
    intro p hp
    exact List.countP_eq_zero.mpr fun q hq => by simpa [List.mem_singleton.mp hq] using hp
  cases hm with
  | @claim input request token expiresAt updatedAt t₁ t₂ _ _ hclaimable =>
    refine Or.inr ⟨?_, iff_of_false nofun fun hcompleted => ?_⟩
    · unfold completions expiryPostings
      split <;> rfl
    · unfold claimable at hclaimable
      rw [hcompleted] at hclaimable
      simp at hclaimable
  | @complete worker result review? followUpIds updatedAt t reviewed hclaimed _ hreviewed =>
    refine Or.inl ⟨?_, by rw [hclaimed]; exact nofun, rfl⟩
    have hzero : completions reviewed = 0 :=
      List.countP_eq_zero.mpr fun p hp => by simp [hreviewed p hp]
    unfold completions at hzero ⊢
    rw [List.countP_cons_of_pos (by rfl), hzero]
  | heartbeat | approve | note | prioritize | predecessors | defer => exact Or.inr ⟨rfl, Iff.rfl⟩
  | block hclaimed | release hclaimed | releaseLease hclaimed | requeue hclaimed =>
    exact Or.inr ⟨rfl, iff_of_false nofun (by rw [hclaimed]; exact nofun)⟩
  | reject hproposed =>
    exact Or.inr ⟨rfl, iff_of_false nofun
      (by rw [(WorkItem.status_eq_proposed.mp hproposed).1]; exact nofun)⟩
  | cancel hstatus =>
    refine Or.inr ⟨rfl, iff_of_false nofun fun hcompleted => ?_⟩
    rcases hstatus with hstatus | hstatus
    · exact nomatch (WorkItem.status_eq_queued.mp hstatus).1.symm.trans hcompleted
    · exact nomatch hstatus.symm.trans hcompleted
  | artifacts _ hpayload =>
    refine Or.inr ⟨hnone fun h => ?_, Iff.rfl⟩
    rcases hpayload with hp | hp | hp <;> exact nomatch hp.symm.trans h

theorem CompletedOnce.write {item item' : WorkItem} {hist ps : List Posting}
    (h : CompletedOnce item hist) (hm : RowMove env op lo hi item item' ps) :
    CompletedOnce item' (hist ++ ps) := by
  have happend : completions (hist ++ ps) = completions hist + completions ps :=
    List.countP_append
  unfold CompletedOnce at h ⊢
  rw [happend, h]
  rcases hm.completed_cases with ⟨hps, hbefore, hafter⟩ | ⟨hps, hsame⟩
  · rw [hps, if_neg hbefore, if_pos hafter]
  · simp only [hps, hsame, Nat.add_zero]

theorem completedOnce_exec (ops : List Op) : EveryRow CompletedOnce (exec env ops).db := by
  refine row_invariant (fun hbirth => ?_) (fun h hm => h.write hm) (fun h => ?_) ops
  · cases hbirth with
    | @root root id createdAt t policy payload guard hpayload =>
      have hpayload' : payload.type ≠ .workCompleted := by
        rw [hpayload]
        split <;> exact nofun
      simp [CompletedOnce, completions, hpayload', NewWork.row]
    | child => rfl
  · unfold CompletedOnce at h ⊢
    rw [h, rowStatus_renamed]

/-! ## Fencing -/

/-- The types of the events that begin or end a lease. -/
def leaseEvents : List EventType :=
  [.workClaimed, .workCompleted, .workBlocked, .workReleased, .leaseExpired]

theorem isLifecycle_iff {type : EventType} : type.isLifecycle = true ↔ type ∈ leaseEvents := by
  cases type <;> decide

/-- **The lease a token stands for is the item's current one**: a step of the
run issued it, its event is the item's most recent `work.claimed` with no
end of a lease behind it, and no other step ever issued the token. -/
def CurrentLease (env : Env) (ops : List Op) (id token worker : String) : Prop :=
  ∃ e ∈ steps env ops, ∃ claimed, Issued e id token worker claimed ∧
    (∃ before after, (exec env ops).db.ledger.of id = before ++ claimed :: after ∧
      ∀ f ∈ after, f.type ∉ leaseEvents) ∧
    ∀ e' ∈ steps env ops, ∀ id' worker' claimed', Issued e' id' token worker' claimed' → e' = e

/-- The last lifecycle event is the most recent claim, with no lifecycle
event behind it. -/
theorem getLast?_lifecycle_iff {id : String} {claimed : WorkEvent}
    (htype : claimed.type = .workClaimed) :
    (lifecycle db id).getLast? = some claimed ↔
      ∃ before after, db.ledger.of id = before ++ claimed :: after ∧
        ∀ f ∈ after, f.type ∉ leaseEvents := by
  rw [lifecycle, Sessions.getLast?_filter_eq_some, htype]
  refine ⟨fun h => ?_, fun h => ⟨rfl, ?_⟩⟩
  · obtain ⟨-, before, after, hof, hafter⟩ := h
    exact ⟨before, after, hof, fun f hf => by rw [← isLifecycle_iff, hafter f hf]; exact nofun⟩
  · obtain ⟨before, after, hof, hafter⟩ := h
    exact ⟨before, after, hof, fun f hf => by
      have := hafter f hf
      rw [← isLifecycle_iff] at this
      simpa using this⟩

/-- **Who holds an item may act on it**: the lease is current, and its expiry
is behind the clock the call reads. -/
def MayAct (env : Env) (ops : List Op) (id token worker : String) : Prop :=
  CurrentLease env ops id token worker ∧
    ∃ item expiresAt, (exec env ops).db.items.find? id = some item ∧
      item.leaseExpiresAt = some expiresAt ∧ env.clock (exec env ops).ticks < expiresAt

/-- A lease call that returns was made by a caller who may act. -/
theorem mayAct_of_returns (hfresh : Function.Injective env.randomUUID) {ops : List Op} {op : Op}
    {r : Reply} {w' : World} {id token worker : String}
    (h : (op.run env).Returns (exec env ops) r w')
    (hcall : op.leaseCall = some (id, token, worker)) : MayAct env ops id token worker := by
  obtain ⟨item, hlease⟩ := holdsLease_of_returns h hcall
  obtain ⟨expiresAt, hexpires, hlive⟩ := hlease.live
  refine ⟨?_, item, expiresAt, hlease.stored, hexpires, hlive⟩
  have hholder : (exec env ops).db.holder id = some (some worker, some token) := by
    rw [Db.holder_of_claimed hlease.stored hlease.claimed, hlease.owner, hlease.token]
  obtain ⟨e, he, worker', token', claimed, howner, htoken, hissued, hlast⟩ :=
    (leaseHistory_exec ops).issued id _ _ hholder
  obtain rfl := Option.some.inj howner
  obtain rfl := Option.some.inj htoken
  exact ⟨e, he, claimed, hissued, (getLast?_lifecycle_iff hissued.event.2.1).mp hlast,
    fun e' he' id' worker' claimed' h' => eq_of_issued hfresh he he' hissued h'⟩

/-- A current lease is the one the row has. -/
theorem CurrentLease.holder {ops : List Op} {id token worker : String}
    (h : CurrentLease env ops id token worker) :
    (exec env ops).db.holder id = some (some worker, some token) := by
  obtain ⟨e, he, claimed, hissued, hlast, -⟩ := h
  exact (leaseHistory_exec ops).current e he id token worker claimed hissued
    ((getLast?_lifecycle_iff hissued.event.2.1).mpr hlast)

/-- **Lease fencing.** In every state of every run, however workers,
operators and feeders interleave and whatever the clock reads: a heartbeat,
completion, block or release succeeds only for a caller who may act, every
other one fails, and a call that fails leaves the tables as they were. At
most one lease is current per item, and an item's completion is recorded at
most once. -/
theorem lease_fencing (env : Env) (hfresh : Function.Injective env.randomUUID) (ops : List Op) :
    (∀ (op : Op) (id token worker : String), op.leaseCall = some (id, token, worker) →
      (∀ r, (op.run env (exec env ops)).1 = .ok r → MayAct env ops id token worker) ∧
      (¬ MayAct env ops id token worker → ∃ e, (op.run env (exec env ops)).1 = .error e) ∧
      (∀ e, (op.run env (exec env ops)).1 = .error e →
        (op.run env (exec env ops)).2.db = (exec env ops).db)) ∧
    (∀ id token worker token' worker' : String, CurrentLease env ops id token worker →
      CurrentLease env ops id token' worker' → token' = token ∧ worker' = worker) ∧
    (∀ id : String, ((exec env ops).db.ledger.of id).countP (fun e => e.type = .workCompleted) ≤ 1) := by
  refine ⟨fun op id token worker hcall => ?_, fun id token worker token' worker' h h' => ?_,
    fun id => ?_⟩
  · rcases run_cases env op (exec env ops) with ⟨r, hreturns, hr⟩ | ⟨e, he, hdb⟩
    · have hmay := mayAct_of_returns hfresh hreturns hcall
      exact ⟨fun _ _ => hmay, fun hnot => absurd hmay hnot, fun e he => nomatch hr.symm.trans he⟩
    · exact ⟨fun r hr => (nomatch he.symm.trans hr), fun _ => ⟨e, he⟩, fun _ _ => hdb⟩
  · have hsame := h'.holder.symm.trans h.holder
    simp only [Option.some.injEq, Prod.mk.injEq] at hsame
    exact ⟨hsame.2, hsame.1⟩
  · have hcount : completions ((exec env ops).db.ledger.history id) ≤ 1 := by
      cases hitem : (exec env ops).db.items.find? id with
      | none =>
        rw [recorded_iff.mp (exec_invariant recorded_empty (fun h hm => h.move hm) ops) id hitem]
        exact Nat.zero_le 1
      | some item =>
        have honce := completedOnce_exec ops item (Table.mem_of_find? hitem)
        rw [Table.key_of_find? hitem] at honce
        rw [honce]
        split <;> decide
    rw [Ledger.history, completions, List.countP_map] at hcount
    exact hcount

/-- The worker of the small run holds the lease it was issued. -/
theorem lease_fencing_sample : MayAct Env.sample sampleRun "uu" "uuuuuuu" "w" := by
  have hok : ((Op.heartbeat "uu" "uuuuuuu" "w" none).run Env.sample
      (exec Env.sample sampleRun)).1.toOption.isSome = true := by
    decide +kernel
  cases hr : ((Op.heartbeat "uu" "uuuuuuu" "w" none).run Env.sample (exec Env.sample sampleRun)).1 with
  | ok r =>
    exact ((lease_fencing Env.sample Env.sample_injective sampleRun).1 _ _ _ _ rfl).1 r hr
  | error e =>
    rw [hr] at hok
    cases hok

end Snowcat
