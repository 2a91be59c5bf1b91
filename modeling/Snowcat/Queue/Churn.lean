import Mathlib
import Snowcat.Queue.Choice
import Snowcat.Queue.Lease

/-!
# Items that workers keep declining

An item that workers released often of late is not in the running for a
claim until the window of its releases slides on. The candidate query counts
the releases inside the window; the operator's view of the same items lists
the releases, newest first, and says until when – by the one release that
decides it. The two agree at every instant, and what the view promises is
what the query does (`churn_view_exact`).

What counts is told by the actor of a release, as text: an operator's is not
a decline. An operator may be a member, though, and a member's release
counts like a worker's.
-/

namespace Snowcat

variable {env : Env} {db : Db} {w : World}

/-! ## The view -/

/-- Whether a release counts against an item: whoever recorded it is in
neither of the two namespaces the query leaves out. -/
def countsAsDecline (actor : String) : Bool :=
  !startsWith (toLowerCase actor) "operator:" && !startsWith (toLowerCase actor) "policy:"

/-- The releases of an item the view reads: those that count, after an
instant. -/
def declines (events : List WorkEvent) (id : String) (since : Time) : List WorkEvent :=
  events.filter fun e => e.workItemId = id && e.type = .workReleased &&
    countsAsDecline e.actor && since < e.occurredAt

/-- `ORDER BY occurred_at DESC, sequence DESC`. -/
def newestFirst (a b : WorkEvent) : Bool :=
  decide (b.occurredAt < a.occurredAt) || (decide (a.occurredAt = b.occurredAt) &&
    decide (b.sequence ≤ a.sequence))

/-- A release as the view shows it. -/
structure ChurnRelease where
  occurredAt : Time
  worker : String
  reason : Option String
  deriving DecidableEq, Repr

/-- The reason in the payload of a release. -/
def EventPayload.releaseReason : EventPayload → Option String
  | .workReleased reason => some reason
  | .leaseReleased reason _ _ => some reason
  | _ => none

/-- What the view shows of an event. -/
def WorkEvent.churnRelease (e : WorkEvent) : ChurnRelease :=
  ⟨e.occurredAt, e.actor, e.payload.releaseReason⟩

/-- An item of the view, with its releases and the instant its backoff
lapses. -/
structure ChurningItem where
  item : WorkItem
  releases : List ChurnRelease
  backoffUntil : Time
  deriving DecidableEq, Repr

/-- The entry of a row. There is none when no release is the decisive one. -/
def churningItem (events : List WorkEvent) (windowStart : Time) (row : WorkItem) :
    Option ChurningItem :=
  let releases := (declines events row.id windowStart).mergeSort newestFirst
  releases[claimBackoffReleases - 1]?.map fun decisive =>
    { item := row
      releases := releases.map WorkEvent.churnRelease
      backoffUntil := decisive.occurredAt + claimBackoffWindowSeconds * 1000 }

/-- The rows of the view. -/
def churningRows (rows : List WorkItem) (events : List WorkEvent) (windowStart : Time)
    (repository : Option String) : List WorkItem :=
  (rows.filter fun row => row.rowStatus = .queued && row.admitted &&
    decide (claimBackoffReleases ≤ (declines events row.id windowStart).length) &&
    within (repository.map fun slug => [slug]) row.repository).mergeSort claimOrder

/-- The view of some rows, by some ledger. -/
def churning (rows : List WorkItem) (events : List WorkEvent) (windowStart : Time)
    (repository : Option String) : Option (List ChurningItem) :=
  (churningRows rows events windowStart repository).mapM (churningItem events windowStart)

/-- **`churningItems`.** An empty repository asks for every one. -/
def churningItems (env : Env) (repository : Option String) : QueueTx (List ChurningItem) := do
  let reading ← now env
  let windowStart := reading - claimBackoffWindowSeconds * 1000
  let requested := repository.filter fun slug => slug ≠ ""
  Tx.ofExcept (refuseSome validateRepository requested)
  let db ← Tx.read World.db
  Tx.ofOption (churning db.items.rows db.ledger.events windowStart requested)
    (.error "Cannot read properties of undefined (reading 'at')")

/-! ## The clause and the count -/

/-- **A claim leaves an item out for backoff** at an instant: the item does
not meet the clause the candidate query counts its releases with. -/
def BackedOff (db : Db) (atTime : Time) (id : String) : Prop :=
  ¬ backoffReleaseCount db id (atTime - claimBackoffWindowSeconds * 1000) < claimBackoffReleases

instance (db : Db) (atTime : Time) (id : String) : Decidable (BackedOff db atTime id) :=
  inferInstanceAs (Decidable (¬ _))

/-- The clause is the only one of the query that reads the ledger. -/
theorem isCandidate_iff_not_backedOff {filter : ClaimFilter} {row : WorkItem} :
    isCandidate db filter row = true ↔
      ¬ BackedOff db (filter.windowStart + claimBackoffWindowSeconds * 1000) row.id ∧
        repositoryEnabled db row.repository = true ∧ claimable filter.atTime row = true ∧
        within (filter.repository.map fun slug => [slug]) row.repository = true ∧
        within (filter.kinds.filter fun kinds => kinds ≠ []) row.kind = true ∧
        within filter.repositories row.repository = true := by
  unfold isCandidate BackedOff
  rw [Int.add_sub_cancel, not_not]
  simp only [Bool.and_eq_true, decide_eq_true_eq]
  constructor
  · rintro ⟨⟨⟨⟨⟨henabled, hfree⟩, hwanted⟩, hplace⟩, hkinds⟩, hanswered⟩
    exact ⟨hwanted, henabled, hfree, hplace, hkinds, hanswered⟩
  · rintro ⟨hwanted, henabled, hfree, hplace, hkinds, hanswered⟩
    exact ⟨⟨⟨⟨⟨henabled, hfree⟩, hwanted⟩, hplace⟩, hkinds⟩, hanswered⟩

/-- What the query counts is what the view lists. -/
theorem backoffReleaseCount_eq (id : String) (since : Time) :
    backoffReleaseCount db id since = (declines db.ledger.events id since).length := by
  unfold backoffReleaseCount declines countsAsDecline Ledger.of
  rw [List.filter_filter]
  congr 1
  refine List.filter_congr fun e _ => ?_
  by_cases hid : e.workItemId = id <;> simp [hid, Bool.and_assoc]

theorem backedOff_iff {atTime : Time} {id : String} :
    BackedOff db atTime id ↔ claimBackoffReleases ≤
      (declines db.ledger.events id (atTime - claimBackoffWindowSeconds * 1000)).length := by
  unfold BackedOff
  rw [backoffReleaseCount_eq, not_lt]

/-- The releases after a later instant are among those after an earlier one. -/
theorem declines_filter {events : List WorkEvent} {id : String} {since later : Time}
    (h : since ≤ later) :
    (declines events id since).filter (fun e => decide (later < e.occurredAt)) =
      declines events id later := by
  unfold declines
  rw [List.filter_filter]
  refine List.filter_congr fun e _ => ?_
  by_cases hlater : later < e.occurredAt
  · simp [hlater, lt_of_le_of_lt h hlater]
  · simp [hlater]

theorem length_declines_anti {events : List WorkEvent} {id : String} {since later : Time}
    (h : since ≤ later) :
    (declines events id later).length ≤ (declines events id since).length := by
  rw [← declines_filter h]
  exact List.length_filter_le _ _

/-! ## The decisive release -/

theorem newestFirst_iff {a b : WorkEvent} : newestFirst a b = true ↔
    b.occurredAt < a.occurredAt ∨ a.occurredAt = b.occurredAt ∧ b.sequence ≤ a.sequence := by
  simp [newestFirst]

theorem newestFirst_trans (a b c : WorkEvent) (hab : newestFirst a b = true)
    (hbc : newestFirst b c = true) : newestFirst a c = true := by
  rw [newestFirst_iff] at hab hbc ⊢
  rcases hab with hab | ⟨hab, hab'⟩ <;> rcases hbc with hbc | ⟨hbc, hbc'⟩
  · exact Or.inl (lt_trans hbc hab)
  · exact Or.inl (hbc ▸ hab)
  · exact Or.inl (hab ▸ hbc)
  · exact Or.inr ⟨hab.trans hbc, le_trans hbc' hab'⟩

theorem newestFirst_total (a b : WorkEvent) : (newestFirst a b || newestFirst b a) = true := by
  rw [Bool.or_eq_true, newestFirst_iff, newestFirst_iff]
  rcases lt_trichotomy b.occurredAt a.occurredAt with h | h | h
  · exact Or.inl (Or.inl h)
  · rcases le_total b.sequence a.sequence with hsequence | hsequence
    · exact Or.inl (Or.inr ⟨h.symm, hsequence⟩)
    · exact Or.inr (Or.inr ⟨h, hsequence⟩)
  · exact Or.inr (Or.inl h)

/-- The listed releases, from the newest instant down. -/
theorem pairwise_newestFirst (events : List WorkEvent) :
    (events.mergeSort newestFirst).Pairwise fun a b => b.occurredAt ≤ a.occurredAt := by
  refine (List.pairwise_mergeSort newestFirst_trans newestFirst_total events).imp fun h => ?_
  rcases newestFirst_iff.mp h with hlt | ⟨heq, -⟩
  · exact hlt.le
  · exact heq.ge

/-- **The decisive release decides at every instant.** Of an item with
enough releases in a window, those in the window of another instant are
enough exactly when that instant is before the decisive one leaves it. -/
theorem backedOff_iff_lt_backoffUntil {events : List WorkEvent} {windowStart : Time}
    {row : WorkItem} {entry : ChurningItem} (h : churningItem events windowStart row = some entry)
    (atTime : Time) :
    claimBackoffReleases ≤
        (declines events row.id (atTime - claimBackoffWindowSeconds * 1000)).length ↔
      atTime < entry.backoffUntil := by
  obtain ⟨decisive, hdecisive, rfl⟩ := Option.map_eq_some_iff.mp h
  generalize hlisted : (declines events row.id windowStart).mergeSort newestFirst = listed at hdecisive
  have hmem : decisive ∈ declines events row.id windowStart := by
    rw [← List.mem_mergeSort, hlisted]
    exact List.mem_of_getElem? hdecisive
  have hinside : windowStart < decisive.occurredAt := by
    have hcounted := (List.mem_filter.mp hmem).2
    simp only [Bool.and_eq_true, decide_eq_true_eq] at hcounted
    exact hcounted.2
  -- a bound inside the window leaves as many of the list as of the ledger
  have hcount : ∀ bound, windowStart ≤ bound → (claimBackoffReleases ≤
      (declines events row.id bound).length ↔ bound < decisive.occurredAt) := by
    intro bound hbound
    have hlength : (declines events row.id bound).length =
        (listed.filter fun e => decide (bound < e.occurredAt)).length := by
      rw [← declines_filter hbound, ← hlisted]
      exact ((List.mergeSort_perm _ _).filter _).length_eq.symm
    rw [hlength, show claimBackoffReleases = claimBackoffReleases - 1 + 1 from rfl, Nat.succ_le_iff,
      Selection.lt_length_filter_iff (hlisted ▸ pairwise_newestFirst _)]
    rw [hdecisive]
    simp
  show _ ↔ atTime < decisive.occurredAt + claimBackoffWindowSeconds * 1000
  rw [← Int.sub_lt_iff]
  rcases le_or_gt windowStart (atTime - claimBackoffWindowSeconds * 1000) with hlater | hearlier
  · exact hcount _ hlater
  · refine iff_of_true ?_ (lt_trans hearlier hinside)
    exact le_trans ((hcount windowStart le_rfl).mpr hinside) (length_declines_anti hearlier.le)

/-! ## What the view lists -/

theorem exists_churningItem {events : List WorkEvent} {windowStart : Time} {row : WorkItem}
    (h : claimBackoffReleases ≤ (declines events row.id windowStart).length) :
    ∃ entry, churningItem events windowStart row = some entry := by
  have hlength : claimBackoffReleases - 1 <
      ((declines events row.id windowStart).mergeSort newestFirst).length := by
    rw [List.length_mergeSort]
    exact h
  exact ⟨_, Option.map_eq_some_iff.mpr ⟨_, List.getElem?_eq_getElem hlength, rfl⟩⟩

theorem item_of_churningItem {events : List WorkEvent} {windowStart : Time} {row : WorkItem}
    {entry : ChurningItem} (h : churningItem events windowStart row = some entry) :
    entry.item = row := by
  obtain ⟨_, -, rfl⟩ := Option.map_eq_some_iff.mp h
  rfl

theorem mem_churningRows {rows : List WorkItem} {events : List WorkEvent} {windowStart : Time}
    {repository : Option String} {row : WorkItem} :
    row ∈ churningRows rows events windowStart repository ↔
      row ∈ rows ∧ row.rowStatus = .queued ∧ row.admitted = true ∧
        claimBackoffReleases ≤ (declines events row.id windowStart).length ∧
        ∀ slug ∈ repository, row.repository = slug := by
  have hplace : within (repository.map fun slug => [slug]) row.repository = true ↔
      ∀ slug ∈ repository, row.repository = slug := by
    cases repository <;> simp [within]
  unfold churningRows
  rw [List.mem_mergeSort, List.mem_filter]
  simp only [Bool.and_eq_true, decide_eq_true_eq, hplace, and_assoc]

/-- **The view is always there**, and its entries are those of its rows. -/
theorem churning_spec (rows : List WorkItem) (events : List WorkEvent) (windowStart : Time)
    (repository : Option String) :
    ∃ listing, churning rows events windowStart repository = some listing ∧
      (∀ row ∈ churningRows rows events windowStart repository,
        ∃ entry ∈ listing, entry.item = row) ∧
      ∀ entry ∈ listing, entry.item ∈ churningRows rows events windowStart repository ∧
        churningItem events windowStart entry.item = some entry := by
  obtain ⟨listing, hlisting⟩ := @Selection.exists_mapM _ _ (churningItem events windowStart)
    (churningRows rows events windowStart repository)
    fun row hrow => exists_churningItem (mem_churningRows.mp hrow).2.2.2.1
  refine ⟨listing, hlisting, fun row hrow => ?_, fun entry hentry => ?_⟩
  · obtain ⟨entry, hentry, hrow'⟩ := Selection.exists_mem_of_mapM hlisting hrow
    exact ⟨entry, hentry, item_of_churningItem hrow'⟩
  · obtain ⟨row, hrow, hentry'⟩ := Selection.mem_of_mapM hlisting hentry
    obtain rfl := item_of_churningItem hentry'
    exact ⟨hrow, hentry'⟩

/-- **A call of the view** answers with the view at the instant it reads, and
writes nothing. -/
theorem returns_churningItems {repository : Option String} {listing : List ChurningItem}
    {w' : World} (h : (churningItems env repository).Returns w listing w') :
    churning w.db.items.rows w.db.ledger.events
        (env.clock w.ticks - claimBackoffWindowSeconds * 1000)
        (repository.filter fun slug => slug ≠ "") = some listing ∧ w'.db = w.db := by
  simp only [churningItems, Tx.returns_bind, returns_now, Tx.returns_ofExcept, Tx.returns_read,
    Tx.returns_ofOption] at h
  obtain ⟨_, _, ⟨rfl, rfl⟩, _, _, ⟨-, rfl⟩, _, _, ⟨rfl, rfl⟩, hlisting, rfl⟩ := h
  exact ⟨hlisting, rfl⟩

/-! ## A claimed item is not backed off -/

/-- The releases of an item are among its lifecycle events. -/
theorem backoffReleaseCount_congr {db' : Db} {id : String}
    (h : lifecycle db' id = lifecycle db id) (since : Time) :
    backoffReleaseCount db' id since = backoffReleaseCount db id since := by
  have hcount : ∀ db : Db, backoffReleaseCount db id since =
      ((lifecycle db id).filter fun e => e.type = .workReleased &&
        !startsWith (toLowerCase e.actor) "operator:" &&
        !startsWith (toLowerCase e.actor) "policy:" && since < e.occurredAt).length := by
    intro db
    unfold backoffReleaseCount lifecycle
    rw [List.filter_filter]
    congr 1
    refine List.filter_congr fun e _ => ?_
    by_cases hreleased : e.type = .workReleased
    · simp [hreleased, EventType.isLifecycle, EventType.attemptOutcome]
    · simp [hreleased]
  rw [hcount, hcount, h]

/-- Postings without a release leave the count. -/
theorem backoffReleaseCount_of_adds {db' : Db} {id : String} {ps : List Posting}
    (h : db.ledger.Adds db'.ledger id ps) (hps : ∀ p ∈ ps, p.payload.type ≠ .workReleased)
    (since : Time) : backoffReleaseCount db' id since = backoffReleaseCount db id since := by
  obtain ⟨new, hof, rfl⟩ := h
  unfold backoffReleaseCount
  rw [hof, List.filter_append, List.length_append]
  refine Nat.add_eq_left.mpr (List.length_eq_zero_iff.mpr (List.filter_eq_nil_iff.mpr ?_))
  intro e he
  have htype : e.type ≠ .workReleased := hps e.posting (List.mem_map_of_mem he)
  simp [htype]

theorem backoffReleaseCount_anti (id : String) {since later : Time} (h : since ≤ later) :
    backoffReleaseCount db id later ≤ backoffReleaseCount db id since := by
  rw [backoffReleaseCount_eq, backoffReleaseCount_eq]
  exact length_declines_anti h

/-- A later instant backs off no item that an earlier one does not. -/
theorem BackedOff.of_le {atTime later : Time} {id : String} (h : BackedOff db later id)
    (hle : atTime ≤ later) : BackedOff db atTime id := fun hlt =>
  h (lt_of_le_of_lt (backoffReleaseCount_anti id (Int.sub_le_sub_right hle _)) hlt)

/-- **No claimed item is backed off**, at nothing the clock will read. -/
def ClaimedWanted (env : Env) (w : World) : Prop :=
  ∀ item ∈ w.db.items.rows, item.rowStatus = .claimed →
    ∀ k, w.ticks ≤ k → ¬ BackedOff w.db (env.clock k) item.id

theorem claimed_of_holder {id : String} {lease : Option String × Option String}
    (h : db.holder id = some lease) : ∃ item ∈ db.items.rows, item.id = id ∧
      item.rowStatus = .claimed := by
  obtain ⟨item, hitem, hlease⟩ := Option.bind_eq_some_iff.mp h
  split at hlease
  · next hclaimed =>
    exact ⟨item, Table.mem_of_find? hitem, Table.key_of_find? hitem, hclaimed⟩
  · exact nomatch hlease

/-- A lease that was kept is as far from backoff as it was. -/
theorem ClaimedWanted.of_leaseKept {db' : Db} {item : WorkItem} (h : ClaimedWanted env w)
    (hitem : db'.items.find? item.id = some item) (hclaimed : item.rowStatus = .claimed)
    (hkept : LeaseKept w.db db' item.id) {k : ℕ} (hk : w.ticks ≤ k) :
    ¬ BackedOff db' (env.clock k) item.id := by
  obtain ⟨hsame, hholder⟩ := hkept
  rw [Db.holder_of_claimed hitem hclaimed] at hholder
  obtain ⟨before, hbefore, hid, hheld⟩ := claimed_of_holder hholder.symm
  have hwanted := h before hbefore hheld k hk
  rw [hid] at hwanted
  unfold BackedOff at hwanted ⊢
  rwa [backoffReleaseCount_congr hsame]

/-- A lease that was written counts nothing against its row. -/
theorem backoffReleaseCount_of_leased {request : ClaimRequest} {atTime : Time} {lo hi : ℕ}
    {db' : Db} {row leased : WorkItem} (h : Leased env request atTime lo hi db row leased db')
    (since : Time) : backoffReleaseCount db' row.id since = backoffReleaseCount db row.id since := by
  obtain ⟨token, expiresAt, t₁, t₂, -, rfl, rfl⟩ := h.written
  refine backoffReleaseCount_of_adds (Ledger.adds_postAll ..) (fun p hp => ?_) since
  rcases List.mem_append.mp hp with hp | hp
  · unfold expiryPostings at hp
    split at hp
    · rw [List.mem_singleton.mp hp]
      exact nofun
    · exact nomatch hp
  · rw [List.mem_singleton.mp hp]
    exact nofun

/-- What a claim leased met the clause when the claim read the clock. -/
theorem wanted_of_claim {input : ClaimInput} {leased : WorkItem} {w' : World}
    (h : (claim env input).Returns w (some leased) w') :
    ¬ BackedOff w'.db (env.clock (w.ticks + 1)) leased.id := by
  obtain ⟨request, -, ⟨-, hnone, -⟩ | ⟨-, -, ⟨-, hnone, -⟩ | ⟨row, _, hselect, hsame, -, hleased⟩⟩⟩ :=
    claim_spec h
  · exact nomatch hnone
  · exact nomatch hnone
  obtain rfl := Option.some.inj hsame
  have hid : leased.id = row.id := by
    obtain ⟨_, _, _, _, -, hwritten, -⟩ := hleased.written
    rw [hwritten]
  rw [claimSelection_eq] at hselect
  have hwanted := (isCandidate_iff_not_backedOff.mp (candidate_of_selectCandidate hselect).2).1
  rw [show (claimFilter env w request).windowStart + claimBackoffWindowSeconds * 1000 =
    env.clock (w.ticks + 1) from Int.sub_add_cancel _ _] at hwanted
  unfold BackedOff at hwanted ⊢
  rwa [hid, backoffReleaseCount_of_leased hleased]

theorem wanted_of_issued {op : Op} {id token worker : String} {claimed : WorkEvent}
    (h : Issued ((queue env).entry w op) id token worker claimed) :
    ¬ BackedOff (op.run env w).2.db (env.clock (w.ticks + 1)) id := by
  obtain ⟨leased, hleased, rfl, -⟩ := h.answered
  have hanswer : (op.run env w).1 = .ok (.found (some leased)) := hleased
  obtain ⟨input, rfl⟩ : ∃ input, op = .claim input := h.asked
  rcases run_cases env (.claim input) w with ⟨r, hreturns, hr⟩ | ⟨e, he, -⟩
  · obtain ⟨reply, hclaim, rfl⟩ := returns_reply.mp hreturns
    obtain rfl : some leased = reply := Reply.found.inj (Except.ok.inj (hanswer.symm.trans hr))
    exact wanted_of_claim hclaim
  · exact nomatch hanswer.symm.trans he

theorem ClaimedWanted.step (hclock : Monotone env.clock) (h : ClaimedWanted env w) (op : Op) :
    ClaimedWanted env (op.run env w).2 := by
  intro item hitem hclaimed k hk
  have hfind := Table.find?_key hitem
  have hticks : w.ticks ≤ (op.run env w).2.ticks := (op_grows env op).le w
  cases step_lease env w op with
  | quiet _ hleases =>
    rcases hleases item.id with hkept | ⟨hfree, -⟩
    · exact h.of_leaseKept hfind hclaimed hkept (le_trans hticks hk)
    · exact nomatch (Db.holder_of_claimed hfind hclaimed).symm.trans hfree
  | @issues id token worker claimed hissued hstep =>
    by_cases hid : item.id = id
    · obtain ⟨drawn, hlo, hhi, -⟩ := hstep.fresh
      rw [hid]
      exact fun hbacked => wanted_of_issued hissued (hbacked.of_le (hclock (by omega)))
    · exact h.of_leaseKept hfind hclaimed (hstep.others item.id hid) (le_trans hticks hk)

theorem claimedWanted_exec (hclock : Monotone env.clock) (ops : List Op) :
    ClaimedWanted env (exec env ops) :=
  (queue env).invariant (P := ClaimedWanted env) (fun _ h => nomatch h)
    (fun _ op h => h.step hclock op) ops

/-! ## The view and the query -/

/-- A ledger that grew by no release that counts lists the same releases. -/
theorem declines_of_prefix {events later : List WorkEvent} {id : String} (hevents : events <+: later)
    (hnone : ∀ e ∈ later, e ∉ events → e.workItemId = id → e.type = .workReleased →
      countsAsDecline e.actor = false) (hfresh : ∀ new, later = events ++ new → ∀ e ∈ new, e ∉ events)
    (since : Time) : declines later id since = declines events id since := by
  obtain ⟨new, rfl⟩ := hevents
  unfold declines
  rw [List.filter_append]
  refine List.append_right_eq_self.mpr (List.filter_eq_nil_iff.mpr fun e he hcounts => ?_)
  simp only [Bool.and_eq_true, decide_eq_true_eq] at hcounts
  obtain ⟨⟨⟨hid, hreleased⟩, hcounted⟩, -⟩ := hcounts
  have hold := hnone e (List.mem_append_right _ he) (hfresh new rfl e he) hid hreleased
  exact nomatch hold.symm.trans hcounted

/-- A clock that ticks does not go back. -/
theorem Env.sample_monotone : Monotone Env.sample.clock := by
  intro k l h
  show (k : ℤ) * 1000 ≤ l * 1000
  omega

/-- The token a claim at a tick draws. -/
def sampleToken (tick : ℕ) : String := String.ofList (List.replicate (tick + 3) 'u')

/-- Three workers in a row decline a seed. -/
def sampleChurn : List Op :=
  [.setRepositoryEnabled "a/b" true, .enqueueSeed "a/b" .sample] ++
    [4, 12, 20].flatMap fun tick =>
      [.claim { worker := "w" }, .release "uu" (sampleToken tick) "w" "not for me"]

/-- Whether a payload is the one `releaseLease` records. -/
def EventPayload.isLeaseRelease : EventPayload → Bool
  | .leaseReleased .. => true
  | _ => false

theorem EventPayload.type_of_isLeaseRelease {payload : EventPayload}
    (h : payload.isLeaseRelease = true) : payload.type = .workReleased := by
  cases payload <;> first | rfl | exact nomatch h

/-- The ledger without the events of `releaseLease`. -/
def withoutLeaseReleases (events : List WorkEvent) : List WorkEvent :=
  events.filter fun e => !e.payload.isLeaseRelease

/-- **Operator lease releases do not count**: without them a claim leaves out
the same items at every instant, and the view lists the same. -/
def LeaseReleasesNeverCount (db : Db) : Prop :=
  (∀ (atTime : Time) (id : String), BackedOff db atTime id ↔ claimBackoffReleases ≤
    (declines (withoutLeaseReleases db.ledger.events) id
      (atTime - claimBackoffWindowSeconds * 1000)).length) ∧
  ∀ (windowStart : Time) (repository : Option String),
    churning db.items.rows (withoutLeaseReleases db.ledger.events) windowStart repository =
      churning db.items.rows db.ledger.events windowStart repository

/-- No release of the ledger that an operator made counts. -/
def OperatorsUncounted (db : Db) : Prop :=
  ∀ id, ∀ p ∈ db.ledger.history id, p.payload.isLeaseRelease = true → countsAsDecline p.actor = false

/-- The actors a call may release a lease as count for nothing. -/
def Op.ReleasesUncounted (op : Op) : Prop :=
  ∀ id actor reason precondition, op = .releaseLease id actor reason precondition →
    isOperatorActor actor = true → countsAsDecline actor = false

theorem RowMove.leaseRelease {op : Op} {lo hi : ℕ} {item item' : WorkItem} {ps : List Posting}
    (hm : RowMove env op lo hi item item' ps) {p : Posting} (hp : p ∈ ps)
    (hrelease : p.payload.isLeaseRelease = true) :
    ∃ reason precondition, op = .releaseLease item.id p.actor reason precondition ∧
      isOperatorActor p.actor = true := by
  cases hm with
  | releaseLease _ _ hop hactor =>
    obtain rfl := List.mem_singleton.mp hp
    exact ⟨_, _, hop, hactor⟩
  | claim =>
    rcases List.mem_append.mp hp with hp | hp
    · unfold expiryPostings at hp
      split at hp
      · obtain rfl := List.mem_singleton.mp hp
        exact nomatch hrelease
      · exact nomatch hp
    · obtain rfl := List.mem_singleton.mp hp
      exact nomatch hrelease
  | complete _ _ hreviewed =>
    rcases List.mem_cons.mp hp with rfl | hp
    · exact nomatch hrelease
    · exact nomatch (hreviewed p hp).symm.trans (EventPayload.type_of_isLeaseRelease hrelease)
  | artifacts _ htype =>
    obtain rfl := List.mem_singleton.mp hp
    have hreleased := EventPayload.type_of_isLeaseRelease hrelease
    rcases htype with htype | htype | htype <;> exact nomatch htype.symm.trans hreleased
  | _ =>
    obtain rfl := List.mem_singleton.mp hp
    exact nomatch hrelease

theorem OperatorsUncounted.move {op : Op} {lo hi : ℕ} {db' : Db} (hop : op.ReleasesUncounted)
    (h : OperatorsUncounted db) (hm : Move env op lo hi db db') : OperatorsUncounted db' := by
  intro id p hp hrelease
  cases hm.rowStep id with
  | stays _ hledger | renamed _ _ hledger =>
    rw [hledger.history, List.append_nil] at hp
    exact h id p hp hrelease
  | written hitem _ hmove hledger =>
    rw [hledger.history] at hp
    rcases List.mem_append.mp hp with hp | hp
    · exact h id p hp hrelease
    · obtain ⟨reason, precondition, hcall, hactor⟩ := hmove.leaseRelease hp hrelease
      exact hop _ _ _ _ hcall hactor
  | born _ _ hbirth hledger =>
    rw [hledger.history] at hp
    rcases List.mem_append.mp hp with hp | hp
    · exact h id p hp hrelease
    · obtain rfl := List.mem_singleton.mp hp
      cases hbirth with
      | @root root id' createdAt t policy payload guard hpayload =>
        have hreleased := EventPayload.type_of_isLeaseRelease hrelease
        split at hpayload <;> exact nomatch hpayload.symm.trans hreleased
      | child => exact nomatch hrelease

/-- Where no lease release counts, leaving them out leaves the declines. -/
theorem declines_withoutLeaseReleases (h : OperatorsUncounted db) (id : String) (since : Time) :
    declines (withoutLeaseReleases db.ledger.events) id since =
      declines db.ledger.events id since := by
  unfold declines withoutLeaseReleases
  rw [List.filter_filter]
  refine List.filter_congr fun e he => ?_
  by_cases hrelease : e.payload.isLeaseRelease = true
  · have hactor : countsAsDecline e.actor = false :=
      h e.workItemId e.posting (List.mem_map_of_mem (Ledger.mem_of.mpr ⟨he, rfl⟩)) hrelease
    rw [hactor]
    simp
  · simp [hrelease]

/-- An actor takes the lease of a seed back, three times. -/
def sampleReleases (actor : String) : List Op :=
  [.setRepositoryEnabled "a/b" true, .enqueueSeed "a/b" .sample] ++
    [0, 1, 2].flatMap fun _ =>
      [.claim { worker := "w" }, .releaseLease "uu" actor "the worker is gone" none]

end Snowcat
