import Snowcat.Queue.Specs

/-!
# Every call is a sequence of moves

The bridge between the store's code and the moves of
`Snowcat.Queue.Moves`. A decision of an operator is one write
(`moves_of_decideOn`), a creating call is one root for each definition it
accepts, and a completion is one child for each follow-up and the write of
its parent, in that order. `moves_of_returns` collects the calls,
`step_moves` adds the ones that throw – which are no moves at all – and
`exec_invariant` is what the rest of the development uses: what every move
keeps holds in every state of every run.
-/

namespace Snowcat

variable {env : Env} {op : Op} {lo hi : ℕ} {w w' : World}

/-! ## Writes -/

/-- Rewriting the row of an id and posting about it is a move, when it is
one of the writes of a row. -/
theorem Moves.of_update {db : Db} {id : String} {item : WorkItem} {f : WorkItem → WorkItem}
    (hf : ∀ item, (f item).id = item.id) (hitem : db.items.find? id = some item)
    {postings : List Posting} (hmove : RowMove env op lo hi item (f item) postings) :
    Moves env op lo hi db
      { db with
        items := db.items.modify id f hf
        ledger := db.ledger.postAll id postings } := by
  have hstored : db.items.find? item.id = some item := by
    rwa [Table.key_of_find? hitem]
  rw [write_eq hf hitem postings]
  exact Relation.ReflTransGen.single (.write hstored hmove)

/-- The same, with one event. -/
theorem Moves.of_post {db : Db} {id : String} {item : WorkItem} {f : WorkItem → WorkItem}
    (hf : ∀ item, (f item).id = item.id) (hitem : db.items.find? id = some item)
    {posting : Posting} (hmove : RowMove env op lo hi item (f item) [posting]) :
    Moves env op lo hi db
      { db with
        items := db.items.modify id f hf
        ledger := db.ledger.post id posting } :=
  Moves.of_update hf hitem hmove

/-- **A decision is one write.** -/
theorem moves_of_decideOn {id actor : String} {precondition : Option MutationPrecondition}
    {refusal : WorkItem → Except QueueError Unit} {write : Time → WorkItem → WorkItem}
    {hwrite : ∀ t item, (write t item).id = item.id} {payload : WorkItem → EventPayload}
    {reply : WorkItem}
    (h : (decideOn env id actor precondition refusal write hwrite payload).Returns w reply w')
    (hmove : ∀ item updatedAt t, item.id = id → refusal item = .ok () →
      Reading env w.ticks w'.ticks updatedAt →
      RowMove env op w.ticks w'.ticks item (write updatedAt item) [⟨actor, payload item, t⟩]) :
    Moves env op w.ticks w'.ticks w.db w'.db := by
  obtain ⟨item, hitem, -, hrefusal, -, rfl⟩ := decideOn_spec h
  exact Moves.of_post (hwrite _) hitem (hmove item _ _ (Table.key_of_find? hitem) hrefusal
    ⟨w.ticks, le_rfl, by show w.ticks < w.ticks + 2; omega, rfl⟩)

/-- Writing the repositories is a move when it loses none, and adds none
without checking its slug. -/
theorem Moves.of_repositories {db : Db} {repositories : Table RepositoryRow.slug}
    (h : ∀ slug, db.repositories.find? slug ≠ none → repositories.find? slug ≠ none)
    (hvalid : ∀ slug, repositories.find? slug ≠ none →
      db.repositories.find? slug ≠ none ∨ validateRepository slug = .ok ()) :
    Moves env op lo hi db { db with repositories } :=
  Relation.ReflTransGen.single (.repositories h hvalid)

theorem returns_assertRepositoryEnabled {repository : String} {u : Unit}
    (h : (assertRepositoryEnabled repository).Returns w u w') : w' = w := by
  simp only [assertRepositoryEnabled, Tx.returns_bind, Tx.returns_ofExcept, Tx.returns_read,
    Tx.returns_failIf] at h
  obtain ⟨_, _, ⟨-, rfl⟩, _, _, ⟨-, rfl⟩, -, rfl⟩ := h
  rfl

theorem moves_of_setRepository {repository : String}
    {write : Time → RepositoryRow → RepositoryRow} {hwrite : ∀ t row, (write t row).slug = row.slug}
    {t : Time} (h : (setRepository env repository write hwrite).Returns w t w') :
    Moves env op lo hi w.db w'.db := by
  simp only [setRepository, updateRepositories, Tx.returns_bind, returns_now, Tx.returns_update,
    Tx.returns_pure] at h
  obtain ⟨_, _, henabled, _, _, ⟨rfl, rfl⟩, _, _, rfl, -, rfl⟩ := h
  obtain rfl := returns_assertRepositoryEnabled henabled
  refine Moves.of_repositories (fun slug hslug => ?_) fun slug hslug => Or.inl ?_
  · rw [Table.modify, Table.find?_map]
    simpa using hslug
  · rw [Table.modify, Table.find?_map] at hslug
    simpa using hslug

theorem moves_of_setRepositoryEnabled {repository : String} {enabled : Bool} {u : Unit}
    (h : (setRepositoryEnabled env repository enabled).Returns w u w') :
    Moves env op lo hi w.db w'.db := by
  simp only [setRepositoryEnabled, updateRepositories, returns_checked, Tx.returns_bind,
    returns_now, Tx.returns_update] at h
  obtain ⟨_, hvalid, _, _, ⟨rfl, rfl⟩, rfl⟩ := h
  refine Moves.of_repositories (fun slug hslug => ?_) fun slug hslug => ?_
  · unfold upsertRepository
    split
    · next hnone =>
      obtain ⟨row, hrow⟩ := Option.ne_none_iff_exists'.mp hslug
      rw [Table.find?_insert_of_some hnone hrow]
      exact Option.some_ne_none row
    · rw [Table.modify, Table.find?_map]
      simpa using hslug
  · unfold upsertRepository at hslug
    split at hslug
    · next hnone =>
      rw [Table.find?_insert hnone] at hslug
      split at hslug
      · next heq => exact Or.inr (heq ▸ hvalid)
      · exact Or.inl hslug
    · rw [Table.modify, Table.find?_map] at hslug
      exact Or.inl (by simpa using hslug)

/-! ## Roots -/

/-- **A created root is one move**, when the call asked for it and its
definition passed. -/
theorem move_of_createRoot {root : RootWork} {payload : EventPayload} {item : WorkItem}
    (h : (createRoot env root payload).Returns w item w') (hlo : lo ≤ w.ticks)
    (hhi : w'.ticks ≤ hi) (hasked : op.Asks root)
    (hchecked : validateWorkDefinition root.definition root.checkedBindings = .ok ())
    (hkinds : root.MechanicalKind)
    (hinactive : op.isBatch = true → w.db.Inactive root.repository root.definition.kind)
    (hpayload : payload.type = if root.admitted = true then .workQueued else .workProposed) :
    Move env op lo hi w.db w'.db := by
  obtain ⟨id, createdAt, policy, t, hfresh, -, hdb, hdrawn, hcreated, hbound, hknown⟩ :=
    createRoot_spec h
  rw [hdb]
  have guard : RootGuard env op lo hi w.db root id createdAt policy :=
    { asked := hasked
      checked := hchecked
      kinds := hkinds
      drawn := hdrawn.mono hlo hhi
      fresh := hfresh
      known := hknown
      bound := hbound.mono hlo hhi
      created := hcreated.mono hlo hhi
      inactive := hinactive }
  exact Move.create (.root guard hpayload) hfresh

theorem moves_of_enqueueSeed {repository : String} {input : WorkDefinition} {item : WorkItem}
    (h : (enqueueSeed env repository input).Returns w item w') :
    Moves env (.enqueueSeed repository input) w.ticks w'.ticks w.db w'.db := by
  simp only [enqueueSeed, returns_checked, Tx.returns_bind, except_bind_eq_ok] at h
  obtain ⟨_, ⟨_, hchecked, -⟩, _, _, henabled, hroot⟩ := h
  obtain rfl := returns_assertRepositoryEnabled henabled
  exact Relation.ReflTransGen.single (move_of_createRoot hroot le_rfl le_rfl rfl hchecked
    (RootWork.mechanicalKind_of_unbound rfl rfl) (fun hbatch => absurd hbatch (by simp [Op.isBatch])) rfl)

theorem moves_of_enqueueCureRoot {repository : String} {input : CureRootInput}
    {reply : Option WorkItem} (h : (enqueueCureRoot env repository input).Returns w reply w') :
    Moves env (.enqueueCureRoot repository input) w.ticks w'.ticks w.db w'.db := by
  simp only [enqueueCureRoot, returns_checked, Tx.returns_bind, except_bind_eq_ok,
    refuseIf_eq_ok, ne_eq, not_not] at h
  obtain ⟨_, ⟨_, -, _, -, _, -, _, hkind, _, -, hchecked⟩, _, _, henabled, _, w, ⟨rfl, rfl⟩, h⟩ := h
  obtain rfl := returns_assertRepositoryEnabled henabled
  split at h
  · obtain ⟨-, rfl⟩ := Tx.returns_pure.mp h
    exact Relation.ReflTransGen.refl
  · simp only [Tx.returns_bind, Tx.returns_pure] at h
    obtain ⟨item, _, hroot, -, rfl⟩ := h
    exact Relation.ReflTransGen.single (move_of_createRoot hroot le_rfl le_rfl rfl hchecked
      ⟨fun _ => hkind, fun hreview => absurd rfl hreview⟩
      (fun hbatch => absurd hbatch (by simp [Op.isBatch])) rfl)

theorem moves_of_enqueueReviewRoot {repository : String} {input : ReviewRootInput}
    {reply : Option WorkItem} (h : (enqueueReviewRoot env repository input).Returns w reply w') :
    Moves env (.enqueueReviewRoot repository input) w.ticks w'.ticks w.db w'.db := by
  simp only [enqueueReviewRoot, returns_checked, Tx.returns_bind, except_bind_eq_ok,
    refuseIf_eq_ok, ne_eq, not_and_or, not_not] at h
  obtain ⟨_, ⟨_, -, _, -, _, -, _, hkind, _, -, _, -, _, -, hchecked⟩, _, _, henabled, _, w, ⟨rfl, rfl⟩,
    h⟩ := h
  obtain rfl := returns_assertRepositoryEnabled henabled
  split at h
  · obtain ⟨-, rfl⟩ := Tx.returns_pure.mp h
    exact Relation.ReflTransGen.refl
  · simp only [Tx.returns_bind, Tx.returns_pure] at h
    obtain ⟨item, _, hroot, -, rfl⟩ := h
    exact Relation.ReflTransGen.single (move_of_createRoot hroot le_rfl le_rfl rfl hchecked
      ⟨fun hcure => absurd rfl hcure, fun _ => hkind⟩
      (fun hbatch => absurd hbatch (by simp [Op.isBatch])) rfl)

theorem db_of_isCooling {noFinding : List (String × NoFinding)} {kind : String} {baseSeconds : ℤ}
    {cooling : Bool} (h : (isCooling env noFinding kind baseSeconds).Returns w cooling w') :
    w'.db = w.db := by
  unfold isCooling at h
  split at h
  · obtain ⟨-, rfl⟩ := Tx.returns_pure.mp h
    rfl
  · dsimp only at h
    split at h
    · simp only [Tx.returns_bind, returns_now, Tx.returns_pure] at h
      obtain ⟨_, _, ⟨-, rfl⟩, -, rfl⟩ := h
      rfl
    · obtain ⟨-, rfl⟩ := Tx.returns_pure.mp h
      rfl

/-- The feeder's loop: every kind that is not among the active ones has no
unfinished lineage, and creating a root adds its kind to them. -/
theorem moves_of_inactiveRootLoop {repository : String} {all : List BatchCandidate}
    {cooldownSeconds : Option JsNumber} {noFinding : List (String × NoFinding)}
    {activeKinds : List String} {candidates : List (BatchCandidate × ℤ)} {result : BatchResult}
    (hop : op = .enqueueInactiveRootBatch repository all cooldownSeconds)
    (hall : ∀ c ∈ candidates, c.1 ∈ all)
    (h : (inactiveRootLoop env repository noFinding activeKinds candidates).Returns w result w')
    (hlo : lo ≤ w.ticks) (hhi : w'.ticks ≤ hi)
    (hinactive : ∀ kind, kind ∉ activeKinds → w.db.Inactive repository kind) :
    Moves env op lo hi w.db w'.db := by
  induction candidates generalizing activeKinds w result with
  | nil =>
    obtain ⟨-, rfl⟩ := Tx.returns_pure.mp h
    exact Relation.ReflTransGen.refl
  | cons c rest ih =>
    obtain ⟨candidate, cooldown⟩ := c
    have hrest : ∀ c ∈ rest, c.1 ∈ all := fun c hc => hall c (List.mem_cons_of_mem _ hc)
    simp only [inactiveRootLoop, Tx.returns_bind, Tx.returns_ofExcept] at h
    obtain ⟨_, w₁, ⟨hchecked, rfl⟩, _, w₂, ⟨-, rfl⟩, h⟩ := h
    split at h
    · simp only [Tx.returns_bind, Tx.returns_pure] at h
      obtain ⟨_, _, hloop, -, rfl⟩ := h
      exact ih hrest hloop hlo hinactive
    · next hkind =>
      simp only [Tx.returns_bind] at h
      obtain ⟨cooling, w₃, hcooling, h⟩ := h
      have hdb : w₃.db = w₂.db := db_of_isCooling hcooling
      have hticks : lo ≤ w₃.ticks := le_trans hlo (ticks_le_of_returns hcooling)
      rw [← hdb] at hinactive ⊢
      split at h
      · simp only [Tx.returns_bind, Tx.returns_pure] at h
        obtain ⟨_, _, hloop, -, rfl⟩ := h
        exact ih hrest hloop hticks hinactive
      · simp only [Tx.returns_bind, Tx.returns_pure] at h
        obtain ⟨item, w₄, hroot, _, _, hloop, -, rfl⟩ := h
        have hmove : Move env op lo hi w₃.db w₄.db := by
          refine move_of_createRoot hroot hticks (le_trans (ticks_le_of_returns hloop) hhi) ?_
            hchecked (RootWork.mechanicalKind_of_unbound rfl rfl) (fun _ => hinactive _ hkind) rfl
          rw [hop]
          exact ⟨candidate, hall _ List.mem_cons_self, rfl⟩
        refine Relation.ReflTransGen.head hmove (ih hrest hloop
          (le_trans hticks (ticks_le_of_returns hroot)) fun kind hnot => ?_)
        obtain ⟨id, createdAt, policy, t, hfresh, -, hcreate, -⟩ := createRoot_spec hroot
        rw [List.mem_cons, not_or] at hnot
        rw [hcreate]
        exact inactive_create (hinactive kind hnot.2) rfl (Ne.symm hnot.1)

/-- A kind that is not among the active ones of a repository has no
unfinished lineage there. -/
theorem inactive_of_not_mem_activeRootKinds {db : Db} {repository kind : String}
    (h : kind ∉ activeRootKinds db repository) : db.Inactive repository kind := by
  intro item hitem hrepository hactive root hroot hkind
  refine h (mem_sortedUnique.mpr (List.mem_filterMap.mpr ⟨item, List.mem_filter.mpr ⟨hitem, ?_⟩, ?_⟩))
  · simp [hrepository, hactive]
  · rw [hroot, Option.map_some, hkind]

/-- **The batch runs the loop on the kinds that are active now.** Its other
steps only check. -/
theorem enqueueInactiveRootBatch_spec {repository : String} {candidates : List BatchCandidate}
    {cooldownSeconds : Option JsNumber} {result : BatchResult}
    (h : (enqueueInactiveRootBatch env repository candidates cooldownSeconds).Returns w result w') :
    ∃ (noFinding : List (String × NoFinding)) (cooldowns : List ℤ),
      (inactiveRootLoop env repository noFinding (activeRootKinds w.db repository)
        (candidates.zip cooldowns)).Returns w result w' := by
  simp only [enqueueInactiveRootBatch, Tx.returns_bind, Tx.returns_ofExcept, returns_transaction,
    Tx.returns_read] at h
  obtain ⟨_, w₁, ⟨-, rfl⟩, cooldowns, w₂, hcooldowns, _, w₃, henabled, _, _, ⟨rfl, rfl⟩, hloop⟩ := h
  have hw₃ := returns_assertRepositoryEnabled henabled
  have hw₂ : w₂ = w₁ := by
    have := Tx.still_each (fun c => Tx.still_ofExcept (σ := World) (cooldownOf cooldownSeconds c))
      candidates w₁
    rw [show Tx.each _ candidates w₁ = (.ok cooldowns, w₂) from hcooldowns] at this
    exact this
  subst hw₂
  subst hw₃
  exact ⟨_, cooldowns, hloop⟩

theorem moves_of_enqueueInactiveRootBatch {repository : String}
    {candidates : List BatchCandidate} {cooldownSeconds : Option JsNumber} {result : BatchResult}
    (h : (enqueueInactiveRootBatch env repository candidates cooldownSeconds).Returns w result w') :
    Moves env (.enqueueInactiveRootBatch repository candidates cooldownSeconds) w.ticks w'.ticks
      w.db w'.db := by
  obtain ⟨noFinding, cooldowns, hloop⟩ := enqueueInactiveRootBatch_spec h
  exact moves_of_inactiveRootLoop rfl (fun c hc => (List.of_mem_zip hc).1) hloop le_rfl le_rfl
    fun kind hkind => inactive_of_not_mem_activeRootKinds hkind

theorem moves_of_proposedRootLoop {repository : String} {all candidates : List ProposedRootInput}
    {seen : List String} {result : ImportResult}
    (hop : op = .enqueueProposedRoots repository all) (hall : ∀ c ∈ candidates, c ∈ all)
    (h : (proposedRootLoop env repository seen candidates).Returns w result w')
    (hlo : lo ≤ w.ticks) (hhi : w'.ticks ≤ hi) : Moves env op lo hi w.db w'.db := by
  induction candidates generalizing seen w result with
  | nil =>
    obtain ⟨-, rfl⟩ := Tx.returns_pure.mp h
    exact Relation.ReflTransGen.refl
  | cons candidate rest ih =>
    have hrest : ∀ c ∈ rest, c ∈ all := fun c hc => hall c (List.mem_cons_of_mem _ hc)
    simp only [proposedRootLoop, Tx.returns_bind, Tx.returns_ofExcept, Tx.returns_read] at h
    obtain ⟨_, w₁, ⟨hchecked, rfl⟩, _, w₂, ⟨-, rfl⟩, predecessors, w₃, ⟨-, rfl⟩, _, w₄, ⟨rfl, rfl⟩,
      h⟩ := h
    split at h
    · simp only [Tx.returns_bind, Tx.returns_pure] at h
      obtain ⟨_, _, hloop, -, rfl⟩ := h
      exact ih hrest hloop hlo
    · simp only [Tx.returns_bind, Tx.returns_pure] at h
      obtain ⟨item, w₅, hroot, _, _, hloop, -, rfl⟩ := h
      refine Relation.ReflTransGen.head ?_
        (ih hrest hloop (le_trans hlo (ticks_le_of_returns hroot)))
      refine move_of_createRoot hroot hlo (le_trans (ticks_le_of_returns hloop) hhi) ?_ hchecked
        (RootWork.mechanicalKind_of_unbound rfl rfl) ?_ rfl
      · rw [hop]
        exact ⟨candidate, hall _ List.mem_cons_self, predecessors, rfl⟩
      · rw [hop]
        exact fun hbatch => absurd hbatch (by simp [Op.isBatch])

theorem moves_of_enqueueProposedRoots {repository : String} {candidates : List ProposedRootInput}
    {result : ImportResult}
    (h : (enqueueProposedRoots env repository candidates).Returns w result w') :
    Moves env (.enqueueProposedRoots repository candidates) w.ticks w'.ticks w.db w'.db := by
  simp only [enqueueProposedRoots, returns_checked, Tx.returns_bind] at h
  obtain ⟨_, -, _, _, henabled, hloop⟩ := h
  obtain rfl := returns_assertRepositoryEnabled henabled
  exact moves_of_proposedRootLoop rfl (fun _ hc => hc) hloop le_rfl le_rfl

/-! ## Claims and leases -/

/-- **A claim is one write, or none.** -/
theorem moves_of_claim {input : ClaimInput} {reply : Option WorkItem}
    (h : (claim env input).Returns w reply w') :
    Moves env (.claim input) w.ticks w'.ticks w.db w'.db := by
  obtain ⟨request, hrequest, ⟨-, -, rfl⟩ | ⟨-, -, ⟨-, -, hdb⟩ | ⟨row, leased, hselect, -, hrow, hleased⟩⟩⟩ :=
    claim_spec h
  · exact Relation.ReflTransGen.refl
  · rw [hdb]
  · obtain ⟨token, expiresAt, t₁, t₂, ⟨k, hlo, hhi, htoken⟩, rfl, hdb⟩ := hleased.written
    rw [hdb]
    have hclaimable : claimable (env.clock w.ticks) row = true := by
      unfold claimSelection at hselect
      split at hselect
      · exact absurd hselect (by simp)
      · have hcandidate := (candidate_of_selectCandidate hselect).2
        unfold isCandidate at hcandidate
        simp only [Bool.and_eq_true] at hcandidate
        exact hcandidate.1.1.1.1.2
    exact Relation.ReflTransGen.single (.write hrow (.claim rfl hrequest hclaimable
      hleased.admitted ⟨k, hlo, hhi, htoken⟩ ⟨w.ticks, le_rfl, lt_of_le_of_lt hlo hhi, rfl⟩))

theorem moves_of_heartbeat {id leaseToken worker : String} {leaseSeconds : Option JsNumber}
    {item : WorkItem} (h : (heartbeat env id leaseToken worker leaseSeconds).Returns w item w') :
    Moves env op w.ticks w'.ticks w.db w'.db := by
  simp only [heartbeat, returns_checked, Tx.returns_bind, returns_assertActiveLease, returns_now,
    Tx.returns_ofExcept, returns_updateItem, returns_addEvent, returns_getRequired] at h
  obtain ⟨_, -, item, _, ⟨hlease, rfl⟩, _, _, ⟨rfl, rfl⟩, _, _, ⟨rfl, rfl⟩, seconds, _, ⟨-, rfl⟩,
    _, _, rfl, _, _, rfl, -, rfl⟩ := h
  dsimp only
  refine Moves.of_post ?_ hlease.stored ?_
  · refine .heartbeat hlease.claimed ⟨w.ticks + 1, Nat.le_succ _, ?_, rfl⟩
    show w.ticks + 1 < w.ticks + 1 + 1 + 1 + 1
    omega

theorem moves_of_block {id leaseToken worker reason : String} {item : WorkItem}
    (h : (block env id leaseToken worker reason).Returns w item w') :
    Moves env op w.ticks w'.ticks w.db w'.db := by
  simp only [block, returns_checked, Tx.returns_bind, returns_assertActiveLease, returns_now,
    returns_updateItem, returns_addEvent, returns_getRequired] at h
  obtain ⟨_, -, item, _, ⟨hlease, rfl⟩, _, _, ⟨rfl, rfl⟩, _, _, rfl, _, _, rfl, -, rfl⟩ := h
  dsimp only
  refine Moves.of_post ?_ hlease.stored ?_
  · refine .block hlease.claimed ⟨w.ticks + 1, Nat.le_succ _, ?_, rfl⟩
    show w.ticks + 1 < w.ticks + 1 + 1 + 1
    omega

theorem moves_of_release {id leaseToken worker reason : String} {item : WorkItem}
    (h : (release env id leaseToken worker reason).Returns w item w') :
    Moves env op w.ticks w'.ticks w.db w'.db := by
  simp only [release, returns_checked, Tx.returns_bind, returns_assertActiveLease, returns_now,
    returns_updateItem, returns_addEvent, returns_getRequired] at h
  obtain ⟨_, -, item, _, ⟨hlease, rfl⟩, _, _, ⟨rfl, rfl⟩, _, _, rfl, _, _, rfl, -, rfl⟩ := h
  dsimp only
  refine Moves.of_post ?_ hlease.stored ?_
  · refine .release hlease.claimed ⟨w.ticks + 1, Nat.le_succ _, ?_, rfl⟩
    show w.ticks + 1 < w.ticks + 1 + 1 + 1
    omega

/-! ## Completions -/

/-- A parent that may have follow-ups is not too deep, when it has any. -/
theorem returns_assertMayFollowUp {parent : WorkItem} {followUps : List FollowUpProposalInput}
    {u : Unit} (h : (assertMayFollowUp parent followUps).Returns w u w') :
    w' = w ∧ (followUps ≠ [] → ∃ n, n < maxLineageDepth ∧ Chain w.db parent n) := by
  unfold assertMayFollowUp at h
  split at h
  · next hnil =>
    obtain ⟨-, rfl⟩ := Tx.returns_pure.mp h
    exact ⟨rfl, fun hne => absurd hnil hne⟩
  · simp only [lineageDepth, Tx.returns_bind, Tx.returns_failIf] at h
    obtain ⟨_, _, ⟨-, rfl⟩, depth, _, hdepth, hshallow, rfl⟩ := h
    obtain ⟨rfl, hchain⟩ := lineageDepthLoop_spec hdepth
    exact ⟨rfl, fun _ => ⟨depth, not_le.mp hshallow, hchain⟩⟩

/-- What a verdict is recorded as; only the clock is read for it. -/
theorem returns_reviewVerdict {input : CompletionInput} {parent : WorkItem}
    {review? : Option PullRequestReview}
    (h : (reviewVerdict env parent input.review).Returns w review? w') :
    w'.db = w.db ∧ input.Judges parent review? := by
  unfold reviewVerdict at h
  rw [CompletionInput.Judges]
  split at h
  · next hkind =>
    simp only [Tx.returns_bind, Tx.returns_ofOption, Tx.returns_ofExcept, returns_now,
      Tx.returns_pure] at h
    obtain ⟨verdict, _, ⟨hverdict, rfl⟩, record, _, ⟨hrecord, rfl⟩, _, _, ⟨hvalid, rfl⟩,
      reviewedAt, _, ⟨-, rfl⟩, rfl, rfl⟩ := h
    rw [if_pos hkind]
    exact ⟨rfl, verdict, record, reviewedAt, hverdict, hrecord, hvalid, rfl⟩
  · next hkind =>
    simp only [Tx.returns_bind, Tx.returns_failIf, Tx.returns_pure] at h
    obtain ⟨_, _, ⟨hnone, rfl⟩, rfl, rfl⟩ := h
    rw [if_neg hkind]
    exact ⟨rfl, Option.not_isSome_iff_eq_none.mp hnone, rfl⟩

/-- A recorded verdict is at most one event of the item. -/
theorem returns_addReviewEvent {input : CompletionInput} {parent : WorkItem} {u : Unit}
    (h : (addReviewEvent env input parent).Returns w u w') :
    ∃ reviewed : List Posting, (∀ p ∈ reviewed, p.payload.type = .workReviewed) ∧
      w'.db = { w.db with ledger := w.db.ledger.postAll input.id reviewed } := by
  unfold addReviewEvent at h
  split at h
  · rw [returns_addEvent] at h
    subst h
    exact ⟨[⟨input.worker, _, _⟩], fun p hp => by rw [List.mem_singleton.mp hp]; rfl, rfl⟩
  · obtain ⟨-, rfl⟩ := Tx.returns_pure.mp h
    exact ⟨[], fun _ hp => absurd hp List.not_mem_nil, rfl⟩

/-- A chain is not touched by inserting a row. -/
theorem Chain.create {db : Db} {item row : WorkItem} {n : ℕ} {p : Posting} (h : Chain db item n)
    (hfresh : db.items.find? row.id = none) : Chain (db.create row hfresh p) item n := by
  induction h with
  | root hroot => exact .root hroot
  | step hp hparent _ ih => exact .step hp (Table.find?_insert_of_some hfresh hparent) ih

/-- **One round of the follow-up loop** is one child. -/
theorem proposeFollowUp_spec {input : CompletionInput} {parent child : WorkItem} {createdAt : Time}
    {proposal : FollowUpProposalInput}
    (h : (proposeFollowUp env parent input.worker createdAt proposal).Returns w child w')
    (hlo : lo ≤ w.ticks) (hhi : w'.ticks ≤ hi) (hid : input.id = parent.id)
    (hstored : w.db.items.find? parent.id = some parent) (hclaimed : parent.rowStatus = .claimed)
    (hshallow : ∃ n, n < maxLineageDepth ∧ Chain w.db parent n)
    (hcreated : Reading env lo hi createdAt) :
    Move env (.complete input) lo hi w.db w'.db ∧
      w'.db.items.find? parent.id = some parent ∧
      ∃ n, n < maxLineageDepth ∧ Chain w'.db parent n := by
  simp only [proposeFollowUp, Tx.returns_bind, Tx.returns_ofExcept, returns_randomUUID,
    returns_addEvent, returns_getRequired] at h
  obtain ⟨followUp, w, ⟨hchecked, rfl⟩, _, _, ⟨rfl, rfl⟩, _, w₁, hinsert, _, _, rfl, -, rfl⟩ := h
  obtain ⟨policy, hfresh, hticks, hdb, hbound, hknown⟩ := insertWork_spec hinsert
  dsimp only at hdb hticks hbound hhi hfresh hknown ⊢
  have guard : ChildGuard env (.complete input) lo hi w.db parent followUp input.worker
      (env.randomUUID w.ticks) createdAt policy :=
    { completing := ⟨input, rfl, hid⟩
      stored := hstored
      claimed := hclaimed
      shallow := hshallow
      checked := ⟨proposal, hchecked⟩
      drawn := ⟨w.ticks, hlo, by omega, rfl⟩
      fresh := hfresh
      known := hknown
      bound := hbound.mono (by omega) (by omega)
      created := hcreated }
  obtain ⟨n, hn, hchain⟩ := hshallow
  rw [hdb]
  exact ⟨Move.create (.child guard) hfresh, Table.find?_insert_of_some hfresh hstored, n, hn,
    hchain.create (p := ⟨input.worker, .childProposed parent.id parent.rootId, _⟩) hfresh⟩

/-- The follow-up loop: the parent is found as it was after every round. -/
theorem moves_of_proposeFollowUps {input : CompletionInput} {parent : WorkItem}
    {children : List WorkItem} {createdAt : Time} {proposals : List FollowUpProposalInput}
    (h : (Tx.each (proposeFollowUp env parent input.worker createdAt) proposals).Returns w children
      w') (hlo : lo ≤ w.ticks) (hhi : w'.ticks ≤ hi) (hid : input.id = parent.id)
    (hstored : w.db.items.find? parent.id = some parent) (hclaimed : parent.rowStatus = .claimed)
    (hshallow : proposals ≠ [] → ∃ n, n < maxLineageDepth ∧ Chain w.db parent n)
    (hcreated : Reading env lo hi createdAt) :
    Moves env (.complete input) lo hi w.db w'.db ∧ w'.db.items.find? parent.id = some parent := by
  induction proposals generalizing w children with
  | nil =>
    obtain ⟨-, rfl⟩ := Tx.returns_each_nil.mp h
    exact ⟨Relation.ReflTransGen.refl, hstored⟩
  | cons proposal rest ih =>
    obtain ⟨child, w₁, hround, _, hloop, -⟩ := Tx.returns_each_cons.mp h
    obtain ⟨hmove, hstored₁, hshallow₁⟩ := proposeFollowUp_spec hround hlo
      (le_trans (ticks_le_of_returns hloop) hhi) hid hstored hclaimed
      (hshallow (List.cons_ne_nil _ _)) hcreated
    obtain ⟨hmoves, hstored'⟩ := ih hloop (le_trans hlo (ticks_le_of_returns hround)) hstored₁
      fun _ => hshallow₁
    exact ⟨Relation.ReflTransGen.head hmove hmoves, hstored'⟩

/-- A completion's result is valid. -/
theorem valid_of_completionChecks {input : CompletionInput} {u : Unit}
    (h : (do
      let _ ← validateWorkerPrincipal input.worker
      validateResult env input.result
      refuseIf (maxFollowUps < input.followUps.length)
        (.error s!"completion may propose at most {maxFollowUps} follow-up items") :
          Except QueueError Unit) = .ok u) : validateResult env input.result = .ok () := by
  simp only [except_bind_eq_ok] at h
  obtain ⟨_, -, _, hvalid, -⟩ := h
  exact hvalid

/-- **A completion** is one child for each follow-up, and the write of the
parent. -/
theorem moves_of_complete {input : CompletionInput} {completion : Completion}
    (h : (complete env input).Returns w completion w') :
    Moves env (.complete input) w.ticks w'.ticks w.db w'.db := by
  simp only [complete, returns_checked, Tx.returns_bind, returns_assertActiveLease,
    Tx.returns_ofExcept, returns_now, returns_updateItem, returns_addEvent, returns_getRequired,
    Tx.returns_pure] at h
  obtain ⟨_, hchecks, parent, _, ⟨hlease, rfl⟩, _, w₁, hmay, _, w₂, ⟨hallowed, rfl⟩, _, w₃,
    ⟨-, rfl⟩, verdict, w₄, hverdict, _, _, ⟨rfl, rfl⟩, children, w₅, hchildren, _, _, rfl, _, _, rfl, _, _, hreview, _, _,
    ⟨-, rfl⟩, -, rfl⟩ := h
  obtain ⟨rfl, hshallow⟩ := returns_assertMayFollowUp hmay
  have hid : parent.id = input.id := Table.key_of_find? hlease.stored
  have hticks₄ := ticks_le_of_returns hverdict
  have hticks₅ := ticks_le_of_returns hchildren
  have hticks₆ := ticks_le_of_returns hreview
  obtain ⟨hdb₄, hjudges⟩ := returns_reviewVerdict hverdict
  obtain ⟨reviewed, hreviewed, hdb₆⟩ := returns_addReviewEvent hreview
  dsimp only at hticks₄ hticks₅ hticks₆ hdb₄ hdb₆ hshallow
  have hcreated : Reading env w.ticks w'.ticks (env.clock w₄.ticks) :=
    ⟨w₄.ticks, by omega, by omega, rfl⟩
  obtain ⟨hmoves, hstored⟩ := moves_of_proposeFollowUps hchildren
    (by show w.ticks ≤ w₄.ticks + 1; omega) (by omega) hid.symm
    (by show w₄.db.items.find? parent.id = some parent; rw [hdb₄, hid]; exact hlease.stored)
    hlease.claimed
    (by show _ → ∃ n, _ ∧ Chain w₄.db parent n; rw [hdb₄]; exact hshallow) hcreated
  dsimp only at hmoves
  rw [hdb₄] at hmoves
  refine Relation.ReflTransGen.trans hmoves ?_
  rw [hid] at hstored
  rw [hdb₆]
  refine @Moves.of_update _ _ _ _ _ _ _ _ ?_ hstored
    (⟨input.worker, .workCompleted (children.map WorkItem.id) input.result.artifacts.length
      input.result.model, env.clock w₅.ticks⟩ :: reviewed) ?_
  have hguard : CompletionGuard env (.complete input) parent input.result verdict :=
    ⟨⟨input, rfl, hid.symm, rfl, hjudges⟩, valid_of_completionChecks hchecks, hallowed⟩
  exact .complete hlease.claimed hcreated hreviewed hguard

/-! ## Decisions -/

/-- The binding of a stored item at its admission. -/
theorem moves_of_approve {id actor : String} {precondition : Option MutationPrecondition}
    {item : WorkItem} (h : (approve env id actor precondition).Returns w item w') :
    Moves env (.approve id actor precondition) w.ticks w'.ticks w.db w'.db := by
  simp only [approve, returns_checked, Tx.returns_bind, Tx.returns_ofExcept, Tx.returns_failIf,
    Tx.returns_read, returns_now, returns_updateItem, returns_addEvent, returns_getRequired] at h
  obtain ⟨_, hactor, item, w, ⟨hitem, rfl⟩, _, w, ⟨-, rfl⟩, _, w, ⟨hproposed, rfl⟩, _, w, ⟨rfl, rfl⟩,
    _, w, ⟨-, rfl⟩, _, _, ⟨rfl, rfl⟩, rebound, w₁, hpolicy, _, _, rfl, _, _, rfl, -, rfl⟩ := h
  obtain ⟨hdb, hticks, hbound⟩ := bindPolicy_spec hpolicy
  dsimp only at hdb hticks hbound ⊢
  have hid : item.id = id := Table.key_of_find? hitem
  rw [hdb]
  refine Moves.of_post ?_ hitem ?_
  exact .approve (by rw [hid]) (isOperatorActor_of_validate hactor) (not_not.mp hproposed)
    (hbound.mono (Nat.le_succ _) (Nat.le_succ _)) ⟨w.ticks, le_rfl, by omega, rfl⟩

theorem moves_of_replaceProposedPredecessors {id actor : String} {predecessors : List String}
    {item : WorkItem}
    (h : (replaceProposedPredecessors env id predecessors actor).Returns w item w') :
    Moves env op w.ticks w'.ticks w.db w'.db := by
  simp only [replaceProposedPredecessors, returns_checked, Tx.returns_bind, Tx.returns_failIf,
    returns_now, returns_updateItem, returns_addEvent, returns_getRequired] at h
  obtain ⟨replacement, -, item, w, ⟨hitem, rfl⟩, _, w, ⟨hproposed, rfl⟩, _, _, ⟨rfl, rfl⟩, _, _, rfl,
    _, _, rfl, -, rfl⟩ := h
  dsimp only
  refine Moves.of_post ?_ hitem ?_
  exact .predecessors (not_not.mp (not_or.mp hproposed).2)
    ⟨w.ticks, le_rfl, by omega, rfl⟩

/-- A completed item is one whose row is. -/
theorem completed_of_assertCompleted {id : String} {item : WorkItem} {u : Unit}
    (h : assertCompleted id item = .ok u) : item.rowStatus = .completed := by
  simp only [assertCompleted, refuseIf_eq_ok, not_or, not_not] at h
  exact WorkItem.status_eq_completed.mp h.1

/-- What an accepted rename does: the repository moves to a new slug, and its
items with it. -/
theorem renameRepository_spec {source target actor : String} {result : RenameResult}
    (h : (renameRepository env source target actor).Returns w result w') :
    ∃ row moved, ∃ hmoved : w.db.repositories.find? moved.slug = none,
      w.db.repositories.find? source = some row ∧ moved.slug = target ∧
        validateRepository target = .ok () ∧
        w'.db = w.db.rename source target moved hmoved := by
  simp only [renameRepository, returns_checked, Tx.returns_bind, Tx.returns_read,
    Tx.returns_ofOption, Tx.returns_failIf, returns_now] at h
  obtain ⟨_, hchecks, _, w, ⟨rfl, rfl⟩, row, w, ⟨hrow, rfl⟩, _, w, ⟨-, rfl⟩, _, _, ⟨rfl, rfl⟩,
    h⟩ := h
  obtain ⟨_, -, hchecks⟩ := except_bind_eq_ok.mp hchecks
  obtain ⟨_, hvalid, -⟩ := except_bind_eq_ok.mp hchecks
  split at h
  · next hmoved =>
    simp only [Tx.returns_bind, Tx.returns_update, Tx.returns_pure] at h
    obtain ⟨_, _, rfl, -, rfl⟩ := h
    exact ⟨row, _, hmoved, hrow, rfl, hvalid, rfl⟩
  · exact (Tx.returns_fail.mp h).elim

theorem moves_of_renameRepository {source target actor : String} {result : RenameResult}
    (h : (renameRepository env source target actor).Returns w result w') :
    Moves env (.renameRepository source target actor) w.ticks w'.ticks w.db w'.db := by
  obtain ⟨row, moved, hmoved, hrow, hslug, hvalid, hdb⟩ := renameRepository_spec h
  rw [hdb]
  refine Relation.ReflTransGen.single (.rename rfl hslug ?_ hvalid)
  rw [hrow]
  exact Option.some_ne_none row

/-! ## Calls and runs -/

/-- **The refinement: a call that returns is a sequence of moves.** -/
theorem moves_of_returns {r : Reply} (h : (op.run env).Returns w r w') :
    Moves env op w.ticks w'.ticks w.db w'.db := by
  cases op <;> obtain ⟨_, h, -⟩ := returns_reply.mp h
  case setRepositoryEnabled => exact moves_of_setRepositoryEnabled h
  case setRepositoryCureForeign | setRepositoryReviewGate =>
    exact moves_of_setRepository (returns_transaction.mp h)
  case recordUnreportedPullRequests =>
    obtain ⟨_, -, h⟩ := returns_checked.mp h
    exact moves_of_setRepository h
  case recordLabeledIssueObservations =>
    obtain ⟨_, -, h⟩ := returns_checked.mp h
    simp only [Tx.returns_bind, Tx.returns_pure] at h
    obtain ⟨_, _, h, -, rfl⟩ := h
    exact moves_of_setRepository h
  case renameRepository => exact moves_of_renameRepository h
  case enqueueSeed => exact moves_of_enqueueSeed h
  case enqueueInactiveRootBatch => exact moves_of_enqueueInactiveRootBatch h
  case enqueueCureRoot => exact moves_of_enqueueCureRoot h
  case enqueueReviewRoot => exact moves_of_enqueueReviewRoot h
  case enqueueProposedRoots => exact moves_of_enqueueProposedRoots h
  case replaceProposedPredecessors => exact moves_of_replaceProposedPredecessors h
  case claim => exact moves_of_claim h
  case heartbeat => exact moves_of_heartbeat h
  case complete => exact moves_of_complete h
  case block => exact moves_of_block h
  case release => exact moves_of_release h
  case approve => exact moves_of_approve h
  all_goals obtain ⟨_, hchecks, h⟩ := returns_checked.mp h
  all_goals refine moves_of_decideOn h fun item updatedAt t hid hrefusal hupdated => ?_
  case defer => exact .defer (not_not.mp (refuseIf_eq_ok.mp hrefusal)) hupdated
  case note => exact .note hupdated
  case prioritize => exact .prioritize hupdated
  case reject => exact .reject (not_not.mp (refuseIf_eq_ok.mp hrefusal)) hupdated
  case requeue =>
    exact .requeue (WorkItem.status_eq_blocked.mp (not_not.mp (refuseIf_eq_ok.mp hrefusal))) hupdated
  case releaseLease =>
    obtain ⟨_, hactor, -⟩ := except_bind_eq_ok.mp hchecks
    exact .releaseLease (WorkItem.status_eq_claimed.mp (not_not.mp (refuseIf_eq_ok.mp hrefusal)))
      hupdated (by rw [hid]) (isOperatorActor_of_validate hactor)
  case cancel =>
    exact .cancel (Or.inr (WorkItem.status_eq_blocked.mp (not_not.mp (refuseIf_eq_ok.mp hrefusal))))
      hupdated
  case retirePullRequestBoundWork =>
    refine .cancel ?_ hupdated
    have hstatus := refuseIf_eq_ok.mp hrefusal
    rw [not_and_or, not_not, not_not, WorkItem.status_eq_blocked] at hstatus
    exact hstatus
  case recordArtifactVerification =>
    obtain ⟨_, hcompleted, -⟩ := except_bind_eq_ok.mp hrefusal
    obtain ⟨_, -, hvalid⟩ := except_bind_eq_ok.mp hchecks
    exact .artifacts (completed_of_assertCompleted hcompleted) (Or.inr (Or.inl rfl)) hupdated
      (.verified (by rw [hid]) hvalid) fun _ _ _ hpayload => by cases hpayload
  case attachArtifact =>
    simp only [except_bind_eq_ok, refuseIf_eq_ok] at hrefusal
    obtain ⟨_, hcompleted, _, hvalid, _, hscope, hnew⟩ := hrefusal
    exact .artifacts (completed_of_assertCompleted hcompleted) (Or.inr (Or.inr rfl)) hupdated
      (.attached (by rw [hid]) hvalid hscope fun artifact hartifact hurl =>
        hnew ⟨artifact, hartifact, hurl⟩) fun _ _ _ hpayload => by cases hpayload
  case recordPullRequestReady =>
    obtain ⟨_, hcompleted, -⟩ := except_bind_eq_ok.mp hrefusal
    exact .artifacts (completed_of_assertCompleted hcompleted) (Or.inl rfl) hupdated
      (.ready (by rw [hid])) fun _ _ _ hpayload => by
        obtain ⟨rfl, rfl, rfl⟩ := EventPayload.artifactReady.inj hpayload
        exact ⟨_, by rw [hid]⟩

/-- **A call takes the tables through moves**, whichever way it ends: one
that throws takes them nowhere. -/
theorem step_moves (op : Op) (w : World) :
    Moves env op w.ticks (op.run env w).2.ticks w.db (op.run env w).2.db := by
  rcases run_cases env op w with ⟨r, hreturns, -⟩ | ⟨e, -, hdb⟩
  · exact moves_of_returns hreturns
  · rw [hdb]

end Snowcat
