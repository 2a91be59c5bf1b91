import Snowcat.Queue.Runs

/-!
# Policy evidence

A store with a policy authority binds every item it creates and every item
it admits. The binding is made by whatever the hook answers at that moment,
and the hook may answer differently ever after, so the row's record is
evidence about a step of the run: the step that wrote it asked the hook, and
what the record says was so then (`AuthorizedBy`). What the record says of
itself – which acts it wants reviewed, and that its authorization covers
them – needs no history (`Evidenced`).

One way in breaks the registry of standing authorizations. It is read as a
property of a plain object, and `constructor` is one of every object: an
admitted root of that kind with nothing allowed passes for covered
(`Op.slipsThroughRegistry`), and its record cites an authorization that no
decision wrote.
-/

namespace Snowcat

variable {env : Env} {op : Op} {lo hi : ℕ} {db db' : Db} {item item' : WorkItem}
  {ps : List Posting} {hook : ℕ → String → Option PolicyAuthority}

/-! ## What a record says of itself -/

/-- **A row carries its policy evidence**: a record of the acts that are
reviewed, all of them allowed; an authorization once it is admitted, which
covers them; and a standing one only where the registry has an entry. -/
structure Evidenced (item : WorkItem) : Prop where
  recorded : item.policy ≠ none
  authorized : item.admitted = true → ∀ record ∈ item.policy, record.authorization ≠ none
  covered : ∀ record ∈ item.policy, ∀ authorization ∈ record.authorization,
    authorization.coveredActions = record.reviewRequired
  reviewed : ∀ record ∈ item.policy, record.reviewRequired ⊆ item.allowedActions
  standing : ∀ record ∈ item.policy, ∀ authorization ∈ record.authorization,
    authorization.kind = .standing → StandingCovers item.kind item.allowedActions

/-- **A call asks for a root that slips through the registry**: a seed, or a
candidate of the feeder. The other paths have kinds of their own, or admit
nothing. -/
def Op.slipsThroughRegistry : Op → Bool
  | .enqueueSeed _ input =>
    decide (SlipsThroughRegistry input.kind input.createdBy input.allowedActions)
  | .enqueueInactiveRootBatch _ candidates _ => candidates.any fun candidate =>
    decide (SlipsThroughRegistry candidate.definition.kind candidate.definition.createdBy
      candidate.definition.allowedActions)
  | _ => false

/-- What was bound for new work is evidence in its row. -/
theorem evidenced_of_binds (hhook : env.policyAuthority = some hook) {work : NewWork}
    {policy : Option PolicyRecord} (hbound : BindsPolicy env work.policySubject lo hi policy)
    (hslip : work.admitted = true →
      ¬ SlipsThroughRegistry work.kind work.createdBy work.allowedActions) :
    Evidenced (work.row policy) := by
  obtain ⟨record, k, rfl, -, -, hpolicy⟩ := hbound.bound hook hhook
  -- an authorization is there for admitted work only
  have hadmitted : ∀ {authorization}, record.authorization = some authorization →
      work.admitted = true := by
    intro authorization hauthorization
    by_contra hproposed
    have hnone := hbound.proposed (Bool.eq_false_iff.mpr hproposed) record rfl
    exact nomatch hnone.symm.trans hauthorization
  refine ⟨Option.some_ne_none record, fun hwork r hr => ?_, fun r hr a ha => ?_, fun r hr => ?_,
    fun r hr a ha hkind => ?_⟩ <;> obtain rfl := Option.some.inj hr
  · obtain ⟨a, ha, -⟩ := hbound.authorized hwork record rfl
    rw [ha]
    exact Option.some_ne_none a
  · obtain ⟨a', ha', hcovered, -⟩ := hbound.authorized (hadmitted ha) record rfl
    obtain rfl := Option.some.inj (ha.symm.trans ha')
    exact hcovered
  · exact hpolicy.subset
  · exact (hbound.standing record rfl a ha hkind).resolve_right (hslip (hadmitted ha))

/-- A born row carries its evidence, unless its call slips through. -/
theorem Birth.evidenced (hhook : env.policyAuthority = some hook)
    (hop : op.slipsThroughRegistry = false) {row : WorkItem} {p : Posting}
    (h : Birth env op lo hi db row p) : Evidenced row := by
  cases h with
  | child guard => exact evidenced_of_binds hhook guard.bound fun hadmitted => nomatch hadmitted
  | @root root id createdAt t policy payload guard hpayload =>
    refine evidenced_of_binds hhook guard.bound fun hadmitted hslips => ?_
    have hasked := guard.asked
    -- a cure or a review has a kind of its own, which no object inherits
    have hkind : root.definition.kind ∈ inheritedProperties := hslips.1
    cases op with
    | enqueueSeed repository input =>
      obtain rfl := hasked
      exact of_decide_eq_false hop hslips
    | enqueueInactiveRootBatch repository candidates cooldownSeconds =>
      obtain ⟨candidate, hcandidate, rfl⟩ := hasked
      exact List.any_eq_false.mp hop candidate hcandidate (decide_eq_true hslips)
    | enqueueCureRoot repository input =>
      obtain rfl := hasked
      rw [guard.kinds.1 (Option.some_ne_none _)] at hkind
      exact absurd hkind (by decide)
    | enqueueReviewRoot repository input =>
      obtain rfl := hasked
      rcases guard.kinds.2 (Option.some_ne_none _) with h | h <;> rw [h] at hkind <;>
        exact absurd hkind (by decide)
    | enqueueProposedRoots repository candidates =>
      obtain ⟨candidate, -, predecessors, rfl⟩ := hasked
      exact nomatch hadmitted
    | _ => exact False.elim hasked

/-- What an approval binds replaces the record there was. -/
theorem policy_of_approve (hhook : env.policyAuthority = some hook)
    {rebound : Option PolicyRecord} (hbound : BindsPolicy env item.policySubject lo hi rebound)
    (actor : String) (t : Time) :
    ∃ record k, rebound = some record ∧ lo ≤ k ∧ k < hi ∧
      PolicyBound hook k item.repository item.allowedActions item.delegableActions record ∧
      ((rebound.map fun record => record.approvedBy actor t) <|> item.policy) =
        some (record.approvedBy actor t) := by
  obtain ⟨record, k, rfl, hlo, hhi, hpolicy⟩ := hbound.bound hook hhook
  exact ⟨record, k, rfl, hlo, hhi, hpolicy, rfl⟩

/-- **Every write keeps the evidence.** -/
theorem RowMove.evidenced (hhook : env.policyAuthority = some hook)
    (hm : RowMove env op lo hi item item' ps) (h : Evidenced item) : Evidenced item' := by
  cases hm with
  | @approve actor precondition rebound notice updatedAt t _ _ _ hpolicy =>
    obtain ⟨record, k, -, -, -, hbound, hwritten⟩ :=
      policy_of_approve hhook hpolicy actor updatedAt
    refine ⟨?_, fun _ r hr => ?_, fun r hr a ha => ?_, fun r hr => ?_, fun r hr a ha hkind => ?_⟩
    · show (_ <|> item.policy) ≠ none
      rw [hwritten]
      exact Option.some_ne_none _
    all_goals obtain rfl := Option.some.inj (hwritten.symm.trans hr)
    · exact Option.some_ne_none _
    · obtain rfl := Option.some.inj ha
      rfl
    · exact hbound.subset
    · obtain rfl := Option.some.inj ha
      exact nomatch hkind
  | defer => exact ⟨h.recorded, nofun, h.covered, h.reviewed, h.standing⟩
  | claim | heartbeat | complete | block | release | note | prioritize | reject | requeue
    | releaseLease | cancel | artifacts | predecessors =>
    exact ⟨h.recorded, h.authorized, h.covered, h.reviewed, h.standing⟩

theorem Evidenced.renamed {source target : String} (h : Evidenced item) :
    Evidenced (item.renamed source target) := by
  unfold WorkItem.renamed
  split
  · exact ⟨h.recorded, h.authorized, h.covered, h.reviewed, h.standing⟩
  · exact h

/-- **Every row carries its evidence**, in every run that does not slip
through the registry. -/
theorem evidenced_exec (hhook : env.policyAuthority = some hook) {ops : List Op}
    (hops : ∀ op ∈ ops, op.slipsThroughRegistry = false) :
    EveryRow (fun item _ => Evidenced item) (exec env ops).db :=
  row_invariant_on (fun hop hbirth => hbirth.evidenced hhook hop)
    (fun _ h hm => hm.evidenced hhook h) Evidenced.renamed hops

/-- Every item has a record, whatever the run. -/
theorem recorded_exec (hhook : env.policyAuthority = some hook) (ops : List Op) :
    EveryRow (fun item _ => item.policy ≠ none) (exec env ops).db := by
  refine row_invariant (fun hbirth => ?_) (fun h hm => ?_) (fun h => ?_) ops
  · cases hbirth with
    | root guard | child guard =>
      obtain ⟨record, k, rfl, -⟩ := guard.bound.bound hook hhook
      exact Option.some_ne_none record
  · cases hm with
    | @approve actor precondition rebound notice updatedAt t _ _ _ hpolicy =>
      obtain ⟨record, k, -, -, -, -, hwritten⟩ := policy_of_approve hhook hpolicy actor updatedAt
      exact fun hnone => nomatch hwritten.symm.trans hnone
    | _ => exact h
  · unfold WorkItem.renamed
    split <;> exact h

/-! ## The moment of an authorization -/

/-- **A record was bound between two ticks**: the hook answered for this
repository, what it answered permits the actions, and the authorization is
dated then. -/
def BoundBetween (env : Env) (hook : ℕ → String → Option PolicyAuthority) (lo hi : ℕ)
    (repository : String) (item : WorkItem) (record : PolicyRecord)
    (authorization : PolicyAuthorization) : Prop :=
  (∃ k, lo ≤ k ∧ k < hi ∧
    PolicyBound hook k repository item.allowedActions item.delegableActions record) ∧
  Reading env lo hi authorization.atTime

/-- What a call may do to the policy of a row. -/
inductive PolicyStep (env : Env) (hook : ℕ → String → Option PolicyAuthority) (op : Op) (lo hi : ℕ)
    (db : Db) (item' : WorkItem) : Prop
  /-- It is the one of before. -/
  | keeps {item : WorkItem} (hitem : db.items.find? item'.id = some item)
      (hpolicy : item'.policy = item.policy)
      (hactions : item'.allowedActions = item.allowedActions ∧
        item'.delegableActions = item.delegableActions)
      (hadmitted : item'.admitted = true → item.admitted = true)
  /-- It was bound, for the repository the row is in. -/
  | binds (hop : ∀ source target actor, op ≠ .renameRepository source target actor)
      (hasked : ∃ k, lo ≤ k ∧ k < hi ∧ hook k item'.repository ≠ none)
      (hbound : ∀ record ∈ item'.policy, ∀ authorization ∈ record.authorization,
        BoundBetween env hook lo hi item'.repository item' record authorization)

/-- A binding of new work, read off its row. -/
theorem PolicyStep.of_binds (hhook : env.policyAuthority = some hook) {work : NewWork}
    {policy : Option PolicyRecord} (hbound : BindsPolicy env work.policySubject lo hi policy)
    (hop : ∀ source target actor, op ≠ .renameRepository source target actor) :
    PolicyStep env hook op lo hi db (work.row policy) := by
  obtain ⟨record, k, rfl, hlo, hhi, hpolicy⟩ := hbound.bound hook hhook
  have hasked : hook k work.repository ≠ none := by
    obtain ⟨authority, hauthority, -⟩ := hpolicy
    rw [show hook k work.repository = some authority from hauthority]
    exact Option.some_ne_none authority
  refine .binds hop ⟨k, hlo, hhi, hasked⟩ fun r hr a ha => ?_
  obtain rfl := Option.some.inj hr
  refine ⟨⟨k, hlo, hhi, hpolicy⟩, ?_⟩
  by_cases hadmitted : work.admitted = true
  · obtain ⟨a', ha', -, hdated⟩ := hbound.authorized hadmitted record rfl
    obtain rfl := Option.some.inj (ha.symm.trans ha')
    exact hdated
  · exact nomatch (hbound.proposed (Bool.eq_false_iff.mpr hadmitted) record rfl).symm.trans ha

theorem Birth.policyStep (hhook : env.policyAuthority = some hook) {row : WorkItem} {p : Posting}
    (h : Birth env op lo hi db row p) : PolicyStep env hook op lo hi db' row := by
  cases h with
  | root guard =>
    refine .of_binds hhook guard.bound ?_
    rintro _ _ _ rfl
    exact False.elim guard.asked
  | child guard =>
    refine .of_binds hhook guard.bound ?_
    rintro _ _ _ rfl
    obtain ⟨input, hop, -⟩ := guard.completing
    exact nomatch hop

/-- A write binds the policy of its row when it approves, and keeps it
otherwise. -/
theorem RowMove.policyStep (hhook : env.policyAuthority = some hook)
    (hm : RowMove env op lo hi item item' ps)
    (h : PolicyStep env hook op lo hi db item) : PolicyStep env hook op lo hi db item' := by
  have hkept (hid : item'.id = item.id) (hpolicy : item'.policy = item.policy)
      (hactions : item'.allowedActions = item.allowedActions ∧
        item'.delegableActions = item.delegableActions)
      (hrepository : item'.repository = item.repository)
      (hadmitted : item'.admitted = true → item.admitted = true) :
      PolicyStep env hook op lo hi db item' := by
    cases h with
    | @keeps before hbefore hpolicy' hactions' hadmitted' =>
      exact .keeps (hid ▸ hbefore) (hpolicy.trans hpolicy')
        ⟨hactions.1.trans hactions'.1, hactions.2.trans hactions'.2⟩
        fun ha => hadmitted' (hadmitted ha)
    | binds hop hasked hbound =>
      refine .binds hop (by rw [hrepository]; exact hasked) fun r hr a ha => ?_
      unfold BoundBetween
      rw [hrepository, hactions.1, hactions.2]
      exact hbound r (hpolicy ▸ hr) a ha
  cases hm with
  | @approve actor precondition rebound notice updatedAt t hop _ _ hpolicy hupdated =>
    obtain ⟨record, k, -, hlo, hhi, hbound, hwritten⟩ :=
      policy_of_approve hhook hpolicy actor updatedAt
    refine .binds (fun _ _ _ h => nomatch hop.symm.trans h) ⟨k, hlo, hhi, ?_⟩ fun r hr a ha => ?_
    · obtain ⟨authority, hauthority, -⟩ := hbound
      rw [show hook k item.repository = some authority from hauthority]
      exact Option.some_ne_none authority
    · obtain rfl := Option.some.inj (hwritten.symm.trans hr)
      obtain rfl := Option.some.inj ha
      exact ⟨⟨k, hlo, hhi, hbound⟩, hupdated⟩
  | defer => exact hkept rfl rfl ⟨rfl, rfl⟩ rfl nofun
  | claim | heartbeat | complete | block | release | note | prioritize | reject | requeue
    | releaseLease | cancel | artifacts | predecessors => exact hkept rfl rfl ⟨rfl, rfl⟩ rfl id

/-- **A call binds the policy of a row or keeps it.** -/
theorem Moves.policyStep (hhook : env.policyAuthority = some hook)
    (h : Moves env op lo hi db db') (hitem' : db'.items.find? item'.id = some item') :
    PolicyStep env hook op lo hi db item' := by
  induction h generalizing item' with
  | refl => exact .keeps hitem' rfl ⟨rfl, rfl⟩ id
  | tail _ hlast ih =>
    cases hlast.rowStep item'.id with
    | stays hrow _ => exact ih (hrow.symm.trans hitem')
    | @written item _ _ hitem hwritten hmove _ =>
      obtain rfl := Option.some.inj (hwritten.symm.trans hitem')
      rw [hmove.id_eq] at hitem
      exact hmove.policyStep hhook (ih hitem)
    | born _ hrow hbirth _ =>
      obtain rfl := Option.some.inj (hrow.symm.trans hitem')
      exact hbirth.policyStep hhook
    | @renamed source target actor hop hrow _ =>
      rw [hitem'] at hrow
      obtain ⟨item, hitem, rfl⟩ := Option.map_eq_some_iff.mp hrow.symm
      rw [WorkItem.id_renamed] at hitem
      cases ih hitem with
      | keeps hbefore hpolicy hactions hadmitted =>
        unfold WorkItem.renamed
        split <;> exact .keeps hbefore hpolicy hactions hadmitted
      | binds hnot => exact absurd hop (hnot source target actor)

/-- **A step of the run authorized an item**: the item had the record behind
the step, and the step bound it – to what the hook answered during the step
for the repository the item was in, which permits what the item may do. -/
def AuthorizedBy (env : Env) (hook : ℕ → String → Option PolicyAuthority)
    (e : Machine.Entry World Op Outcome) (item : WorkItem) (record : PolicyRecord)
    (authorization : PolicyAuthorization) : Prop :=
  ∃ row, e.next.db.items.find? item.id = some row ∧ row.policy = some record ∧
    BoundBetween env hook e.before.ticks e.next.ticks row.repository item record authorization

/-- **Every authorization was given by a step of the run.** -/
theorem authorizedBy_exec (hhook : env.policyAuthority = some hook) (ops : List Op) :
    ∀ item ∈ (exec env ops).db.items.rows, ∀ record ∈ item.policy,
      ∀ authorization ∈ record.authorization,
        ∃ e ∈ steps env ops, AuthorizedBy env hook e item record authorization := by
  refine (queue env).history (P := fun trace w => ∀ item ∈ w.db.items.rows,
    ∀ record ∈ item.policy, ∀ authorization ∈ record.authorization,
      ∃ e ∈ trace, AuthorizedBy env hook e item record authorization)
    (fun _ h => nomatch h) ?_ ops
  intro is op ih item' hitem' record hrecord authorization hauthorization
  have hfind := Table.find?_key hitem'
  cases (step_moves op ((queue env).run is)).policyStep hhook hfind with
  | @keeps item hitem hpolicy hactions _ =>
    obtain ⟨e, he, row, hrow, hrecorded, hbound⟩ :=
      ih item (Table.mem_of_find? hitem) record (hpolicy ▸ hrecord) authorization hauthorization
    rw [Table.key_of_find? hitem] at hrow
    refine ⟨e, List.mem_append_left _ he, row, hrow, hrecorded, ?_⟩
    unfold BoundBetween at hbound ⊢
    rwa [hactions.1, hactions.2]
  | binds _ _ hbound =>
    exact ⟨_, List.mem_append_right _ (List.mem_singleton_self _), item', hfind, hrecord,
      hbound record hrecord authorization hauthorization⟩

/-! ## An authority that does not answer -/

/-- The hook answered for a repository at some tick in between. -/
def Asked (hook : ℕ → String → Option PolicyAuthority) (lo hi : ℕ) (repository : String) : Prop :=
  ∃ k, lo ≤ k ∧ k < hi ∧ hook k repository ≠ none

theorem Asked.mono {lo' hi' : ℕ} {repository : String} (h : Asked hook lo hi repository)
    (hlo : lo' ≤ lo) (hhi : hi ≤ hi') : Asked hook lo' hi' repository :=
  h.imp fun _ hk => ⟨le_trans hlo hk.1, lt_of_lt_of_le hk.2.1 hhi, hk.2.2⟩

/-- What is bound was asked for. -/
theorem BindsPolicy.asked (hhook : env.policyAuthority = some hook) {subject : PolicySubject}
    {record? : Option PolicyRecord} (h : BindsPolicy env subject lo hi record?) :
    Asked hook lo hi subject.repository := by
  obtain ⟨record, k, -, hlo, hhi, authority, hauthority, -⟩ := h.bound hook hhook
  refine ⟨k, hlo, hhi, ?_⟩
  rw [hauthority]
  exact Option.some_ne_none authority

/-- **The repository a call defines or admits work in.** A completion defines
work when it has follow-ups. -/
def Op.definesIn (db : Db) : Op → Option String
  | .enqueueSeed repository _ => some repository
  | .enqueueInactiveRootBatch repository _ _ => some repository
  | .enqueueCureRoot repository _ => some repository
  | .enqueueReviewRoot repository _ => some repository
  | .enqueueProposedRoots repository _ => some repository
  | .complete input =>
    if input.followUps = [] then none
    else (db.items.find? input.id).map WorkItem.repository
  | .approve id _ _ => (db.items.find? id).map WorkItem.repository
  | _ => none

section Asking

variable {w w' : World} {repository : String}

theorem asked_of_createRoot (hhook : env.policyAuthority = some hook) {root : RootWork}
    {payload : EventPayload} (h : (createRoot env root payload).Returns w item w') :
    Asked hook w.ticks w'.ticks root.repository := by
  obtain ⟨_, _, _, _, _, -, -, -, -, hbound, -⟩ := createRoot_spec h
  exact hbound.asked hhook

/-- A round of the feeder's loop creates a root, and asks, or leaves the
tables. -/
theorem asked_of_inactiveRootLoop (hhook : env.policyAuthority = some hook)
    {noFinding : List (String × NoFinding)} {activeKinds : List String}
    {candidates : List (BatchCandidate × ℤ)} {result : BatchResult}
    (h : (inactiveRootLoop env repository noFinding activeKinds candidates).Returns w result w') :
    w'.db = w.db ∨ Asked hook w.ticks w'.ticks repository := by
  induction candidates generalizing activeKinds w result with
  | nil =>
    obtain ⟨-, rfl⟩ := Tx.returns_pure.mp h
    exact Or.inl rfl
  | cons c rest ih =>
    obtain ⟨candidate, cooldown⟩ := c
    simp only [inactiveRootLoop, Tx.returns_bind, Tx.returns_ofExcept] at h
    obtain ⟨_, w₁, ⟨-, rfl⟩, _, w₂, ⟨-, rfl⟩, h⟩ := h
    split at h
    · simp only [Tx.returns_bind, Tx.returns_pure] at h
      obtain ⟨_, _, hloop, -, rfl⟩ := h
      exact ih hloop
    · simp only [Tx.returns_bind] at h
      obtain ⟨cooling, w₃, hcooling, h⟩ := h
      have hticks := ticks_le_of_returns hcooling
      rw [← db_of_isCooling hcooling]
      split at h
      · simp only [Tx.returns_bind, Tx.returns_pure] at h
        obtain ⟨_, _, hloop, -, rfl⟩ := h
        exact (ih hloop).imp_right fun hasked => hasked.mono hticks le_rfl
      · simp only [Tx.returns_bind, Tx.returns_pure] at h
        obtain ⟨item, w₄, hroot, _, _, hloop, -, rfl⟩ := h
        exact Or.inr ((asked_of_createRoot hhook hroot).mono hticks (ticks_le_of_returns hloop))

theorem asked_of_proposedRootLoop (hhook : env.policyAuthority = some hook)
    {seen : List String} {candidates : List ProposedRootInput} {result : ImportResult}
    (h : (proposedRootLoop env repository seen candidates).Returns w result w') :
    w'.db = w.db ∨ Asked hook w.ticks w'.ticks repository := by
  induction candidates generalizing seen w result with
  | nil =>
    obtain ⟨-, rfl⟩ := Tx.returns_pure.mp h
    exact Or.inl rfl
  | cons candidate rest ih =>
    simp only [proposedRootLoop, Tx.returns_bind, Tx.returns_ofExcept, Tx.returns_read] at h
    obtain ⟨_, w₁, ⟨-, rfl⟩, _, w₂, ⟨-, rfl⟩, _, w₃, ⟨-, rfl⟩, _, w₄, ⟨rfl, rfl⟩, h⟩ := h
    split at h
    · simp only [Tx.returns_bind, Tx.returns_pure] at h
      obtain ⟨_, _, hloop, -, rfl⟩ := h
      exact ih hloop
    · simp only [Tx.returns_bind, Tx.returns_pure] at h
      obtain ⟨item, w₅, hroot, _, _, hloop, -, rfl⟩ := h
      exact Or.inr ((asked_of_createRoot hhook hroot).mono le_rfl (ticks_le_of_returns hloop))

/-- A completion with follow-ups asks for the first of them. -/
theorem asked_of_proposeFollowUps (hhook : env.policyAuthority = some hook) {parent : WorkItem}
    {worker : String} {createdAt : Time} {proposals : List FollowUpProposalInput}
    {children : List WorkItem} (hsome : proposals ≠ [])
    (h : (Tx.each (proposeFollowUp env parent worker createdAt) proposals).Returns w children w') :
    Asked hook w.ticks w'.ticks parent.repository := by
  obtain ⟨proposal, rest, rfl⟩ := List.exists_cons_of_ne_nil hsome
  obtain ⟨child, w₁, hround, _, hloop, -⟩ := Tx.returns_each_cons.mp h
  have hticks := ticks_le_of_returns hloop
  simp only [proposeFollowUp, Tx.returns_bind, Tx.returns_ofExcept, returns_randomUUID,
    returns_addEvent, returns_getRequired] at hround
  obtain ⟨followUp, w, ⟨-, rfl⟩, _, _, ⟨rfl, rfl⟩, _, w₂, hinsert, _, _, rfl, -, rfl⟩ := hround
  obtain ⟨policy, -, -, -, hbound, -⟩ := insertWork_spec hinsert
  refine (hbound.asked hhook).mono (Nat.le_succ _) (le_trans (Nat.le_succ _) hticks)

/-- A cure or a review is created once: a call finds it, or creates it. -/
theorem asked_of_onceRoot (hhook : env.policyAuthority = some hook) {known : Prop} [Decidable known]
    {root : RootWork} {payload : EventPayload} {reply : Option WorkItem}
    (h : (if known then pure none else do
      let item ← createRoot env root payload
      pure (some item) : QueueTx (Option WorkItem)).Returns w reply w') :
    w'.db = w.db ∨ Asked hook w.ticks w'.ticks root.repository := by
  split at h
  · obtain ⟨-, rfl⟩ := Tx.returns_pure.mp h
    exact Or.inl rfl
  · simp only [Tx.returns_bind, Tx.returns_pure] at h
    obtain ⟨item, _, hroot, -, rfl⟩ := h
    exact Or.inr (asked_of_createRoot hhook hroot)

theorem asked_of_complete (hhook : env.policyAuthority = some hook) {input : CompletionInput}
    {completion : Completion} (h : (complete env input).Returns w completion w')
    (hdefines : (Op.complete input).definesIn w.db = some repository) :
    w'.db = w.db ∨ Asked hook w.ticks w'.ticks repository := by
  simp only [complete, returns_checked, Tx.returns_bind, returns_assertActiveLease,
    Tx.returns_ofExcept, returns_now, returns_updateItem, returns_addEvent, returns_getRequired,
    Tx.returns_pure] at h
  obtain ⟨_, -, parent, _, ⟨hlease, rfl⟩, _, w₁, hmay, _, w₂, ⟨-, rfl⟩, _, w₃, ⟨-, rfl⟩, verdict, w₄,
    hverdict, _, _, ⟨rfl, rfl⟩, children, w₅, hchildren, _, _, rfl, _, _, rfl, _, _, hreview, _, _,
    ⟨-, rfl⟩, -, rfl⟩ := h
  obtain ⟨rfl, -⟩ := returns_assertMayFollowUp hmay
  have hticks₄ := ticks_le_of_returns hverdict
  have hticks₆ := ticks_le_of_returns hreview
  simp only [Op.definesIn] at hdefines
  split at hdefines
  · cases hdefines
  · next hsome =>
    rw [hlease.stored] at hdefines
    obtain rfl := Option.some.inj hdefines
    refine Or.inr ((asked_of_proposeFollowUps hhook hsome hchildren).mono ?_ ?_)
    all_goals
      dsimp only at hticks₄ hticks₆ ⊢
      omega

theorem asked_of_approve (hhook : env.policyAuthority = some hook) {id actor : String}
    {precondition : Option MutationPrecondition}
    (h : (approve env id actor precondition).Returns w item w')
    (hdefines : (Op.approve id actor precondition).definesIn w.db = some repository) :
    Asked hook w.ticks w'.ticks repository := by
  simp only [approve, returns_checked, Tx.returns_bind, Tx.returns_ofExcept, Tx.returns_failIf,
    Tx.returns_read, returns_now, returns_updateItem, returns_addEvent, returns_getRequired] at h
  obtain ⟨_, -, item, w, ⟨hitem, rfl⟩, _, w, ⟨-, rfl⟩, _, w, ⟨-, rfl⟩, _, w, ⟨rfl, rfl⟩,
    _, w, ⟨-, rfl⟩, _, _, ⟨rfl, rfl⟩, rebound, w₁, hpolicy, _, _, rfl, _, _, rfl, -, rfl⟩ := h
  obtain ⟨-, -, hbound⟩ := bindPolicy_spec hpolicy
  simp only [Op.definesIn] at hdefines
  rw [hitem] at hdefines
  obtain rfl := Option.some.inj hdefines
  exact (hbound.asked hhook).mono (Nat.le_succ _) (Nat.le_succ _)

/-- **A call that defines or admits work asked for its repository**, or left
the tables as they were. -/
theorem asked_of_returns (hhook : env.policyAuthority = some hook) {r : Reply}
    (h : (op.run env).Returns w r w') (hdefines : op.definesIn w.db = some repository) :
    w'.db = w.db ∨ Asked hook w.ticks w'.ticks repository := by
  cases op with
  | enqueueSeed _ input =>
    obtain ⟨_, hcall, -⟩ := returns_reply.mp h
    obtain rfl := Option.some.inj hdefines
    simp only [enqueueSeed, returns_checked, Tx.returns_bind] at hcall
    obtain ⟨_, -, _, _, henabled, hroot⟩ := hcall
    obtain rfl := returns_assertRepositoryEnabled henabled
    exact Or.inr (asked_of_createRoot hhook hroot)
  | enqueueInactiveRootBatch _ candidates cooldownSeconds =>
    obtain ⟨_, hcall, -⟩ := returns_reply.mp h
    obtain rfl := Option.some.inj hdefines
    obtain ⟨_, _, hloop⟩ := enqueueInactiveRootBatch_spec hcall
    exact asked_of_inactiveRootLoop hhook hloop
  | enqueueCureRoot _ input =>
    obtain ⟨_, hcall, -⟩ := returns_reply.mp h
    obtain rfl := Option.some.inj hdefines
    simp only [enqueueCureRoot, returns_checked, Tx.returns_bind, Tx.returns_read] at hcall
    obtain ⟨_, -, _, _, henabled, _, w, ⟨rfl, rfl⟩, hcreate⟩ := hcall
    obtain rfl := returns_assertRepositoryEnabled henabled
    exact asked_of_onceRoot hhook hcreate
  | enqueueReviewRoot _ input =>
    obtain ⟨_, hcall, -⟩ := returns_reply.mp h
    obtain rfl := Option.some.inj hdefines
    simp only [enqueueReviewRoot, returns_checked, Tx.returns_bind, Tx.returns_read] at hcall
    obtain ⟨_, -, _, _, henabled, _, w, ⟨rfl, rfl⟩, hcreate⟩ := hcall
    obtain rfl := returns_assertRepositoryEnabled henabled
    exact asked_of_onceRoot hhook hcreate
  | enqueueProposedRoots _ candidates =>
    obtain ⟨_, hcall, -⟩ := returns_reply.mp h
    obtain rfl := Option.some.inj hdefines
    simp only [enqueueProposedRoots, returns_checked, Tx.returns_bind] at hcall
    obtain ⟨_, -, _, _, henabled, hloop⟩ := hcall
    obtain rfl := returns_assertRepositoryEnabled henabled
    exact asked_of_proposedRootLoop hhook hloop
  | complete input =>
    obtain ⟨_, hcall, -⟩ := returns_reply.mp h
    exact asked_of_complete hhook hcall hdefines
  | approve id actor precondition =>
    obtain ⟨_, hcall, -⟩ := returns_reply.mp h
    exact Or.inr (asked_of_approve hhook hcall hdefines)
  | _ => cases hdefines

end Asking

/-! ## The evidence of a run -/

/-- **Policy evidence covers a run**: every item of it carries its evidence;
every authorization was given by a step; and a call during which the
authority does not answer for a repository neither creates nor admits an item
there, and changes nothing when it is the one that defines or admits. -/
structure PolicyEvidence (env : Env) (hook : ℕ → String → Option PolicyAuthority) (ops : List Op) :
    Prop where
  evidenced : ∀ item ∈ (exec env ops).db.items.rows, Evidenced item
  authorized : ∀ item ∈ (exec env ops).db.items.rows, ∀ record ∈ item.policy,
    ∀ authorization ∈ record.authorization,
      ∃ e ∈ steps env ops, AuthorizedBy env hook e item record authorization
  answered : ∀ e ∈ steps env ops, ∀ item ∈ e.next.db.items.rows,
    (∀ before ∈ e.before.db.items.find? item.id,
      before.admitted = false ∧ item.admitted = true) →
    Asked hook e.before.ticks e.next.ticks item.repository
  unchanged : ∀ e ∈ steps env ops, ∀ repository,
    e.input.definesIn e.before.db = some repository →
    ¬ Asked hook e.before.ticks e.next.ticks repository → e.next.db = e.before.db

/-- **Policy evidence covers every claimable item**, in every run of a store
with a policy authority in which no call slips through the registry. -/
theorem policy_evidence (env : Env) (hook : ℕ → String → Option PolicyAuthority)
    (hhook : env.policyAuthority = some hook) (ops : List Op)
    (hops : ∀ op ∈ ops, op.slipsThroughRegistry = false) : PolicyEvidence env hook ops where
  evidenced := fun item hitem => evidenced_exec hhook hops item hitem
  authorized := authorizedBy_exec hhook ops
  answered := by
    intro e he item hitem hnew
    cases (moves_of_mem_steps he).policyStep hhook (Table.find?_key hitem) with
    | keeps hbefore _ _ hadmitted =>
      obtain ⟨hproposed, hthen⟩ := hnew _ hbefore
      exact absurd (hadmitted hthen) (Bool.eq_false_iff.mp hproposed)
    | binds _ hasked _ => exact hasked
  unchanged := by
    intro e he repository hdefines hsilent
    have hnext := next_of_mem_steps he
    rcases run_cases env e.input e.before with ⟨r, hreturns, -⟩ | ⟨_, -, hdb⟩ <;>
      rw [← hnext] at *
    · exact (asked_of_returns hhook hreturns hdefines).resolve_right hsilent
    · exact hdb

/-- An authority that permits reading and follow-ups, each after a review. -/
def PolicyAuthority.sample : PolicyAuthority where
  coreSnapshotId := "s"
  repositoryCommitId := none
  actionCeiling := [.read, .createFollowup]
  defaultDecision := .reviewRequired
  actionDecisions _ := none
  protectedBoundaries := []

/-- The small environment with a policy authority. -/
def Env.governed : Env :=
  { Env.sample with policyAuthority := some fun _ _ => some .sample }

/-- In the small run the item is admitted, with the evidence for it. -/
theorem policy_evidence_sample : PolicyEvidence Env.governed (fun _ _ => some .sample) sampleRun :=
  policy_evidence Env.governed _ rfl sampleRun (by decide)

/-- A seed whose kind every object has a property of. -/
def slippedRun : List Op :=
  [.setRepositoryEnabled "a/b" true,
    .enqueueSeed "a/b"
      { WorkDefinition.sample with
        kind := "constructor"
        allowedActions := []
        delegableActions := []
        createdBy := "policy:feeder" }]

/-- It is admitted, and cites a standing authorization for a kind that the
registry does not list. -/
theorem not_policyEvidence_slipped :
    ¬ PolicyEvidence Env.governed (fun _ _ => some .sample) slippedRun := by
  intro h
  have hslipped : ∃ item ∈ (exec Env.governed slippedRun).db.items.rows, item.kind = "constructor" ∧
      item.policy.bind (fun record => record.authorization.map (·.kind)) = some .standing := by
    decide +kernel
  obtain ⟨item, hitem, hkind, hstanding⟩ := hslipped
  obtain ⟨record, hrecord, hauthorization⟩ := Option.bind_eq_some_iff.mp hstanding
  obtain ⟨authorization, hauthorization, hcited⟩ := Option.map_eq_some_iff.mp hauthorization
  obtain ⟨entry, hentry, -⟩ :=
    (h.evidenced item hitem).standing record hrecord authorization hauthorization hcited
  rw [hkind] at hentry
  simp [standingAuthorizations] at hentry

end Snowcat
