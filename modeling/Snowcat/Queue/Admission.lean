import Snowcat.Queue.Lifecycle

/-!
# Admission

Admission is a flag of the row and not one of its statuses: it is granted,
withdrawn and granted again, and it survives everything else that happens to
the item. What makes it evidence is the ledger. The flag is what the last
event about admission left (`AdmissionRecorded`), a claim finds it set, and
so a claim has an approval behind every event that left it unset: the
creation of a child or a proposed root, and each deferral.
-/

namespace Snowcat

open Sessions (endsOpen)

variable {env : Env} {op : Op} {lo hi : ℕ} {db db' : Db} {item item' : WorkItem}
  {ps hist : List Posting}

/-- Whether an event is about admission: the creation of the item, its
approval or its deferral. -/
def EventType.isAdmission : EventType → Bool
  | .workQueued => true
  | .workProposed => true
  | .workApproved => true
  | .workDeferred => true
  | _ => false

/-- Whether a posting is about admission. -/
def Posting.isAdmission (p : Posting) : Bool := p.payload.type.isAdmission

/-- Whether a posting admits its item: it was created admitted, or an actor
that decides about work approved it. -/
def Posting.admits (p : Posting) : Bool :=
  p.payload.type = .workQueued || (p.payload.type = .workApproved && isOperatorActor p.actor)

/-- **A history clears its item** when the last event about admission
admits. -/
def Cleared (hist : List Posting) : Prop :=
  endsOpen Posting.admits (hist.filter Posting.isAdmission) = true

/-- An approval that is behind everything else about admission clears, and a
deferral there does not. -/
theorem cleared_concat {p : Posting} (h : p.isAdmission = true) :
    Cleared (hist ++ [p]) ↔ p.admits = true := by
  have hlast : [p].filter Posting.isAdmission = [p] := by
    rw [List.filter_singleton, h]
    rfl
  rw [Cleared, List.filter_append, hlast, Sessions.endsOpen_concat]

/-- Events that are not about admission change nothing. -/
theorem cleared_append (h : ps.filter Posting.isAdmission = []) :
    Cleared (hist ++ ps) ↔ Cleared hist := by
  rw [Cleared, List.filter_append, h, List.append_nil, Cleared]

/-! ## What a write does to the flag -/

/-- **What a write does to the admission of its row**: nothing, and then a
claim it records found the row admitted; or what its one event says. -/
inductive AdmissionEffect (item item' : WorkItem) (ps : List Posting) : Prop
  | keeps (hnone : ps.filter Posting.isAdmission = []) (hflag : item'.admitted = item.admitted)
      (hclaims : ∀ p ∈ ps, p.payload.type = .workClaimed → item.admitted = true)
  | decides {p : Posting} (hposted : ps = [p])
      (htype : p.payload.type = .workApproved ∨ p.payload.type = .workDeferred)
      (hflag : item'.admitted = p.admits)

/-- A claim is recorded by claiming, of an admitted row. -/
theorem RowMove.of_claimed (hm : RowMove env op lo hi item item' ps) {p : Posting} (hp : p ∈ ps)
    (htype : p.payload.type = .workClaimed) :
    (∃ input, op = .claim input) ∧ item.admitted = true := by
  have heffect := hm.leaseEffect
  have hmem : p ∈ leasePostings ps := List.mem_filter.mpr ⟨hp, by rw [htype]; rfl⟩
  have hopens : p.opensLease = true := decide_eq_true htype
  generalize leasePostings ps = posted at heffect hmem
  cases heffect with
  | keeps => exact nomatch hmem
  | ends _ hends =>
    obtain rfl := List.mem_singleton.mp hmem
    exact absurd hopens (by rw [opensLease_of_endsLease hends]; exact Bool.false_ne_true)
  | begins hop _ _ _ _ hadmitted => exact ⟨⟨_, hop⟩, hadmitted⟩

/-- **Every write has its effect on the admission.** -/
theorem RowMove.admissionEffect (hm : RowMove env op lo hi item item' ps) :
    AdmissionEffect item item' ps := by
  have hkept (hnone : ps.filter Posting.isAdmission = [])
      (hflag : item'.admitted = item.admitted) : AdmissionEffect item item' ps :=
    .keeps hnone hflag fun p hp htype => (hm.of_claimed hp htype).2
  cases hm with
  | approve _ hactor =>
    refine .decides rfl (Or.inl rfl) ?_
    show true = (false || (true && isOperatorActor _))
    rw [hactor]
    rfl
  | defer => exact .decides rfl (Or.inr rfl) rfl
  | claim =>
    refine hkept ?_ rfl
    unfold expiryPostings
    split <;> rfl
  | complete _ _ hreviewed =>
    refine hkept ?_ rfl
    refine List.filter_eq_nil_iff.mpr fun p hp => ?_
    show ¬ p.payload.type.isAdmission = true
    rcases List.mem_cons.mp hp with rfl | hp
    · exact Bool.false_ne_true
    · rw [hreviewed p hp]
      exact Bool.false_ne_true
  | @artifacts actor f payload updatedAt t _ hpayload =>
    refine hkept ?_ rfl
    have hnot : payload.type.isAdmission = false := by
      rcases hpayload with hp | hp | hp <;> rw [hp] <;> rfl
    rw [List.filter_singleton, show Posting.isAdmission ⟨actor, payload, t⟩ = false from hnot]
    rfl
  | heartbeat | block | release | note | prioritize | reject | requeue | releaseLease | cancel
    | predecessors => exact hkept rfl rfl

/-- Only an approval turns the flag on. -/
theorem RowMove.admitted_of_ne_approve (hop : ∀ id actor precondition, op ≠ .approve id actor precondition)
    (hm : RowMove env op lo hi item item' ps) (h : item'.admitted = true) :
    item.admitted = true := by
  cases hm with
  | approve hop' => exact absurd hop' (hop _ _ _)
  | defer => exact nomatch h
  | claim | heartbeat | complete | block | release | note | prioritize | reject | requeue
    | releaseLease | cancel | artifacts | predecessors => exact h

/-! ## The flag and the ledger -/

/-- **The ledger tells the admission.** The flag is what the last event about
admission left, every claim found it set, and only the first event of an item
says that it was created admitted. -/
structure AdmissionRecorded (item : WorkItem) (hist : List Posting) : Prop where
  admitted : item.admitted = true ↔ Cleared hist
  claims : ∀ before p after, hist = before ++ p :: after → p.payload.type = .workClaimed →
    Cleared before
  created : ∃ first rest, hist = first :: rest ∧ ∀ p ∈ rest, p.payload.type ≠ .workQueued

theorem AdmissionRecorded.write (h : AdmissionRecorded item hist)
    (hm : RowMove env op lo hi item item' ps) : AdmissionRecorded item' (hist ++ ps) := by
  obtain ⟨hadmitted, hclaims, first, rest, rfl, hrest⟩ := h
  -- a claim of the old history is followed by more of it, one of the new postings by none
  have hsplit {before after : List Posting} {p : Posting}
      (heq : (first :: rest) ++ ps = before ++ p :: after) :
      (∃ older, first :: rest = before ++ p :: older) ∨
        ∃ newer, before = (first :: rest) ++ newer ∧ ps = newer ++ p :: after := by
    rcases List.append_eq_append_iff.mp heq with ⟨newer, hbefore, hps⟩ | ⟨older, hold, hnew⟩
    · exact Or.inr ⟨newer, hbefore, hps⟩
    · cases older with
      | nil => exact Or.inr ⟨[], by rw [hold, List.append_nil, List.append_nil], hnew.symm⟩
      | cons q older =>
        obtain ⟨rfl, -⟩ := List.cons.inj hnew
        exact Or.inl ⟨older, hold⟩
  cases hm.admissionEffect with
  | keeps hnone hflag hfound =>
    refine ⟨by rw [hflag, hadmitted, cleared_append hnone], fun before p after heq htype => ?_,
      first, rest ++ ps, rfl, fun p hp => ?_⟩
    · rcases hsplit heq with ⟨older, hold⟩ | ⟨newer, rfl, hps⟩
      · exact hclaims before p older hold htype
      · have hnewer : newer.filter Posting.isAdmission = [] := by
          rw [hps, List.filter_append] at hnone
          exact (List.append_eq_nil_iff.mp hnone).1
        rw [cleared_append hnewer, ← hadmitted]
        exact hfound p (by rw [hps]; exact List.mem_append_right _ List.mem_cons_self) htype
    · rcases List.mem_append.mp hp with hp | hp
      · exact hrest p hp
      · intro htype
        refine List.filter_eq_nil_iff.mp hnone p hp ?_
        rw [Posting.isAdmission, htype]
        rfl
  | @decides q hposted htype hflag =>
    subst hposted
    have habout : q.isAdmission = true := by
      rcases htype with h | h <;> rw [Posting.isAdmission, h] <;> rfl
    refine ⟨by rw [hflag, cleared_concat habout], fun before p after heq hclaimed => ?_,
      first, rest ++ [q], rfl, fun p hp => ?_⟩
    · rcases hsplit heq with ⟨older, hold⟩ | ⟨newer, rfl, hps⟩
      · exact hclaims before p older hold hclaimed
      · have hp : p ∈ [q] := by
          rw [hps]
          exact List.mem_append_right _ List.mem_cons_self
        rw [List.mem_singleton.mp hp] at hclaimed
        rcases htype with h | h <;> exact nomatch h.symm.trans hclaimed
    · rcases List.mem_append.mp hp with hp | hp
      · exact hrest p hp
      · rw [List.mem_singleton.mp hp]
        rcases htype with h | h <;> rw [h] <;> exact nofun

/-- A born row's first event says whether it is admitted. -/
theorem Birth.admissionRecorded {row : WorkItem} {p : Posting}
    (h : Birth env op lo hi db row p) : AdmissionRecorded row [p] := by
  have hcreated : ∃ first rest, [p] = first :: rest ∧ ∀ q ∈ rest, q.payload.type ≠ .workQueued :=
    ⟨p, [], rfl, fun _ hq => nomatch hq⟩
  have hproposed : p.isAdmission = true ∧ p.payload.type ≠ .workClaimed ∧
      (row.admitted = true ↔ p.admits = true) := by
    cases h with
    | @root root id createdAt t policy payload guard hpayload =>
      show payload.type.isAdmission = true ∧ payload.type ≠ .workClaimed ∧
        (root.admitted = true ↔ (payload.type = .workQueued || (payload.type = .workApproved &&
          isOperatorActor root.definition.createdBy)) = true)
      rw [hpayload]
      cases root.admitted <;> simp [EventType.isAdmission]
    | child => exact ⟨rfl, nofun, iff_of_false nofun nofun⟩
  obtain ⟨habout, hclaimed, hadmits⟩ := hproposed
  refine ⟨?_, fun before q after heq htype => ?_, hcreated⟩
  · rw [hadmits]
    exact (show Cleared ([] ++ [p]) ↔ _ from cleared_concat habout).symm
  · have hq : q ∈ [p] := by
      rw [heq]
      exact List.mem_append_right _ List.mem_cons_self
    exact absurd (List.mem_singleton.mp hq ▸ htype) hclaimed

theorem admitted_renamed {source target : String} :
    (item.renamed source target).admitted = item.admitted := by
  unfold WorkItem.renamed
  split <;> rfl

/-- **In every reachable state the ledger tells the admission.** -/
theorem admissionRecorded_exec (ops : List Op) : EveryRow AdmissionRecorded (exec env ops).db :=
  row_invariant Birth.admissionRecorded (fun h hm => h.write hm)
    (fun h => ⟨by rw [admitted_renamed]; exact h.admitted, h.claims, h.created⟩) ops

/-! ## Approvals -/

/-- **An approval**: somebody who decides about work admitted the item. -/
def WorkEvent.IsApproval (e : WorkEvent) : Prop :=
  e.type = .workApproved ∧ isOperatorActor e.actor = true

/-- What clears an item that was not cleared is an approval among the events
in between. -/
theorem exists_approval {front back behind : List WorkEvent}
    (hcreated : ∃ first rest, (front ++ back ++ behind).map WorkEvent.posting = first :: rest ∧
      ∀ p ∈ rest, p.payload.type ≠ .workQueued)
    (hfront : front ≠ []) (hbefore : ¬ Cleared (front.map WorkEvent.posting))
    (hafter : Cleared ((front ++ back).map WorkEvent.posting)) :
    ∃ approval ∈ back, approval.IsApproval := by
  rw [List.map_append] at hafter
  obtain ⟨p, hp, -, hadmits⟩ := Sessions.exists_opens_of_append hbefore hafter
  obtain ⟨approval, happroval, rfl⟩ := List.mem_map.mp hp
  refine ⟨approval, happroval, ?_⟩
  -- an event behind others is not the one that created the item
  have hqueued : approval.type ≠ .workQueued := by
    obtain ⟨first, rest, heq, hrest⟩ := hcreated
    obtain ⟨e, front, rfl⟩ := List.exists_cons_of_ne_nil hfront
    rw [List.cons_append, List.cons_append, List.map_cons, List.cons.injEq] at heq
    refine hrest approval.posting ?_
    rw [← heq.2]
    exact List.mem_map_of_mem (List.mem_append_left _ (List.mem_append_right _ happroval))
  have hsplit : approval.type = .workQueued ∨
      approval.type = .workApproved ∧ isOperatorActor approval.actor = true := by
    rw [Posting.admits, Bool.or_eq_true, Bool.and_eq_true, decide_eq_true_iff,
      decide_eq_true_iff] at hadmits
    exact hadmits
  exact hsplit.resolve_left hqueued

/-! ## Creation -/

/-- **A step creates an item unadmitted**: no row had its id before, and the
row it left is not admitted. -/
def CreatesUnadmitted (e : Machine.Entry World Op Outcome) (id : String) : Prop :=
  e.before.db.items.find? id = none ∧ ∃ row ∈ e.next.db.items.find? id, row.admitted = false

instance (e : Machine.Entry World Op Outcome) (id : String) : Decidable (CreatesUnadmitted e id) :=
  inferInstanceAs (Decidable (_ ∧ _))

/-- A call that creates an item is not a claim. -/
theorem Birth.op_ne_claim {row : WorkItem} {p : Posting} (h : Birth env op lo hi db row p)
    (input : ClaimInput) : op ≠ .claim input := by
  rintro rfl
  cases h with
  | root guard => exact guard.asked
  | child guard =>
    obtain ⟨completion, hop, -⟩ := guard.completing
    exact nomatch hop

/-- An item is not claimed by the call that created it. -/
theorem Moves.not_claimed_of_created {id : String} (h : Moves env op lo hi db db')
    (hrecorded : Recorded db) (hfresh : db.items.find? id = none)
    (hcreated : db'.items.find? id ≠ none) :
    ∀ p ∈ db'.ledger.history id, p.payload.type ≠ .workClaimed := by
  have hstep : (db'.items.find? id = none ∧ db'.ledger.history id = []) ∨
      ((∀ input, op ≠ .claim input) ∧
        ∀ p ∈ db'.ledger.history id, p.payload.type ≠ .workClaimed) := by
    clear hcreated
    induction h with
    | refl => exact Or.inl ⟨hfresh, recorded_iff.mp hrecorded id hfresh⟩
    | tail _ hlast ih =>
      cases hlast.rowStep id with
      | stays hrow hledger =>
        rw [hrow, hledger.history, List.append_nil]
        exact ih
      | renamed _ hrow hledger =>
        rw [hrow, hledger.history, List.append_nil, Option.map_eq_none_iff]
        exact ih
      | written hitem _ hmove hledger =>
        rcases ih with ⟨hnone, -⟩ | ⟨hop, hhist⟩
        · exact nomatch hitem.symm.trans hnone
        · refine Or.inr ⟨hop, fun p hp htype => ?_⟩
          rw [hledger.history] at hp
          rcases List.mem_append.mp hp with hp | hp
          · exact hhist p hp htype
          · obtain ⟨input, hinput⟩ := (hmove.of_claimed hp htype).1
            exact hop input hinput
      | @born row posting hnone _ hbirth hledger =>
        have hnil : ∀ {db₁ : Db}, ((db₁.items.find? id = none ∧ db₁.ledger.history id = []) ∨
            ((∀ input, op ≠ .claim input) ∧
              ∀ p ∈ db₁.ledger.history id, p.payload.type ≠ .workClaimed)) →
            ∀ p ∈ db₁.ledger.history id, p.payload.type ≠ .workClaimed := by
          rintro db₁ (⟨-, hnil⟩ | ⟨-, hhist⟩)
          · exact fun p hp => nomatch hnil ▸ hp
          · exact hhist
        refine Or.inr ⟨hbirth.op_ne_claim, fun p hp htype => ?_⟩
        rw [hledger.history] at hp
        rcases List.mem_append.mp hp with hp | hp
        · exact hnil ih p hp htype
        · obtain rfl := List.mem_singleton.mp hp
          cases hbirth with
          | @root root _ _ _ _ payload _ hpayload =>
            rw [show payload.type = _ from hpayload] at htype
            split at htype <;> exact nomatch htype
          | child => exact nomatch htype
  exact hstep.elim (fun h => absurd h.1 hcreated) And.right

/-! ## Workers -/

/-- The calls of a worker. -/
def Op.isWorker : Op → Bool
  | .claim _ => true
  | .heartbeat .. => true
  | .complete _ => true
  | .block .. => true
  | .release .. => true
  | _ => false

/-- **A worker admits nothing**: what is admitted behind its call was there
and admitted before. -/
theorem Moves.admitted_of_isWorker (hop : op.isWorker = true) (h : Moves env op lo hi db db')
    {id : String} (hitem' : db'.items.find? id = some item') (hadmitted : item'.admitted = true) :
    ∃ item, db.items.find? id = some item ∧ item.admitted = true := by
  induction h generalizing item' with
  | refl => exact ⟨item', hitem', hadmitted⟩
  | tail _ hlast ih =>
    cases hlast.rowStep id with
    | stays hrow _ => exact ih (hrow.symm.trans hitem') hadmitted
    | written hitem hwritten hmove _ =>
      obtain rfl := Option.some.inj (hwritten.symm.trans hitem')
      refine ih hitem (hmove.admitted_of_ne_approve ?_ hadmitted)
      rintro _ _ _ rfl
      exact nomatch hop
    | born _ hrow hbirth _ =>
      obtain rfl := Option.some.inj (hrow.symm.trans hitem')
      cases hbirth with
      | root guard =>
        have hasked := guard.asked
        cases op with
        | claim | heartbeat | complete | block | release => exact False.elim hasked
        | _ => exact nomatch hop
      | child => exact nomatch hadmitted
    | renamed hrename _ _ =>
      subst hrename
      exact nomatch hop

/-! ## No work runs without admission -/

/-- Every claim of a run found its item cleared. -/
theorem cleared_of_claimed {ops : List Op} {id : String} {claimed : WorkEvent}
    {before after : List WorkEvent}
    (hof : (exec env ops).db.ledger.of id = before ++ claimed :: after)
    (htype : claimed.type = .workClaimed) :
    ∃ item, AdmissionRecorded item ((exec env ops).db.ledger.history id) ∧
      Cleared (before.map WorkEvent.posting) := by
  have hhist : (exec env ops).db.ledger.history id =
      before.map WorkEvent.posting ++ claimed.posting :: after.map WorkEvent.posting := by
    rw [Ledger.history, hof, List.map_append, List.map_cons]
  cases hitem : (exec env ops).db.items.find? id with
  | none =>
    have hnil := recorded_iff.mp (exec_invariant recorded_empty (fun h hm => h.move hm) ops) id hitem
    rw [hhist] at hnil
    exact absurd hnil (by simp)
  | some item =>
    have h := admissionRecorded_exec ops item (Table.mem_of_find? hitem)
    rw [Table.key_of_find? hitem] at h
    exact ⟨item, h, h.claims _ _ _ hhist htype⟩

/-- **An approval lies between** two points of a run, by the numbers the
ledger gave the events around it. -/
def ApprovedBetween (db : Db) (id : String) (after before : ℕ) : Prop :=
  ∃ approval ∈ db.ledger.of id, approval.IsApproval ∧ after < approval.sequence ∧
    approval.sequence < before

/-- Where an item was not cleared, an approval lies between that and a
claim. -/
theorem approvedBetween_of_not_cleared {ops : List Op} {id : String} {claimed : WorkEvent} {n : ℕ}
    (front between behind : List WorkEvent)
    (hof : (exec env ops).db.ledger.of id = front ++ between ++ claimed :: behind)
    (htype : claimed.type = .workClaimed) (hfront : front ≠ [])
    (hnot : ¬ Cleared (front.map WorkEvent.posting)) (hn : ∀ e ∈ between, n < e.sequence) :
    ApprovedBetween (exec env ops).db id n claimed.sequence := by
  obtain ⟨item, hrecorded, hcleared⟩ := cleared_of_claimed hof htype
  have hcreated := hrecorded.created
  rw [Ledger.history, hof] at hcreated
  obtain ⟨approval, hmem, happroval⟩ := exists_approval hcreated hfront hnot hcleared
  refine ⟨approval, ?_, happroval, hn approval hmem, ?_⟩
  · rw [hof]
    exact List.mem_append_left _ (List.mem_append_right _ hmem)
  · have hpairwise := (exec env ops).db.ledger.pairwise_of id
    rw [hof, List.pairwise_append] at hpairwise
    exact hpairwise.2.2 _ (List.mem_append_right _ hmem) _ List.mem_cons_self

/-- An approval lies behind the step that created the item unadmitted. -/
theorem approvedBetween_of_creates {ops : List Op} {e : Machine.Entry World Op Outcome}
    (he : e ∈ steps env ops) {id : String} {claimed : WorkEvent}
    (hclaimed : claimed ∈ (exec env ops).db.ledger.of id) (htype : claimed.type = .workClaimed)
    (hcreates : CreatesUnadmitted e id) :
    ApprovedBetween (exec env ops).db id e.next.db.ledger.events.length claimed.sequence := by
  obtain ⟨pre, post, hops, hentry⟩ := mem_steps he
  obtain ⟨hfresh, row, hrow, hunadmitted⟩ := hcreates
  have hnext : e.next = exec env (pre ++ [e.input]) := by
    rw [exec_concat, hentry]
    rfl
  have hbefore : e.before = exec env pre := by
    rw [hentry]
    rfl
  -- the item as the step left it is not cleared, and not claimed yet
  have hthen := @admissionRecorded_exec env (pre ++ [e.input]) row
    (Table.mem_of_find? (hnext ▸ hrow))
  rw [Table.key_of_find? hrow, ← hnext] at hthen
  have hunclaimed := (step_moves e.input (exec env pre)).not_claimed_of_created
    (exec_invariant recorded_empty (fun h hm => h.move hm) pre) (hbefore ▸ hfresh)
    (by rw [← exec_concat, ← hnext, hrow]; exact Option.some_ne_none row)
  rw [← exec_concat, ← hnext] at hunclaimed
  have hprefix : e.next.db.ledger.events <+: (exec env ops).db.ledger.events := by
    have hsplit : ops = (pre ++ [e.input]) ++ post := by
      rw [hops, List.append_assoc, List.singleton_append]
    rw [hnext, hsplit]
    exact prefix_events_exec _ _
  obtain ⟨new, hnew, hlater⟩ := Ledger.exists_of_append hprefix id
  have hmem : claimed ∈ new := by
    rw [hnew] at hclaimed
    refine (List.mem_append.mp hclaimed).resolve_left fun hold => ?_
    exact hunclaimed _ (List.mem_map_of_mem hold) htype
  obtain ⟨between, behind, rfl⟩ := List.append_of_mem hmem
  refine approvedBetween_of_not_cleared (e.next.db.ledger.of id) between behind
    (by rw [hnew, List.append_assoc]) htype ?_ ?_ fun f hf => hlater f (List.mem_append_left _ hf)
  · intro hnil
    obtain ⟨first, rest, hhist, -⟩ := hthen.created
    rw [Ledger.history, hnil] at hhist
    cases hhist
  · intro hcleared
    rw [hthen.admitted.mpr hcleared] at hunadmitted
    cases hunadmitted

/-- An approval lies behind every deferral. -/
theorem approvedBetween_of_deferred {ops : List Op} {id : String} {deferred claimed : WorkEvent}
    (hdeferred : deferred ∈ (exec env ops).db.ledger.of id)
    (hdeferral : deferred.type = .workDeferred)
    (hclaimed : claimed ∈ (exec env ops).db.ledger.of id) (htype : claimed.type = .workClaimed)
    (hlt : deferred.sequence < claimed.sequence) :
    ApprovedBetween (exec env ops).db id deferred.sequence claimed.sequence := by
  obtain ⟨before, behind, hof⟩ := List.append_of_mem hclaimed
  have hpairwise := (exec env ops).db.ledger.pairwise_of id
  rw [hof, List.pairwise_append, List.pairwise_cons] at hpairwise
  obtain ⟨hordered, ⟨hbehind, -⟩, -⟩ := hpairwise
  have hmem : deferred ∈ before := by
    rw [hof] at hdeferred
    refine (List.mem_append.mp hdeferred).resolve_right fun h => ?_
    rcases List.mem_cons.mp h with rfl | h
    · exact lt_irrefl _ hlt
    · exact lt_asymm hlt (hbehind deferred h)
  obtain ⟨earlier, between, rfl⟩ := List.append_of_mem hmem
  rw [List.pairwise_append, List.pairwise_cons] at hordered
  refine approvedBetween_of_not_cleared (earlier ++ [deferred]) between behind
    (by rw [hof, List.append_cons earlier]) htype
    (List.append_ne_nil_of_right_ne_nil _ (List.cons_ne_nil _ _)) ?_ hordered.2.1.1
  have htype' : deferred.posting.payload.type = .workDeferred := hdeferral
  rw [List.map_append, List.map_singleton, cleared_concat (by
    rw [Posting.isAdmission, htype']
    rfl), Posting.admits, htype']
  exact Bool.false_ne_true

/-- **No work runs without admission.** Behind the step that created an item
unadmitted, and behind each of its deferrals, an actor who decides about
work approved it before it was claimed; and no call of a worker leaves
anything admitted that was not. -/
theorem admission_before_claim (env : Env) (ops : List Op) :
    (∀ (id : String) (claimed : WorkEvent), claimed ∈ (exec env ops).db.ledger.of id →
      claimed.type = .workClaimed →
      (∀ e ∈ steps env ops, CreatesUnadmitted e id →
        ApprovedBetween (exec env ops).db id e.next.db.ledger.events.length claimed.sequence) ∧
      (∀ deferred ∈ (exec env ops).db.ledger.of id, deferred.type = .workDeferred →
        deferred.sequence < claimed.sequence →
        ApprovedBetween (exec env ops).db id deferred.sequence claimed.sequence)) ∧
    (∀ (op : Op) (w : World) (id : String) (item' : WorkItem), op.isWorker = true →
      (op.run env w).2.db.items.find? id = some item' → item'.admitted = true →
      ∃ item, w.db.items.find? id = some item ∧ item.admitted = true) :=
  ⟨fun _ _ hclaimed htype =>
      ⟨fun _ he hcreates => approvedBetween_of_creates he hclaimed htype hcreates,
        fun _ hdeferred hdeferral hlt =>
          approvedBetween_of_deferred hdeferred hdeferral hclaimed htype hlt⟩,
    fun op w _ _ hop hitem' hadmitted => (step_moves op w).admitted_of_isWorker hop hitem' hadmitted⟩

/-- A root is imported, approved, deferred, approved again and claimed. -/
def sampleAdmission : List Op :=
  [.setRepositoryEnabled "a/b" true, .enqueueProposedRoots "a/b" [⟨.sample, "issue-1"⟩],
    .approve "uu" "operator:o" none, .defer "uu" "operator:o" "not now" none,
    .approve "uu" "member:m" none, .claim { worker := "w" }]

/-- In that run an approval lies behind the import and behind the deferral,
and what is admitted after one more claim was admitted before it. -/
theorem admission_before_claim_sample :
    ApprovedBetween (exec Env.sample sampleAdmission).db "uu" 1 5 ∧
      ApprovedBetween (exec Env.sample sampleAdmission).db "uu" 3 5 ∧
      ∃ item, (exec Env.sample sampleAdmission).db.items.find? "uu" = some item ∧
        item.admitted = true := by
  obtain ⟨hclaims, hworkers⟩ := admission_before_claim Env.sample sampleAdmission
  obtain ⟨claimed, hclaimed, htype, hsequence⟩ :
      ∃ claimed ∈ (exec Env.sample sampleAdmission).db.ledger.of "uu",
        claimed.type = .workClaimed ∧ claimed.sequence = 5 := by
    decide +kernel
  obtain ⟨e, he, hcreates, hlength⟩ : ∃ e ∈ steps Env.sample sampleAdmission,
      CreatesUnadmitted e "uu" ∧ e.next.db.ledger.events.length = 1 := by
    decide +kernel
  obtain ⟨deferred, hdeferred, hdeferral, hbefore⟩ :
      ∃ deferred ∈ (exec Env.sample sampleAdmission).db.ledger.of "uu",
        deferred.type = .workDeferred ∧ deferred.sequence = 3 := by
    decide +kernel
  obtain ⟨item', hitem', hadmitted⟩ :
      ∃ item' ∈ ((Op.claim { worker := "w" }).run Env.sample
        (exec Env.sample sampleAdmission)).2.db.items.find? "uu", item'.admitted = true := by
    decide +kernel
  obtain ⟨hcreation, hdeferrals⟩ := hclaims "uu" claimed hclaimed htype
  refine ⟨?_, ?_, hworkers _ _ "uu" item' rfl hitem' hadmitted⟩
  · have h := hcreation e he hcreates
    rwa [hlength, hsequence] at h
  · have h := hdeferrals deferred hdeferred hdeferral (by rw [hbefore, hsequence]; decide)
    rwa [hbefore, hsequence] at h

end Snowcat
