import Snowcat.Queue.Definition

/-!
# What an operator may do

The decisions of an `operator:`, `policy:` or `member:` principal about an
item. They differ in the status they ask for, the columns they write and
the event they leave; everything else is `decideOn`, the one transaction
they all run – read the item, compare what the caller observed, refuse or
write, record. Only admission has a transaction of its own, since it binds
the policy before it writes.
-/

namespace Snowcat

/-- `assertPrecondition`. -/
def assertPrecondition (item : WorkItem) (precondition : Option MutationPrecondition) :
    Except QueueError Unit :=
  refuseSome (fun observed =>
    refuseIf (item.status ≠ observed.status ∨ item.updatedAt ≠ observed.updatedAt)
      (.preconditionMismatch item.id item.status item.updatedAt)) precondition

/-- An item an operator's note is appended to. -/
def WorkItem.withNote (row : WorkItem) (atTime : Time) (actor : String)
    (action : OperatorNoteAction) (reason : String) : WorkItem :=
  { row with operatorNotes := row.operatorNotes ++ [⟨atTime, actor, action, reason⟩] }

/-- An item whose lease columns are cleared. -/
def WorkItem.withoutLease (row : WorkItem) : WorkItem :=
  { row with leaseOwner := none, leaseToken := none, leaseExpiresAt := none }

/-- The ceiling an item's parent set for it: none for a root, or when the
parent is gone. -/
def delegableActionsOf (db : Db) (id : Option String) : Option (List AllowedAction) :=
  id.bind fun id => (db.items.find? id).map WorkItem.delegableActions

/-- **The contract admission checks**: the stored row with its parent's
ceiling. -/
def WorkItem.admissionContract (item : WorkItem) (db : Db) : ContractItem :=
  { item.contract with parentDelegableActions := delegableActionsOf db item.parentId }

/-- The checks of a decision that carries a note. -/
def validateNoted (actor purpose reason name : String) : Except QueueError Unit := do
  let _ ← validateOperatorActor actor purpose
  validateOperatorNoteReason reason name

/-- The checks of a decision that carries a reason. -/
def validateReasoned (actor purpose reason message : String) : Except QueueError Unit := do
  let _ ← validateOperatorActor actor purpose
  validateReason reason message

section Decisions

variable (env : Env)

/-- **The transaction of a decision**: the item as it is, what the caller
observed, the refusals that read the item, the write and its event. -/
def decideOn (id actor : String) (precondition : Option MutationPrecondition)
    (refusal : WorkItem → Except QueueError Unit) (write : Time → WorkItem → WorkItem)
    (hwrite : ∀ t item, (write t item).id = item.id) (payload : WorkItem → EventPayload) :
    QueueTx WorkItem := do
  let item ← getRequired id
  Tx.ofExcept (assertPrecondition item precondition)
  Tx.ofExcept (refusal item)
  let updatedAt ← now env
  updateItem id (write updatedAt) (hwrite updatedAt)
  addEvent env id actor (payload item)
  getRequired id

/-- **`approve`.** -/
def approve (id actor : String) (precondition : Option MutationPrecondition) :
    QueueTx WorkItem :=
  checked (validateOperatorActor actor "approval") fun _ => do
    let item ← getRequired id
    Tx.ofExcept (assertPrecondition item precondition)
    Tx.failIf (item.status ≠ .proposed) (.error s!"work item is not proposed: {id}")
    let db ← Tx.read World.db
    Tx.ofExcept (refuseSome
      (fun problem => .error (.error s!"work item {id} cannot be admitted: {problem.message} ({problem.code.text}); reject it and re-propose"))
      (contractProblem (item.admissionContract db)))
    let updatedAt ← now env
    let rebound ← bindPolicy env
      { repository := item.repository
        kind := item.kind
        allowedActions := item.allowedActions
        delegableActions := item.delegableActions
        createdBy := item.createdBy
        admitted := false }
    let policyUpdate := rebound.map fun record : PolicyRecord =>
      { record with
        authorization :=
          some ⟨.operator, some actor, none, none, record.reviewRequired, updatedAt⟩ }
    updateItem id
      (fun row => { row with admitted := true, policy := policyUpdate <|> row.policy, updatedAt })
      (fun _ => rfl)
    addEvent env id actor
      (.workApproved (policyUpdate.map fun record : PolicyRecord =>
        ⟨record.coreSnapshotId, record.repositoryCommitId, record.reviewRequired⟩))
    getRequired id

/-- `defer`. -/
def defer (id actor reason : String) (precondition : Option MutationPrecondition) :
    QueueTx WorkItem :=
  checked (validateNoted actor "deferral" reason "deferral reason") fun _ =>
    decideOn env id actor precondition
      (fun item => refuseIf (item.status ≠ .queued)
        (.error s!"work item is not queued and admitted: {id}"))
      (fun updatedAt row =>
        { row.withNote updatedAt actor .defer reason with
          admitted := false
          updatedAt })
      (fun _ _ => rfl) (fun _ => .workDeferred reason)

/-- `note`. -/
def note (id actor reason : String) (precondition : Option MutationPrecondition) :
    QueueTx WorkItem :=
  checked (validateNoted actor "note" reason "note text") fun _ =>
    decideOn env id actor precondition (fun _ => pure ())
      (fun updatedAt row => { row.withNote updatedAt actor .note reason with updatedAt })
      (fun _ _ => rfl) (fun _ => .workNoted reason)

/-- `prioritize`. -/
def prioritize (id actor : String) (priority : JsNumber) (reason : String)
    (precondition : Option MutationPrecondition) : QueueTx WorkItem :=
  checked
    (do
      let _ ← validateOperatorActor actor "prioritize"
      refuseIf (priority.isSafeInteger = false) (.error "priority must be a safe integer")
      validateOperatorNoteReason reason "prioritize reason")
    fun _ =>
      decideOn env id actor precondition
        (fun item => refuseIf
          (item.status ≠ .proposed ∧ item.status ≠ .queued ∧ item.status ≠ .blocked)
          (.error s!"work item is not proposed, queued, or blocked: {id}"))
        (fun updatedAt row =>
          { row.withNote updatedAt actor .prioritize reason with
            priority := priority.toInt
            updatedAt })
        (fun _ _ => rfl) (fun item => .workPrioritized item.priority priority.toInt reason)

/-- `reject`. -/
def reject (id actor reason : String) (precondition : Option MutationPrecondition) :
    QueueTx WorkItem :=
  checked (validateReasoned actor "rejection" reason "rejection reason is required") fun _ =>
    decideOn env id actor precondition
      (fun item => refuseIf (item.status ≠ .proposed)
        (.error s!"work item is not proposed: {id}"))
      (fun updatedAt row =>
        { row with
          rowStatus := .cancelled
          result := some (.ofReason reason)
          updatedAt })
      (fun _ _ => rfl) (fun _ => .workRejected reason)

/-- `requeue`. -/
def requeue (id actor reason : String) (precondition : Option MutationPrecondition) :
    QueueTx WorkItem :=
  checked (validateNoted actor "requeue" reason "requeue reason") fun _ =>
    decideOn env id actor precondition
      (fun item => refuseIf (item.status ≠ .blocked) (.error s!"work item is not blocked: {id}"))
      (fun updatedAt row =>
        { (row.withNote updatedAt actor .requeue reason).withoutLease with
          rowStatus := .queued
          result := none
          previousResults := row.previousResults ++ row.result.toList
          updatedAt })
      (fun _ _ => rfl) (fun _ => .workRequeued reason)

/-- `releaseLease`. -/
def releaseLease (id actor reason : String) (precondition : Option MutationPrecondition) :
    QueueTx WorkItem :=
  checked (validateNoted actor "lease release" reason "lease release reason") fun _ =>
    decideOn env id actor precondition
      (fun item => refuseIf (item.status ≠ .claimed) (.error s!"work item is not claimed: {id}"))
      (fun updatedAt row =>
        { (row.withNote updatedAt actor .releaseLease reason).withoutLease with
          rowStatus := .queued
          updatedAt })
      (fun _ _ => rfl)
      (fun item => .leaseReleased reason item.leaseOwner item.leaseExpiresAt)

/-- The columns of a cancelled item. -/
def WorkItem.cancelledFor (row : WorkItem) (reason : String) (updatedAt : Time) : WorkItem :=
  { row.withoutLease with
    rowStatus := .cancelled
    result := some (.ofReason reason)
    updatedAt }

/-- `cancel`. -/
def cancel (id actor reason : String) (precondition : Option MutationPrecondition) :
    QueueTx WorkItem :=
  checked (validateReasoned actor "cancellation" reason "cancellation reason is required")
    fun _ =>
      decideOn env id actor precondition
        (fun item => refuseIf (item.status ≠ .blocked)
          (.error s!"work item is not blocked: {id}"))
        (fun updatedAt row => row.cancelledFor reason updatedAt)
        (fun _ _ => rfl) (fun _ => .workCancelled reason)

/-- `retirePullRequestBoundWork`. It carries no precondition. -/
def retirePullRequestBoundWork (id actor reason : String) : QueueTx WorkItem :=
  checked (validateReasoned actor "retirement" reason "retirement reason is required") fun _ =>
    decideOn env id actor none
      (fun item => refuseIf (item.status ≠ .queued ∧ item.status ≠ .blocked)
        (.error s!"work item is not queued or blocked: {id}"))
      (fun updatedAt row => row.cancelledFor reason updatedAt)
      (fun _ _ => rfl) (fun _ => .workCancelled reason)

end Decisions

/-- **What a decision that returns has done**: the item it found met the
precondition and was not refused, and the row and the ledger are written
with one reading of the clock each. -/
theorem decideOn_spec {env : Env} {id actor : String}
    {precondition : Option MutationPrecondition} {refusal : WorkItem → Except QueueError Unit}
    {write : Time → WorkItem → WorkItem} {hwrite : ∀ t item, (write t item).id = item.id}
    {payload : WorkItem → EventPayload} {w w' : World} {reply : WorkItem}
    (h : (decideOn env id actor precondition refusal write hwrite payload).Returns w reply w') :
    ∃ item, w.db.items.find? id = some item ∧ assertPrecondition item precondition = .ok () ∧
      refusal item = .ok () ∧ reply = write (env.clock w.ticks) item ∧
      w' = ⟨{ w.db with
        items := w.db.items.modify id (write (env.clock w.ticks)) (hwrite _)
        ledger := w.db.ledger.post id ⟨actor, payload item, env.clock (w.ticks + 1)⟩ },
        w.ticks + 2⟩ := by
  simp only [decideOn, Tx.returns_bind, returns_getRequired, Tx.returns_ofExcept, returns_now,
    returns_updateItem, returns_addEvent] at h
  obtain ⟨item, _, ⟨hitem, rfl⟩, _, _, ⟨hprecondition, rfl⟩, _, _, ⟨hrefusal, rfl⟩, _, _,
    ⟨rfl, rfl⟩, _, _, rfl, _, _, rfl, hreply, rfl⟩ := h
  refine ⟨item, hitem, hprecondition, hrefusal, ?_, rfl⟩
  exact Option.some.inj
    (hreply.symm.trans (@Table.find?_modify_self _ _ _ _ _ _ _ (hwrite _) _ hitem))

/-- A decision that nothing refuses is made. -/
theorem returns_decideOn {env : Env} {id actor : String}
    {refusal : WorkItem → Except QueueError Unit} {write : Time → WorkItem → WorkItem}
    {hwrite : ∀ t item, (write t item).id = item.id} {payload : WorkItem → EventPayload}
    {w : World} {item : WorkItem} (hitem : w.db.items.find? id = some item)
    (hrefusal : refusal item = .ok ()) :
    (decideOn env id actor none refusal write hwrite payload).Returns w
      (write (env.clock w.ticks) item)
      ⟨{ w.db with
        items := w.db.items.modify id (write (env.clock w.ticks)) (hwrite _)
        ledger := w.db.ledger.post id ⟨actor, payload item, env.clock (w.ticks + 1)⟩ },
        w.ticks + 2⟩ := by
  simp only [decideOn, Tx.returns_bind, returns_getRequired, Tx.returns_ofExcept, returns_now,
    returns_updateItem, returns_addEvent]
  exact ⟨item, _, ⟨hitem, rfl⟩, (), _, ⟨rfl, rfl⟩, (), _, ⟨hrefusal, rfl⟩, _, _, ⟨rfl, rfl⟩, (), _,
    rfl, (), _, rfl, @Table.find?_modify_self _ _ _ _ _ _ _ (hwrite _) _ hitem, rfl⟩

end Snowcat
