import Snowcat.Lib.Machine
import Snowcat.Queue.Artifact
import Snowcat.Queue.Claim
import Snowcat.Queue.Repository
import Snowcat.Queue.Worker

/-!
# The queue as a machine

One input of the machine is one call of the store by anybody – a worker,
an operator, a feeder, an import – with its arguments; one step is its
transaction. Calls are serialized by the write lock, so every interleaving
of any number of callers is a list of calls. The environment is fixed for a
run and answers by tick, which makes a run a function of it: what holds
for every environment holds however the clock, the random tokens and the
hooks answer.
-/

namespace Snowcat

/-- **A call of the store** that may write. -/
inductive Op where
  | setRepositoryEnabled (repository : String) (enabled : Bool)
  | setRepositoryCureForeign (repository : String) (enabled : Bool)
  | setRepositoryReviewGate (repository : String) (enabled : Bool)
  | recordUnreportedPullRequests (repository : String)
      (observation : UnreportedPullRequestObservation) (actor : String)
  | recordLabeledIssueObservations (repository : String) (issues : List LabeledIssueInput)
      (actor : String)
  | renameRepository (source target actor : String)
  | enqueueSeed (repository : String) (input : WorkDefinition)
  | enqueueInactiveRootBatch (repository : String) (candidates : List BatchCandidate)
      (cooldownSeconds : Option JsNumber)
  | enqueueCureRoot (repository : String) (input : CureRootInput)
  | enqueueReviewRoot (repository : String) (input : ReviewRootInput)
  | enqueueProposedRoots (repository : String) (candidates : List ProposedRootInput)
  | replaceProposedPredecessors (id : String) (predecessors : List String) (actor : String)
  | claim (input : ClaimInput)
  | heartbeat (id leaseToken worker : String) (leaseSeconds : Option JsNumber)
  | complete (input : CompletionInput)
  | block (id leaseToken worker reason : String)
  | release (id leaseToken worker reason : String)
  | approve (id actor : String) (precondition : Option MutationPrecondition)
  | defer (id actor reason : String) (precondition : Option MutationPrecondition)
  | note (id actor reason : String) (precondition : Option MutationPrecondition)
  | prioritize (id actor : String) (priority : JsNumber) (reason : String)
      (precondition : Option MutationPrecondition)
  | reject (id actor reason : String) (precondition : Option MutationPrecondition)
  | requeue (id actor reason : String) (precondition : Option MutationPrecondition)
  | releaseLease (id actor reason : String) (precondition : Option MutationPrecondition)
  | cancel (id actor reason : String) (precondition : Option MutationPrecondition)
  | retirePullRequestBoundWork (id actor reason : String)
  | recordArtifactVerification (id url : String) (verification : ArtifactVerification)
      (actor : String)
  | attachArtifact (id actor : String) (attached : AttachedArtifact)
      (precondition : Option MutationPrecondition)
  | recordPullRequestReady (id url actor headSha reviewItemId : String)

/-- What a call returns. -/
inductive Reply where
  | done
  | item (item : WorkItem)
  | found (item : Option WorkItem)
  | completion (completion : Completion)
  | batch (result : BatchResult)
  | imported (result : ImportResult)
  | renamed (result : RenameResult)
  | observations (observations : LabeledIssueObservations)
  deriving DecidableEq, Repr

/-- Run a computation for its reply. -/
def reply {α : Type} (f : α → Reply) (x : QueueTx α) : QueueTx Reply := do
  let a ← x
  pure (f a)

section Run

variable (env : Env)

/-- **The computation a call runs.** -/
def Op.run : Op → QueueTx Reply
  | .setRepositoryEnabled repository enabled =>
    reply (fun _ => .done) (Snowcat.setRepositoryEnabled env repository enabled)
  | .setRepositoryCureForeign repository enabled =>
    reply (fun _ => .done) (Snowcat.setRepositoryCureForeign env repository enabled)
  | .setRepositoryReviewGate repository enabled =>
    reply (fun _ => .done) (Snowcat.setRepositoryReviewGate env repository enabled)
  | .recordUnreportedPullRequests repository observation actor =>
    reply (fun _ => .done)
      (Snowcat.recordUnreportedPullRequests env repository observation actor)
  | .recordLabeledIssueObservations repository issues actor =>
    reply .observations (Snowcat.recordLabeledIssueObservations env repository issues actor)
  | .renameRepository source target actor =>
    reply .renamed (Snowcat.renameRepository env source target actor)
  | .enqueueSeed repository input => reply .item (Snowcat.enqueueSeed env repository input)
  | .enqueueInactiveRootBatch repository candidates cooldownSeconds =>
    reply .batch (Snowcat.enqueueInactiveRootBatch env repository candidates cooldownSeconds)
  | .enqueueCureRoot repository input =>
    reply .found (Snowcat.enqueueCureRoot env repository input)
  | .enqueueReviewRoot repository input =>
    reply .found (Snowcat.enqueueReviewRoot env repository input)
  | .enqueueProposedRoots repository candidates =>
    reply .imported (Snowcat.enqueueProposedRoots env repository candidates)
  | .replaceProposedPredecessors id predecessors actor =>
    reply .item (Snowcat.replaceProposedPredecessors env id predecessors actor)
  | .claim input => reply .found (Snowcat.claim env input)
  | .heartbeat id leaseToken worker leaseSeconds =>
    reply .item (Snowcat.heartbeat env id leaseToken worker leaseSeconds)
  | .complete input => reply .completion (Snowcat.complete env input)
  | .block id leaseToken worker reason =>
    reply .item (Snowcat.block env id leaseToken worker reason)
  | .release id leaseToken worker reason =>
    reply .item (Snowcat.release env id leaseToken worker reason)
  | .approve id actor precondition => reply .item (Snowcat.approve env id actor precondition)
  | .defer id actor reason precondition =>
    reply .item (Snowcat.defer env id actor reason precondition)
  | .note id actor reason precondition =>
    reply .item (Snowcat.note env id actor reason precondition)
  | .prioritize id actor priority reason precondition =>
    reply .item (Snowcat.prioritize env id actor priority reason precondition)
  | .reject id actor reason precondition =>
    reply .item (Snowcat.reject env id actor reason precondition)
  | .requeue id actor reason precondition =>
    reply .item (Snowcat.requeue env id actor reason precondition)
  | .releaseLease id actor reason precondition =>
    reply .item (Snowcat.releaseLease env id actor reason precondition)
  | .cancel id actor reason precondition =>
    reply .item (Snowcat.cancel env id actor reason precondition)
  | .retirePullRequestBoundWork id actor reason =>
    reply .item (Snowcat.retirePullRequestBoundWork env id actor reason)
  | .recordArtifactVerification id url verification actor =>
    reply .item (Snowcat.recordArtifactVerification env id url verification actor)
  | .attachArtifact id actor attached precondition =>
    reply .item (Snowcat.attachArtifact env id actor attached precondition)
  | .recordPullRequestReady id url actor headSha reviewItemId =>
    reply .item (Snowcat.recordPullRequestReady env id url actor headSha reviewItemId)

/-- The outcome of a call: its reply, or what it threw. -/
abbrev Outcome : Type := Except QueueError Reply

/-- The state of a queue nobody has called yet. -/
def World.empty : World := ⟨Db.empty, 0⟩

/-- **The queue**: it starts empty, and takes one call at a time. -/
def queue : Machine World Op Outcome where
  start := World.empty
  step w op := op.run env w

/-- The state after a list of calls. -/
def exec (ops : List Op) : World := (queue env).run ops

/-- The steps of a list of calls. -/
def steps (ops : List Op) : List (Machine.Entry World Op Outcome) := (queue env).trace ops

end Run

/-! ## Ways out of a call

Two facts hold of every call whichever way it ends: the ticks only move
forward, and a call that throws has written nothing. -/

section WaysOut

-- the size of an instance doubles with every step of a body
set_option synthInstance.maxSize 16384

variable (env : Env)

@[simp] theorem returns_reply {α : Type} {f : α → Reply} {x : QueueTx α} {w w' : World}
    {r : Reply} : (reply f x).Returns w r w' ↔ ∃ a, x.Returns w a w' ∧ r = f a := by
  simp only [reply, Tx.returns_bind, Tx.returns_pure]
  constructor
  · rintro ⟨a, _, ha, rfl, rfl⟩
    exact ⟨a, ha, rfl⟩
  · rintro ⟨a, ha, rfl⟩
    exact ⟨a, _, ha, rfl, rfl⟩

@[simp] theorem throws_reply {α : Type} {f : α → Reply} {x : QueueTx α} {w : World}
    {e : QueueError} : (reply f x).Throws w e ↔ x.Throws w e := by
  simp [reply]

instance grows_reply {α : Type} {f : α → Reply} {x : QueueTx α} [x.Grows World.ticks] :
    (reply f x).Grows World.ticks := by
  unfold reply
  infer_instance

instance grows_bindPolicy (subject : PolicySubject) :
    (bindPolicy env subject).Grows World.ticks := by
  unfold bindPolicy
  split
  · infer_instance
  · simp only [admissionAuthorization]
    infer_instance

instance grows_createRoot (root : RootWork) (payload : EventPayload) :
    (createRoot env root payload).Grows World.ticks := by
  simp only [createRoot, insertWork]
  infer_instance

instance grows_assertRepositoryEnabled (repository : String) :
    (assertRepositoryEnabled repository).Grows World.ticks := by
  unfold assertRepositoryEnabled
  infer_instance

instance grows_isCooling (noFinding : List (String × NoFinding)) (kind : String)
    (baseSeconds : ℤ) : (isCooling env noFinding kind baseSeconds).Grows World.ticks := by
  unfold isCooling
  split
  · infer_instance
  · dsimp only
    infer_instance

instance grows_inactiveRootLoop (repository : String)
    (noFinding : List (String × NoFinding)) (activeKinds : List String)
    (candidates : List (BatchCandidate × ℤ)) :
    (inactiveRootLoop env repository noFinding activeKinds candidates).Grows World.ticks := by
  induction candidates generalizing activeKinds with
  | nil =>
    unfold inactiveRootLoop
    infer_instance
  | cons candidate rest ih =>
    simp only [inactiveRootLoop]
    infer_instance

instance grows_proposedRootLoop (repository : String) (seen : List String)
    (candidates : List ProposedRootInput) :
    (proposedRootLoop env repository seen candidates).Grows World.ticks := by
  induction candidates generalizing seen with
  | nil =>
    unfold proposedRootLoop
    infer_instance
  | cons candidate rest ih =>
    simp only [proposedRootLoop]
    infer_instance

instance grows_lineageDepthLoop (item : WorkItem) (remaining : ℕ) :
    (lineageDepthLoop item remaining).Grows World.ticks := by
  induction remaining generalizing item with
  | zero =>
    unfold lineageDepthLoop
    split <;> infer_instance
  | succ remaining ih =>
    unfold lineageDepthLoop
    split <;> infer_instance

instance grows_eligibleRepositories (db : Db) (filter : ClaimFilter) :
    (eligibleRepositories env db filter).Grows World.ticks := by
  unfold eligibleRepositories
  split
  · infer_instance
  · dsimp only
    infer_instance

instance grows_leaseRow (request : ClaimRequest) (atTime : Time) (row : WorkItem) :
    (leaseRow env request atTime row).Grows World.ticks := by
  simp only [leaseRow, expireLease]
  infer_instance

instance grows_claimTransaction (request : ClaimRequest) :
    (claimTransaction env request).Grows World.ticks := by
  have hselected : ∀ (atTime : Time) (row? : Option WorkItem),
      (match row? with
        | none => pure none
        | some row => leaseRow env request atTime row : QueueTx (Option WorkItem)).Grows
          World.ticks := by
    intro atTime row?
    split <;> infer_instance
  simp only [claimTransaction]
  infer_instance

instance grows_assertActiveLease (id leaseToken worker : String) :
    (assertActiveLease env id leaseToken worker).Grows World.ticks := by
  unfold assertActiveLease
  infer_instance

instance grows_addReviewEvent (input : CompletionInput) (parent : WorkItem) :
    (addReviewEvent env input parent).Grows World.ticks := by
  unfold addReviewEvent
  split <;> infer_instance

instance grows_proposeFollowUp (parent : WorkItem) (worker : String) (createdAt : Time)
    (proposal : FollowUpProposalInput) :
    (proposeFollowUp env parent worker createdAt proposal).Grows World.ticks := by
  simp only [proposeFollowUp, insertWork]
  infer_instance

instance grows_assertMayFollowUp (parent : WorkItem) (followUps : List FollowUpProposalInput) :
    (assertMayFollowUp parent followUps).Grows World.ticks := by
  unfold assertMayFollowUp lineageDepth
  infer_instance

instance grows_reviewVerdict (parent : WorkItem) (review : Option ReviewResult) :
    (reviewVerdict env parent review).Grows World.ticks := by
  unfold reviewVerdict
  infer_instance

instance grows_complete (input : CompletionInput) : (complete env input).Grows World.ticks := by
  unfold complete
  infer_instance

theorem grows_decideOn (id actor : String)
    (precondition : Option MutationPrecondition) (refusal : WorkItem → Except QueueError Unit)
    (write : Time → WorkItem → WorkItem) (hwrite : ∀ t item, (write t item).id = item.id)
    (payload : WorkItem → EventPayload) :
    (decideOn env id actor precondition refusal write hwrite payload).Grows World.ticks := by
  unfold decideOn
  infer_instance

instance grows_updateRepositories
    (f : Table RepositoryRow.slug → Table RepositoryRow.slug) :
    (updateRepositories f).Grows World.ticks :=
  grows_update fun _ => rfl

instance grows_setRepository (repository : String)
    (write : Time → RepositoryRow → RepositoryRow) (h : ∀ t row, (write t row).slug = row.slug) :
    (setRepository env repository write h).Grows World.ticks := by
  unfold setRepository
  infer_instance

instance grows_renameRepository (source target actor : String) :
    (renameRepository env source target actor).Grows World.ticks := by
  have hwrite : ∀ (db : Db) (moved : RepositoryRow)
      (h : db.repositories.find? moved.slug = none),
      (Tx.update fun w => { w with db := db.rename source target moved h } :
        QueueTx Unit).Grows World.ticks :=
    fun _ _ _ => grows_update fun _ => rfl
  simp only [renameRepository]
  infer_instance

/-- **The ticks only move forward.** -/
instance op_grows (op : Op) : (op.run env).Grows World.ticks := by
  cases op <;> simp only [Op.run]
  case claim =>
    unfold Snowcat.claim
    infer_instance
  case enqueueInactiveRootBatch =>
    simp only [Snowcat.enqueueInactiveRootBatch]
    infer_instance
  case complete => infer_instance
  case renameRepository => infer_instance
  case defer | note | prioritize | reject | requeue | releaseLease | cancel |
      retirePullRequestBoundWork | recordArtifactVerification | attachArtifact |
      recordPullRequestReady =>
    exact @grows_reply _ _ _ (@grows_checked _ _ _ _ fun _ => grows_decideOn env _ _ _ _ _ _ _)
  all_goals
    simp only [Snowcat.setRepositoryEnabled, Snowcat.setRepositoryCureForeign,
      Snowcat.setRepositoryReviewGate, Snowcat.recordUnreportedPullRequests,
      Snowcat.recordLabeledIssueObservations, Snowcat.enqueueSeed, Snowcat.enqueueCureRoot,
      Snowcat.enqueueReviewRoot, Snowcat.enqueueProposedRoots,
      Snowcat.replaceProposedPredecessors, Snowcat.heartbeat, Snowcat.block, Snowcat.release,
      Snowcat.approve]
    infer_instance

theorem keeps_reply {α : Type} {f : α → Reply} {x : QueueTx α} (h : x.Keeps SameDb) :
    (reply f x).Keeps SameDb :=
  Tx.keeps_bind_pure h

/-- **A call that throws has written nothing.** -/
theorem op_keeps (op : Op) : (op.run env).Keeps SameDb := by
  have hclaim : ∀ input, (Snowcat.claim env input).Keeps SameDb := by
    intro input
    refine Tx.keeps_bind_of_still SameDb.refl (Tx.still_ofExcept _) fun request => ?_
    split
    · exact Tx.keeps_pure _
    · exact keeps_transaction _
  have hbatch : ∀ repository candidates cooldownSeconds,
      (Snowcat.enqueueInactiveRootBatch env repository candidates cooldownSeconds).Keeps
        SameDb := by
    intro repository candidates cooldownSeconds
    exact Tx.keeps_bind_of_still SameDb.refl (Tx.still_ofExcept _) fun _ =>
      Tx.keeps_bind_of_still SameDb.refl (Tx.still_each (fun _ => Tx.still_ofExcept _) _)
        fun _ => keeps_transaction _
  cases op <;> refine keeps_reply ?_
  case claim input => exact hclaim input
  case enqueueInactiveRootBatch repository candidates cooldownSeconds =>
    exact hbatch repository candidates cooldownSeconds
  case setRepositoryCureForeign | setRepositoryReviewGate => exact keeps_transaction _
  all_goals exact keeps_checked _ _

/-- What a call leaves, by the way it ended. -/
theorem run_cases (op : Op) (w : World) :
    (∃ r, (op.run env).Returns w r (op.run env w).2 ∧ (op.run env w).1 = .ok r) ∨
      (∃ e, (op.run env w).1 = .error e ∧ (op.run env w).2.db = w.db) := by
  cases h : op.run env w with
  | mk outcome w' =>
    cases outcome with
    | ok r => exact Or.inl ⟨r, h, rfl⟩
    | error e => exact Or.inr ⟨e, rfl, op_keeps env op w e w' h⟩

end WaysOut

end Snowcat
