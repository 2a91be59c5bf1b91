import Mathlib.Logic.Relation
import Snowcat.Queue.Operation

/-!
# What a call can do to the tables

A call that returns has taken the tables through a sequence of moves: it
rewrote one row and posted its events (`Move.write`), created a root or a
child (`Move.create`), wrote the repositories, or renamed one. The move carries what the
call had established before it wrote – the status it found, who asked, what
had passed its check – and nothing of how it was computed. Every invariant
of the queue is proved over moves, once for each shape, and holds of every
call because calls are moves (`Moves` and the refinement theorem behind
it).

The ticks `lo` and `hi` bound the answers a call has taken from its
environment: what it read from the clock or drew at random, it read or drew
in between.
-/

namespace Snowcat

/-! ## The writes -/

namespace Db

/-- Replace the row of an item, and post its events. -/
def write (db : Db) (item : WorkItem) (postings : List Posting) : Db :=
  { db with
    items := db.items.replace item
    ledger := db.ledger.postAll item.id postings }

/-- Insert a row under a fresh id, and post its first event. -/
def create (db : Db) (row : WorkItem) (h : db.items.find? row.id = none)
    (posting : Posting) : Db :=
  { db with
    items := db.items.insert row h
    ledger := db.ledger.post row.id posting }

theorem mem_create {db : Db} {row r : WorkItem} (h : db.items.find? row.id = none)
    {posting : Posting} :
    r ∈ (db.create row h posting).items.rows ↔ r ∈ db.items.rows ∨ r = row :=
  Table.mem_insert h

theorem find?_create {db : Db} {row : WorkItem} (h : db.items.find? row.id = none)
    {posting : Posting} (id : String) :
    (db.create row h posting).items.find? id =
      if id = row.id then some row else db.items.find? id :=
  Table.find?_insert h id

theorem find?_write {db : Db} {item item' : WorkItem} {postings : List Posting}
    (h : db.items.find? item'.id = some item) (id : String) :
    (db.write item' postings).items.find? id =
      if id = item'.id then some item' else db.items.find? id :=
  Table.find?_replace h id

/-- A row after a write is the written one, or one of another item. -/
theorem mem_write {db : Db} {item r : WorkItem} {postings : List Posting}
    (h : r ∈ (db.write item postings).items.rows) :
    r = item ∨ (r ∈ db.items.rows ∧ r.id ≠ item.id) :=
  Table.mem_replace h

/-- **The root of an item is active or not for a kind**: no unfinished item
of the repository has a root of this kind. -/
def Inactive (db : Db) (repository kind : String) : Prop :=
  ∀ item ∈ db.items.rows, item.repository = repository → item.rowStatus.isTerminal = false →
    ∀ root, db.items.find? item.rootId = some root → root.kind ≠ kind

end Db

/-- **The edges above an item**: `Chain db item n` when following parents
from it takes `n` steps. -/
inductive Chain (db : Db) : WorkItem → ℕ → Prop
  | root {item : WorkItem} (h : item.parentId = none) : Chain db item 0
  | step {item parent : WorkItem} {p : String} {n : ℕ} (hp : item.parentId = some p)
      (hparent : db.items.find? p = some parent) (h : Chain db parent n) : Chain db item (n + 1)

/-! ## Who asked for what -/

/-- The bindings a path hands to the definition check along with a root. -/
def RootWork.checkedBindings (root : RootWork) : Bindings where
  sourceRef := if root.admitted = true then root.sourceRef else none
  cure := root.cure
  review := root.review

/-- A root that is bound to a cure or a review has one of the kinds of that
path. -/
def RootWork.MechanicalKind (root : RootWork) : Prop :=
  (root.cure ≠ none → root.definition.kind = "pr-cure") ∧
    (root.review ≠ none →
      root.definition.kind = "pr-review" ∨ root.definition.kind = "pr-review-fix")

/-- A root without bindings has any kind. -/
theorem RootWork.mechanicalKind_of_unbound {root : RootWork} (hcure : root.cure = none)
    (hreview : root.review = none) : root.MechanicalKind :=
  ⟨fun h => absurd hcure h, fun h => absurd hreview h⟩

/-- **The roots a call asks for.** -/
def Op.Asks : Op → RootWork → Prop
  | .enqueueSeed repository input, root =>
    root = { definition := input, repository, admitted := true }
  | .enqueueInactiveRootBatch repository candidates _, root => ∃ candidate ∈ candidates,
    root = { definition := candidate.definition, repository, admitted := true }
  | .enqueueCureRoot repository input, root =>
    root =
      { definition := input.definition
        repository
        admitted := true
        sourceRef := some input.sourceRef
        cure := some input.cure }
  | .enqueueReviewRoot repository input, root =>
    root =
      { definition := input.definition
        repository
        admitted := true
        sourceRef := some input.sourceRef
        review := some input.review }
  | .enqueueProposedRoots repository candidates, root =>
    ∃ candidate ∈ candidates, ∃ predecessors,
      root =
        { definition := candidate.definition
          repository
          admitted := false
          sourceRef := some candidate.sourceRef
          predecessors }
  | _, _ => False

/-- Whether a call is the feeder's. -/
def Op.isBatch : Op → Bool
  | .enqueueInactiveRootBatch .. => true
  | _ => false

/-- The policy subject of a stored item that is being admitted. -/
def WorkItem.policySubject (item : WorkItem) : PolicySubject where
  repository := item.repository
  kind := item.kind
  allowedActions := item.allowedActions
  delegableActions := item.delegableActions
  createdBy := item.createdBy
  admitted := false

/-- A record with an operator's authorization for its review-required
acts. -/
def PolicyRecord.approvedBy (record : PolicyRecord) (actor : String) (atTime : Time) :
    PolicyRecord :=
  { record with
    authorization := some ⟨.operator, some actor, none, none, record.reviewRequired, atTime⟩ }

/-- The event of a lapsed lease, when the row still holds one. -/
def expiryPostings (item : WorkItem) (occurredAt : Time) : List Posting :=
  if item.rowStatus = .claimed then
    [⟨"system", .leaseExpired item.leaseOwner item.leaseExpiresAt, occurredAt⟩]
  else []

/-! ## What a result was checked for -/

/-- What a completion makes of its item's review record: a `pr-review` item
gets the verdict into its record, and no other item has a verdict. -/
def CompletionInput.Judges (input : CompletionInput) (item : WorkItem)
    (review? : Option PullRequestReview) : Prop :=
  if item.kind = "pr-review" then
    ∃ verdict record reviewedAt, input.review = some verdict ∧ item.review = some record ∧
      validateReviewResult verdict = .ok () ∧
      review? = some
        { record with
          decision := some verdict.decision
          blockers := some verdict.blockers
          advisories := some verdict.advisories
          reviewedAt := some reviewedAt }
  else input.review = none ∧ review? = none

/-- What a completion had established before it wrote its item. -/
structure CompletionGuard (env : Env) (op : Op) (item : WorkItem) (result : WorkResult)
    (review? : Option PullRequestReview) : Prop where
  completing : ∃ input, op = .complete input ∧ input.id = item.id ∧ input.result = result ∧
    input.Judges item review?
  valid : validateResult env result = .ok ()
  allowed : assertArtifactsAllowed env item result.artifacts = .ok ()

/-- **What a call may do to the artifacts of a completed item.** -/
inductive ArtifactsChange (env : Env) (op : Op) (item : WorkItem) :
    (List WorkArtifact → List WorkArtifact) → Prop
  | verified {url actor : String} {verification : ArtifactVerification}
      (hop : op = .recordArtifactVerification item.id url verification actor)
      (hvalid : validateVerification verification = .ok ()) :
      ArtifactsChange env op item
        (modifyFirst (fun artifact => artifact.url = url)
          fun artifact => { artifact with verification := some verification })
  | attached {actor : String} {attached : AttachedArtifact}
      {precondition : Option MutationPrecondition}
      (hop : op = .attachArtifact item.id actor attached precondition)
      (hvalid : validateArtifact env attached.artifact = .ok ())
      (hscope : assertGitHubArtifactScope env item.repository attached.artifact = .ok ())
      (hnew : ∀ artifact ∈ item.artifacts, artifact.url ≠ attached.url) :
      ArtifactsChange env op item (· ++ [attached.artifact])
  | ready {url actor headSha reviewItemId : String} {identified : WorkArtifact → Bool}
      (hop : op = .recordPullRequestReady item.id url actor headSha reviewItemId) :
      ArtifactsChange env op item
        (modifyFirst identified fun artifact =>
          { artifact with
            verification := artifact.verification.map ArtifactVerification.undrafted })

/-! ## Moves of one row -/

section Moves

variable (env : Env) (op : Op) (lo hi : ℕ)

/-- **The writes of one row**, by what the row was: the row it becomes and
the events it posts. -/
inductive RowMove (item : WorkItem) : WorkItem → List Posting → Prop
  | claim {input : ClaimInput} {request : ClaimRequest} {token : String}
      {expiresAt updatedAt t₁ t₂ : Time}
      (hop : op = .claim input) (hrequest : claimRequest input = .ok request)
      (hclaimable : claimable updatedAt item = true) (hadmitted : item.admitted = true)
      (htoken : ∃ k, lo ≤ k ∧ k < hi ∧ token = env.randomUUID k)
      (hupdated : Reading env lo hi updatedAt) :
      RowMove item
        { item with
          rowStatus := .claimed
          leaseOwner := some request.worker
          leaseToken := some token
          leaseExpiresAt := some expiresAt
          updatedAt }
        (expiryPostings item t₁ ++
          [⟨request.worker, .workClaimed expiresAt request.label request.restriction request.grant,
            t₂⟩])
  | heartbeat {worker : String} {expiresAt updatedAt t : Time}
      (hclaimed : item.rowStatus = .claimed) (hupdated : Reading env lo hi updatedAt) :
      RowMove item { item with leaseExpiresAt := some expiresAt, updatedAt }
        [⟨worker, .leaseRenewed expiresAt, t⟩]
  | complete {worker : String} {result : WorkResult} {review? : Option PullRequestReview}
      {followUpIds : List String} {updatedAt t : Time} {reviewed : List Posting}
      (hclaimed : item.rowStatus = .claimed) (hupdated : Reading env lo hi updatedAt)
      (hreviewed : ∀ p ∈ reviewed, p.payload.type = .workReviewed)
      (hguard : CompletionGuard env op item result review?) :
      RowMove item
        { item.withoutLease with
          rowStatus := .completed
          result := some result
          review := review? <|> item.review
          updatedAt }
        (⟨worker, .workCompleted followUpIds result.artifacts.length result.model, t⟩ :: reviewed)
  | block {worker reason : String} {updatedAt t : Time}
      (hclaimed : item.rowStatus = .claimed) (hupdated : Reading env lo hi updatedAt) :
      RowMove item
        { item.withoutLease with
          rowStatus := .blocked
          result := some (.ofReason reason)
          updatedAt }
        [⟨worker, .workBlocked reason, t⟩]
  | release {worker reason : String} {updatedAt t : Time}
      (hclaimed : item.rowStatus = .claimed) (hupdated : Reading env lo hi updatedAt) :
      RowMove item { item.withoutLease with rowStatus := .queued, updatedAt }
        [⟨worker, .workReleased reason, t⟩]
  | approve {actor : String} {precondition : Option MutationPrecondition}
      {rebound : Option PolicyRecord} {notice : Option PolicyNotice} {updatedAt t : Time}
      (hop : op = .approve item.id actor precondition) (hactor : isOperatorActor actor = true)
      (hproposed : item.status = .proposed)
      (hpolicy : BindsPolicy env item.policySubject lo hi rebound)
      (hupdated : Reading env lo hi updatedAt) :
      RowMove item
        { item with
          admitted := true
          policy := (rebound.map fun record => record.approvedBy actor updatedAt) <|> item.policy
          updatedAt }
        [⟨actor, .workApproved notice, t⟩]
  | defer {actor reason : String} {updatedAt t : Time}
      (hqueued : item.status = .queued) (hupdated : Reading env lo hi updatedAt) :
      RowMove item
        { item.withNote updatedAt actor .defer reason with
          admitted := false
          updatedAt }
        [⟨actor, .workDeferred reason, t⟩]
  | note {actor reason : String} {updatedAt t : Time} (hupdated : Reading env lo hi updatedAt) :
      RowMove item { item.withNote updatedAt actor .note reason with updatedAt }
        [⟨actor, .workNoted reason, t⟩]
  | prioritize {actor reason : String} {priority : ℤ} {updatedAt t : Time}
      (hupdated : Reading env lo hi updatedAt) :
      RowMove item
        { item.withNote updatedAt actor .prioritize reason with
          priority
          updatedAt }
        [⟨actor, .workPrioritized item.priority priority reason, t⟩]
  | reject {actor reason : String} {updatedAt t : Time}
      (hproposed : item.status = .proposed) (hupdated : Reading env lo hi updatedAt) :
      RowMove item
        { item with
          rowStatus := .cancelled
          result := some (.ofReason reason)
          updatedAt }
        [⟨actor, .workRejected reason, t⟩]
  | requeue {actor reason : String} {updatedAt t : Time}
      (hblocked : item.rowStatus = .blocked) (hupdated : Reading env lo hi updatedAt) :
      RowMove item
        { (item.withNote updatedAt actor .requeue reason).withoutLease with
          rowStatus := .queued
          result := none
          previousResults := item.previousResults ++ item.result.toList
          updatedAt }
        [⟨actor, .workRequeued reason, t⟩]
  | releaseLease {actor reason : String} {precondition : Option MutationPrecondition}
      {updatedAt t : Time} (hclaimed : item.rowStatus = .claimed)
      (hupdated : Reading env lo hi updatedAt)
      (hop : op = .releaseLease item.id actor reason precondition)
      (hactor : isOperatorActor actor = true) :
      RowMove item
        { (item.withNote updatedAt actor .releaseLease reason).withoutLease with
          rowStatus := .queued
          updatedAt }
        [⟨actor, .leaseReleased reason item.leaseOwner item.leaseExpiresAt, t⟩]
  | cancel {actor reason : String} {updatedAt t : Time}
      (hstatus : item.status = .queued ∨ item.rowStatus = .blocked)
      (hupdated : Reading env lo hi updatedAt) :
      RowMove item (item.cancelledFor reason updatedAt) [⟨actor, .workCancelled reason, t⟩]
  | artifacts {actor : String} {f : List WorkArtifact → List WorkArtifact}
      {payload : EventPayload} {updatedAt t : Time} (hcompleted : item.rowStatus = .completed)
      (hpayload : payload.type = .artifactReady ∨ payload.type = .artifactVerified ∨
        payload.type = .artifactAttached)
      (hupdated : Reading env lo hi updatedAt) (hchange : ArtifactsChange env op item f)
      (hready : ∀ url headSha reviewItemId, payload = .artifactReady url headSha reviewItemId →
        ∃ actor, op = .recordPullRequestReady item.id url actor headSha reviewItemId) :
      RowMove item (item.withArtifacts f updatedAt) [⟨actor, payload, t⟩]
  | predecessors {actor : String} {replacement : Option (List String)} {updatedAt t : Time}
      (hproposed : item.status = .proposed) (hupdated : Reading env lo hi updatedAt) :
      RowMove item { item with predecessors := replacement, updatedAt }
        [⟨actor, .workPredecessorsUpdated (replacement.getD []) (item.predecessors.getD []), t⟩]

/-! ## Moves of the tables -/

/-- What a root is created under: the call asked for it, its definition
passed, a bound root has the kind its path is for, its id is drawn and
fresh, its repository is known and its policy is bound. -/
structure RootGuard (db : Db) (root : RootWork) (id : String) (createdAt : Time)
    (policy : Option PolicyRecord) : Prop where
  asked : op.Asks root
  checked : validateWorkDefinition root.definition root.checkedBindings = .ok ()
  kinds : root.MechanicalKind
  drawn : Drawn env lo hi id
  fresh : db.items.find? id = none
  known : db.repositories.find? root.repository ≠ none
  bound : BindsPolicy env (root.withId id createdAt).policySubject lo hi policy
  created : Reading env lo hi createdAt
  inactive : op.isBatch = true → db.Inactive root.repository root.definition.kind

/-- What a child is created under: its parent is claimed and not too deep,
its proposal passed its check, and it is as a root is otherwise. -/
structure ChildGuard (db : Db) (parent : WorkItem) (followUp : FollowUpInput)
    (worker id : String) (createdAt : Time) (policy : Option PolicyRecord) : Prop where
  completing : ∃ input, op = .complete input ∧ input.id = parent.id
  stored : db.items.find? parent.id = some parent
  claimed : parent.rowStatus = .claimed
  shallow : ∃ n, n < maxLineageDepth ∧ Chain db parent n
  checked : ∃ proposal, checkFollowUp parent worker proposal = .ok followUp
  drawn : Drawn env lo hi id
  fresh : db.items.find? id = none
  known : db.repositories.find? parent.repository ≠ none
  bound : BindsPolicy env (followUp.withId parent worker id createdAt).policySubject lo hi policy
  created : Reading env lo hi createdAt

/-- **The births of a row**: the row as it is inserted, and its first
event. -/
inductive Birth (db : Db) : WorkItem → Posting → Prop
  | root {root : RootWork} {id : String} {createdAt t : Time} {policy : Option PolicyRecord}
      {payload : EventPayload} (guard : RootGuard env op lo hi db root id createdAt policy)
      (hpayload : payload.type = if root.admitted = true then .workQueued else .workProposed) :
      Birth db ((root.withId id createdAt).row policy) ⟨root.definition.createdBy, payload, t⟩
  | child {parent : WorkItem} {followUp : FollowUpInput} {worker id : String}
      {createdAt t : Time} {policy : Option PolicyRecord}
      (guard : ChildGuard env op lo hi db parent followUp worker id createdAt policy) :
      Birth db ((followUp.withId parent worker id createdAt).row policy)
        ⟨worker, .childProposed parent.id parent.rootId, t⟩

/-- **A move of the tables.** -/
inductive Move : Db → Db → Prop
  | write {db : Db} {item item' : WorkItem} {postings : List Posting}
      (hitem : db.items.find? item.id = some item)
      (hmove : RowMove env op lo hi item item' postings) : Move db (db.write item' postings)
  | create {db : Db} {row : WorkItem} {posting : Posting}
      (hbirth : Birth env op lo hi db row posting) (hfresh : db.items.find? row.id = none) :
      Move db (db.create row hfresh posting)
  | repositories {db : Db} {repositories : Table RepositoryRow.slug}
      (h : ∀ slug, db.repositories.find? slug ≠ none → repositories.find? slug ≠ none)
      (hvalid : ∀ slug, repositories.find? slug ≠ none →
        db.repositories.find? slug ≠ none ∨ validateRepository slug = .ok ()) :
      Move db { db with repositories }
  | rename {db : Db} {source target actor : String} {moved : RepositoryRow}
      {h : db.repositories.find? moved.slug = none}
      (hop : op = .renameRepository source target actor) (hmoved : moved.slug = target)
      (hsource : db.repositories.find? source ≠ none)
      (hvalid : validateRepository target = .ok ()) :
      Move db (db.rename source target moved h)

/-- **A sequence of moves.** -/
abbrev Moves : Db → Db → Prop := Relation.ReflTransGen (Move env op lo hi)

end Moves

end Snowcat
