import Snowcat.Queue.Predecessor
import Snowcat.Queue.Validation

/-!
# Claiming work

The selection and the lease of a claim. The database is asked for the best
candidate without predecessors and for the candidates with predecessors in
claim order; the first of the latter whose predecessors are all satisfied
competes with the former. Rows that tie in priority and age are left in the
order they were inserted – SQLite promises none.
-/

namespace Snowcat

/-- `CLAIM_BACKOFF_RELEASES`. -/
def claimBackoffReleases : ℕ := 3

/-- `CLAIM_BACKOFF_WINDOW_SECONDS`. -/
def claimBackoffWindowSeconds : ℤ := 30 * 60

/-- `BACKOFF_RELEASE_COUNT`: the worker-attributed releases of an item newer
than an instant. -/
def backoffReleaseCount (db : Db) (id : String) (since : Time) : ℕ :=
  ((db.ledger.of id).filter fun e =>
    e.type = .workReleased && !startsWith (toLowerCase e.actor) "operator:" &&
      !startsWith (toLowerCase e.actor) "policy:" && since < e.occurredAt).length

/-! ## The request -/

/-- A claim whose input has passed its checks. -/
structure ClaimRequest where
  worker : String
  repository : Option String
  leaseSeconds : ℤ
  label : Option String
  restriction : Option (List String)
  grant : Option (List String)
  kinds : Option (List String)

/-- The kinds a claim is limited to: what it asked for, within what its
credential allows. -/
def effectiveKinds (requested restriction : Option (List String)) : Option (List String) :=
  match restriction, requested with
  | none, requested => requested
  | some restriction, none => some restriction
  | some restriction, some requested =>
    some (requested.filter fun kind => trim kind ∈ restriction)

/-- The checks a claim makes before its transaction. An empty repository and
an empty list of kinds ask for nothing in particular. -/
def claimRequest (input : ClaimInput) : Except QueueError ClaimRequest := do
  let worker ← validateWorkerPrincipal input.worker
  let repository := input.repository.filter (fun repository => repository ≠ "")
  refuseSome validateRepository repository
  let leaseSeconds ← boundedLease input.leaseSeconds
  let label ← checkSome validateClaimLabel (input.label.filter (fun label => label ≠ worker))
  let restriction ← checkSome (validateWorkKinds · "claim allowedKinds") input.allowedKinds
  let grant ← checkSome (validateMcpTools · "claim allowedTools") input.allowedTools
  let requested := input.kinds.filter (fun kinds => kinds ≠ [])
  pure
    { worker, repository, leaseSeconds, label, restriction, grant
      kinds := effectiveKinds requested restriction }

/-! ## Candidates -/

/-- The clauses of the candidate query. -/
structure ClaimFilter where
  /-- The instant leases are judged by. -/
  atTime : Time
  /-- Releases after this instant count against an item. -/
  windowStart : Time
  repository : Option String
  kinds : Option (List String)
  /-- The repositories the hook answered true for, when there is a hook. -/
  repositories : Option (List String)

/-- Whether a repository is opted in. -/
def repositoryEnabled (db : Db) (slug : String) : Bool :=
  match db.repositories.find? slug with
  | some row => row.enabled
  | none => false

/-- Whether a row may be leased at an instant: queued and admitted, or
claimed with a lease that is over. -/
def claimable (atTime : Time) (row : WorkItem) : Bool :=
  (row.rowStatus = .queued && row.admitted) ||
    (row.rowStatus = .claimed &&
      match row.leaseExpiresAt with
      | some expiresAt => expiresAt ≤ atTime
      | none => false)

/-- Whether a value passes a filter that may not have been given. -/
def within (filter : Option (List String)) (value : String) : Bool :=
  match filter with
  | some values => values.contains value
  | none => true

/-- **A candidate row**: it meets every clause of the query. -/
def isCandidate (db : Db) (filter : ClaimFilter) (row : WorkItem) : Bool :=
  repositoryEnabled db row.repository && claimable filter.atTime row &&
    decide (backoffReleaseCount db row.id filter.windowStart < claimBackoffReleases) &&
    within (filter.repository.map fun slug => [slug]) row.repository &&
    within (filter.kinds.filter fun kinds => kinds ≠ []) row.kind &&
    within filter.repositories row.repository

/-- `ORDER BY priority DESC, created_at ASC`. -/
def claimOrder (a b : WorkItem) : Bool :=
  decide (b.priority < a.priority) || (decide (a.priority = b.priority) &&
    decide (a.createdAt ≤ b.createdAt))

/-- `betterClaimCandidate`. -/
def betterClaimCandidate (left right : Option WorkItem) : Option WorkItem :=
  match left, right with
  | none, right => right
  | left, none => left
  | some left, some right =>
    if left.priority ≠ right.priority then
      if left.priority < right.priority then some right else some left
    else if left.createdAt ≠ right.createdAt then
      if left.createdAt < right.createdAt then some left else some right
    else if jsLe left.id right.id = true then some left else some right

/-- **The row a claim leases**: the best ungated candidate, or the first
gated one in claim order whose every predecessor is satisfied. -/
def selectCandidate (db : Db) (filter : ClaimFilter) : Option WorkItem :=
  let candidates := db.items.rows.filter (isCandidate db filter)
  let ungated :=
    ((candidates.filter fun row => row.predecessors.isNone).mergeSort claimOrder).head?
  let gatedCandidates :=
    (candidates.filter fun row => row.predecessors.isSome).mergeSort claimOrder
  let gated := Selection.findRecalled (evaluatePredecessor db) PredecessorStatus.satisfied
    (fun row => row.predecessors.getD []) gatedCandidates []
  betterClaimCandidate ungated gated

section Claim

variable (env : Env)

/-- The repositories of the candidates that the hook answers true for, when
there is a hook. Each is asked once, within the transaction. -/
def eligibleRepositories (db : Db) (filter : ClaimFilter) : QueueTx (Option (List String)) :=
  match env.claimEligibility with
  | none => pure none
  | some hook => do
    let candidateRepositories :=
      ((db.items.rows.filter (isCandidate db filter)).map WorkItem.repository).eraseDups
    let eligible ← ask fun tick => candidateRepositories.filter (hook tick)
    pure (some eligible)

/-- Record the end of a lease that lapsed unreclaimed. -/
def expireLease (row : WorkItem) : QueueTx Unit :=
  if row.rowStatus = .claimed then
    addEvent env row.id "system" (.leaseExpired row.leaseOwner row.leaseExpiresAt)
  else pure ()

/-- Lease the selected row. The failing branch is the trigger
`work_items_claim_requires_admission`. -/
def leaseRow (request : ClaimRequest) (atTime : Time) (row : WorkItem) :
    QueueTx (Option WorkItem) := do
  expireLease env row
  let token ← randomUUID env
  let reading ← now env
  let expiresAt := reading + request.leaseSeconds * 1000
  Tx.failIf (row.admitted = false)
    (.error "work item must be admitted before it can be claimed")
  updateItem row.id
    (fun row =>
      { row with
        rowStatus := .claimed
        leaseOwner := some request.worker
        leaseToken := some token
        leaseExpiresAt := some expiresAt
        updatedAt := atTime })
    (fun _ => rfl)
  addEvent env row.id request.worker
    (.workClaimed expiresAt request.label request.restriction request.grant)
  let item ← getRequired row.id
  pure (some item)

/-- The transaction of a claim. -/
def claimTransaction (request : ClaimRequest) : QueueTx (Option WorkItem) := do
  let atTime ← now env
  let db ← Tx.read World.db
  Tx.failIf (∃ label ∈ request.label, ∃ holder ∈ db.items.rows, ∃ token ∈ holder.leaseToken,
      includes label token = true)
    (.error "claim label may not contain a lease token")
  let reading ← now env
  let filter : ClaimFilter :=
    { atTime
      windowStart := reading - claimBackoffWindowSeconds * 1000
      repository := request.repository
      kinds := request.kinds
      repositories := none }
  let repositories ← eligibleRepositories env db filter
  if repositories = some [] then pure none
  else
    match selectCandidate db { filter with repositories } with
    | none => pure none
    | some row => leaseRow env request atTime row

/-- **`claim`.** -/
def claim (input : ClaimInput) : QueueTx (Option WorkItem) := do
  let request ← Tx.ofExcept (claimRequest input)
  if request.restriction.isSome = true ∧ request.kinds = some [] then pure none
  else transaction (claimTransaction env request)

end Claim

end Snowcat
