import Snowcat.Queue.Claim

/-!
# The bounded listing

`list` answers with the rows that meet its filters, the most urgent first and
the older first of two as urgent, and stops after a hundred of them whatever
its caller asked for. What a caller concludes from a listing it may conclude
from the table only where the listing was not cut (`mem_listed_iff`).
-/

namespace Snowcat

/-- The options of `list`. -/
structure ListOptions where
  status : Option WorkStatus := none
  repository : Option String := none
  kind : Option String := none
  leaseOwner : Option String := none
  label : Option String := none
  limit : Option ℤ := none
  deriving DecidableEq, Repr

/-- The label the newest claim of an item recorded. -/
def claimedLabel (db : Db) (id : String) : Option String :=
  ((db.ledger.of id).reverse.find? fun e => e.type = .workClaimed).bind fun e =>
    match e.payload with
    | .workClaimed _ label _ _ => label
    | _ => none

namespace ListOptions

/-- The checks of `filterClauses`. A filter that is the empty text is none. -/
def check (options : ListOptions) : Except QueueError ListOptions := do
  let repository := options.repository.filter fun slug => slug ≠ ""
  refuseSome validateRepository repository
  let leaseOwner ← checkSome validateWorkerPrincipal options.leaseOwner
  let label ← checkSome validateClaimLabel options.label
  pure
    { options with
      repository
      kind := options.kind.filter fun kind => kind ≠ ""
      leaseOwner
      label }

/-- The clauses of `filterClauses`. -/
def keeps (options : ListOptions) (db : Db) (row : WorkItem) : Bool :=
  options.status.all (fun status => row.status = status) &&
    options.repository.all (fun slug => row.repository = slug) &&
    options.kind.all (fun kind => row.kind = kind) &&
    options.leaseOwner.all (fun owner => row.leaseOwner = some owner) &&
    options.label.all fun label => claimedLabel db row.id = some label

/-- How many rows are listed at most: `Math.max(1, Math.min(limit ?? 50, 100))`. -/
def most (options : ListOptions) : ℕ := (max 1 (min (options.limit.getD 50) 100)).toNat

end ListOptions

/-- The rows that are listed, once the options have been checked. -/
def listed (db : Db) (options : ListOptions) : List WorkItem :=
  ((db.items.rows.filter (options.keeps db)).mergeSort claimOrder).take options.most

/-- **`list`.** -/
def list (db : Db) (options : ListOptions) : Except QueueError (List WorkItem) :=
  options.check.map (listed db)

variable {db : Db} {options : ListOptions} {row : WorkItem}

theorem mem_of_listed (h : row ∈ listed db options) :
    row ∈ db.items.rows ∧ options.keeps db row = true :=
  List.mem_filter.mp (List.mem_mergeSort.mp (List.mem_of_mem_take h))

/-- **A listing that is not cut lists every row** its filters keep. -/
theorem mem_listed_iff (h : (db.items.rows.filter (options.keeps db)).length ≤ options.most) :
    row ∈ listed db options ↔ row ∈ db.items.rows ∧ options.keeps db row = true := by
  rw [listed, List.take_of_length_le (by rwa [List.length_mergeSort]), List.mem_mergeSort,
    List.mem_filter]

end Snowcat
