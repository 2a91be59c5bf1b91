import Snowcat.Queue.Definition

/-!
# The opted-in repositories

Settings and observations of one repository row, and the rename, which is
the one operation that writes many items at once: it moves the row to its
new slug and every item that carries the old one with it, and writes
nothing else of them.
-/

namespace Snowcat

/-- The row of a repository that is opted in for the first time. -/
def newRepository (slug : String) (enabled : Bool) (atTime : Time) : RepositoryRow where
  slug
  enabled
  cureForeign := false
  reviewGate := false
  createdAt := atTime
  updatedAt := atTime
  unreportedPullRequests := none
  labeledIssueObservations := none

/-- Insert a repository row, or rewrite the one its slug has. -/
def upsertRepository (repositories : Table RepositoryRow.slug) (fresh : RepositoryRow)
    (update : RepositoryRow → RepositoryRow) (h : ∀ row, (update row).slug = row.slug) :
    Table RepositoryRow.slug :=
  if hnone : repositories.find? fresh.slug = none then repositories.insert fresh hnone
  else repositories.modify fresh.slug update h

/-- Write the repositories table. -/
def updateRepositories (f : Table RepositoryRow.slug → Table RepositoryRow.slug) :
    QueueTx Unit :=
  Tx.update fun w => { w with db := { w.db with repositories := f w.db.repositories } }

/-- The items of a renamed repository, under its new slug. -/
def WorkItem.renamed (source target : String) (item : WorkItem) : WorkItem :=
  if item.repository = source then { item with repository := target } else item

theorem WorkItem.id_renamed (source target : String) (item : WorkItem) :
    (item.renamed source target).id = item.id := by
  unfold WorkItem.renamed
  split <;> rfl

/-- The database after a rename. -/
def Db.rename (db : Db) (source target : String) (moved : RepositoryRow)
    (h : db.repositories.find? moved.slug = none) : Db :=
  { db with
    repositories := (db.repositories.insert moved h).delete source
    items := db.items.map (WorkItem.renamed source target) (WorkItem.id_renamed source target) }

section Repositories

variable (env : Env)

/-- `setRepositoryEnabled`. -/
def setRepositoryEnabled (repository : String) (enabled : Bool) : QueueTx Unit :=
  checked (validateRepository repository) fun _ => do
    let updatedAt ← now env
    updateRepositories fun repositories =>
      upsertRepository repositories (newRepository repository enabled updatedAt)
        (fun row => { row with enabled, updatedAt }) (fun _ => rfl)

/-- What the setters of an opted-in repository's row share. -/
def setRepository (repository : String) (write : Time → RepositoryRow → RepositoryRow)
    (h : ∀ t row, (write t row).slug = row.slug) : QueueTx Time := do
  assertRepositoryEnabled repository
  let updatedAt ← now env
  updateRepositories fun repositories =>
    repositories.modify repository (write updatedAt) (h updatedAt)
  pure updatedAt

/-- `setRepositoryCureForeign`. -/
def setRepositoryCureForeign (repository : String) (enabled : Bool) : QueueTx Time :=
  transaction (setRepository env repository
    (fun updatedAt row => { row with cureForeign := enabled, updatedAt }) (fun _ _ => rfl))

/-- `setRepositoryReviewGate`. -/
def setRepositoryReviewGate (repository : String) (enabled : Bool) : QueueTx Time :=
  transaction (setRepository env repository
    (fun updatedAt row => { row with reviewGate := enabled, updatedAt }) (fun _ _ => rfl))

/-- The checks of one unreported pull request. -/
def validateUnreportedPullRequest (pull : UnreportedPullRequest) :
    Except QueueError Unit := do
  refuseIf (Patterns.spacelessPullRequestUrl.test pull.url = false)
    (.error s!"unreported pull request URL is not a GitHub pull-request URL: {pull.url}")
  let number := match pull.number with
    | .int n => s!"{n}"
    | .notInteger => "NaN"
  refuseIf (pull.number.isSafeInteger = false ∨ pull.number.toInt < 1)
    (.error s!"unreported pull request number is invalid: {number}")

/-- `recordUnreportedPullRequests`. An empty `createdAt` is dropped. -/
def recordUnreportedPullRequests (repository : String)
    (observation : UnreportedPullRequestObservation) (actor : String) : QueueTx Time :=
  checked
    (do
      let _ ← validateOperatorActor actor "unreported pull requests"
      refuseEach validateUnreportedPullRequest observation.pullRequests)
    fun _ =>
      let pullRequests := observation.pullRequests.map fun pull =>
        { pull with createdAt := pull.createdAt.filter (fun createdAt => createdAt ≠ "") }
      setRepository env repository
        (fun updatedAt row =>
          { row with
            unreportedPullRequests := some ⟨observation.observedAt, pullRequests⟩
            updatedAt })
        (fun _ _ => rfl)

/-- `MAX_LABELED_ISSUE_OBSERVATIONS`. -/
def maxLabeledIssueObservations : ℕ := 500

/-- A labeled issue as an import reports it. -/
structure LabeledIssueInput where
  url : String
  title : String
  outcome : LabeledIssueObservationOutcome
  deriving DecidableEq, Repr

/-- The checks of one labeled issue: its URL is an issue of the repository,
and its title is there. -/
def validateLabeledIssue (repository : String) (issue : LabeledIssueInput) :
    Except QueueError Unit := do
  let segments := splitAtSlash issue.url
  let slug := segments.getD 3 "" ++ "/" ++ segments.getD 4 ""
  refuseIf (Patterns.predecessorUrl.test issue.url = false ∨
      toLowerCase slug ≠ toLowerCase repository)
    (.error s!"labeled issue URL is not a GitHub issue URL: {issue.url}")
  refuseIf (isBlank issue.title = true) (.error "labeled issue title is required")

/-- The observation an import leaves: at most 500 issues, seen at one
instant. -/
def labeledIssueObservations (issues : List LabeledIssueInput) (seenAt : Time) :
    LabeledIssueObservations where
  issues := (issues.take maxLabeledIssueObservations).map fun issue =>
    ⟨issue.url, trim issue.title, seenAt, issue.outcome⟩
  truncated := decide (maxLabeledIssueObservations < issues.length)

/-- `recordLabeledIssueObservations`. -/
def recordLabeledIssueObservations (repository : String) (issues : List LabeledIssueInput)
    (actor : String) : QueueTx LabeledIssueObservations :=
  checked
    (do
      let _ ← validateOperatorActor actor "labeled issue observations"
      refuseEach (validateLabeledIssue repository) issues)
    fun _ => do
      let seenAt ← setRepository env repository
        (fun seenAt row =>
          { row with
            labeledIssueObservations := some (labeledIssueObservations issues seenAt)
            updatedAt := seenAt })
        (fun _ _ => rfl)
      pure (labeledIssueObservations issues seenAt)

/-- What a rename did. -/
structure RenameResult where
  source : String
  target : String
  items : ℕ
  deriving DecidableEq, Repr

/-- **`renameRepository`**, from `source` to `target`. The observations of
the repository are not carried over, and of an item nothing but its
repository is written. -/
def renameRepository (source target actor : String) : QueueTx RenameResult :=
  checked
    (do
      validateRepository source
      validateRepository target
      let _ ← validateOperatorActor actor "repository rename"
      refuseIf (toLowerCase source = toLowerCase target)
        (.error "repository rename needs a different slug"))
    fun _ => do
      let db ← Tx.read World.db
      let row ← Tx.ofOption (db.repositories.find? source)
        (.error s!"repository is not known to the queue: {source}")
      Tx.failIf ((db.repositories.find? target).isSome = true)
        (.error s!"repository already exists: {target}")
      let updatedAt ← now env
      let moved : RepositoryRow :=
        { row with
          slug := target
          updatedAt
          unreportedPullRequests := none
          labeledIssueObservations := none }
      if h : db.repositories.find? moved.slug = none then do
        Tx.update fun w => { w with db := db.rename source target moved h }
        pure ⟨source, target, (db.items.rows.filter fun item => item.repository = source).length⟩
      else Tx.fail (.error "UNIQUE constraint failed: repositories.slug")

end Repositories

end Snowcat
