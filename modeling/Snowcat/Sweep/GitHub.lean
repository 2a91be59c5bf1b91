import Snowcat.Queue.Runs

/-!
# What a pass over GitHub is made of

The verification passes read GitHub and act on the queue. One pass is not
one transaction: it awaits an answer between two calls of the store, and
while it waits anybody else may call the store too. A pass is therefore a
computation over `Pass`, the queue together with the list of every call it
has taken so far. A call goes through `perform`; `githubApiJson` hands the
queue to the others (`Outside.meanwhile`) before it returns the answer.

The world of a pass is the world its calls reach, by the type of `Pass`.
What holds after every run of calls holds at every point of every pass.
-/

namespace Snowcat

/-! ## Answers -/

/-- A JSON value. An object may repeat a key, and the last one counts. -/
inductive Json where
  | null
  | bool (b : Bool)
  | number (n : JsNumber)
  | text (s : String)
  | array (values : List Json)
  | object (fields : List (String × Json))

namespace Json

/-- `asObject`. -/
def asObject : Json → Option (List (String × Json))
  | .object fields => some fields
  | _ => none

/-- `asObject(value)?.key`. -/
def field (key : String) (value : Json) : Option Json :=
  value.asObject.bind fun fields => (fields.reverse.find? fun f => f.1 = key).map Prod.snd

/-- The text of a value, when it is one. -/
def text? : Json → Option String
  | .text s => some s
  | _ => none

/-- The elements of a value, when it is an array. -/
def array? : Json → Option (List Json)
  | .array values => some values
  | _ => none

/-- Whether a value is `true`, and not merely truthy. -/
def isTrue : Json → Bool
  | .bool b => b
  | _ => false

/-- Whether a value is `false`, and not merely falsy. -/
def isFalse : Json → Bool
  | .bool b => !b
  | _ => false

end Json

/-- `GitHubJsonResponse`. -/
inductive GitHubJsonResponse where
  | response (status : ℤ) (value : Json)
  | unavailable

/-- **A request to GitHub**: the REST paths and the GraphQL documents the
passes send. -/
inductive GitHubRequest where
  /-- `/repos/<owner>/<name>/pulls/<number>` -/
  | pull (owner name : String) (number : ℕ)
  /-- `/repos/<owner>/<name>/issues/<number>` -/
  | issue (owner name : String) (number : ℕ)
  /-- `/repos/<owner>/<name>/releases/tags/<tag>` -/
  | releaseByTag (owner name tag : String)
  /-- `/repos/<owner>/<name>/releases?per_page=100` -/
  | releases (owner name : String)
  /-- `/repos/<owner>/<name>/commits/<sha>/check-runs?per_page=100` -/
  | checkRuns (owner name sha : String)
  /-- `/repos/<owner>/<name>/pulls/<number>/reviews?per_page=100` -/
  | reviews (owner name : String) (number : ℕ)
  /-- `/repos/<owner>/<name>/pulls/<number>/files?per_page=100&page=<page>` -/
  | files (owner name : String) (number page : ℕ)
  /-- `/repos/<owner>/<name>/pulls?state=open&per_page=100&page=<page>` -/
  | openPulls (owner name : String) (page : ℕ)
  /-- `REVIEW_THREADS_QUERY` -/
  | reviewThreads (owner name : String) (number : ℕ)
  /-- `PULL_REQUEST_LAST_EDITED_QUERY` -/
  | lastEdited (owner name : String) (number : ℕ)
  /-- `MARK_READY_MUTATION` -/
  | markReady (id : String)
  /-- `CONVERT_TO_DRAFT_MUTATION` -/
  | convertToDraft (id : String)
  deriving DecidableEq, Repr

/-- A text that is not blank. -/
abbrev Text := { s : String // isBlank s = false }

theorem isBlank_newYear : isBlank "2026-01-01T00:00:00.000Z" = false := rfl

/-- What `validatePullRequestHandoff` says of a body once it has read the
repository's template. -/
inductive PullRequestHandoffCheck where
  | valid
  | unverified (reason : Text)
  | rejected (reason : Text)

/-- A SHA-256 digest as the queue spells it. -/
abbrev Digest := { s : String // Patterns.sha256Digest.test s = true }

/-- The digest that is all zeros. -/
def Digest.zero : Digest :=
  ⟨"sha256:0000000000000000000000000000000000000000000000000000000000000000", by decide +kernel⟩

/-- A changed file, as the identity of a patch is computed from it. -/
structure PatchFile where
  filename : String
  status : String
  previous : Option String
  changes : List String
  sha : Option String
  deriving DecidableEq, Repr

/-- **What a pass meets outside the queue.** What answers by `ℕ` answers by
the number of questions the pass has asked so far; the rest is the
platform. -/
structure Outside where
  /-- What GitHub answers. -/
  answer : ℕ → GitHubRequest → GitHubJsonResponse
  /-- What anybody else asks of the store while the pass waits. -/
  meanwhile : ℕ → List Op
  /-- What the `policyAuthority` hook answers when a pass asks it. -/
  policyAuthority : ℕ → String → Option PolicyAuthority
  /-- Whether `SNOWCAT_GITHUB_TOKEN` is set. -/
  credentialed : Bool
  /-- `Number`, on a JSON value. -/
  number : Json → JsNumber
  /-- The digest of the JSON of some files. -/
  digest : List PatchFile → Digest
  /-- `new Date().toISOString()`. -/
  time : ℕ → Text
  /-- What the reading of a repository's template and of the Markdown of a
  pull request's body makes of it. -/
  handoff : ℕ → String → PullRequestHandoffCheck

/-! ## Passes -/

/-- **The queue as a pass finds it**: every call it has taken, the world
they reach, and what has been asked outside. -/
structure Pass (env : Env) where
  /-- Every call of the store so far, oldest first. -/
  calls : List Op
  /-- The queue. -/
  world : World
  /-- How many questions have been asked so far. -/
  asks : ℕ
  /-- Every request to GitHub so far, oldest first. -/
  sent : List GitHubRequest
  /-- The queue is where its calls lead. -/
  reached : world = exec env calls

/-- A computation of a pass. -/
abbrev PassTx (env : Env) : Type → Type := Tx (Pass env) QueueError

namespace Pass

variable {env : Env}

/-- The queue nobody has called yet. -/
def start (env : Env) : Pass env := ⟨[], World.empty, 0, [], rfl⟩

/-- The queue after some more calls. -/
def after (s : Pass env) (ops : List Op) : Pass env where
  calls := s.calls ++ ops
  world := (queue env).after s.world ops
  asks := s.asks
  sent := s.sent
  reached := by rw [s.reached, exec, exec, (queue env).run_append]

/-- The queue once a question has been answered, a request to GitHub or
another. -/
def asked (s : Pass env) (request : Option GitHubRequest) (ops : List Op) : Pass env :=
  { s.after ops with
    asks := s.asks + 1
    sent := s.sent ++ request.toList }

/-- The tables. -/
def db (s : Pass env) : Db := s.world.db

@[simp] theorem calls_after (s : Pass env) (ops : List Op) :
    (s.after ops).calls = s.calls ++ ops := rfl

@[simp] theorem asks_after (s : Pass env) (ops : List Op) : (s.after ops).asks = s.asks := rfl

@[simp] theorem sent_after (s : Pass env) (ops : List Op) : (s.after ops).sent = s.sent := rfl

@[simp] theorem calls_asked (s : Pass env) (request : Option GitHubRequest) (ops : List Op) :
    (s.asked request ops).calls = s.calls ++ ops := rfl

@[simp] theorem asks_asked (s : Pass env) (request : Option GitHubRequest) (ops : List Op) :
    (s.asked request ops).asks = s.asks + 1 := rfl

@[simp] theorem sent_asked (s : Pass env) (request : Option GitHubRequest) (ops : List Op) :
    (s.asked request ops).sent = s.sent ++ request.toList := rfl

theorem db_eq (s : Pass env) : s.db = (exec env s.calls).db := by rw [db, s.reached]

/-- Where nobody calls meanwhile, an answer leaves the tables alone. -/
@[simp] theorem db_asked_nil (s : Pass env) (request : Option GitHubRequest) :
    (s.asked request []).db = s.db := rfl

end Pass

section Primitives

variable {env : Env} (out : Outside)

/-- A call of the store. -/
def perform (op : Op) : PassTx env Reply := fun s => ((op.run env s.world).1, s.after [op])

/-- Read the store. -/
def view {α : Type} (f : Db → α) : PassTx env α := Tx.read fun s => f s.db

/-- **`githubApiJson`** and `githubGraphql`: send the request and take the
answer; meanwhile anybody may call the store. -/
def githubApiJson (request : GitHubRequest) : PassTx env GitHubJsonResponse := do
  let asks ← Tx.read Pass.asks
  Tx.update fun s => s.asked (some request) (out.meanwhile asks)
  pure (out.answer asks request)

/-- `policyAuthorityFor`. -/
def policyAuthorityFor (repository : String) : PassTx env (Option PolicyAuthority) := do
  let asks ← Tx.read Pass.asks
  if env.policyAuthority.isSome = true then do
    Tx.update fun s => s.asked none []
    pure (out.policyAuthority asks repository)
  else pure none

/-! ### What each of them returns -/

@[simp] theorem returns_perform {op : Op} {s t : Pass env} {r : Reply} :
    (perform op).Returns s r t ↔ (op.run env s.world).1 = .ok r ∧ t = s.after [op] := by
  simp only [Tx.Returns, perform, Prod.mk.injEq]
  exact and_congr_right fun _ => eq_comm

@[simp] theorem throws_perform {op : Op} {s : Pass env} {e : QueueError} :
    (perform op).Throws s e ↔ (op.run env s.world).1 = .error e := Iff.rfl

@[simp] theorem returns_view {α : Type} {f : Db → α} {s t : Pass env} {a : α} :
    (view f).Returns s a t ↔ a = f s.db ∧ t = s := Tx.returns_read

@[simp] theorem throws_view {α : Type} {f : Db → α} {s : Pass env} {e : QueueError} :
    (view f).Throws s e ↔ False := Tx.throws_read

@[simp] theorem returns_githubApiJson {request : GitHubRequest} {s t : Pass env}
    {a : GitHubJsonResponse} :
    (githubApiJson out request).Returns s a t ↔
      a = out.answer s.asks request ∧ t = s.asked (some request) (out.meanwhile s.asks) := by
  simp only [githubApiJson, Tx.returns_bind, Tx.returns_read, Tx.returns_update, Tx.returns_pure]
  constructor
  · rintro ⟨_, _, ⟨rfl, rfl⟩, _, _, rfl, rfl, rfl⟩
    exact ⟨rfl, rfl⟩
  · rintro ⟨rfl, rfl⟩
    exact ⟨_, _, ⟨rfl, rfl⟩, (), _, rfl, rfl, rfl⟩

@[simp] theorem throws_githubApiJson {request : GitHubRequest} {s : Pass env} {e : QueueError} :
    (githubApiJson out request).Throws s e ↔ False := by
  simp [githubApiJson]

@[simp] theorem returns_policyAuthorityFor {repository : String} {s t : Pass env}
    {a : Option PolicyAuthority} :
    (policyAuthorityFor out repository).Returns s a t ↔
      if env.policyAuthority.isSome = true then
        a = out.policyAuthority s.asks repository ∧ t = s.asked none []
      else a = none ∧ t = s := by
  simp only [policyAuthorityFor, Tx.returns_bind, Tx.returns_read]
  constructor
  · rintro ⟨_, _, ⟨rfl, rfl⟩, h⟩
    split at h
    · next hsome =>
      simp only [Tx.returns_bind, Tx.returns_update, Tx.returns_pure] at h
      obtain ⟨_, _, rfl, rfl, rfl⟩ := h
      rw [if_pos hsome]
      exact ⟨rfl, rfl⟩
    · next hnone =>
      rw [if_neg hnone]
      exact Tx.returns_pure.mp h
  · intro h
    refine ⟨_, _, ⟨rfl, rfl⟩, ?_⟩
    split_ifs at h ⊢
    · obtain ⟨rfl, rfl⟩ := h
      exact Tx.returns_bind.mpr ⟨(), _, Tx.returns_update.mpr rfl, Tx.returns_pure.mpr ⟨rfl, rfl⟩⟩
    · exact Tx.returns_pure.mpr h

/-! ### What each of them leaves -/

instance appends_sent_githubApiJson {C : GitHubRequest → Prop} {request : GitHubRequest}
    [hC : Fact (C request)] :
    (githubApiJson out request : PassTx env GitHubJsonResponse).Appends Pass.sent C :=
  ⟨fun _ => ⟨[request], rfl, fun _ hr => List.mem_singleton.mp hr ▸ hC.out⟩⟩

instance appends_sent_perform {C : GitHubRequest → Prop} (op : Op) :
    (perform op : PassTx env Reply).Appends Pass.sent C := Tx.appends_of_eq fun _ => rfl

end Primitives

/-- The messages of a GraphQL envelope's errors. -/
def graphqlErrors (envelope : Json) : List String :=
  (((envelope.field "errors").bind Json.array?).getD []).filterMap fun error =>
    (error.field "message").bind Json.text?

/-! ## Pull requests on GitHub -/

/-- A commit as GitHub names it: `/^[0-9a-f]{40}$/i`. -/
def Patterns.anyCaseCommitSha : Pattern :=
  Pattern.times (.one fun c => hexDigit c || ('A' ≤ c && c ≤ 'F')) 40

/-- The first seven characters of a commit, as messages name it. -/
def shortSha (sha : String) : String := String.ofList (sha.toList.take 7)

/-- Where a pull request is on GitHub. -/
structure PullRequestLocator where
  owner : String
  name : String
  number : ℕ
  deriving DecidableEq, Repr

/-- `parsePullRequestUrl`. -/
def parsePullRequestUrl (env : Env) (repository url : String) : Option PullRequestLocator :=
  match env.parseUrl url with
  | none => none
  | some parsed =>
    let owner := (splitAtSlash repository).getD 0 ""
    let name := (splitAtSlash repository).getD 1 ""
    let segments := splitAtSlash parsed.pathname
    if toLowerCase parsed.hostname ≠ "github.com" ∨ segments.length ≠ 5 ∨
        toLowerCase (segments.getD 1 "") ≠ toLowerCase owner ∨
        toLowerCase (segments.getD 2 "") ≠ toLowerCase name ∨ segments.getD 3 "" ≠ "pull" ∨
        Patterns.positiveInteger.test (segments.getD 4 "") = false then none
    else some ⟨owner, name, decimal (segments.getD 4 "")⟩

/-- The state of a pull request, by what GitHub says of it. -/
inductive PullRequestState where
  | opened
  | closed
  | merged
  deriving DecidableEq, Repr

/-- The text of the state. -/
def PullRequestState.text : PullRequestState → String
  | .opened => "open"
  | .closed => "closed"
  | .merged => "merged"

/-- What `GET /pulls/N` says, once it has been checked. -/
structure PullRecord where
  /-- The head's SHA, as GitHub spells it. -/
  sha : String
  state : PullRequestState
  draft : Bool
  title : String
  nodeId : Option String
  mergeableState : Option String

/-- How a read of a pull request ended. -/
inductive PullCheck (α : Type) where
  | found (record : α)
  | unavailable (reason : String)
  | rejected (reason : String)

section Pulls

variable {env : Env} (out : Outside)

/-- The state of `GET /pulls/N`. -/
def pullState (record : Json) : PullRequestState :=
  if (record.field "merged").any Json.isTrue = true then .merged
  else if (record.field "state").bind Json.text? = some "closed" then .closed
  else if (record.field "state").bind Json.text? = some "open" then .opened
  else .closed

/-- The checks of `GET /pulls/N` that `readPullRequestHead` and
`inspectPullRequestHealth` share. -/
def checkPull (repository url : String) (locator : PullRequestLocator) :
    GitHubJsonResponse → PullCheck PullRecord
  | .unavailable => .unavailable "GitHub API unavailable"
  | .response status value =>
    if status = 404 ∨ status = 410 then
      if out.credentialed = false then
        .unavailable s!"GitHub returned {status} without SNOWCAT_GITHUB_TOKEN"
      else .rejected s!"pull request {url} does not exist on GitHub"
    else if status ≠ 200 then .unavailable s!"GitHub API returned HTTP {status}"
    else
      match value.asObject with
      | none => .unavailable "GitHub response was not an object"
      | some _ =>
        let base := ((value.field "base").bind (Json.field "repo")).bind (Json.field "full_name")
        let sha := ((value.field "head").bind (Json.field "sha")).bind Json.text?
        if (value.field "number").map out.number ≠ some (.int locator.number) then
          .rejected s!"pull request number does not match {url}"
        else if (base.bind Json.text?).map toLowerCase ≠ some (toLowerCase repository) then
          .rejected s!"pull request {url} does not target {repository}"
        else
          match sha.filter fun sha => Patterns.anyCaseCommitSha.test sha with
          | none => .unavailable "GitHub response has no head SHA"
          | some sha =>
            .found
              { sha
                state := pullState value
                draft := (value.field "draft").any Json.isTrue
                title := ((value.field "title").bind Json.text?).getD ""
                nodeId := (value.field "node_id").bind Json.text?
                mergeableState := (value.field "mergeable_state").bind Json.text? }

/-- `PullRequestHead`. -/
structure PullRequestHead where
  number : ℕ
  url : String
  nodeId : Option String
  headSha : String
  state : PullRequestState
  draft : Bool
  title : String
  deriving DecidableEq, Repr

/-- The head a checked record is read as. -/
def PullRecord.head (record : PullRecord) (locator : PullRequestLocator) (url : String) :
    PullRequestHead where
  number := locator.number
  url
  nodeId := record.nodeId
  headSha := toLowerCase record.sha
  state := record.state
  draft := record.draft
  title := record.title

/-- **`readPullRequestHead`.** -/
def readPullRequestHead (repository url : String) : PassTx env (PullCheck PullRequestHead) :=
  match parsePullRequestUrl env repository url with
  | none => pure (.rejected s!"{url} is not a {repository} pull-request URL")
  | some locator => do
    let pull ← githubApiJson out (.pull locator.owner locator.name locator.number)
    match checkPull out repository url locator pull with
    | .unavailable reason => pure (.unavailable reason)
    | .rejected reason => pure (.rejected reason)
    | .found record => pure (.found (record.head locator url))

end Pulls

end Snowcat
