import Snowcat.Queue.Operator
import Snowcat.Queue.Predecessor

/-!
# Artifacts of completed work

The three writers of a completed item's result: the verification of one
artifact is replaced, an artifact an operator produced is attached, and a
reviewed draft is recorded as ready. None of them changes anything of the
item but its result.
-/

namespace Snowcat

/-- Rewrite the first entry of a list that a test accepts. -/
def modifyFirst {α : Type} (p : α → Bool) (f : α → α) : List α → List α
  | [] => []
  | a :: as => if p a = true then f a :: as else a :: modifyFirst p f as

section ModifyFirst

variable {α : Type} {p q : α → Bool} {f : α → α} {a : α} {l : List α}

/-- The entry that is rewritten is the first one the test accepts. -/
theorem modifyFirst_eq_set {i : ℕ} (hi : l[i]? = some a) (ha : p a = true)
    (hfirst : ∀ j < i, ∀ b, l[j]? = some b → p b = false) :
    modifyFirst p f l = l.set i (f a) ∧ l.find? p = some a := by
  induction l generalizing i with
  | nil => exact nomatch hi
  | cons b l ih =>
    cases i with
    | zero =>
      obtain rfl : b = a := Option.some.inj hi
      rw [modifyFirst, if_pos ha, List.find?_cons_of_pos ha]
      exact ⟨rfl, rfl⟩
    | succ i =>
      have hb : ¬ p b = true := Bool.eq_false_iff.mp (hfirst 0 (Nat.succ_pos i) b rfl)
      obtain ⟨hset, hfind⟩ := ih hi fun j hj c hc => hfirst (j + 1) (Nat.succ_lt_succ hj) c hc
      rw [modifyFirst, if_neg hb, List.find?_cons_of_neg hb, hset]
      exact ⟨rfl, hfind⟩

/-- A search the rewriting does not disturb finds the entry it found, or the
entry rewritten. -/
theorem find?_modifyFirst (hq : ∀ b, q (f b) = q b) (h : l.find? q = some a) :
    (modifyFirst p f l).find? q = some a ∨ (modifyFirst p f l).find? q = some (f a) := by
  induction l with
  | nil => exact nomatch h
  | cons b l ih =>
    rw [modifyFirst]
    by_cases hb : q b = true
    · obtain rfl : b = a := Option.some.inj ((List.find?_cons_of_pos hb).symm.trans h)
      split
      · exact Or.inr (List.find?_cons_of_pos ((hq b).trans hb))
      · exact Or.inl (List.find?_cons_of_pos hb)
    · rw [List.find?_cons_of_neg hb] at h
      split
      · rw [List.find?_cons_of_neg (by rw [hq]; exact hb)]
        exact Or.inl h
      · rw [List.find?_cons_of_neg hb]
        exact ih h

/-- Entries before the rewritten one did not pass the test, which is what a
relation between the entries may use. -/
theorem pairwise_modifyFirst {r : α → α → Prop} (h : l.Pairwise r)
    (hleft : ∀ b c, r b c → r (f b) c)
    (hright : ∀ b c, p b = false → p c = true → r b c → r b (f c)) :
    (modifyFirst p f l).Pairwise r := by
  induction l with
  | nil => exact h
  | cons b l ih =>
    rw [List.pairwise_cons] at h
    rw [modifyFirst]
    split
    · exact List.pairwise_cons.mpr ⟨fun c hc => hleft b c (h.1 c hc), h.2⟩
    · next hb =>
      refine List.pairwise_cons.mpr ⟨?_, ih h.2⟩
      rw [Bool.not_eq_true] at hb
      have hrest := h.1
      clear h ih
      induction l with
      | nil => exact fun c hc => nomatch hc
      | cons d l ih =>
        rw [modifyFirst]
        rw [List.forall_mem_cons] at hrest
        split
        · next hd => exact List.forall_mem_cons.mpr ⟨hright b d hb hd hrest.1, hrest.2⟩
        · exact List.forall_mem_cons.mpr ⟨hrest.1, ih hrest.2⟩

theorem mem_modifyFirst {b : α} (h : b ∈ modifyFirst p f l) :
    b ∈ l ∨ ∃ a ∈ l, b = f a := by
  induction l with
  | nil => exact nomatch h
  | cons c l ih =>
    rw [modifyFirst] at h
    split at h
    · rcases List.mem_cons.mp h with rfl | h
      · exact Or.inr ⟨c, List.mem_cons_self, rfl⟩
      · exact Or.inl (List.mem_cons_of_mem c h)
    · rcases List.mem_cons.mp h with rfl | h
      · exact Or.inl List.mem_cons_self
      · rcases ih h with h | ⟨a, ha, rfl⟩
        · exact Or.inl (List.mem_cons_of_mem c h)
        · exact Or.inr ⟨a, List.mem_cons_of_mem c ha, rfl⟩

end ModifyFirst

/-- The artifacts of an item's result. -/
def WorkItem.artifacts (item : WorkItem) : List WorkArtifact :=
  (item.result.map WorkResult.artifacts).getD []

/-- An item whose artifacts are rewritten. -/
def WorkItem.withArtifacts (row : WorkItem) (f : List WorkArtifact → List WorkArtifact)
    (updatedAt : Time) : WorkItem :=
  { row with
    result := row.result.map fun result => { result with artifacts := f result.artifacts }
    updatedAt }

/-- The refusal the three writers share. -/
def assertCompleted (id : String) (item : WorkItem) : Except QueueError Unit :=
  refuseIf (item.status ≠ .completed ∨ item.result = none)
    (.error s!"work item is not completed: {id}")

/-! ## Pull-request identities -/

/-- The number a decimal text denotes. -/
def decimal (s : String) : ℕ := s.toList.foldl (fun n c => 10 * n + (c.toNat - '0'.toNat)) 0

section Artifacts

variable (env : Env)

/-- `pullRequestNumber`: the number of a GitHub pull-request URL, whose path
is `/<owner>/<name>/pull/<number>` with at most a slash behind it. -/
def pullRequestNumber (value : String) : Option ℕ :=
  match env.parseUrl value with
  | none => none
  | some url =>
    let segments := splitAtSlash url.pathname
    let number := segments.getD 4 ""
    if url.protocol = "https:" ∧ toLowerCase url.hostname = "github.com" ∧
        (segments.length = 5 ∨ (segments.length = 6 ∧ segments.getD 5 "" = "")) ∧
        segments.getD 0 "" = "" ∧ segments.getD 1 "" ≠ "" ∧ segments.getD 2 "" ≠ "" ∧
        toLowerCase (segments.getD 3 "") = "pull" ∧
        Patterns.positiveInteger.test number = true then
      some (decimal number)
    else none

/-- The number a pull-request artifact was verified with. -/
def WorkArtifact.verifiedNumber (artifact : WorkArtifact) : Option ℤ :=
  match artifact.kind, artifact.verification with
  | .pullRequest, some (.verified observation) => some observation.number.toInt
  | _, _ => none

/-- `pullRequestArtifactIdentity`. -/
def pullRequestArtifactIdentity (repository : String) (artifact : WorkArtifact) : String :=
  let urlNumber := (pullRequestNumber env artifact.url).map Int.ofNat
  let url := toLowerCase artifact.url
  let slug := toLowerCase repository
  match artifact.verifiedNumber <|> urlNumber with
  | none => s!"pull-request-url:{url}"
  | some number => s!"pull-request:{slug}#{number}"

/-! ## The writers -/

/-- `recordArtifactVerification`. -/
def recordArtifactVerification (id url : String) (verification : ArtifactVerification)
    (actor : String) : QueueTx WorkItem :=
  checked
    (do
      refuseIf (isBlank actor = true) (.error "verification actor is required")
      validateVerification verification)
    fun _ =>
      decideOn env id actor none
        (fun item => do
          assertCompleted id item
          match item.artifacts.find? (fun artifact => artifact.url = url) with
          | none => .error (.error s!"work item {id} has no artifact {url}")
          | some artifact =>
            refuseIf (artifact.kind.isVerifiable = false)
              (.error s!"artifact {artifact.kind.text} is not verifiable: {url}"))
        (fun updatedAt row => row.withArtifacts
          (modifyFirst (fun artifact => artifact.url = url)
            (fun artifact => { artifact with verification := some verification })) updatedAt)
        (fun _ _ => rfl)
        (fun item =>
          let previous := item.artifacts.find? (fun artifact => artifact.url = url)
          .artifactVerified url ((previous.map WorkArtifact.kind).getD .other)
            verification.status verification.state? (previous.bind WorkArtifact.observed)
            verification.handoffStatus?
            ((previous.bind WorkArtifact.verification).bind ArtifactVerification.handoffStatus?))

/-- The artifact an operator attaches, as it is stored. -/
def AttachedArtifact.artifact (attached : AttachedArtifact) : WorkArtifact :=
  ⟨attached.kind, attached.url, attached.description, attached.verification⟩

/-- The checks of an attachment that do not read the item. -/
def validateAttachment (actor : String) (attached : AttachedArtifact) :
    Except QueueError ArtifactVerification := do
  let _ ← validateOperatorActor actor "attach-artifact"
  refuseIf (attached.kind.isVerifiable = false)
    (.error s!"artifact kind must be issue, pull-request, or release: {attached.kind.text}")
  let verification ← match attached.verification with
    | none => .error (.error "attached artifact requires a verification")
    | some verification => .ok verification
  validateVerification verification
  refuseSome (fun description => do
    refuseIf (isBlank description = true) (.error "artifact description must not be empty")
    refuseIf (maxOperatorNoteLength < jsLength description)
      (.error s!"artifact description exceeds {maxOperatorNoteLength} characters"))
    attached.description
  pure verification

/-- `attachArtifact`. -/
def attachArtifact (id actor : String) (attached : AttachedArtifact)
    (precondition : Option MutationPrecondition) : QueueTx WorkItem :=
  checked (validateAttachment actor attached) fun verification =>
    decideOn env id actor precondition
      (fun item => do
        assertCompleted id item
        validateArtifact env attached.artifact
        assertGitHubArtifactScope env item.repository attached.artifact
        refuseIf (∃ existing ∈ item.artifacts, existing.url = attached.url)
          (.error s!"artifact already reported: {attached.url}"))
      (fun updatedAt row => row.withArtifacts (· ++ [attached.artifact]) updatedAt)
      (fun _ _ => rfl)
      (fun _ => .artifactAttached attached.url attached.kind verification.status
        verification.state?)

/-- A verification that no longer says draft. -/
def ArtifactVerification.undrafted : ArtifactVerification → ArtifactVerification
  | .verified observation => .verified { observation with draft := none }
  | .unverified attemptedAt reason => .unverified attemptedAt reason

/-- `recordPullRequestReady`. -/
def recordPullRequestReady (id url actor headSha reviewItemId : String) : QueueTx WorkItem :=
  checked (validateOperatorActor actor "ready-for-review") fun _ =>
    let identified (item : WorkItem) (artifact : WorkArtifact) : Bool :=
      artifact.kind = .pullRequest &&
        pullRequestArtifactIdentity env item.repository artifact =
          pullRequestArtifactIdentity env item.repository ⟨.pullRequest, url, none, none⟩
    decideOn env id actor none
      (fun item => do
        assertCompleted id item
        refuseIf ((item.artifacts.find? (identified item)).isNone = true)
          (.error s!"work item {id} has no artifact {url}"))
      (fun updatedAt row => row.withArtifacts
        (modifyFirst (identified row)
          (fun artifact =>
            { artifact with
              verification := artifact.verification.map ArtifactVerification.undrafted }))
        updatedAt)
      (fun _ _ => rfl) (fun _ => .artifactReady url headSha reviewItemId)

end Artifacts

end Snowcat
