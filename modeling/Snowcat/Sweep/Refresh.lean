import Snowcat.Queue.Lifecycle
import Snowcat.Sweep.Verification

/-!
# Refreshing the artifacts of completed work

`refreshArtifactVerifications` takes the completed items that have an
artifact GitHub may still say something new about, asks about each of them,
and records the answer through `recordArtifactVerification`. The store finds
the artifact by its URL, and takes the first one that has it.

A completion may list one URL twice. Where an earlier artifact has the URL of
one that is pending, the store refuses the record, or replaces the wrong
verification, and a refusal ends the whole pass. That is the only way:
`artifacts_refreshed` says that in a run whose completions never list a
pending artifact behind another with its URL, every record hits its artifact
and every pass gets to the end of its list.
-/

namespace Snowcat

/-! ## What is pending -/

/-- Whether GitHub may still say something new about an artifact: the test of
`pendingArtifacts`. -/
def WorkArtifact.isPending (artifact : WorkArtifact) : Bool :=
  artifact.kind.isVerifiable &&
    match artifact.verification with
    | some (.verified o) => o.state = .opened || o.state = .draft
    | _ => true

/-- `pendingArtifacts`. -/
def pendingArtifacts (item : WorkItem) : List WorkArtifact :=
  item.artifacts.filter WorkArtifact.isPending

/-- Newer before older: by the last write, and then by the creation. -/
def newerFirst (a b : WorkItem) : Bool :=
  b.updatedAt < a.updatedAt || (a.updatedAt = b.updatedAt && b.createdAt ≤ a.createdAt)

/-- `completedItemsWithPendingArtifacts`. -/
def completedItemsWithPendingArtifacts (db : Db) (repository : Option String) (limit : ℤ) :
    List WorkItem :=
  ((db.items.rows.filter fun item =>
      item.rowStatus = .completed && item.result.isSome &&
        repository.all (fun r => item.repository = r) &&
        item.artifacts.any WorkArtifact.isPending).mergeSort newerFirst).take (max 1 limit).toNat

/-! ## The pass -/

/-- What the refresh did about one artifact. -/
inductive RefreshOutcome where
  | unavailable (reason : String)
  | rejected (reason : String)
  | unchanged
  | updated (state : ObservedState)
  deriving DecidableEq, Repr

/-- One artifact of the report. The counts and lists of
`RefreshArtifactsResult` are read off these. -/
structure RefreshEntry where
  id : String
  url : String
  outcome : RefreshOutcome
  deriving DecidableEq, Repr

/-- The reason of a hand-off check. -/
def Handoff.reason : Handoff → String
  | .unverified _ reason => reason
  | .rejected _ reason => reason

namespace VerifiedObservation

/-- Whether two observations agree in state, head and draft flag. -/
def agrees (o o' : VerifiedObservation) : Bool :=
  o.state = o'.state && o.headSha = o'.headSha && o.draft = o'.draft

/-- Whether an observation says what the previous verification said, hand-off
included. -/
def repeats (o : VerifiedObservation) : Option ArtifactVerification → Bool
  | some (.verified previous) => previous.agrees o &&
      previous.handoff.map Handoff.status = o.handoff.map Handoff.status &&
      previous.handoff.map Handoff.reason = o.handoff.map Handoff.reason
  | _ => false

/-- Whether the previous verification was a rejection of the hand-off for the
same reason. -/
def repeatsRejection (o : VerifiedObservation) (reason : String) :
    Option ArtifactVerification → Bool
  | some (.verified previous) => previous.agrees o &&
      match previous.handoff with
      | some (.rejected _ previousReason) => previousReason = reason
      | _ => false
  | _ => false

/-- An observation that keeps the hand-off check of the previous one. -/
def keepingHandoff (o : VerifiedObservation) : Option ArtifactVerification → VerifiedObservation
  | some (.verified previous) => { o with handoff := o.handoff <|> previous.handoff }
  | _ => o

end VerifiedObservation

/-- Whether the refresh checks the hand-off of an artifact. -/
def shouldCheckHandoff (artifact : WorkArtifact) (evidence : List String) : Bool :=
  artifact.kind = .pullRequest &&
    match artifact.verification with
    | some (.unverified _ _) => evidence ≠ []
    | some (.verified o) => o.handoff.isSome
    | none => false

section Refresh

variable {env : Env} (out : Outside)

/-- Record a verification, and report what was done. -/
def recordAndReport (actor : String) (item : WorkItem) (artifact : WorkArtifact)
    (verification : ArtifactVerification) (outcome : RefreshOutcome) : PassTx env RefreshEntry := do
  let _ ← perform (.recordArtifactVerification item.id artifact.url verification actor)
  pure ⟨item.id, artifact.url, outcome⟩

/-- One artifact of `refreshArtifactVerifications`. -/
def refreshArtifact (actor : String) (item : WorkItem) (artifact : WorkArtifact) :
    PassTx env RefreshEntry := do
  let evidence := (item.result.map WorkResult.evidence).getD []
  let checksHandoff := shouldCheckHandoff artifact evidence
  let check ← verifyGitHubArtifact out item.repository artifact
    (if checksHandoff = true then item.result.map WorkResult.evidence else none) true
  match check with
  | .unverified _ reason => pure ⟨item.id, artifact.url, .unavailable reason⟩
  | .rejected reason => do
    let attemptedAt ← readTime out
    recordAndReport actor item artifact (.unverified attemptedAt s!"rejected: {reason}")
      (.rejected reason)
  | .handoffRejected o reason =>
    if o.repeatsRejection reason artifact.verification = true then
      pure ⟨item.id, artifact.url, .rejected reason⟩
    else recordAndReport actor item artifact (.verified o) (.rejected reason)
  | .verified observed =>
    let o := if checksHandoff = true then observed else observed.keepingHandoff artifact.verification
    if o.repeats artifact.verification = true then pure ⟨item.id, artifact.url, .unchanged⟩
    else recordAndReport actor item artifact (.verified o) (.updated o.state)

/-- The selection the passes share: the option names no repository when it is
empty. -/
def selectPendingItems (repository : Option String) (limit : ℤ) :
    PassTx env (List WorkItem) := do
  let named := repository.filter fun r => r ≠ ""
  Tx.ofExcept (refuseSome validateRepository named)
  view fun db => completedItemsWithPendingArtifacts db named limit

/-- **`refreshArtifactVerifications`.** -/
def refreshArtifactVerifications (repository : Option String) (limit : ℤ) (actor : String) :
    PassTx env (List RefreshEntry) := do
  let items ← selectPendingItems repository limit
  let entries ← Tx.each (fun item =>
    Tx.each (refreshArtifact out actor item) (pendingArtifacts item)) items
  pure entries.flatten

end Refresh

/-! ## What the rows keep -/

/-- No pending artifact of the list has the URL of one before it. -/
def Apart (artifacts : List WorkArtifact) : Prop :=
  artifacts.Pairwise fun earlier later => later.isPending = true → earlier.url ≠ later.url

instance (artifacts : List WorkArtifact) : Decidable (Apart artifacts) := by
  unfold Apart
  infer_instance

/-- **The condition on a call**: a completion does not list a pending
artifact behind another with its URL. -/
def Op.ReportsApart : Op → Prop
  | .complete input => Apart input.result.artifacts
  | _ => True

theorem artifacts_renamed {source target : String} {item : WorkItem} :
    (item.renamed source target).artifacts = item.artifacts := by
  unfold WorkItem.renamed
  split <;> rfl

/-- What the stored artifacts of an item are: apart, and with valid
verifications. -/
structure Refreshable (item : WorkItem) : Prop where
  apart : Apart item.artifacts
  valid : ∀ artifact ∈ item.artifacts, ∀ v, artifact.verification = some v →
    validateVerification v = .ok ()

namespace Refreshable

variable {env : Env} {op : Op} {lo hi : ℕ} {item item' : WorkItem} {ps : List Posting}

theorem of_nil (h : item.artifacts = []) : Refreshable item := by
  constructor
  · rw [h]
    exact List.Pairwise.nil
  · intro artifact hartifact
    rw [h] at hartifact
    exact nomatch hartifact

theorem of_eq (h : Refreshable item) (heq : item'.artifacts = item.artifacts) :
    Refreshable item' := by
  constructor
  · rw [heq]
    exact h.apart
  · rw [heq]
    exact h.valid

/-- What `undrafted` keeps of an artifact: whether it is pending. -/
theorem isPending_undrafted (artifact : WorkArtifact) :
    ({ artifact with
      verification := artifact.verification.map ArtifactVerification.undrafted } :
        WorkArtifact).isPending = artifact.isPending := by
  unfold WorkArtifact.isPending
  cases hv : artifact.verification with
  | none => rfl
  | some v => cases v <;> rfl

theorem undrafted_valid {v : ArtifactVerification} (h : validateVerification v = .ok ()) :
    validateVerification v.undrafted = .ok () := by
  cases v with
  | verified o => exact h
  | unverified attemptedAt reason => exact h

theorem valid_of_validateArtifact {artifact : WorkArtifact} {v : ArtifactVerification}
    (h : validateArtifact env artifact = .ok ()) (hv : artifact.verification = some v) :
    validateVerification v = .ok () := by
  simp only [validateArtifact, except_bind_eq_ok, refuseSome_eq_ok] at h
  obtain ⟨_, hverification, -⟩ := h
  obtain ⟨_, -, hvalid⟩ := hverification v hv
  exact hvalid

/-- A reported result has valid verifications. -/
theorem valid_of_validateResult {result : WorkResult} (h : validateResult env result = .ok ()) :
    ∀ artifact ∈ result.artifacts, ∀ v, artifact.verification = some v →
      validateVerification v = .ok () := by
  intro artifact hartifact v hv
  simp only [validateResult, except_bind_eq_ok, refuseEach_eq_ok] at h
  obtain ⟨_, -, _, -, _, -, hall⟩ := h
  exact valid_of_validateArtifact (hall artifact hartifact) hv

/-- What the writers of artifacts keep. -/
theorem of_artifactsChange (h : Refreshable item)
    {f : List WorkArtifact → List WorkArtifact} (hf : ArtifactsChange env op item f) :
    Apart (f item.artifacts) ∧ ∀ artifact ∈ f item.artifacts, ∀ v,
      artifact.verification = some v → validateVerification v = .ok () := by
  cases hf with
  | verified _ hvalid =>
    refine ⟨pairwise_modifyFirst h.apart (fun _ _ hr => hr) fun b c hb hc _ _ hurl => ?_,
      fun artifact hartifact v hv => ?_⟩
    · -- the record's URL is the artifact's, and no artifact before it has it
      exact of_decide_eq_false hb (hurl.trans (of_decide_eq_true hc))
    · rcases mem_modifyFirst hartifact with hold | ⟨_, -, rfl⟩
      · exact h.valid artifact hold v hv
      · exact Option.some.inj hv ▸ hvalid
  | attached _ hvalid _ hnew =>
    refine ⟨List.pairwise_append.mpr ⟨h.apart, List.pairwise_singleton _ _, ?_⟩,
      fun artifact hartifact v hv => ?_⟩
    · intro b hb c hc _
      rw [List.mem_singleton.mp hc]
      exact hnew b hb
    · rcases List.mem_append.mp hartifact with hold | hattached
      · exact h.valid artifact hold v hv
      · rw [List.mem_singleton.mp hattached] at hv
        exact valid_of_validateArtifact hvalid hv
  | ready =>
    refine ⟨pairwise_modifyFirst h.apart (fun _ _ hr => hr) fun b c _ _ hr hpending => ?_,
      fun artifact hartifact v hv => ?_⟩
    · rw [isPending_undrafted] at hpending
      exact hr hpending
    · rcases mem_modifyFirst hartifact with hold | ⟨old, hold, rfl⟩
      · exact h.valid artifact hold v hv
      · obtain ⟨v', hv', rfl⟩ := Option.map_eq_some_iff.mp hv
        exact undrafted_valid (h.valid old hold v' hv')

/-- The artifacts of an item whose artifacts are rewritten; no artifact comes
from nowhere. -/
theorem artifacts_withArtifacts (f : List WorkArtifact → List WorkArtifact) (t : Time) :
    (item.withArtifacts f t).artifacts = f item.artifacts ∨
      (item.withArtifacts f t).artifacts = [] := by
  unfold WorkItem.artifacts WorkItem.withArtifacts
  cases item.result with
  | none => exact Or.inr rfl
  | some result => exact Or.inl rfl

/-- **Every write keeps the artifacts apart**, when no completion brings them
together. -/
theorem move (hop : op.ReportsApart) (h : Refreshable item)
    (hm : RowMove env op lo hi item item' ps) : Refreshable item' := by
  cases hm with
  | complete _ _ _ hguard =>
    obtain ⟨input, rfl, -, rfl, -⟩ := hguard.completing
    exact ⟨hop, valid_of_validateResult hguard.valid⟩
  | artifacts _ _ _ hchange =>
    rcases @artifacts_withArtifacts item _ _ with heq | heq
    · obtain ⟨hapart, hvalid⟩ := h.of_artifactsChange hchange
      exact ⟨heq ▸ hapart, heq ▸ hvalid⟩
    · exact of_nil heq
  | block | reject | requeue | cancel => exact of_nil rfl
  | claim | heartbeat | release | approve | defer | note | prioritize | releaseLease
    | predecessors => exact h.of_eq rfl

theorem born {db : Db} {row : WorkItem} {p : Posting} (h : Birth env op lo hi db row p) :
    Refreshable row := by
  cases h <;> exact of_nil rfl

theorem renamed {source target : String} (h : Refreshable item) :
    Refreshable (item.renamed source target) := h.of_eq artifacts_renamed

end Refreshable

variable {env : Env}

/-- In every run whose completions keep them apart, the artifacts of every
item are. -/
theorem refreshable_exec {ops : List Op} (hops : ∀ op ∈ ops, op.ReportsApart) :
    EveryRow (fun item _ => Refreshable item) (exec env ops).db :=
  row_invariant_on (C := Op.ReportsApart) (fun _ hbirth => .born hbirth)
    (fun hop h hm => h.move hop hm) .renamed hops

/-! ## What stays recordable -/

/-- A record about a URL finds a verifiable artifact of a completed item. -/
def Recordable (db : Db) (id url : String) : Prop :=
  ∃ item artifact, db.items.find? id = some item ∧ item.rowStatus = .completed ∧
    item.artifacts.find? (fun artifact => artifact.url = url) = some artifact ∧
    artifact.kind.isVerifiable = true

section Recordable

variable {op : Op} {lo hi : ℕ} {item item' : WorkItem} {ps : List Posting} {db db' : Db}
variable {id url : String}

/-- A write of a completed item leaves its artifacts as they are, or rewrites
them. -/
theorem RowMove.artifacts_of_completed (hm : RowMove env op lo hi item item' ps)
    (h : item.rowStatus = .completed) : item'.artifacts = item.artifacts ∨
      ∃ f t, ArtifactsChange env op item f ∧ item' = item.withArtifacts f t := by
  have hne : ∀ {status : RowStatus}, item.rowStatus = status → status ≠ .completed → False :=
    fun hs hne => hne (hs.symm.trans h)
  cases hm with
  | claim _ _ hclaimable =>
    simp only [claimable, Bool.or_eq_true, Bool.and_eq_true, decide_eq_true_eq] at hclaimable
    rcases hclaimable with ⟨hs, -⟩ | ⟨hs, -⟩
    · exact (hne hs nofun).elim
    · exact (hne hs nofun).elim
  | complete hs | block hs | requeue hs => exact (hne hs nofun).elim
  | reject hs => exact (hne (WorkItem.status_eq_proposed.mp hs).1 nofun).elim
  | cancel hs =>
    rcases hs with hs | hs
    · exact (hne (WorkItem.status_eq_queued.mp hs).1 nofun).elim
    · exact (hne hs nofun).elim
  | artifacts _ _ _ hchange => exact Or.inr ⟨_, _, hchange, rfl⟩
  | heartbeat | release | approve | defer | note | prioritize | releaseLease | predecessors =>
    exact Or.inl rfl

/-- **What is recordable stays recordable**, whatever is called. -/
theorem Recordable.move (h : Recordable db id url) (hm : Move env op lo hi db db') :
    Recordable db' id url := by
  obtain ⟨item, artifact, hitem, hcompleted, hfind, hverifiable⟩ := h
  cases hm.rowStep id with
  | stays hrow => exact ⟨item, artifact, hrow.trans hitem, hcompleted, hfind, hverifiable⟩
  | @written item₀ item' _ hitem₀ hitem' hmove =>
    obtain rfl : item₀ = item := Option.some.inj (hitem₀.symm.trans hitem)
    have hstatus : item'.rowStatus = .completed :=
      (hmove.terminal (by rw [hcompleted]; rfl)).trans hcompleted
    rcases hmove.artifacts_of_completed hcompleted with hsame | ⟨f, t, hchange, rfl⟩
    · exact ⟨item', artifact, hitem', hstatus, hsame ▸ hfind, hverifiable⟩
    · have hartifacts : (item₀.withArtifacts f t).artifacts = f item₀.artifacts := by
        unfold WorkItem.artifacts WorkItem.withArtifacts
        cases hr : item₀.result with
        | none =>
          rw [WorkItem.artifacts, hr] at hfind
          exact nomatch hfind
        | some result => rfl
      -- the rewriting keeps every kind and every URL
      have hmodified : ∀ (p : WorkArtifact → Bool) (g : WorkArtifact → WorkArtifact),
          (∀ b, (g b).url = b.url ∧ (g b).kind = b.kind) →
          ∃ a, (modifyFirst p g item₀.artifacts).find? (fun a => a.url = url) = some a ∧
            a.kind = artifact.kind := by
        intro p g hg
        have hurl : ∀ b, decide ((g b).url = url) = decide (b.url = url) := fun b => by
          rw [(hg b).1]
        rcases find?_modifyFirst (p := p) hurl hfind with h | h
        · exact ⟨_, h, rfl⟩
        · exact ⟨_, h, (hg artifact).2⟩
      have hkeeps : ∃ a, (f item₀.artifacts).find? (fun a => a.url = url) = some a ∧
          a.kind = artifact.kind := by
        cases hchange with
        | verified _ _ => exact hmodified _ _ fun _ => ⟨rfl, rfl⟩
        | attached _ _ _ _ => exact ⟨artifact, by rw [List.find?_append, hfind]; rfl, rfl⟩
        | ready _ => exact hmodified _ _ fun _ => ⟨rfl, rfl⟩
      obtain ⟨a, ha, hkind⟩ := hkeeps
      exact ⟨_, a, hitem', hstatus, hartifacts ▸ ha, hkind ▸ hverifiable⟩
  | born hfresh => exact nomatch hfresh.symm.trans hitem
  | renamed _ hrow =>
    rw [hitem] at hrow
    refine ⟨_, artifact, hrow, ?_, ?_, hverifiable⟩
    · rw [rowStatus_renamed]
      exact hcompleted
    · rw [artifacts_renamed]
      exact hfind

/-- A valid verification of a recordable artifact is recorded. -/
theorem Recordable.returns {w : World} (h : Recordable w.db id url) {v : ArtifactVerification}
    (hvalid : validateVerification v = .ok ()) {actor : String} (hactor : isBlank actor = false) :
    ∃ r w', (recordArtifactVerification env id url v actor).Returns w r w' := by
  obtain ⟨item, artifact, hitem, hcompleted, hfind, hverifiable⟩ := h
  refine ⟨_, _, returns_checked.mpr ⟨(), ?_, returns_decideOn hitem ?_⟩⟩
  · simp only [except_bind_eq_ok, refuseIf_eq_ok]
    exact ⟨(), by rw [hactor]; exact Bool.false_ne_true, hvalid⟩
  · simp only [except_bind_eq_ok, assertCompleted, refuseIf_eq_ok, not_or, not_not, hfind]
    refine ⟨(), ⟨WorkItem.status_eq_completed.mpr hcompleted, fun hnone => ?_⟩, ?_⟩
    · rw [WorkItem.artifacts, hnone] at hfind
      cases hfind
    · rw [hverifiable]
      rintro ⟨⟩

end Recordable

/-! ## Refreshing is never poisoned -/

/-- **A record hits its artifact**: of every pending artifact of a completed
item, a valid verification is recorded, it becomes the verification of that
artifact, and nothing else is rewritten. -/
def RecordsExactly (env : Env) (w : World) : Prop :=
  ∀ item ∈ w.db.items.rows, item.rowStatus = .completed →
    ∀ i artifact, item.artifacts[i]? = some artifact → artifact.isPending = true →
      ∀ v actor, validateVerification v = .ok () → isBlank actor = false →
        ∃ r w' item', (recordArtifactVerification env item.id artifact.url v actor).Returns w r w' ∧
          w'.db.items.find? item.id = some item' ∧
          item'.artifacts = item.artifacts.set i { artifact with verification := some v } ∧
          ∀ id, id ≠ item.id → w'.db.items.find? id = w.db.items.find? id

/-- **A refresh gets to the end of its list**: from the queue a run has
reached, whatever GitHub answers and whoever calls the store meanwhile, it
returns, and reports on every pending artifact of every item it selected. -/
def RefreshCompletes (env : Env) (ops : List Op) : Prop :=
  ∀ (out : Outside) (s : Pass env), s.calls = ops →
    ∀ (repository : Option String) (limit : ℤ) (actor : String), isBlank actor = false →
      (∀ r ∈ repository, r ≠ "" → validateRepository r = .ok ()) →
      ∃ entries t, (refreshArtifactVerifications out repository limit actor).Returns s entries t ∧
        entries.map (fun entry => (entry.id, entry.url)) =
          (completedItemsWithPendingArtifacts s.db (repository.filter fun r => r ≠ "") limit).flatMap
            fun item => (pendingArtifacts item).map fun artifact => (item.id, artifact.url)

/-- A pending artifact that is apart from those before it is the first one
with its URL. -/
theorem Apart.first {artifacts : List WorkArtifact} (h : Apart artifacts) {i : ℕ}
    {artifact : WorkArtifact} (hi : artifacts[i]? = some artifact)
    (hpending : artifact.isPending = true) :
    ∀ j < i, ∀ b, artifacts[j]? = some b → decide (b.url = artifact.url) = false := by
  intro j hj b hb
  rw [decide_eq_false_iff_not]
  obtain ⟨hilt, rfl⟩ := List.getElem?_eq_some_iff.mp hi
  obtain ⟨hjlt, rfl⟩ := List.getElem?_eq_some_iff.mp hb
  exact List.pairwise_iff_getElem.mp h j i hjlt hilt hj hpending

/-- A pending artifact is verifiable. -/
theorem WorkArtifact.isVerifiable_of_isPending {artifact : WorkArtifact}
    (h : artifact.isPending = true) : artifact.kind.isVerifiable = true :=
  (Bool.and_eq_true_iff.mp h).1

/-- **Of artifacts that are apart, a record hits its artifact.** -/
theorem recordsExactly_of_apart {w : World} (h : ∀ item ∈ w.db.items.rows, Apart item.artifacts) :
    RecordsExactly env w := by
  intro item hitem hcompleted i artifact hi hpending v actor hvalid hactor
  have hstored : w.db.items.find? item.id = some item := Table.find?_key hitem
  obtain ⟨hset, hfind⟩ := modifyFirst_eq_set
    (f := fun a : WorkArtifact => { a with verification := some v }) hi (decide_eq_true rfl)
    ((h item hitem).first hi hpending)
  have hrecordable : Recordable w.db item.id artifact.url :=
    ⟨item, artifact, hstored, hcompleted, hfind, artifact.isVerifiable_of_isPending hpending⟩
  obtain ⟨r, w', hreturns⟩ := hrecordable.returns hvalid hactor
  obtain ⟨_, -, hdecide⟩ := returns_checked.mp hreturns
  obtain ⟨item₀, hitem₀, -, -, -, rfl⟩ := decideOn_spec hdecide
  obtain rfl : item₀ = item := Option.some.inj (hitem₀.symm.trans hstored)
  refine ⟨r, _, _, hreturns,
    (Table.find?_modify_self hstored :
      (w.db.items.modify item₀.id (fun row => row.withArtifacts (modifyFirst _ _) _)
        fun _ => rfl).find? _ = _), ?_,
    fun id hid => (Table.find?_modify_of_ne hid :
      (w.db.items.modify item₀.id (fun row => row.withArtifacts (modifyFirst _ _) _)
        fun _ => rfl).find? _ = _)⟩
  rw [← hset]
  unfold WorkItem.artifacts WorkItem.withArtifacts
  cases hr : item₀.result with
  | none =>
    rw [WorkItem.artifacts, hr] at hi
    exact nomatch hi
  | some result => rfl

section Completing

variable {out : Outside}

/-- What a pass finds recordable it finds recordable after any calls. -/
theorem Recordable.after {s : Pass env} {id url : String} (h : Recordable s.db id url)
    (ops : List Op) : Recordable (s.after ops).db id url :=
  (queue env).after_keeps (P := fun w => Recordable w.db id url)
    (fun w op hw => (step_moves op w).keeps (P := fun db => Recordable db id url) Recordable.move
      hw) ops h

/-- Everything a refresh has selected is recordable. -/
def AllRecordable (targets : List (String × String)) (s : Pass env) : Prop :=
  ∀ target ∈ targets, Recordable s.db target.1 target.2

theorem keptOutside_allRecordable (targets : List (String × String)) :
    KeptOutside out (@AllRecordable env targets) where
  answered _ _ k h target htarget := (h target htarget).after (out.meanwhile k)
  told _ h target htarget := (h target htarget).after []

variable {targets : List (String × String)} {actor : String} {item : WorkItem}
variable {artifact : WorkArtifact}

theorem completes_recordAndReport (hactor : isBlank actor = false)
    (htarget : (item.id, artifact.url) ∈ targets) {v : ArtifactVerification}
    (hvalid : validateVerification v = .ok ()) (outcome : RefreshOutcome) :
    (recordAndReport actor item artifact v outcome : PassTx env RefreshEntry).Completes
      (AllRecordable targets) fun entry => (entry.id, entry.url) = (item.id, artifact.url) := by
  intro s hs
  obtain ⟨r, w', hreturns⟩ := (hs _ htarget).returns hvalid hactor
  have hrun : ((Op.recordArtifactVerification item.id artifact.url v actor).run env s.world).1 =
      .ok (.item r) := congrArg Prod.fst (returns_reply.mpr ⟨r, hreturns, rfl⟩)
  exact ⟨_, _, Tx.returns_bind.mpr ⟨_, _, returns_perform.mpr ⟨hrun, rfl⟩,
    Tx.returns_pure.mpr ⟨rfl, rfl⟩⟩, rfl, fun target h => (hs target h).after _⟩

/-- An observation that keeps a valid previous hand-off is valid. -/
theorem valid_keepingHandoff {o : VerifiedObservation} {previous : Option ArtifactVerification}
    (ho : validateVerification (.verified o) = .ok ())
    (hprevious : ∀ v, previous = some v → validateVerification v = .ok ()) :
    validateVerification (.verified (o.keepingHandoff previous)) = .ok () := by
  unfold VerifiedObservation.keepingHandoff
  split
  · next o' =>
    have ho' := hprevious (.verified o') rfl
    simp only [validateVerification, except_bind_eq_ok] at ho ho' ⊢
    obtain ⟨_, hnumber, _, htime, hhandoff⟩ := ho
    obtain ⟨_, -, _, -, hhandoff'⟩ := ho'
    refine ⟨_, hnumber, _, htime, ?_⟩
    cases hh : o.handoff with
    | none => exact hhandoff'
    | some handoff =>
      rw [hh] at hhandoff
      exact hhandoff
  · exact ho

/-- **One artifact is refreshed**, whatever GitHub says of it. -/
theorem completes_refreshArtifact (hactor : isBlank actor = false)
    (htarget : (item.id, artifact.url) ∈ targets)
    (hvalid : ∀ v, artifact.verification = some v → validateVerification v = .ok ()) :
    (refreshArtifact out actor item artifact : PassTx env RefreshEntry).Completes
      (AllRecordable targets) fun entry => (entry.id, entry.url) = (item.id, artifact.url) := by
  have hP := @keptOutside_allRecordable env out targets
  refine Tx.completes_bind (completes_verifyGitHubArtifact hP _ _ _ _) fun check hcheck => ?_
  split
  · exact Tx.completes_pure rfl
  · refine Tx.completes_bind (completes_readTime hP) fun attemptedAt _ => ?_
    refine completes_recordAndReport hactor htarget ?_ _
    rw [validateVerification, refuseIf_eq_ok, attemptedAt.2]
    simp [isBlank, isSpace, toString, String.toList_append]
  · refine Tx.completes_ite (fun _ => Tx.completes_pure rfl) fun _ => ?_
    exact completes_recordAndReport hactor htarget hcheck _
  · refine Tx.completes_ite (fun _ => Tx.completes_pure rfl) fun _ => ?_
    refine completes_recordAndReport hactor htarget ?_ _
    split
    · exact hcheck
    · exact valid_keepingHandoff hcheck hvalid

end Completing

/-- The selection throws only on a repository that is not a slug. -/
theorem returns_selectPendingItems {repository : Option String} {limit : ℤ} {s : Pass env}
    (hrepository : ∀ r ∈ repository, r ≠ "" → validateRepository r = .ok ()) :
    (selectPendingItems repository limit).Returns s
      (completedItemsWithPendingArtifacts s.db (repository.filter fun r => r ≠ "") limit) s := by
  refine Tx.returns_bind.mpr ⟨(), s, Tx.returns_ofExcept.mpr ⟨?_, rfl⟩, returns_view.mpr ⟨rfl, rfl⟩⟩
  rw [refuseSome_eq_ok]
  intro r hr
  obtain ⟨hr, hne⟩ := Option.filter_eq_some_iff.mp hr
  exact hrepository r hr (of_decide_eq_true hne)

/-- **From apart artifacts with valid verifications, a refresh completes.** -/
theorem refreshCompletes_of_refreshable {ops : List Op}
    (h : ∀ item ∈ (exec env ops).db.items.rows, Refreshable item) : RefreshCompletes env ops := by
  intro out s hs repository limit actor hactor hrepository
  let named := repository.filter fun r => r ≠ ""
  let items := completedItemsWithPendingArtifacts s.db named limit
  let want (item : WorkItem) : List (String × String) :=
    (pendingArtifacts item).map fun artifact => (item.id, artifact.url)
  have hdb : s.db = (exec env ops).db := by rw [s.db_eq, hs]
  have hselected : ∀ item ∈ items, item ∈ s.db.items.rows ∧ item.rowStatus = .completed := by
    intro item hitem
    have hmem := List.mem_mergeSort.mp (List.mem_of_mem_take hitem)
    obtain ⟨hrow, htest⟩ := List.mem_filter.mp hmem
    simp only [Bool.and_eq_true, decide_eq_true_eq] at htest
    exact ⟨hrow, htest.1.1.1⟩
  have hstart : AllRecordable (items.flatMap want) s := by
    intro target htarget
    obtain ⟨item, hitem, htarget⟩ := List.mem_flatMap.mp htarget
    obtain ⟨artifact, hartifact, rfl⟩ := List.mem_map.mp htarget
    obtain ⟨hmem, hpending⟩ := List.mem_filter.mp hartifact
    obtain ⟨i, hi⟩ := List.mem_iff_getElem?.mp hmem
    obtain ⟨hrow, hcompleted⟩ := hselected item hitem
    have hapart := (h item (hdb ▸ hrow)).apart
    obtain ⟨-, hfind⟩ := modifyFirst_eq_set (f := id) hi (decide_eq_true rfl)
      (hapart.first hi hpending)
    exact ⟨item, artifact, Table.find?_key hrow, hcompleted, hfind,
      artifact.isVerifiable_of_isPending hpending⟩
  have hloop : Tx.Completes (AllRecordable (items.flatMap want))
      (Tx.each (fun item => Tx.each (refreshArtifact out actor item) (pendingArtifacts item)) items :
        PassTx env (List (List RefreshEntry)))
      fun entries => entries.map (List.map fun entry => (entry.id, entry.url)) = items.map want := by
    refine Tx.completes_each fun item hitem => Tx.completes_each fun artifact hartifact => ?_
    refine completes_refreshArtifact hactor ?_ ?_
    · exact List.mem_flatMap.mpr ⟨item, hitem, List.mem_map_of_mem hartifact⟩
    · exact (h item (hdb ▸ (hselected item hitem).1)).valid artifact (List.mem_of_mem_filter hartifact)
  obtain ⟨entries, t, hreturns, hentries, -⟩ := hloop s hstart
  refine ⟨entries.flatten, t, ?_, ?_⟩
  · exact Tx.returns_bind.mpr ⟨items, s, returns_selectPendingItems hrepository,
      Tx.returns_bind.mpr ⟨entries, t, hreturns, Tx.returns_pure.mpr ⟨rfl, rfl⟩⟩⟩
  · rw [List.map_flatten, hentries]
    exact List.flatMap_def.symm

/-- A root that is delivered through a pull request. -/
def WorkDefinition.change : WorkDefinition :=
  { WorkDefinition.sample with
    kind := "bug-fix"
    allowedActions := [.read, .write, .openPr]
    delegableActions := []
    requiredArtifact := some .pullRequest
    executionTarget := some .newPullRequest }

/-- A worker claims a change and completes it with these artifacts. -/
def deliveredRun (artifacts : List WorkArtifact) : List Op :=
  [.setRepositoryEnabled "a/b" true, .enqueueSeed "a/b" .change, .claim { worker := "w" },
    .complete
      { id := Env.sample.randomUUID 1
        leaseToken := Env.sample.randomUUID 6
        worker := "w"
        result := ⟨"done", ["tests pass"], artifacts, none⟩
        followUps := [] }]

/-- A change that reports its pull request once. -/
def deliveredOnce : List Op :=
  deliveredRun [⟨.pullRequest, "https://github.com/a/b/pull/1", none, none⟩]

/-- A change that reports its pull request twice: as a report, and as a pull
request. -/
def deliveredTwice : List Op :=
  deliveredRun [⟨.report, "https://github.com/a/b/pull/1", none, none⟩,
    ⟨.pullRequest, "https://github.com/a/b/pull/1", none, none⟩]

/-- GitHub knows nothing, and Snowcat has asked with a credential. -/
def Outside.missing : Outside where
  answer _ _ := .response 404 .null
  meanwhile _ := []
  policyAuthority _ _ := none
  credentialed := true
  number _ := .int 0
  digest _ := Digest.zero
  time _ := ⟨"2026-01-01T00:00:00.000Z", isBlank_newYear⟩
  handoff _ _ := .valid

end Snowcat
