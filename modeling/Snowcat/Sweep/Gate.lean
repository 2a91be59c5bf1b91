import Snowcat.Queue.Feeder
import Snowcat.Sweep.Review

/-!
# The review gate

A completion that reports an open pull request that is no draft is refused in
a gated repository, unless the gate released the pull request itself.
`assertReviewGate` reads that off the rounds: it looks for a judged round that
passed. The review pass releases a pull request on two kinds of verdicts,
though: a pass, and a block whose blockers are all with a human already.

So the two agree as long as the pass marks a pull request ready only where
one of its rounds passed (`gateAgrees_afterReviews`), and a pull request that
was released on a block alone is refused afterwards
(`not_gateAgrees_outstanding`).
-/

namespace Snowcat

/-! ## The gate -/

/-- `CURE_KINDS`. -/
def cureKinds : List String := ["pr-cure", "pr-cure-change"]

/-- `reviewGateEnabled`, once the repository has been checked. -/
def reviewGateEnabled (db : Db) (repository : String) : Bool :=
  (db.repositories.find? repository).any fun row => row.enabled && row.reviewGate

/-- Whether an artifact is a pull request that was verified as open, and not
as a draft. -/
def WorkArtifact.isOpenForReview (artifact : WorkArtifact) : Bool :=
  artifact.kind = .pullRequest &&
    match artifact.verification with
    | some (.verified o) => o.state = .opened && !decide (o.draft = some true)
    | _ => false

/-- Whether a round is one the gate takes for a release: it passed. -/
def isPassed (round : WorkItem) : Bool :=
  round.kind = reviewKind && round.status = .completed &&
    round.review.any fun review => review.decision = some .pass

/-- What the gate says of an artifact it refuses. -/
def reviewGateRefusal (repository : String) (artifact : WorkArtifact) : QueueError :=
  let number := (artifact.verifiedNumber.map fun n => s!"{n}").getD "undefined"
  .error s!"review gate: pull request {artifact.url} is open and not a draft in {repository}; convert it with `gh pr ready --undo {number}` and complete again, or block"

/-- The check of one artifact. -/
def checkReleased (env : Env) (db : Db) (repository : String) (artifact : WorkArtifact) :
    Except QueueError Unit :=
  if artifact.isOpenForReview = false then pure ()
  else
    refuseIf ((pullRequestReviewItems env db repository artifact.url).any isPassed = false)
      (reviewGateRefusal repository artifact)

/-- **`assertReviewGate`.** -/
def assertReviewGate (env : Env) (db : Db) (item : WorkItem) (artifacts : List WorkArtifact) :
    Except QueueError Unit := do
  if item.kind ∈ cureKinds then pure ()
  else
    validateRepository item.repository
    if reviewGateEnabled db item.repository = false then pure ()
    else refuseEach (checkReleased env db item.repository) artifacts

/-! ## What the pass released -/

/-- Whether the review pass releases a pull request on a verdict. -/
def PullRequestReview.releases (verdict : PullRequestReview) : Bool :=
  verdict.decision = some .pass || (verdict.decision = some .block && verdict.isOutstanding)

/-- Whether a round was judged with a verdict that releases its pull request. -/
def isReleasing (round : WorkItem) : Bool :=
  round.kind = reviewKind && round.status = .completed &&
    round.review.any PullRequestReview.releases

section Gate

variable (env : Env)

/-- **The gate released a pull request**: a round of it was judged with a verdict
that releases it. -/
def Released (db : Db) (repository url : String) : Prop :=
  ∃ round ∈ pullRequestReviewItems env db repository url, isReleasing round = true

/-- **The pass marked a pull request ready**: there is an `artifact.ready` of
it, on account of a review of the repository. -/
def MarkedReady (db : Db) (repository url : String) : Prop :=
  ∃ e ∈ db.ledger.events, ∃ marked headSha reviewItemId,
    e.payload = .artifactReady marked headSha reviewItemId ∧
    pullRequestIdentity env repository marked = pullRequestIdentity env repository url ∧
    ∃ review ∈ db.items.rows, review.id = reviewItemId ∧ review.repository = repository

/-- **What the gate released, completion accepts**, and nothing else, of any
item that is no cure. -/
structure GateAgrees (db : Db) : Prop where
  accepts : ∀ item ∈ db.items.rows, item.kind ∉ cureKinds → ∀ artifacts : List WorkArtifact,
    (∀ artifact ∈ artifacts, artifact.isOpenForReview = true →
      MarkedReady env db item.repository artifact.url) →
    assertReviewGate env db item artifacts = .ok ()
  refuses : ∀ item ∈ db.items.rows, item.kind ∉ cureKinds →
    reviewGateEnabled db item.repository = true → ∀ artifacts : List WorkArtifact,
    ∀ artifact ∈ artifacts, artifact.isOpenForReview = true →
    ¬ Released env db item.repository artifact.url →
    ∃ refused ∈ artifacts, assertReviewGate env db item artifacts =
      .error (reviewGateRefusal item.repository refused)

/-- **A review released a pull request**: it was judged with a verdict that
releases it. -/
def ReleasedBy (db : Db) (reviewItemId url : String) : Prop :=
  ∃ round ∈ db.items.rows, round.id = reviewItemId ∧
    isReviewOf env round.repository url round = true ∧ isReleasing round = true

/-- **A call marks only what a review released**: where it records that a pull
request is ready, the review it names released it. -/
def MarksReleased (db : Db) : Op → Prop
  | .recordPullRequestReady _ url _ _ reviewItemId => ReleasedBy env db reviewItemId url
  | _ => True

/-- **The condition on a call**, in the state it meets: where it records that a
pull request is ready on account of a review that blocked it, another round
of the pull request passed. -/
def MarksPassed (db : Db) : Op → Prop
  | .recordPullRequestReady _ url _ _ reviewItemId => ∀ review ∈ db.items.rows,
    review.id = reviewItemId → (review.review.bind PullRequestReview.decision) = some .block →
      ∃ round ∈ pullRequestReviewItems env db review.repository url, isPassed round = true
  | _ => True

/-- What holds of every call of a list, in the state it meets. -/
def EachCall (C : Db → Op → Prop) (calls : List Op) : Prop :=
  ∀ before op later, calls = before ++ op :: later → C (exec env before).db op

end Gate

/-! ## One pull request, whatever its repository is called -/

section Identity

variable {env : Env} {repository other url url' : String}

theorem pullRequestIdentity_eq (env : Env) (repository url : String) :
    pullRequestIdentity env repository url =
      match pullRequestNumber env url with
      | none => "pull-request-url:" ++ toLowerCase url
      | some n => "pull-request:" ++ toLowerCase repository ++ "#" ++ n.repr := by
  unfold pullRequestIdentity pullRequestArtifactIdentity
  cases pullRequestNumber env url <;> rfl

theorem repr_injective : Function.Injective Nat.repr := fun m n h => by
  have hdigits := congrArg (fun s => Nat.ofDigitChars 10 s.toList 0) h
  simpa only [Nat.toList_repr, Nat.ofDigitChars_ten_toDigits] using hdigits

/-- An identity by number is never one by URL. -/
theorem number_ne_url (s t : String) : "pull-request:" ++ s ≠ "pull-request-url:" ++ t := by
  intro h
  have hlists := congrArg String.toList h
  rw [String.toList_append, String.toList_append] at hlists
  exact absurd (congrArg (fun cs => cs[12]?) hlists) nofun

/-- **Two URLs name one pull request in every repository** when they do in
one. -/
theorem pullRequestIdentity_congr
    (h : pullRequestIdentity env repository url = pullRequestIdentity env repository url') :
    pullRequestIdentity env other url = pullRequestIdentity env other url' := by
  rw [pullRequestIdentity_eq, pullRequestIdentity_eq] at h ⊢
  cases hn : pullRequestNumber env url with
  | none =>
    cases hn' : pullRequestNumber env url' with
    | none => rwa [hn, hn'] at h
    | some n' =>
      rw [hn, hn'] at h
      simp only [String.append_assoc] at h
      exact (number_ne_url _ _ h.symm).elim
  | some n =>
    cases hn' : pullRequestNumber env url' with
    | none =>
      rw [hn, hn'] at h
      simp only [String.append_assoc] at h
      exact (number_ne_url _ _ h).elim
    | some n' =>
      rw [hn, hn'] at h
      rw [repr_injective (String.append_right_inj _ |>.mp h)]

end Identity

/-! ## Judged rounds stay -/

section Stable

variable {env : Env} {op : Op} {lo hi : ℕ} {db db' : Db} {item item' : WorkItem}
variable {repository url url' reviewItemId : String}

theorem isReviewOf_iff : isReviewOf env repository url item = true ↔
    item.repository = repository ∧ (item.kind = reviewKind ∨ item.kind = reviewFixKind) ∧
      ∃ review, item.review = some review ∧
        pullRequestIdentity env repository review.pullRequestUrl =
          pullRequestIdentity env repository url := by
  simp [isReviewOf, Option.any_eq_true, and_assoc]

theorem mem_pullRequestReviewItems :
    item ∈ pullRequestReviewItems env db repository url ↔
      item ∈ db.items.rows ∧ isReviewOf env repository url item = true := by
  rw [pullRequestReviewItems, List.mem_insertionSort, List.mem_filter]

theorem isPassed_iff : isPassed item = true ↔
    item.kind = reviewKind ∧ item.rowStatus = .completed ∧
      item.review.bind PullRequestReview.decision = some .pass := by
  unfold isPassed
  cases item.review with
  | none => simp
  | some review => simp [and_assoc]

/-- A completed row keeps the review it is bound to. -/
theorem RowMove.review_of_completed {ps : List Posting} (hm : RowMove env op lo hi item item' ps)
    (h : item.rowStatus = .completed) : item'.review = item.review := by
  have hne : ∀ {status : RowStatus}, item.rowStatus = status → status ≠ .completed → False :=
    fun hs hne => hne (hs.symm.trans h)
  cases hm with
  | complete hs => exact (hne hs nofun).elim
  | cancel => rfl
  | _ => rfl

/-- **Judged rounds stay.** A move takes the rows of one repository all to the
same one, and a completed row stays completed, of its kind and with its
review. -/
theorem Move.settled (hm : Move env op lo hi db db') : ∃ ρ : String → String,
    ∀ row ∈ db.items.rows, ∃ row' ∈ db'.items.rows, row'.id = row.id ∧
      row'.repository = ρ row.repository ∧ row'.kind = row.kind ∧
      (row.rowStatus = .completed → row'.rowStatus = .completed ∧ row'.review = row.review) := by
  have hrows : ∀ row ∈ db.items.rows, ∀ row', db'.items.find? row.id = some row' →
      row.rowStatus = .completed → row'.rowStatus = .completed ∧ row'.review = row.review := by
    intro row hrow row' hrow' hcompleted
    have hfind := Table.find?_key hrow
    cases hm.rowStep row.id with
    | stays hsame =>
      obtain rfl := Option.some.inj ((hsame.trans hfind).symm.trans hrow')
      exact ⟨hcompleted, rfl⟩
    | written hold hnew hmove =>
      obtain rfl := Option.some.inj (hold.symm.trans hfind)
      obtain rfl := Option.some.inj (hnew.symm.trans hrow')
      exact ⟨(hmove.terminal (by rw [hcompleted]; rfl)).trans hcompleted,
        hmove.review_of_completed hcompleted⟩
    | born hfresh => exact nomatch hfresh.symm.trans hfind
    | renamed _ hnew =>
      rw [hfind, hrow'] at hnew
      obtain rfl := Option.some.inj hnew
      unfold WorkItem.renamed
      split <;> exact ⟨hcompleted, rfl⟩
  cases hm.placeStep with
  | @realigns ρ _ hrealigned =>
    refine ⟨ρ, fun row hrow => ?_⟩
    obtain ⟨row', hrow', hplace⟩ := hrealigned.of_find? (Table.find?_key hrow)
    exact ⟨row', Table.mem_of_find? hrow', hplace.sameId, hplace.repository, hplace.kind,
      hrows row hrow row' hrow'⟩
  | creates _ hfresh =>
    exact ⟨id, fun row hrow => ⟨row, (Db.mem_create hfresh).mpr (Or.inl hrow), rfl, rfl, rfl,
      fun hcompleted => ⟨hcompleted, rfl⟩⟩⟩

/-- **The pull request a review is about has a round that passed.** -/
def PassedFor (env : Env) (db : Db) (reviewItemId url : String) : Prop :=
  ∃ review ∈ db.items.rows, review.id = reviewItemId ∧
    ∃ round ∈ pullRequestReviewItems env db review.repository url, isPassed round = true

/-- A review stays one of its pull request when it is taken to another
repository. -/
theorem isReviewOf_settled {ρ : String → String} (hof : isReviewOf env repository url item = true)
    (hrepository : item'.repository = ρ item.repository) (hkind : item'.kind = item.kind)
    (hreview : item'.review = item.review) : isReviewOf env (ρ repository) url item' = true := by
  rw [isReviewOf_iff] at hof ⊢
  obtain ⟨rfl, hkinds, review, hsome, hidentity⟩ := hof
  exact ⟨hrepository, hkind ▸ hkinds, review, hreview.trans hsome,
    pullRequestIdentity_congr hidentity⟩

/-- **A pull request that has a passed round keeps it.** -/
theorem PassedFor.move (h : PassedFor env db reviewItemId url) (hm : Move env op lo hi db db') :
    PassedFor env db' reviewItemId url := by
  obtain ⟨review, hreview, hid, round, hround, hpassed⟩ := h
  obtain ⟨ρ, hrows⟩ := hm.settled
  obtain ⟨review', hreview', hid', hrepository', -, -⟩ := hrows review hreview
  rw [mem_pullRequestReviewItems] at hround
  rw [isPassed_iff] at hpassed
  obtain ⟨round', hround', -, hrepository, hkind, hstays⟩ := hrows round hround.1
  obtain ⟨hcompleted, hsame⟩ := hstays hpassed.2.1
  refine ⟨review', hreview', hid'.trans hid, round', mem_pullRequestReviewItems.mpr ⟨hround', ?_⟩,
    isPassed_iff.mpr ⟨hkind.trans hpassed.1, hcompleted, ?_⟩⟩
  · rw [hrepository']
    exact isReviewOf_settled hround.2 hrepository hkind hsame
  · rw [hsame]
    exact hpassed.2.2

theorem isReleasing_iff : isReleasing item = true ↔
    item.kind = reviewKind ∧ item.rowStatus = .completed ∧
      ∃ review, item.review = some review ∧ review.releases = true := by
  simp [isReleasing, Option.any_eq_true, and_assoc]

/-- **What a review released stays released by it.** -/
theorem ReleasedBy.move (h : ReleasedBy env db reviewItemId url) (hm : Move env op lo hi db db') :
    ReleasedBy env db' reviewItemId url := by
  obtain ⟨round, hround, hid, hof, hreleasing⟩ := h
  obtain ⟨ρ, hrows⟩ := hm.settled
  rw [isReleasing_iff] at hreleasing
  obtain ⟨hkind, hcompleted, review, hreview, hreleases⟩ := hreleasing
  obtain ⟨round', hround', hid', hrepository, hkind', hstays⟩ := hrows round hround
  obtain ⟨hcompleted', hsame⟩ := hstays hcompleted
  refine ⟨round', hround', hid'.trans hid, ?_, isReleasing_iff.mpr
    ⟨hkind'.trans hkind, hcompleted', review, hsame.trans hreview, hreleases⟩⟩
  rw [hrepository]
  exact isReviewOf_settled hof hrepository hkind' hsame

/-- A review that released a pull request is a round that passed, or one that
blocked it. -/
theorem ReleasedBy.passedFor (h : ReleasedBy env db reviewItemId url)
    (hblocked : ∀ review ∈ db.items.rows, review.id = reviewItemId →
      review.review.bind PullRequestReview.decision = some .block →
        ∃ round ∈ pullRequestReviewItems env db review.repository url, isPassed round = true) :
    PassedFor env db reviewItemId url := by
  obtain ⟨round, hround, hid, hof, hreleasing⟩ := h
  obtain ⟨hkind, hcompleted, review, hreview, hreleases⟩ := isReleasing_iff.mp hreleasing
  refine ⟨round, hround, hid, ?_⟩
  simp only [PullRequestReview.releases, Bool.or_eq_true, Bool.and_eq_true,
    decide_eq_true_eq] at hreleases
  rcases hreleases with hpass | ⟨hblock, -⟩
  · refine ⟨round, mem_pullRequestReviewItems.mpr ⟨hround, hof⟩, isPassed_iff.mpr
      ⟨hkind, hcompleted, ?_⟩⟩
    rw [hreview]
    exact hpass
  · refine hblocked round hround hid ?_
    rw [hreview]
    exact hblock

/-! ## Every mark has a passed round -/

/-- **Every `artifact.ready` there is names a review of a pull request that has
a passed round.** -/
def EveryMarkPassed (env : Env) (db : Db) : Prop :=
  ∀ id, ∀ p ∈ db.ledger.history id, ∀ marked headSha reviewItemId,
    p.payload = .artifactReady marked headSha reviewItemId → PassedFor env db reviewItemId marked

/-- A move keeps it, when what its call marks has a passed round. -/
theorem EveryMarkPassed.move (h : EveryMarkPassed env db)
    (hop : ∀ id marked actor headSha reviewItemId,
      op = .recordPullRequestReady id marked actor headSha reviewItemId →
        PassedFor env db reviewItemId marked)
    (hm : Move env op lo hi db db') : EveryMarkPassed env db' := by
  intro id p hp marked headSha reviewItemId hpayload
  have hold : p ∈ db.ledger.history id → PassedFor env db' reviewItemId marked := fun hmem =>
    (h id p hmem marked headSha reviewItemId hpayload).move hm
  cases hm.rowStep id with
  | stays _ hledger | renamed _ _ hledger =>
    rw [hledger.history, List.append_nil] at hp
    exact hold hp
  | born _ _ hbirth hledger =>
    rw [hledger.history, List.mem_append, List.mem_singleton] at hp
    rcases hp with hp | rfl
    · exact hold hp
    · cases hbirth with
      | @root _ _ _ _ _ payload _ htype =>
        rw [show payload = .artifactReady marked headSha reviewItemId from hpayload] at htype
        split at htype <;> exact nomatch htype
      | child => exact nomatch hpayload
  | written _ _ hmove hledger =>
    rw [hledger.history, List.mem_append] at hp
    rcases hp with hp | hp
    · exact hold hp
    · refine PassedFor.move ?_ hm
      cases hmove with
      | artifacts _ _ _ _ hready =>
        obtain rfl := List.mem_singleton.mp hp
        obtain ⟨actor, hmarks⟩ := hready _ _ _ hpayload
        exact hop _ _ _ _ _ hmarks
      | claim =>
        rcases List.mem_append.mp hp with hp | hp
        · unfold expiryPostings at hp
          split at hp
          · obtain rfl := List.mem_singleton.mp hp
            exact nomatch hpayload
          · exact nomatch hp
        · obtain rfl := List.mem_singleton.mp hp
          exact nomatch hpayload
      | complete _ _ hreviewed =>
        rcases List.mem_cons.mp hp with rfl | hp
        · exact nomatch hpayload
        · have htype := hreviewed p hp
          rw [hpayload] at htype
          exact nomatch htype
      | _ =>
        obtain rfl := List.mem_singleton.mp hp
        exact nomatch hpayload

theorem eachCall_concat {C : Db → Op → Prop} {calls : List Op} {op : Op} :
    EachCall env C (calls ++ [op]) ↔ EachCall env C calls ∧ C (exec env calls).db op := by
  constructor
  · refine fun h => ⟨fun before called later hcalls => ?_, h calls op [] rfl⟩
    exact h before called (later ++ [op]) (by rw [hcalls, List.append_assoc, List.cons_append])
  · rintro ⟨hcalls, hop⟩ before called later heq
    rcases List.eq_nil_or_concat later with rfl | ⟨later, last, rfl⟩
    · obtain ⟨rfl, hsame⟩ := List.append_inj' heq rfl
      obtain rfl := List.singleton_inj.mp hsame
      exact hop
    · rw [List.concat_eq_append, ← List.cons_append, ← List.append_assoc] at heq
      exact hcalls before called later (List.append_inj' heq rfl).1

/-- **In every state of a run whose marks all have a passed round** when they
are made, every mark has one. -/
theorem everyMarkPassed_exec {calls : List Op}
    (h : EachCall env (fun db op => ∀ id marked actor headSha reviewItemId,
      op = .recordPullRequestReady id marked actor headSha reviewItemId →
        PassedFor env db reviewItemId marked) calls) :
    EveryMarkPassed env (exec env calls).db := by
  induction calls using List.reverseRecOn with
  | nil => exact fun _ _ hp => nomatch hp
  | append_singleton calls op ih =>
    rw [eachCall_concat] at h
    rw [exec_concat]
    refine ((step_moves op (exec env calls)).keeps (P := fun db => EveryMarkPassed env db ∧
      ∀ id marked actor headSha reviewItemId,
        op = .recordPullRequestReady id marked actor headSha reviewItemId →
          PassedFor env db reviewItemId marked) (fun hdb hm => ⟨hdb.1.move hdb.2 hm, ?_⟩)
      ⟨ih h.1, h.2⟩).1
    exact fun id marked actor headSha reviewItemId hop => (hdb.2 _ _ _ _ _ hop).move hm

/-! ## The gate, state by state -/

/-- Every repository has a slug that is one. -/
def SlugsValid (db : Db) : Prop :=
  ∀ slug, db.repositories.find? slug ≠ none → validateRepository slug = .ok ()

theorem SlugsValid.move (h : SlugsValid db) (hm : Move env op lo hi db db') : SlugsValid db' := by
  cases hm with
  | write => exact h
  | create => exact h
  | repositories _ hvalid => exact fun slug hslug => (hvalid slug hslug).elim (h slug) fun hv => hv
  | @rename source target actor moved hfresh _ hmoved _ hvalid =>
    intro slug hslug
    obtain ⟨row, hrow⟩ := Option.ne_none_iff_exists'.mp hslug
    have hmem := (Table.mem_delete.mp (Table.mem_of_find? hrow)).1
    rcases (Table.mem_insert hfresh).mp hmem with hmem | rfl
    · refine h slug ?_
      rw [← Table.key_of_find? hrow, Table.find?_key hmem]
      exact Option.some_ne_none row
    · rw [← Table.key_of_find? hrow, hmoved]
      exact hvalid

/-- **The repository of every item is one.** -/
theorem validateRepository_of_mem {calls : List Op} (hitem : item ∈ (exec env calls).db.items.rows) :
    validateRepository item.repository = .ok () := by
  have hdb : Known (exec env calls).db ∧ SlugsValid (exec env calls).db :=
    exec_invariant (P := fun db => Known db ∧ SlugsValid db)
      ⟨(fun _ h => nomatch h), fun _ h => (h rfl).elim⟩ (fun h hm => ⟨h.1.move hm, h.2.move hm⟩) calls
  exact hdb.2 _ (hdb.1 item hitem)

theorem refuseEach_cases {ε α : Type} {f : α → Except ε Unit} {e : α → ε}
    (h : ∀ a, f a = .ok () ∨ f a = .error (e a)) (as : List α) :
    refuseEach f as = .ok () ∧ (∀ a ∈ as, f a = .ok ()) ∨
      ∃ a ∈ as, f a = .error (e a) ∧ refuseEach f as = .error (e a) := by
  induction as with
  | nil => exact Or.inl ⟨rfl, fun _ ha => nomatch ha⟩
  | cons a as ih =>
    rcases h a with ha | ha
    · rcases ih with ⟨hok, hall⟩ | ⟨b, hb, hfb, herror⟩
      · refine Or.inl ⟨?_, List.forall_mem_cons.mpr ⟨ha, hall⟩⟩
        rw [refuseEach, ha]
        exact hok
      · refine Or.inr ⟨b, List.mem_cons_of_mem a hb, hfb, ?_⟩
        rw [refuseEach, ha]
        exact herror
    · refine Or.inr ⟨a, List.mem_cons_self, ha, ?_⟩
      rw [refuseEach, ha]
      rfl

theorem checkReleased_cases (env : Env) (db : Db) (repository : String) (artifact : WorkArtifact) :
    checkReleased env db repository artifact = .ok () ∧ (artifact.isOpenForReview = true →
        ∃ round ∈ pullRequestReviewItems env db repository artifact.url, isPassed round = true) ∨
      checkReleased env db repository artifact = .error (reviewGateRefusal repository artifact) ∧
        artifact.isOpenForReview = true ∧
        ∀ round ∈ pullRequestReviewItems env db repository artifact.url,
          isPassed round = false := by
  unfold checkReleased refuseIf
  by_cases hopen : artifact.isOpenForReview = true
  · rw [if_neg (by rw [hopen]; exact nofun)]
    by_cases hnone : (pullRequestReviewItems env db repository artifact.url).any isPassed = false
    · rw [if_pos hnone]
      refine Or.inr ⟨rfl, hopen, fun round hround => ?_⟩
      exact Bool.eq_false_iff.mpr fun h =>
        (List.any_eq_false.mp hnone round hround) h
    · rw [if_neg hnone]
      exact Or.inl ⟨rfl, fun _ => List.any_eq_true.mp (Bool.not_eq_false _ |>.mp hnone)⟩
  · rw [if_pos (Bool.eq_false_iff.mpr hopen)]
    exact Or.inl ⟨rfl, fun h => absurd h hopen⟩

/-- The check of an item that is no cure in a gated repository. -/
theorem assertReviewGate_eq {artifacts : List WorkArtifact} (hkind : item.kind ∉ cureKinds)
    (hvalid : validateRepository item.repository = .ok ())
    (hgate : reviewGateEnabled db item.repository = true) :
    assertReviewGate env db item artifacts =
      refuseEach (checkReleased env db item.repository) artifacts := by
  unfold assertReviewGate
  rw [if_neg hkind, hvalid, hgate]
  rfl

/-- The pull request of a mark has a passed round, when every mark has one. -/
theorem MarkedReady.passed (h : MarkedReady env db repository url)
    (hdb : EveryMarkPassed env db) :
    ∃ round ∈ pullRequestReviewItems env db repository url, isPassed round = true := by
  obtain ⟨e, he, marked, headSha, reviewItemId, hpayload, hidentity, review, hreview, hid, rfl⟩ := h
  have hposted : e.posting ∈ db.ledger.history e.workItemId :=
    List.mem_map.mpr ⟨e, Ledger.mem_of.mpr ⟨he, rfl⟩, rfl⟩
  obtain ⟨review', hreview', hid', round, hround, hpassed⟩ :=
    hdb _ _ hposted marked headSha reviewItemId hpayload
  obtain rfl : review' = review := Option.some.inj <| by
    rw [← Table.find?_key hreview', ← Table.find?_key hreview, hid, hid']
  rw [mem_pullRequestReviewItems, isReviewOf_iff] at hround
  obtain ⟨hmem, hrepository, hkinds, bound, hbound, hbound'⟩ := hround
  exact ⟨round, mem_pullRequestReviewItems.mpr ⟨hmem, isReviewOf_iff.mpr
    ⟨hrepository, hkinds, bound, hbound, hbound'.trans hidentity⟩⟩, hpassed⟩

/-- A round that passed released its pull request. -/
theorem isReleasing_of_isPassed (h : isPassed item = true) : isReleasing item = true := by
  obtain ⟨hkind, hcompleted, hpass⟩ := isPassed_iff.mp h
  obtain ⟨review, hreview, hdecision⟩ := Option.bind_eq_some_iff.mp hpass
  refine isReleasing_iff.mpr ⟨hkind, hcompleted, review, hreview, ?_⟩
  rw [PullRequestReview.releases, hdecision]
  rfl

/-- **The gate agrees with the pass** in every state in which every mark has a
passed round. -/
theorem gateAgrees_of_everyMarkPassed (hdb : EveryMarkPassed env db)
    (hvalid : ∀ item ∈ db.items.rows, validateRepository item.repository = .ok ()) :
    GateAgrees env db where
  accepts item hitem hkind artifacts hmarked := by
    by_cases hgate : reviewGateEnabled db item.repository = true
    · rw [assertReviewGate_eq hkind (hvalid item hitem) hgate]
      rcases refuseEach_cases (f := checkReleased env db item.repository)
        (fun artifact => (checkReleased_cases env db item.repository artifact).imp And.left And.left)
        artifacts with ⟨hok, -⟩ | ⟨artifact, hartifact, herror, -⟩
      · exact hok
      · -- the artifact that is refused was marked, so it has a passed round
        rcases checkReleased_cases env db item.repository artifact with ⟨hok, -⟩ | ⟨-, hopen, hnone⟩
        · exact nomatch hok.symm.trans herror
        · obtain ⟨round, hround, hpassed⟩ := (hmarked artifact hartifact hopen).passed hdb
          exact nomatch (hnone round hround).symm.trans hpassed
    · unfold assertReviewGate
      rw [if_neg hkind, hvalid item hitem, Bool.eq_false_iff.mpr hgate]
      rfl
  refuses item hitem hkind hgate artifacts artifact hartifact hopen hreleased := by
    rw [assertReviewGate_eq hkind (hvalid item hitem) hgate]
    rcases refuseEach_cases (f := checkReleased env db item.repository)
      (fun artifact => (checkReleased_cases env db item.repository artifact).imp And.left And.left)
      artifacts with ⟨-, hall⟩ | ⟨refused, hrefused, -, herror⟩
    · rcases checkReleased_cases env db item.repository artifact with ⟨-, hpassed⟩ | ⟨herror, -⟩
      · obtain ⟨round, hround, hround'⟩ := hpassed hopen
        exact absurd ⟨round, hround, isReleasing_of_isPassed hround'⟩ hreleased
      · exact nomatch (hall artifact hartifact).symm.trans herror
    · exact ⟨refused, hrefused, herror⟩

end Stable

/-! ## What a pass keeps -/

/-- Whether a call records that a pull request is ready. -/
def Op.marksReady : Op → Bool
  | .recordPullRequestReady .. => true
  | _ => false

/-- A condition on the pass that no answer ends, and no call that marks
nothing. -/
class Kept {env : Env} (out : Outside) (P : Pass env → Prop) : Prop where
  outside : KeptOutside out P
  called : ∀ s op, op.marksReady = false → P s → P (s.after [op])

section Keeping

open Tx (Maintains)

variable {env : Env} {out : Outside} {P : Pass env → Prop}

instance maintains_githubApiJson [h : Kept out P] (request : GitHubRequest) :
    Maintains P (githubApiJson out request : PassTx env GitHubJsonResponse) :=
  ⟨fun s hs => h.outside.answered s (some request) s.asks hs⟩

instance maintains_policyAuthorityFor [h : Kept out P] (repository : String) :
    Maintains P (policyAuthorityFor out repository : PassTx env (Option PolicyAuthority)) := by
  refine Maintains.then inferInstance fun asks => ?_
  split
  · have : Maintains P (Tx.update fun s : Pass env => s.asked none [] : PassTx env Unit) :=
      ⟨fun s hs => h.outside.told s hs⟩
    infer_instance
  · infer_instance

instance maintains_readTime [h : Kept out P] : Maintains P (readTime out : PassTx env Text) := by
  have : Maintains P (Tx.update fun s : Pass env => s.asked none [] : PassTx env Unit) :=
    ⟨fun s hs => h.outside.told s hs⟩
  unfold readTime
  infer_instance

instance maintains_view {α : Type} (f : Db → α) : Maintains P (view f : PassTx env α) :=
  Tx.maintains_read _

variable (out) in
theorem maintains_perform [h : Kept out P] {op : Op} (hop : op.marksReady = false) :
    Maintains P (perform op : PassTx env Reply) := ⟨fun s hs => h.called s op hop hs⟩

variable (out) in
theorem maintains_readChangedLoop [Kept out P] (locator : PullRequestLocator)
    (filenames : List String) (pages : List ℕ) :
    Maintains P (readChangedLoop out locator filenames pages : PassTx env ChangedFiles) := by
  induction pages generalizing filenames with
  | nil =>
    rw [readChangedLoop]
    infer_instance
  | cons page rest ih =>
    rw [readChangedLoop]
    refine Maintains.then inferInstance fun response => ?_
    split
    · refine Maintains.then inferInstance fun names? => ?_
      split
      · infer_instance
      · have := ih
        infer_instance
    · infer_instance

instance maintains_readPatchLoop [Kept out P] (locator : PullRequestLocator)
    (files : List PatchFile) (pages : List ℕ) :
    Maintains P (readPatchLoop out locator files pages : PassTx env PatchRead) := by
  induction pages generalizing files with
  | nil =>
    rw [readPatchLoop]
    infer_instance
  | cons page rest ih =>
    rw [readPatchLoop]
    refine Maintains.then inferInstance fun response => ?_
    split
    · split
      · infer_instance
      · split
        · infer_instance
        · have := ih
          infer_instance
    · infer_instance

instance maintains_listOpenLoop [Kept out P] (repository : String)
    (pulls : List ListedPullRequest) (pages : List ℕ) :
    Maintains P (listOpenLoop out repository pulls pages : PassTx env OpenPullRequests) := by
  induction pages generalizing pulls with
  | nil =>
    rw [listOpenLoop]
    infer_instance
  | cons page rest ih =>
    rw [listOpenLoop]
    refine Maintains.then inferInstance fun response => ?_
    split
    · split
      · infer_instance
      · split
        · infer_instance
        · have := ih
          infer_instance
    · infer_instance

instance maintains_readPullRequestHead [Kept out P] (repository url : String) :
    Maintains P (readPullRequestHead out repository url : PassTx env (PullCheck PullRequestHead)) := by
  unfold readPullRequestHead
  split
  · infer_instance
  · refine Maintains.then inferInstance fun pull => ?_
    split <;> infer_instance

instance maintains_describe [Kept out P] (options : ReviewOptions) (repository url : String)
    (blockers : List ReviewBlocker) (verdict : PullRequestReview) :
    Maintains P (describeDescriptionAdjudication out options repository url blockers verdict :
      PassTx env String) := by
  unfold describeDescriptionAdjudication
  dsimp only
  split
  · refine Maintains.then (Maintains.then inferInstance fun response => ?_) fun edited => inferInstance
    split <;> infer_instance
  · infer_instance

/-- **Marking a head ready keeps what its own mark keeps.** -/
theorem maintains_applyPassConsequence [Kept out P] {actor url reviewItemId : String}
    {writes : Bool} {origin : ReviewOrigin} {head : PullRequestHead} {round : JsNumber}
    (hmark : ∀ s, P s → P (s.after
      [.recordPullRequestReady origin.originItemId url actor head.headSha reviewItemId])) :
    Maintains P (applyPassConsequence out actor writes origin url head round reviewItemId :
      PassTx env (List ReviewEntry)) := by
  have hmarked : Maintains P (perform (.recordPullRequestReady origin.originItemId url actor
      head.headSha reviewItemId) : PassTx env Reply) := ⟨hmark⟩
  have hrelease : Maintains P (releaseHead out actor writes origin url head round reviewItemId :
      PassTx env (List ReviewEntry)) := by
    unfold releaseHead markPullRequestReady convertPullRequestToDraft
    split
    · infer_instance
    · split
      · infer_instance
      · refine Maintains.then inferInstance fun failure? => ?_
        split
        · infer_instance
        · refine Maintains.then inferInstance fun after => ?_
          dsimp only
          split
          · refine Maintains.then inferInstance fun failure? => ?_
            split <;> infer_instance
          · infer_instance
  have hread := maintains_readChangedLoop (P := P) out
  unfold applyPassConsequence readChangedFilenames
  refine Maintains.then inferInstance fun authority => ?_
  dsimp only
  split
  · exact hrelease
  · refine Maintains.then (hread _ _ _) fun files => ?_
    split
    · infer_instance
    · refine Maintains.then inferInstance fun touched => ?_
      split
      · exact hrelease
      · infer_instance

variable (out) in
theorem maintains_enqueueReview [Kept out P] (repository : String) (input : ReviewRootInput)
    (noun url headSha : String) (round : JsNumber) :
    Maintains P (enqueueReview repository input noun url headSha round : PassTx env ReviewEntry) := by
  refine Maintains.then (maintains_perform out rfl) fun created => ?_
  split <;> infer_instance

variable (out) in
theorem maintains_blockConsequence [Kept out P] (actor : String) (origin : ReviewOrigin)
    (url : String) (head : PullRequestHead) (reviews : List WorkItem) (latest : WorkItem)
    (verdict : PullRequestReview) :
    Maintains P (blockConsequence actor origin url head reviews latest verdict :
      PassTx env (List ReviewEntry)) := by
  unfold blockConsequence
  dsimp only
  split
  · infer_instance
  · split
    · infer_instance
    · split
      · infer_instance
      · have hfix : Maintains P (enqueueFix actor origin url head latest verdict :
            PassTx env ReviewEntry) := maintains_enqueueReview out _ _ _ _ _ _
        infer_instance

instance maintains_enqueueRound [Kept out P] (actor : String) (origin : ReviewOrigin)
    (url : String) (head : PullRequestHead) (judged : List WorkItem) :
    Maintains P (enqueueRound out actor origin url head judged : PassTx env (List ReviewEntry)) := by
  unfold enqueueRound readPatchDigest
  dsimp only
  split
  · infer_instance
  · have henqueue := maintains_enqueueReview (P := P) out
    infer_instance

/-- **What a verdict asks for keeps what the mark of a release keeps**: the
pass marks a pull request ready only on a verdict that releases it. -/
theorem maintains_verdictConsequence [Kept out P] {options : ReviewOptions} {actor url : String}
    {origin : ReviewOrigin} {head : PullRequestHead} {reviews : List WorkItem}
    {latest : WorkItem} {verdict : PullRequestReview} (hjudged : verdict.decision ≠ none)
    (hmark : verdict.releases = true → ∀ s, P s → P (s.after
      [.recordPullRequestReady origin.originItemId url actor head.headSha latest.id])) :
    Maintains P (verdictConsequence out options actor origin url head reviews latest verdict :
      PassTx env (List ReviewEntry)) := by
  unfold verdictConsequence
  split
  · next hpass =>
    refine maintains_applyPassConsequence (hmark ?_)
    rw [PullRequestReview.releases, hpass]
    rfl
  · infer_instance
  · next hpass hunable =>
    have hblock : verdict.decision = some .block := by
      cases hdecision : verdict.decision with
      | none => exact (hjudged hdecision).elim
      | some decision =>
        cases decision with
        | pass => exact (hpass hdecision).elim
        | unableToReview => exact (hunable hdecision).elim
        | block => rfl
    have hreport : Maintains P (reportDescriptionBlockers out options origin url head verdict :
        PassTx env (List ReviewEntry)) := by
      unfold reportDescriptionBlockers
      infer_instance
    refine hreport.then fun reported => ?_
    dsimp only
    split
    · next houtstanding =>
      refine Maintains.then (maintains_applyPassConsequence (hmark ?_)) fun entries => inferInstance
      rw [PullRequestReview.releases, hblock, houtstanding]
      rfl
    · exact Maintains.then (maintains_blockConsequence out ..) fun entries => inferInstance

end Keeping

/-! ## Passes mark what was released -/

section Passes

open Tx (Maintains)

variable {env : Env} {out : Outside}

/-- What a review released stays released by it, whatever is called. -/
theorem ReleasedBy.after {s : Pass env} {reviewItemId url : String}
    (h : ReleasedBy env s.db reviewItemId url) (ops : List Op) :
    ReleasedBy env (s.after ops).db reviewItemId url :=
  (queue env).after_keeps (P := fun w => ReleasedBy env w.db reviewItemId url)
    (fun w op hw => (step_moves op w).keeps (P := fun db => ReleasedBy env db reviewItemId url)
      ReleasedBy.move hw) ops h

/-- **A pass that keeps a condition does, where it reviews a head**: with the
rounds as they are, it marks the pull request only when one of them released
it. -/
theorem keeps_reviewHead {P : Pass env → Prop} [hP : Kept out P]
    (hmark : ∀ s id url actor headSha reviewItemId, ReleasedBy env s.db reviewItemId url → P s →
      P (s.after [.recordPullRequestReady id url actor headSha reviewItemId]))
    (options : ReviewOptions) (actor url : String) (origin : ReviewOrigin) (head : PullRequestHead)
    {s : Pass env} (hs : P s) :
    P (reviewHead out options actor origin url head
      (pullRequestReviewItems env s.db origin.repository url) s).2 := by
  unfold reviewHead
  split
  · exact hs
  · cases hlatest : latestVerdict (pullRequestReviewItems env s.db origin.repository url) with
    | none => exact (maintains_enqueueRound (P := P) ..).maintains s hs
    | some found =>
      obtain ⟨latest, verdict⟩ := found
      dsimp only
      split
      · obtain ⟨latest', hmem, hverdict⟩ := Option.bind_eq_some_iff.mp hlatest
        obtain ⟨verdict', hreview, hpair⟩ := Option.map_eq_some_iff.mp hverdict
        obtain ⟨rfl, rfl⟩ := Prod.mk.inj hpair
        -- the latest judged round is one of the pull request's
        have hjudged := List.mem_of_getLast? hmem
        rw [completedReviews, List.mem_insertionSort, List.mem_filter,
          mem_pullRequestReviewItems] at hjudged
        obtain ⟨⟨hrow, hof⟩, hjudged⟩ := hjudged
        simp only [isJudged, Bool.and_eq_true, decide_eq_true_eq, hreview, Option.bind_some,
          WorkItem.status_eq_completed] at hjudged
        obtain ⟨⟨hkind, hcompleted⟩, hdecision⟩ := hjudged
        have hreleased : verdict'.releases = true →
            ReleasedBy env s.db latest'.id url := fun hreleases =>
          ⟨latest', hrow, rfl, (isReviewOf_iff.mp hof).1 ▸ hof,
            isReleasing_iff.mpr ⟨hkind, hcompleted, verdict', hreview, hreleases⟩⟩
        let Q : Pass env → Prop := fun t =>
          P t ∧ (verdict'.releases = true → ReleasedBy env t.db latest'.id url)
        have hQ : Kept out Q :=
          { outside :=
              { answered := fun t request k ht => ⟨hP.outside.answered t request k ht.1,
                  fun hreleases => (ht.2 hreleases).after (out.meanwhile k)⟩
                told := fun t ht => ⟨hP.outside.told t ht.1,
                  fun hreleases => (ht.2 hreleases).after []⟩ }
            called := fun t op hop ht => ⟨hP.called t op hop ht.1,
              fun hreleases => (ht.2 hreleases).after [op]⟩ }
        have hkeeps : Maintains Q (verdictConsequence out options actor origin url head
            (pullRequestReviewItems env s.db origin.repository url) latest' verdict' :
              PassTx env (List ReviewEntry)) := by
          refine maintains_verdictConsequence (fun hnone => ?_) fun hreleases t ht =>
            ⟨hmark t _ _ _ _ _ (ht.2 hreleases) ht.1, fun h => (ht.2 h).after _⟩
          rw [hnone] at hdecision
          cases hdecision
        exact (hkeeps.maintains s ⟨hs, hreleased⟩).1
      · exact (maintains_enqueueRound (P := P) ..).maintains s hs

/-- **A pass keeps what waiting keeps, its calls keep, and a mark keeps of a
pull request that a review released.** -/
theorem maintains_reviewPullRequests {P : Pass env → Prop} [Kept out P]
    (hmark : ∀ s id url actor headSha reviewItemId, ReleasedBy env s.db reviewItemId url → P s →
      P (s.after [.recordPullRequestReady id url actor headSha reviewItemId]))
    (options : ReviewOptions) (repository : Option String) (limit : ℤ) (actor : String) :
    Maintains P (reviewPullRequests out options repository limit actor :
      PassTx env (ℕ × List ReviewEntry)) := by
  have hdraft : ∀ url origin, Maintains P (reviewDraft out options actor url origin :
      PassTx env (List ReviewEntry)) := by
    intro url origin
    refine Maintains.then inferInstance fun check => ?_
    split
    · infer_instance
    · infer_instance
    · next head =>
      dsimp only
      split
      · infer_instance
      · split
        · infer_instance
        · refine Maintains.then inferInstance fun _ => ⟨fun s hs => ?_⟩
          exact keeps_reviewHead hmark options actor url origin head hs
  have hunreported : ∀ observedAt slug, Maintains P
      (observeUnreported out options actor observedAt slug : PassTx env (List ReviewEntry)) := by
    intro observedAt slug
    refine Maintains.then (maintains_listOpenLoop _ _ _) fun listing => ?_
    split
    · infer_instance
    · have hrecord := fun op => @maintains_perform env out P _ op
      refine Maintains.then inferInstance fun _ => Maintains.then inferInstance fun seen =>
        Maintains.then inferInstance fun claimed => ?_
      exact Maintains.then (hrecord _ rfl) fun _ => inferInstance
  unfold reviewPullRequests selectPendingItems
  refine Maintains.then inferInstance fun gated => ?_
  split
  · infer_instance
  · infer_instance

end Passes

/-! ## Runs of passes and calls -/

/-- **A turn of a run**: a call of the store, or a whole review pass with what it
meets outside. -/
inductive ReviewTurn where
  | call (op : Op)
  | pass (out : Outside) (options : ReviewOptions) (repository : Option String) (limit : ℤ)
      (actor : String)

/-- The queue after a turn. -/
def ReviewTurn.take {env : Env} (turn : ReviewTurn) (s : Pass env) : Pass env :=
  match turn with
  | .call op => s.after [op]
  | .pass out options repository limit actor =>
    (reviewPullRequests out options repository limit actor s).2

/-- The queue after a run of turns. -/
def afterReviews (env : Env) (turns : List ReviewTurn) : Pass env :=
  turns.foldl (fun s turn => turn.take s) (Pass.start env)

/-- **A turn as it should be**, in the state it meets: only the review pass marks
pull requests ready. Whoever calls the store meanwhile is another pass where
it does, and marks what a review released. -/
def ReviewTurn.Orderly {env : Env} (turn : ReviewTurn) (s : Pass env) : Prop :=
  match turn with
  | .call op => MarksReleased env s.db op
  | .pass out _ _ _ _ => ∀ k, ∀ t : Pass env, s.calls <+: t.calls →
    EachCall env (MarksReleased env) t.calls →
      EachCall env (MarksReleased env) (t.calls ++ out.meanwhile k)

/-- A run of orderly turns. -/
def OrderlyReviews (env : Env) (turns : List ReviewTurn) : Prop :=
  ∀ before turn later, turns = before ++ turn :: later → turn.Orderly (afterReviews env before)

section Runs

variable {env : Env} {turns : List ReviewTurn}

theorem eachCall_append_quiet {C : Db → Op → Prop} (hC : ∀ db op, op.marksReady = false → C db op)
    {calls more : List Op} (hcalls : EachCall env C calls)
    (hmore : ∀ op ∈ more, op.marksReady = false) : EachCall env C (calls ++ more) := by
  induction more using List.reverseRecOn with
  | nil => rwa [List.append_nil]
  | append_singleton more op ih =>
    rw [← List.append_assoc, eachCall_concat]
    exact ⟨ih fun op' hop => hmore op' (List.mem_append_left _ hop),
      hC _ op (hmore op (List.mem_append_right _ (List.mem_singleton_self op)))⟩

/-- A call that marks nothing marks only what was released. -/
theorem marksReleased_of_quiet (db : Db) (op : Op) (h : op.marksReady = false) :
    MarksReleased env db op := by
  cases op with
  | recordPullRequestReady => exact nomatch h
  | _ => trivial

/-- A call that marks nothing meets the condition. -/
theorem marksPassed_of_quiet (db : Db) (op : Op) (h : op.marksReady = false) :
    MarksPassed env db op := by
  cases op with
  | recordPullRequestReady => exact nomatch h
  | _ => trivial

instance (db : Db) (op : Op) : Decidable (MarksPassed env db op) := by
  apply Op.casesOn (motive := fun op => Decidable (MarksPassed env db op)) op
  case recordPullRequestReady =>
    intros
    exact inferInstanceAs (Decidable (∀ review ∈ db.items.rows, _))
  all_goals
    intros
    exact isTrue trivial

/-- Nobody but the passes marks a pull request ready in the turn. -/
def ReviewTurn.Quiet : ReviewTurn → Prop
  | .call op => op.marksReady = false
  | .pass out _ _ _ _ => ∀ k, ∀ op ∈ out.meanwhile k, op.marksReady = false

/-- **Passes that do not overlap are orderly.** -/
theorem orderlyReviews_of_quiet (h : ∀ turn ∈ turns, turn.Quiet) : OrderlyReviews env turns := by
  rintro before turn later rfl
  have hturn := h turn (List.mem_append_right _ List.mem_cons_self)
  cases turn with
  | call op => exact marksReleased_of_quiet _ op hturn
  | pass out options repository limit actor =>
    exact fun k t _ ht => eachCall_append_quiet marksReleased_of_quiet ht (hturn k)

theorem afterReviews_concat (turns : List ReviewTurn) (turn : ReviewTurn) :
    afterReviews env (turns ++ [turn]) = turn.take (afterReviews env turns) := List.foldl_concat ..

/-- **Every pull request a run marked ready was released by the review** that the
mark names. -/
theorem marksReleased_afterReviews (h : OrderlyReviews env turns) :
    EachCall env (MarksReleased env) (afterReviews env turns).calls := by
  induction turns using List.reverseRecOn with
  | nil => exact fun before _ _ hcalls => nomatch (List.append_eq_nil_iff.mp hcalls.symm).2
  | append_singleton turns turn ih =>
    have hbefore := ih fun before later_turn later hturns =>
      h before later_turn (later ++ [turn]) (by rw [hturns, List.append_assoc, List.cons_append])
    have hturn := h turns turn [] rfl
    rw [afterReviews_concat]
    cases turn with
    | call op =>
      refine eachCall_concat.mpr ⟨hbefore, ?_⟩
      rw [← Pass.db_eq]
      exact hturn
    | pass out options repository limit actor =>
      let s := afterReviews env turns
      let P : Pass env → Prop := fun t =>
        s.calls <+: t.calls ∧ EachCall env (MarksReleased env) t.calls
      have hP : Kept out P :=
        { outside :=
            { answered := fun t _ k ht =>
                ⟨ht.1.trans (List.prefix_append _ _), hturn k t ht.1 ht.2⟩
              told := fun t ht => by
                show s.calls <+: t.calls ++ [] ∧ EachCall env (MarksReleased env) (t.calls ++ [])
                rwa [List.append_nil] }
          called := fun t op hop ht => by
            refine ⟨ht.1.trans (List.prefix_append _ _), eachCall_concat.mpr ⟨ht.2, ?_⟩⟩
            cases op with
            | recordPullRequestReady => exact nomatch hop
            | _ => trivial }
      have hkeeps := @maintains_reviewPullRequests env out P hP
        (fun t id url actor headSha reviewItemId hreleased ht =>
          ⟨ht.1.trans (List.prefix_append _ _), eachCall_concat.mpr ⟨ht.2, by
            rw [← Pass.db_eq]
            exact hreleased⟩⟩) options repository limit actor
      exact (hkeeps.maintains s ⟨List.prefix_refl _, hbefore⟩).2

/-- **What the gate released, completion accepts**: in every state of every run
in which a pull request is marked ready on account of a review that blocked
it only where another of its rounds passed, a completion of an item that is no
cure is accepted with every pull request that was marked ready, and refused
with one that the gate has not released. -/
theorem gateAgrees_afterReviews (hturns : OrderlyReviews env turns)
    (hpassed : EachCall env (MarksPassed env) (afterReviews env turns).calls) (calls : List Op)
    (hcalls : calls <+: (afterReviews env turns).calls) : GateAgrees env (exec env calls).db := by
  obtain ⟨later, hlater⟩ := hcalls
  have hreleased := marksReleased_afterReviews hturns
  refine gateAgrees_of_everyMarkPassed (everyMarkPassed_exec fun before op rest hop => ?_)
    fun item hitem => validateRepository_of_mem hitem
  rintro id marked actor headSha reviewItemId rfl
  have hsplit : (afterReviews env turns).calls =
      before ++ .recordPullRequestReady id marked actor headSha reviewItemId :: (rest ++ later) := by
    rw [← hlater, hop, List.append_assoc, List.cons_append]
  have hmarked : ReleasedBy env (exec env before).db reviewItemId marked :=
    hreleased before _ _ hsplit
  exact hmarked.passedFor (hpassed before _ _ hsplit)

end Runs

/-! ### Two runs -/

/-- GitHub with one open draft at a head, which it lets be marked ready. It
serves nothing else. -/
def Outside.draft (sha : String) : Outside where
  answer _ request := match request with
    | .pull .. => .response 200 (.object
        [("number", .number (.int 1)), ("state", .text "open"), ("draft", .bool true),
          ("base", .object [("repo", .object [("full_name", .text "a/b")])]),
          ("head", .object [("sha", .text sha)]), ("node_id", .text "n")])
    | .markReady _ => .response 200 (.object [("data", .object
        [("markPullRequestReadyForReview", .object [("pullRequest", .object
          [("isDraft", .bool false)])])])])
    | _ => .unavailable
  meanwhile _ := []
  policyAuthority _ _ := none
  credentialed := true
  number json := match json with
    | .number n => n
    | _ => .notInteger
  digest _ := Digest.zero
  time _ := ⟨"2026-01-01T00:00:00.000Z", isBlank_newYear⟩
  handoff _ _ := .valid

/-- A pull request as a completion reports it. -/
def reportedPull (draft : Option Bool) : WorkArtifact where
  kind := .pullRequest
  url := "https://github.com/a/b/pull/1"
  description := none
  verification := some (.verified
    { verifiedAt := "2026-01-01T00:00:00.000Z"
      number := .int 1
      state := .opened
      draft })

/-- A review pass over the draft at a head, with writes. -/
def reviewAt (sha : String) : ReviewTurn :=
  .pass (.draft sha) ⟨true, fun _ => none⟩ none 100 "policy:review-gate"

/-- The two heads of the draft. -/
def firstHead : String := "aaaaaaaaaaaaaaaaaaaaaaaaaaaaaaaaaaaaaaaa"

/-- The head after a fix. -/
def secondHead : String := "bbbbbbbbbbbbbbbbbbbbbbbbbbbbbbbbbbbbbbbb"

/-- A round of the draft, with what the pass binds it to, is asked for; a worker
claims it and judges it. -/
def judged (headSha : String) (round : ℤ) (priorBlockers : List ReviewBlocker) (id token : ℕ)
    (verdict : ReviewResult) : List ReviewTurn :=
  [.call (.enqueueReviewRoot "a/b"
      { definition :=
          { WorkDefinition.sample with
            kind := reviewKind
            allowedActions := [.read, .runTests]
            delegableActions := []
            requiredArtifact := some .none
            createdBy := "policy:review-gate" }
        sourceRef := s!"pr-review:https://github.com/a/b/pull/1@{headSha}"
        review :=
          { pullRequestUrl := "https://github.com/a/b/pull/1"
            headSha
            patchDigest := none
            round := .int round
            originItemId := some (Env.sample.randomUUID 2)
            authorModel := none
            priorReviewerModel := none
            priorBlockers
            reviewItemId := none
            reviewerModel := none
            decision := none
            blockers := none
            advisories := none
            reviewedAt := none } }),
    .call (.claim { worker := "r" }),
    .call (.complete
      { id := Env.sample.randomUUID id
        leaseToken := Env.sample.randomUUID token
        worker := "r"
        result := ⟨"reviewed", ["read"], [], none⟩
        followUps := []
        review := some verdict })]

/-- In a gated repository a change delivers a draft. -/
def draftDelivered : List ReviewTurn :=
  [.call (.setRepositoryEnabled "a/b" true), .call (.setRepositoryReviewGate "a/b" true),
    .call (.enqueueSeed "a/b" .change), .call (.claim { worker := "w" }),
    .call (.complete
      { id := Env.sample.randomUUID 2
        leaseToken := Env.sample.randomUUID 7
        worker := "w"
        result := ⟨"done", ["tests pass"], [reportedPull (some true)], none⟩
        followUps := [] })]

/-- A blocker about the description. -/
def missingRisk : ReviewBlocker := ⟨"contract:pr-body:risk", "description", "c", "i", "r", "v"⟩

/-- The first round passes, and the pull request is marked ready. -/
def passedReviews : List ReviewTurn :=
  draftDelivered ++ judged firstHead 1 [] 13 18 ⟨.pass, [], []⟩ ++ [reviewAt firstHead]

/-- Both rounds block the pull request on its description, and it is marked
ready on the second. Then another change is claimed. -/
def outstandingReviews : List ReviewTurn :=
  draftDelivered ++ judged firstHead 1 [] 13 18 ⟨.block, [missingRisk], []⟩ ++
    judged secondHead 2 [missingRisk] 26 31 ⟨.block, [missingRisk], []⟩ ++ [reviewAt secondHead] ++
    [.call (.enqueueSeed "a/b" .change), .call (.claim { worker := "w" })]

theorem quiet_reviewAt (sha : String) : (reviewAt sha).Quiet := fun _ _ h => nomatch h

theorem quiet_judged (headSha : String) (round : ℤ) (priorBlockers : List ReviewBlocker)
    (id token : ℕ) (verdict : ReviewResult) :
    ∀ turn ∈ judged headSha round priorBlockers id token verdict, turn.Quiet := by
  simp [judged, ReviewTurn.Quiet, Op.marksReady]

theorem quiet_draftDelivered : ∀ turn ∈ draftDelivered, turn.Quiet := by
  simp [draftDelivered, ReviewTurn.Quiet, Op.marksReady]

theorem quiet_passedReviews : ∀ turn ∈ passedReviews, turn.Quiet := by
  intro turn hturn
  simp only [passedReviews, List.mem_append, List.mem_singleton] at hturn
  rcases hturn with (hturn | hturn) | rfl
  · exact quiet_draftDelivered turn hturn
  · exact quiet_judged _ _ _ _ _ _ turn hturn
  · exact quiet_reviewAt firstHead

/-- In the first run every call but the last marks nothing, and that one marks
a pull request whose round passed. -/
theorem eachCall_passedReviews : EachCall Env.sample (MarksPassed Env.sample)
    (afterReviews Env.sample passedReviews).calls := by
  have hcalls : (afterReviews Env.sample passedReviews).calls ≠ [] ∧
      (∀ op ∈ (afterReviews Env.sample passedReviews).calls.dropLast, op.marksReady = false) ∧
      ∀ op ∈ (afterReviews Env.sample passedReviews).calls.getLast?, MarksPassed Env.sample
        (exec Env.sample (afterReviews Env.sample passedReviews).calls.dropLast).db op := by
    decide +kernel
  obtain ⟨hne, hquiet, hlast⟩ := hcalls
  rw [← List.dropLast_append_getLast hne, eachCall_concat]
  refine ⟨?_, hlast _ (List.getLast?_eq_some_getLast hne)⟩
  have hnone : EachCall Env.sample (MarksPassed Env.sample) [] :=
    fun before _ _ hcalls => nomatch (List.append_eq_nil_iff.mp hcalls.symm).2
  exact eachCall_append_quiet marksPassed_of_quiet hnone hquiet

/-- In the state after the first run the gate and completion agree. -/
theorem gateAgrees_afterReviews_sample :
    GateAgrees Env.sample (exec Env.sample (afterReviews Env.sample passedReviews).calls).db :=
  gateAgrees_afterReviews (orderlyReviews_of_quiet quiet_passedReviews) eachCall_passedReviews _
    (List.prefix_refl _)

/-- **What the gate released on a block alone, completion refuses**: the change
that is claimed last may not report the pull request. -/
theorem not_gateAgrees_outstanding :
    OrderlyReviews Env.sample outstandingReviews ∧
      ¬ GateAgrees Env.sample (afterReviews Env.sample outstandingReviews).db := by
  refine ⟨orderlyReviews_of_quiet fun turn hturn => ?_, fun h => ?_⟩
  · simp only [outstandingReviews, List.mem_append] at hturn
    rcases hturn with (((hturn | hturn) | hturn) | hturn) | hturn
    · exact quiet_draftDelivered turn hturn
    · exact quiet_judged _ _ _ _ _ _ turn hturn
    · exact quiet_judged _ _ _ _ _ _ turn hturn
    · obtain rfl := List.mem_singleton.mp hturn
      exact quiet_reviewAt secondHead
    · rcases List.mem_cons.mp hturn with rfl | hturn
      · rfl
      · obtain rfl := List.mem_singleton.mp hturn
        rfl
  · have hrun : ∃ e ∈ (afterReviews Env.sample outstandingReviews).db.ledger.events,
        e.payload = .artifactReady "https://github.com/a/b/pull/1" secondHead
          (Env.sample.randomUUID 26) ∧
        (∃ review ∈ (afterReviews Env.sample outstandingReviews).db.items.rows,
          review.id = Env.sample.randomUUID 26 ∧ review.repository = "a/b") ∧
        ∃ item ∈ (afterReviews Env.sample outstandingReviews).db.items.rows,
          item.rowStatus = .claimed ∧ item.kind ∉ cureKinds ∧ item.repository = "a/b" ∧
          assertReviewGate Env.sample (afterReviews Env.sample outstandingReviews).db item
            [reportedPull none] = .error (reviewGateRefusal "a/b" (reportedPull none)) := by
      decide +kernel
    obtain ⟨e, he, hpayload, ⟨review, hreview, hid, hbound⟩, item, hitem, -, hkind, hrepository,
      hrefused⟩ := hrun
    have haccepted := h.accepts item hitem hkind [reportedPull none] fun artifact hartifact _ => by
      obtain rfl := List.mem_singleton.mp hartifact
      rw [hrepository]
      exact ⟨e, he, _, _, _, hpayload, rfl, review, hreview, hid, hbound⟩
    exact nomatch haccepted.symm.trans hrefused

end Snowcat
