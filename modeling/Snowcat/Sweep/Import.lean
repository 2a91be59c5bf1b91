import Snowcat.Queue.Cooldown
import Snowcat.Sweep.Issues

/-!
# Importing twice

An import that has gone through leaves nothing to do for the next one on the
same list. After the roots are enqueued every listed issue has an item, and
an item the import created has the edges its issue declares; the refresh then
gives the other items that are still proposed the edges of theirs, one issue
at a time, and leaves those it has settled alone (`Settled`). Every issue is
settled when the second import comes to it (`importIssues_again`).

What makes an import throw is never the body of an issue: two lists that
differ in their bodies only are refused alike
(`throws_enqueueProposedRoots_of_withoutBody`), and an import refused there
has changed nothing (`db_importIssues_of_refused`).
-/

namespace Snowcat

variable {env : Env} {w w' : World}

/-! ## The list -/

theorem issueUrl_injective (owner name : String) : Function.Injective (issueUrl owner name) := by
  intro m n h
  unfold issueUrl at h
  have hdigits := congrArg String.toList ((String.append_right_inj _).mp h)
  rw [Nat.toString_eq_ofList_toDigits, Nat.toString_eq_ofList_toDigits, String.toList_ofList,
    String.toList_ofList] at hdigits
  rw [← @Nat.ofDigitChars_ten_toDigits m, hdigits, Nat.ofDigitChars_ten_toDigits]

/-- The URLs of a list are apart. -/
theorem Listed.nodup_htmlUrl {owner name : String} {issues : List LabeledIssue}
    (h : Listed owner name issues) : (issues.map LabeledIssue.htmlUrl).Nodup := by
  have hurls : issues.map LabeledIssue.htmlUrl =
      (issues.map LabeledIssue.number).map (issueUrl owner name) := by
    rw [List.map_map]
    exact List.map_congr_left h.urls
  rw [hurls]
  exact h.numbers.map (issueUrl_injective owner name)

/-- An entry that is an issue has its canonical URL. -/
theorem htmlUrl_of_decodeIssue {lower : String → String} {owner name : String} {entry : Json}
    {issue : LabeledIssue} (h : decodeIssue lower owner name entry = .issue issue) :
    issue.htmlUrl = issueUrl owner name issue.number := by
  unfold decodeIssue at h
  split_ifs at h
  split at h
  · split_ifs at h
    obtain rfl := DecodedIssue.issue.inj h
    rfl
  · exact nomatch h

theorem Listed.decodeIssues {lower : String → String} {owner name : String} {entries : List Json}
    {issues listed : List LabeledIssue} (h : Listed owner name issues)
    (hdecoded : decodeIssues lower owner name issues entries = some listed) :
    Listed owner name listed := by
  induction entries generalizing issues with
  | nil => exact Option.some.inj hdecoded ▸ h
  | cons entry rest ih =>
    rw [Snowcat.decodeIssues] at hdecoded
    split at hdecoded
    · exact nomatch hdecoded
    · exact ih h hdecoded
    · next issue hissue =>
      split at hdecoded
      · exact ih h hdecoded
      · next hnew =>
        refine ih ⟨?_, ?_⟩ hdecoded
        · rw [List.map_append, List.map_singleton]
          exact h.numbers.append (List.nodup_singleton _) (List.disjoint_singleton.mpr hnew)
        · exact List.forall_mem_append.mpr ⟨h.urls, List.forall_mem_singleton.mpr
            (htmlUrl_of_decodeIssue hissue)⟩

/-- **What the listing returns is a list of issues**, whatever GitHub
answers. -/
theorem listed_of_fetchLabeledOpenIssues {lower : String → String} {owner name : String}
    {answers : ℕ → GitHubJsonResponse} {issues : List LabeledIssue} {pages : ℕ} {truncated : Bool}
    (h : fetchLabeledOpenIssues lower owner name answers = .issues issues pages truncated) :
    Listed owner name issues := by
  have hloop : ∀ (rest : List ℕ) (before : List LabeledIssue), Listed owner name before →
      fetchIssuesLoop lower owner name answers before rest = .issues issues pages truncated →
      Listed owner name issues := by
    intro rest
    induction rest with
    | nil =>
      intro before hbefore hfetch
      obtain ⟨rfl, -, -⟩ := LabeledIssuesResult.issues.inj hfetch
      exact hbefore
    | cons page rest ih =>
      intro before hbefore hfetch
      rw [fetchIssuesLoop] at hfetch
      split at hfetch
      · exact nomatch hfetch
      · next status value _ =>
        split_ifs at hfetch
        split at hfetch
        · exact nomatch hfetch
        · exact nomatch hfetch
        · next count more hmore =>
          obtain ⟨entries, -, hentries⟩ := Option.map_eq_some_iff.mp hmore
          have hlisted := hbefore.decodeIssues (Prod.ext_iff.mp hentries).2
          split_ifs at hfetch
          · obtain ⟨rfl, -, -⟩ := LabeledIssuesResult.issues.inj hfetch
            exact hlisted
          · exact ih more hlisted hfetch
  exact hloop _ [] ⟨List.nodup_nil, nofun⟩ h

/-! ## Candidates and their items -/

/-- What the checks of an import make of a candidate's edges: they are stored
as they stand. -/
def ProposedRootInput.Stable (candidate : ProposedRootInput) : Prop :=
  normalizePredecessors (some (candidate.definition.predecessors.getD [])) =
    .ok candidate.definition.predecessors

theorem stable_issueWorkCandidate (lower : String → String) (repository : String)
    (priority : Option JsNumber) (issue : LabeledIssue) :
    (issueWorkCandidate lower repository priority issue).Stable := by
  have hparsed := normalizePredecessors_parseDependsOn lower issue.body issue.htmlUrl
  unfold ProposedRootInput.Stable issueWorkCandidate
  dsimp only
  by_cases hnil : parseDependsOn lower issue.body issue.htmlUrl = []
  · rw [if_pos hnil] at hparsed ⊢
    rw [hnil] at hparsed
    exact hparsed
  · rw [if_neg hnil] at hparsed ⊢
    exact hparsed

/-- The edges of a stable candidate pass the check of its creation. -/
theorem ProposedRootInput.Stable.normalize {candidate : ProposedRootInput}
    (h : candidate.Stable) : normalizePredecessors candidate.definition.predecessors =
      .ok candidate.definition.predecessors := by
  unfold ProposedRootInput.Stable at h
  cases hnone : candidate.definition.predecessors with
  | none => rfl
  | some predecessors =>
    rw [hnone] at h
    exact h

/-- **A row is an item of a candidate** in a repository. -/
def IsItemOf (repository : String) (candidate : ProposedRootInput) (row : WorkItem) : Prop :=
  row.repository = repository ∧ row.sourceRef = some candidate.sourceRef

/-- A row has the edges of a candidate. -/
def HasEdgesOf (candidate : ProposedRootInput) (row : WorkItem) : Prop :=
  row.predecessors.getD [] = candidate.definition.predecessors.getD []

/-- **A candidate is settled**: its item, where that is still proposed, has its
edges. -/
def Settled (repository : String) (db : Db) (candidate : ProposedRootInput) : Prop :=
  ∀ item ∈ proposedItemBySourceRef db repository candidate.sourceRef, HasEdgesOf candidate item

theorem sourceRefExists_iff {db : Db} {repository : String} {candidate : ProposedRootInput} :
    sourceRefExists db repository candidate.sourceRef = true ↔
      ∃ row ∈ db.items.rows, IsItemOf repository candidate row := by
  simp only [sourceRefExists, List.any_eq_true, Bool.and_eq_true, decide_eq_true_eq, IsItemOf]

/-- What is found for a candidate is an item of it, and proposed. -/
theorem of_proposedItemBySourceRef {db : Db} {repository sourceRef : String} {item : WorkItem}
    (h : proposedItemBySourceRef db repository sourceRef = some item) :
    item ∈ db.items.rows ∧ item.repository = repository ∧ item.sourceRef = some sourceRef ∧
      item.status = .proposed := by
  have hfound := List.find?_some h
  simp only [Bool.and_eq_true, decide_eq_true_eq, Bool.not_eq_true'] at hfound
  exact ⟨List.mem_of_find?_eq_some h, hfound.1.1, hfound.1.2,
    WorkItem.status_eq_proposed.mpr hfound.2⟩

/-- A candidate is settled when every item of it has its edges. -/
theorem Settled.of_forall {db : Db} {repository : String} {candidate : ProposedRootInput}
    (h : ∀ row ∈ db.items.rows, IsItemOf repository candidate row → HasEdgesOf candidate row) :
    Settled repository db candidate := fun item hitem => by
  obtain ⟨hmem, hrepository, href, -⟩ := of_proposedItemBySourceRef hitem
  exact h item hmem ⟨hrepository, href⟩

/-! ## The roots are enqueued -/

/-- **What enqueueing a list of candidates leaves.** -/
structure Enqueued (repository : String) (candidates : List ProposedRootInput) (w w' : World)
    (result : ImportResult) : Prop where
  checked : ∀ c ∈ candidates, validateWorkDefinition c.definition = .ok () ∧
    validateSourceRef c.sourceRef = .ok ()
  repositories : w'.db.repositories = w.db.repositories
  kept : ∀ row ∈ w.db.items.rows, row ∈ w'.db.items.rows
  fresh : ∀ row ∈ w'.db.items.rows, row ∈ w.db.items.rows ∨
    ∃ c ∈ candidates, row.sourceRef = some c.sourceRef
  known : ∀ c ∈ candidates, sourceRefExists w'.db repository c.sourceRef = true
  listed : ∀ ref ∈ result.created.filterMap WorkItem.sourceRef,
    ref ∈ candidates.map ProposedRootInput.sourceRef
  accounted : ∀ c ∈ candidates, c.sourceRef ∈ result.skippedSourceRefs ∨
    c.sourceRef ∈ result.created.filterMap WorkItem.sourceRef
  edges : (candidates.map ProposedRootInput.sourceRef).Nodup → ∀ c ∈ candidates,
    c.sourceRef ∈ result.created.filterMap WorkItem.sourceRef →
    ∀ row ∈ w'.db.items.rows, IsItemOf repository c row → HasEdgesOf c row

/-- What exists still exists where every row is kept. -/
theorem sourceRefExists_of_kept {db db' : Db} {repository : String}
    {candidate : ProposedRootInput} (hkept : ∀ row ∈ db.items.rows, row ∈ db'.items.rows)
    (h : sourceRefExists db repository candidate.sourceRef = true) :
    sourceRefExists db' repository candidate.sourceRef = true := by
  obtain ⟨row, hrow, hitem⟩ := sourceRefExists_iff.mp h
  exact sourceRefExists_iff.mpr ⟨row, hkept row hrow, hitem⟩

section Rounds

variable {repository : String} {candidate : ProposedRootInput} {rest : List ProposedRootInput}
  {result : ImportResult}

/-- A round that leaves its candidate out. -/
theorem Enqueued.skip (h : Enqueued repository rest w w' result)
    (hchecked : validateWorkDefinition candidate.definition = .ok () ∧
      validateSourceRef candidate.sourceRef = .ok ())
    (hexists : sourceRefExists w.db repository candidate.sourceRef = true) :
    Enqueued repository (candidate :: rest) w w'
      { result with
        skippedSourceRefs := candidate.sourceRef :: result.skippedSourceRefs } where
  checked := List.forall_mem_cons.mpr ⟨hchecked, h.checked⟩
  repositories := h.repositories
  kept := h.kept
  fresh row hrow := (h.fresh row hrow).imp_right fun ⟨c, hc, href⟩ =>
    ⟨c, List.mem_cons_of_mem _ hc, href⟩
  known := List.forall_mem_cons.mpr ⟨sourceRefExists_of_kept h.kept hexists, h.known⟩
  listed ref href := List.mem_cons_of_mem _ (h.listed ref href)
  accounted := List.forall_mem_cons.mpr ⟨Or.inl List.mem_cons_self, fun c hc =>
    (h.accounted c hc).imp_left (List.mem_cons_of_mem _)⟩
  edges hnodup := by
    obtain ⟨hnew, hnodup⟩ := List.nodup_cons.mp hnodup
    refine List.forall_mem_cons.mpr ⟨fun hcreated => ?_, h.edges hnodup⟩
    exact absurd (h.listed _ hcreated) hnew

/-- A round that creates the item of its candidate. -/
theorem Enqueued.create {w₁ : World} {item : WorkItem} {posting : Posting}
    (h : Enqueued repository rest w₁ w' result)
    (hchecked : validateWorkDefinition candidate.definition = .ok () ∧
      validateSourceRef candidate.sourceRef = .ok ())
    (hunseen : ¬ sourceRefExists w.db repository candidate.sourceRef = true)
    {hfresh : w.db.items.find? item.id = none} (hdb : w₁.db = w.db.create item hfresh posting)
    (hitem : IsItemOf repository candidate item) (hedges : HasEdgesOf candidate item) :
    Enqueued repository (candidate :: rest) w w'
      { result with created := item :: result.created } := by
  have hrows : ∀ row, row ∈ w₁.db.items.rows ↔ row ∈ w.db.items.rows ∨ row = item := fun row => by
    rw [hdb]
    exact Db.mem_create hfresh
  have hcreated : (item :: result.created).filterMap WorkItem.sourceRef =
      candidate.sourceRef :: result.created.filterMap WorkItem.sourceRef :=
    List.filterMap_cons_some hitem.2
  constructor
  · exact List.forall_mem_cons.mpr ⟨hchecked, h.checked⟩
  · rw [h.repositories, hdb]
    rfl
  · exact fun row hrow => h.kept row ((hrows row).mpr (Or.inl hrow))
  · intro row hrow
    rcases h.fresh row hrow with hold | ⟨c, hc, href⟩
    · rcases (hrows row).mp hold with hold | rfl
      · exact Or.inl hold
      · exact Or.inr ⟨candidate, List.mem_cons_self, hitem.2⟩
    · exact Or.inr ⟨c, List.mem_cons_of_mem _ hc, href⟩
  · have hstored := h.kept item ((hrows item).mpr (Or.inr rfl))
    exact List.forall_mem_cons.mpr ⟨sourceRefExists_iff.mpr ⟨item, hstored, hitem⟩, h.known⟩
  · rw [hcreated]
    exact List.forall_mem_cons.mpr ⟨List.mem_cons_self, fun ref href =>
      List.mem_cons_of_mem _ (h.listed ref href)⟩
  · rw [hcreated]
    exact List.forall_mem_cons.mpr ⟨Or.inr List.mem_cons_self, fun c hc =>
      (h.accounted c hc).imp_right (List.mem_cons_of_mem _)⟩
  · intro hnodup
    obtain ⟨hnew, hnodup⟩ := List.nodup_cons.mp hnodup
    rw [hcreated]
    refine List.forall_mem_cons.mpr ⟨fun _ row hrow hrowitem => ?_, fun c hc hcreatedc => ?_⟩
    · rcases h.fresh row hrow with hold | ⟨c, hc, href⟩
      · rcases (hrows row).mp hold with hold | rfl
        · exact absurd (sourceRefExists_iff.mpr ⟨row, hold, hrowitem⟩) hunseen
        · exact hedges
      · refine absurd ?_ hnew
        rw [Option.some.inj (hrowitem.2.symm.trans href)]
        exact List.mem_map_of_mem hc
    · rcases List.mem_cons.mp hcreatedc with hsame | hcreatedc
      · exact absurd (hsame ▸ List.mem_map_of_mem hc) hnew
      · exact h.edges hnodup c hc hcreatedc

end Rounds

/-- **What the loop leaves**, when everything it has seen exists. -/
theorem enqueued_proposedRootLoop {repository : String} {candidates : List ProposedRootInput}
    (hstable : ∀ c ∈ candidates, c.Stable) {seen : List String} {result : ImportResult}
    (hseen : ∀ c : ProposedRootInput, c.sourceRef ∈ seen →
      sourceRefExists w.db repository c.sourceRef = true)
    (h : (proposedRootLoop env repository seen candidates).Returns w result w') :
    Enqueued repository candidates w w' result := by
  induction candidates generalizing seen w result with
  | nil =>
    obtain ⟨rfl, rfl⟩ := Tx.returns_pure.mp h
    exact ⟨List.forall_mem_nil _, rfl, fun _ h => h, fun _ h => Or.inl h, List.forall_mem_nil _,
      List.forall_mem_nil _, List.forall_mem_nil _, fun _ => List.forall_mem_nil _⟩
  | cons candidate rest ih =>
    obtain ⟨hcandidate, hrest⟩ := List.forall_mem_cons.mp hstable
    simp only [proposedRootLoop, Tx.returns_bind, Tx.returns_ofExcept, Tx.returns_read,
      hcandidate.normalize] at h
    obtain ⟨_, _, ⟨hdefinition, rfl⟩, _, _, ⟨hsourceRef, rfl⟩, _, _, ⟨hsame, rfl⟩, _, w, ⟨rfl, rfl⟩,
      h⟩ := h
    obtain rfl := Except.ok.inj hsame
    split at h
    · next hskips =>
      simp only [Tx.returns_bind, Tx.returns_pure] at h
      obtain ⟨more, _, hloop, rfl, rfl⟩ := h
      exact (ih hrest hseen hloop).skip ⟨hdefinition, hsourceRef⟩
        (hskips.elim (hseen candidate) id)
    · next hnew =>
      simp only [Tx.returns_bind, Tx.returns_pure] at h
      obtain ⟨item, w₁, hroot, more, _, hloop, rfl, rfl⟩ := h
      obtain ⟨id, createdAt, policy, t, hfresh, rfl, hdb, -⟩ := createRoot_spec hroot
      have hkept : ∀ row ∈ w.db.items.rows, row ∈ w₁.db.items.rows := fun row hrow => by
        rw [hdb]
        exact (Db.mem_create hfresh).mpr (Or.inl hrow)
      have hstored : _ ∈ w₁.db.items.rows := hdb ▸ (Db.mem_create hfresh).mpr (Or.inr rfl)
      have hseen₁ : ∀ c : ProposedRootInput, c.sourceRef ∈ candidate.sourceRef :: seen →
          sourceRefExists w₁.db repository c.sourceRef = true := by
        intro c hc
        rcases List.mem_cons.mp hc with hsame | hc
        · exact sourceRefExists_iff.mpr ⟨_, hstored, rfl, congrArg some hsame.symm⟩
        · exact sourceRefExists_of_kept hkept (hseen c hc)
      refine (ih hrest hseen₁ hloop).create ⟨hdefinition, hsourceRef⟩
        (fun hexists => hnew (Or.inr hexists)) hdb ⟨rfl, rfl⟩ ?_
      show (candidate.definition.predecessors.filter _).getD [] = _
      cases candidate.definition.predecessors with
      | none => rfl
      | some predecessors => cases predecessors <;> rfl

/-- **Where every candidate has an item, nothing is created.** -/
theorem returns_proposedRootLoop_of_known {repository : String}
    {candidates : List ProposedRootInput} (hstable : ∀ c ∈ candidates, c.Stable)
    (hchecked : ∀ c ∈ candidates, validateWorkDefinition c.definition = .ok () ∧
      validateSourceRef c.sourceRef = .ok ())
    (hknown : ∀ c ∈ candidates, sourceRefExists w.db repository c.sourceRef = true)
    (seen : List String) :
    (proposedRootLoop env repository seen candidates).Returns w
      ⟨[], candidates.map ProposedRootInput.sourceRef⟩ w := by
  induction candidates with
  | nil => exact Tx.returns_pure.mpr ⟨rfl, rfl⟩
  | cons candidate rest ih =>
    obtain ⟨hcandidate, hrest⟩ := List.forall_mem_cons.mp hstable
    obtain ⟨⟨hdefinition, hsourceRef⟩, hcheckedRest⟩ := List.forall_mem_cons.mp hchecked
    obtain ⟨hexists, hknownRest⟩ := List.forall_mem_cons.mp hknown
    simp only [proposedRootLoop, Tx.returns_bind, Tx.returns_ofExcept, Tx.returns_read]
    refine ⟨(), w, ⟨hdefinition, rfl⟩, (), w, ⟨hsourceRef, rfl⟩, _, w, ⟨hcandidate.normalize, rfl⟩,
      w.db, w, ⟨rfl, rfl⟩, ?_⟩
    rw [if_pos (Or.inr hexists)]
    exact Tx.returns_bind.mpr ⟨_, w, ih hrest hcheckedRest hknownRest,
      Tx.returns_pure.mpr ⟨rfl, rfl⟩⟩

/-! ## One round of the refresh -/

/-- The item of a candidate under the candidate's edges. -/
def WorkItem.withEdgesOf (item : WorkItem) (candidate : ProposedRootInput) (atTime : Time) :
    WorkItem :=
  { item with
    predecessors := candidate.definition.predecessors
    updatedAt := atTime }

/-- **What a round of the refresh writes**, where it writes anything: the
proposed item it found, under the edges of its candidate. -/
def Rewrites (repository : String) (candidate : ProposedRootInput) (w w' : World) : Prop :=
  ∃ item atTime postings,
    proposedItemBySourceRef w.db repository candidate.sourceRef = some item ∧
      w'.db = w.db.write (item.withEdgesOf candidate atTime) postings

section Write

variable {db : Db} {repository sourceRef : String} {candidate : ProposedRootInput}
  {item : WorkItem} {atTime : Time} {postings : List Posting}

/-- The write takes a row to itself, or to the item under the new edges. -/
theorem rows_write_withEdgesOf (hitem : item ∈ db.items.rows) :
    (db.write (item.withEdgesOf candidate atTime) postings).items.rows =
      db.items.rows.map fun row =>
        if row = item then item.withEdgesOf candidate atTime else row := by
  show (db.items.rows.map fun row => if row.id = item.id then _ else row) = _
  refine List.map_congr_left fun row hrow => if_congr ?_ rfl rfl
  exact ⟨List.inj_on_of_nodup_map db.items.nodup hrow hitem, congrArg WorkItem.id⟩

/-- A row that is not proposed stays. -/
theorem mem_write_withEdgesOf (hitem : item ∈ db.items.rows) (hproposed : item.status = .proposed)
    {row : WorkItem} (hrow : row ∈ db.items.rows) (hpast : row.status ≠ .proposed) :
    row ∈ (db.write (item.withEdgesOf candidate atTime) postings).items.rows := by
  rw [rows_write_withEdgesOf hitem]
  refine List.mem_map.mpr ⟨row, hrow, if_neg ?_⟩
  rintro rfl
  exact hpast hproposed

theorem sourceRefExists_write (hitem : item ∈ db.items.rows) :
    sourceRefExists (db.write (item.withEdgesOf candidate atTime) postings) repository sourceRef =
      sourceRefExists db repository sourceRef := by
  unfold sourceRefExists
  rw [rows_write_withEdgesOf hitem, List.any_map]
  refine congrArg (List.any _ ·) (funext fun row => ?_)
  dsimp only [Function.comp]
  split
  · next hsame =>
    rw [hsame]
    rfl
  · rfl

/-- What is proposed under a source reference is found under it again. -/
theorem proposedItemBySourceRef_write (hitem : item ∈ db.items.rows) :
    proposedItemBySourceRef (db.write (item.withEdgesOf candidate atTime) postings) repository
        sourceRef =
      (proposedItemBySourceRef db repository sourceRef).map fun row =>
        if row = item then item.withEdgesOf candidate atTime else row := by
  unfold proposedItemBySourceRef
  rw [rows_write_withEdgesOf hitem, List.find?_map]
  refine congrArg (fun p => (db.items.rows.find? p).map _) (funext fun row => ?_)
  dsimp only [Function.comp]
  split
  · next hsame =>
    rw [hsame]
    rfl
  · rfl

end Write

section Rewrites

variable {repository : String} {candidate c : ProposedRootInput}

/-- The candidate of the round is settled. -/
theorem Rewrites.settled (h : Rewrites repository candidate w w') :
    Settled repository w'.db candidate := by
  obtain ⟨item, atTime, postings, hfound, hdb⟩ := h
  intro found hfound'
  have hitem := (of_proposedItemBySourceRef hfound).1
  rw [hdb, proposedItemBySourceRef_write hitem, hfound] at hfound'
  obtain rfl := Option.some.inj hfound'
  show HasEdgesOf candidate (if item = item then _ else item)
  rw [if_pos rfl]
  rfl

/-- **Every other candidate stays settled.** -/
theorem Rewrites.keeps (h : Rewrites repository candidate w w')
    (hother : c.sourceRef ≠ candidate.sourceRef) (hsettled : Settled repository w.db c) :
    Settled repository w'.db c := by
  obtain ⟨item, atTime, postings, hfound, hdb⟩ := h
  obtain ⟨hitem, -, href, -⟩ := of_proposedItemBySourceRef hfound
  intro found hfound'
  rw [hdb, proposedItemBySourceRef_write hitem] at hfound'
  obtain ⟨old, hold, rfl⟩ := Option.map_eq_some_iff.mp hfound'
  have hne : old ≠ item := by
    rintro rfl
    exact hother (Option.some.inj ((of_proposedItemBySourceRef hold).2.2.1.symm.trans href))
  rw [if_neg hne]
  exact hsettled old hold

end Rewrites

/-- **What rounds of the refresh leave alone**: the opt-ins, which source
references exist, and every item that is not proposed. -/
structure Refreshed (repository : String) (w w' : World) : Prop where
  repositories : w'.db.repositories = w.db.repositories
  existing : ∀ ref, sourceRefExists w'.db repository ref = sourceRefExists w.db repository ref
  past : ∀ row ∈ w.db.items.rows, row.status ≠ .proposed → row ∈ w'.db.items.rows

theorem Refreshed.refl (repository : String) (w : World) : Refreshed repository w w :=
  ⟨rfl, fun _ => rfl, fun _ hrow _ => hrow⟩

theorem Refreshed.trans {repository : String} {w₁ : World} (h : Refreshed repository w w₁)
    (h₁ : Refreshed repository w₁ w') : Refreshed repository w w' where
  repositories := h₁.repositories.trans h.repositories
  existing ref := (h₁.existing ref).trans (h.existing ref)
  past row hrow hpast := h₁.past row (h.past row hrow hpast) hpast

theorem Rewrites.refreshed {repository : String} {candidate : ProposedRootInput}
    (h : Rewrites repository candidate w w') : Refreshed repository w w' := by
  obtain ⟨item, atTime, postings, hfound, hdb⟩ := h
  obtain ⟨hitem, -, -, hproposed⟩ := of_proposedItemBySourceRef hfound
  constructor
  · rw [hdb]
    rfl
  · intro ref
    rw [hdb]
    exact sourceRefExists_write hitem
  · intro row hrow hpast
    rw [hdb]
    exact mem_write_withEdgesOf hitem hproposed hrow hpast

/-- The edges of a proposed item are replaced by those of a stable
candidate. -/
theorem rewrites_replaceProposedPredecessors {repository : String} {candidate : ProposedRootInput}
    {item : WorkItem} (hstable : candidate.Stable)
    (hfound : proposedItemBySourceRef w.db repository candidate.sourceRef = some item) :
    ∃ replaced w', (replaceProposedPredecessors env item.id
        (candidate.definition.predecessors.getD []) "operator:import-issues").Returns w replaced w' ∧
      Rewrites repository candidate w w' := by
  obtain ⟨hitem, -, -, hproposed⟩ := of_proposedItemBySourceRef hfound
  have hrow : w.db.items.find? item.id = some item := Table.find?_key hitem
  have hopen : ¬ (item.admitted = true ∨ item.status ≠ .proposed) := by
    rw [not_or, not_not]
    exact ⟨by rw [(WorkItem.status_eq_proposed.mp hproposed).2]; exact Bool.false_ne_true, hproposed⟩
  have hactor : validateOperatorActor "operator:import-issues" "predecessors" =
      .ok "operator:import-issues" := by rfl
  let posting : Posting := ⟨"operator:import-issues", .workPredecessorsUpdated
    (candidate.definition.predecessors.getD []) (item.predecessors.getD []),
    env.clock (w.ticks + 1)⟩
  have hwrite : w.db.items.modify item.id
      (fun row => row.withEdgesOf candidate (env.clock w.ticks)) (fun _ => rfl) =
      w.db.items.replace (item.withEdgesOf candidate (env.clock w.ticks)) :=
    Table.modify_eq_replace hrow
  refine ⟨item.withEdgesOf candidate (env.clock w.ticks),
    ⟨w.db.write (item.withEdgesOf candidate (env.clock w.ticks)) [posting], w.ticks + 1 + 1⟩, ?_,
    ⟨item, _, _, hfound, rfl⟩⟩
  simp only [replaceProposedPredecessors, returns_checked, Tx.returns_bind, Tx.returns_failIf,
    returns_now, returns_updateItem, returns_addEvent, returns_getRequired, except_bind_eq_ok]
  refine ⟨_, ⟨_, hactor, hstable⟩, item, w, ⟨hrow, rfl⟩, (), w, ⟨hopen, rfl⟩, _, _, ⟨rfl, rfl⟩, (), _, rfl,
    (), _, rfl, ?_, ?_⟩
  · exact @Table.find?_modify_self _ _ _ _ w.db.items item.id
      (fun row => row.withEdgesOf candidate (env.clock w.ticks)) (fun _ => rfl) item hrow
  · show World.mk (w.db.write _ _) _ = World.mk ⟨_, w.db.items.modify item.id
      (fun row => row.withEdgesOf candidate (env.clock w.ticks)) (fun _ => rfl), _⟩ _
    rw [hwrite]
    rfl

/-- **What a round does with its candidate**: it leaves the state, or rewrites
the item of a candidate that is not the run's own. It leaves no state in which
its candidate is not settled, unless it is not asked to settle it. -/
theorem refreshProposed_spec {repository : String} {candidate : ProposedRootInput}
    (hstable : candidate.Stable) (skipped created : List String) (w : World) :
    ∃ refreshed w', (refreshProposed env repository skipped created candidate).Returns w refreshed w' ∧
      (w' = w ∨ Rewrites repository candidate w w') ∧
      (Settled repository w.db candidate ∨
          (candidate.sourceRef ∈ skipped ∧ candidate.sourceRef ∉ created) →
        Settled repository w'.db candidate) := by
  unfold refreshProposed
  by_cases hasked : candidate.sourceRef ∉ skipped ∨ candidate.sourceRef ∈ created
  · refine ⟨false, w, ?_, Or.inl rfl, ?_⟩
    · rw [if_pos hasked]
      exact Tx.returns_pure.mpr ⟨rfl, rfl⟩
    · rintro (hsettled | ⟨hskipped, hcreated⟩)
      · exact hsettled
      · exact absurd hasked (not_or.mpr ⟨not_not_intro hskipped, hcreated⟩)
  · rw [if_neg hasked]
    simp only [Tx.returns_bind, Tx.returns_read]
    cases hfound : proposedItemBySourceRef w.db repository candidate.sourceRef with
    | none =>
      have hsettled : Settled repository w.db candidate := fun item hitem => by
        rw [hfound] at hitem
        cases hitem
      refine ⟨false, w, ⟨_, w, ⟨rfl, rfl⟩, ?_⟩, Or.inl rfl, fun _ => hsettled⟩
      exact Tx.returns_pure.mpr ⟨rfl, rfl⟩
    | some item =>
      by_cases hedges : HasEdgesOf candidate item
      · have hsettled : Settled repository w.db candidate := fun other hother => by
          rw [hfound] at hother
          exact Option.some.inj hother ▸ hedges
        refine ⟨false, w, ⟨_, w, ⟨rfl, rfl⟩, ?_⟩, Or.inl rfl, fun _ => hsettled⟩
        dsimp only
        rw [if_pos (show item.predecessors.getD [] = _ from hedges)]
        exact Tx.returns_pure.mpr ⟨rfl, rfl⟩
      · obtain ⟨replaced, w', hreturns, hrewrites⟩ :=
          @rewrites_replaceProposedPredecessors env w repository candidate item hstable hfound
        refine ⟨true, w', ⟨_, w, ⟨rfl, rfl⟩, ?_⟩, Or.inr hrewrites, fun _ => hrewrites.settled⟩
        dsimp only
        rw [if_neg (show ¬ item.predecessors.getD [] = _ from hedges)]
        exact Tx.returns_bind.mpr ⟨replaced, w', hreturns, Tx.returns_pure.mpr ⟨rfl, rfl⟩⟩

/-- A round leaves a settled candidate alone. -/
theorem returns_refreshProposed_of_settled {repository : String} {candidate : ProposedRootInput}
    (hsettled : Settled repository w.db candidate) (skipped created : List String) :
    (refreshProposed env repository skipped created candidate).Returns w false w := by
  unfold refreshProposed
  split
  · exact Tx.returns_pure.mpr ⟨rfl, rfl⟩
  · simp only [Tx.returns_bind, Tx.returns_read]
    refine ⟨_, w, ⟨rfl, rfl⟩, ?_⟩
    cases hfound : proposedItemBySourceRef w.db repository candidate.sourceRef with
    | none => exact Tx.returns_pure.mpr ⟨rfl, rfl⟩
    | some item =>
      dsimp only
      rw [if_pos (show item.predecessors.getD [] = _ from hsettled item hfound)]
      exact Tx.returns_pure.mpr ⟨rfl, rfl⟩

/-! ## The refresh -/

/-- **What the refresh does**: it never throws, it leaves what rounds leave,
and it settles the candidates it is asked to settle, one source reference at a
time. -/
theorem refreshProposedPredecessors_spec {repository : String}
    {candidates : List ProposedRootInput} (hstable : ∀ c ∈ candidates, c.Stable)
    (skipped created : List String) (w : World) :
    ∃ refs w', (refreshProposedPredecessors env repository skipped created candidates).Returns w
        refs w' ∧
      Refreshed repository w w' ∧
      (∀ c : ProposedRootInput, c.sourceRef ∉ candidates.map ProposedRootInput.sourceRef →
        Settled repository w.db c → Settled repository w'.db c) ∧
      ((candidates.map ProposedRootInput.sourceRef).Nodup → ∀ c ∈ candidates,
        Settled repository w.db c ∨ (c.sourceRef ∈ skipped ∧ c.sourceRef ∉ created) →
          Settled repository w'.db c) := by
  induction candidates generalizing w with
  | nil =>
    exact ⟨[], w, Tx.returns_pure.mpr ⟨rfl, rfl⟩, .refl repository w, fun _ _ h => h,
      fun _ => List.forall_mem_nil _⟩
  | cons candidate rest ih =>
    obtain ⟨hcandidate, hrest⟩ := List.forall_mem_cons.mp hstable
    obtain ⟨refreshed, w₁, hround, hwrites, hsettles⟩ :=
      @refreshProposed_spec env repository candidate hcandidate skipped created w
    obtain ⟨refs, w', hloop, hleft, hkeeps, hrun⟩ := ih hrest w₁
    have hround₁ : Refreshed repository w w₁ ∧ ∀ c : ProposedRootInput,
        c.sourceRef ≠ candidate.sourceRef → Settled repository w.db c →
          Settled repository w₁.db c := by
      rcases hwrites with rfl | hwrites
      · exact ⟨.refl repository _, fun _ _ h => h⟩
      · exact ⟨hwrites.refreshed, fun _ hother h => hwrites.keeps hother h⟩
    refine ⟨_, w', Tx.returns_bind.mpr ⟨refreshed, w₁, hround, Tx.returns_bind.mpr
      ⟨refs, w', hloop, Tx.returns_pure.mpr ⟨rfl, rfl⟩⟩⟩, hround₁.1.trans hleft, ?_, ?_⟩
    · intro c hc hsettled
      rw [List.map_cons, List.mem_cons, not_or] at hc
      exact hkeeps c hc.2 (hround₁.2 c hc.1 hsettled)
    · intro hnodup
      obtain ⟨hnew, hnodup⟩ := List.nodup_cons.mp hnodup
      refine List.forall_mem_cons.mpr ⟨fun hasked => hkeeps candidate hnew (hsettles hasked), ?_⟩
      intro c hc hasked
      have hother : c.sourceRef ≠ candidate.sourceRef := fun hsame =>
        hnew (hsame ▸ List.mem_map_of_mem hc)
      exact hrun hnodup c hc (hasked.imp_left (hround₁.2 c hother))

/-- The refresh leaves settled candidates alone. -/
theorem returns_refreshProposedPredecessors_of_settled {repository : String}
    {candidates : List ProposedRootInput}
    (hsettled : ∀ c ∈ candidates, Settled repository w.db c) (skipped created : List String) :
    (refreshProposedPredecessors env repository skipped created candidates).Returns w [] w := by
  induction candidates with
  | nil => exact Tx.returns_pure.mpr ⟨rfl, rfl⟩
  | cons candidate rest ih =>
    obtain ⟨hcandidate, hrest⟩ := List.forall_mem_cons.mp hsettled
    exact Tx.returns_bind.mpr ⟨false, w, returns_refreshProposed_of_settled hcandidate _ _,
      Tx.returns_bind.mpr ⟨[], w, ih hrest, Tx.returns_pure.mpr ⟨rfl, rfl⟩⟩⟩

/-! ## What an import throws -/

/-- What the checks of a creation see of a row. -/
def WorkItem.place (item : WorkItem) : String × String × Option String :=
  (item.id, item.repository, item.sourceRef)

/-- **Two states hold items of the same places.** -/
structure SamePlaces (s t : World) : Prop where
  ticks : s.ticks = t.ticks
  repositories : s.db.repositories = t.db.repositories
  rows : s.db.items.rows.map WorkItem.place = t.db.items.rows.map WorkItem.place

section SamePlaces

open Tx

variable {s t : World}

theorem SamePlaces.exists_row (h : SamePlaces s t) (p : String × String × Option String → Prop) :
    (∃ row ∈ s.db.items.rows, p row.place) ↔ ∃ row ∈ t.db.items.rows, p row.place := by
  have hmapped : ∀ rows : List WorkItem, (∃ row ∈ rows, p row.place) ↔
      ∃ place ∈ rows.map WorkItem.place, p place := fun rows => by
    simp only [List.mem_map, exists_exists_and_eq_and]
  rw [hmapped, hmapped, h.rows]

theorem SamePlaces.find?_eq_none (h : SamePlaces s t) (id : String) :
    s.db.items.find? id = none ↔ t.db.items.find? id = none := by
  have hfind : ∀ db : Db, db.items.find? id = none ↔ ¬ ∃ row ∈ db.items.rows, row.place.1 = id := by
    intro db
    rw [Table.find?_eq_none, not_exists]
    exact forall_congr' fun row => not_and.symm
  rw [hfind, hfind, h.exists_row fun place => place.1 = id]

theorem SamePlaces.sourceRefExists (h : SamePlaces s t) (repository sourceRef : String) :
    sourceRefExists s.db repository sourceRef = Snowcat.sourceRefExists t.db repository sourceRef := by
  rw [Bool.eq_iff_iff]
  simp only [Snowcat.sourceRefExists, List.any_eq_true, Bool.and_eq_true, decide_eq_true_eq]
  exact h.exists_row fun place => place.2.1 = repository ∧ place.2.2 = some sourceRef

theorem alike_places_ask {α : Type} (answer : ℕ → α) : Alike SamePlaces (ask answer) (ask answer) :=
  fun _ _ h => ⟨congrArg (fun k => Except.ok (answer k)) h.ticks,
    ⟨congrArg (· + 1) h.ticks, h.repositories, h.rows⟩⟩

/-- Rows of one place are inserted alike. -/
theorem alike_insertRow_of_place {item item' : WorkItem} (hplace : item.place = item'.place)
    (hroot : item.parentId = none) (hroot' : item'.parentId = none) :
    Alike SamePlaces (insertRow item) (insertRow item') := by
  obtain ⟨hid, hrepository, href⟩ : item.id = item'.id ∧ item.repository = item'.repository ∧
      item.sourceRef = item'.sourceRef := by
    simpa only [WorkItem.place, Prod.mk.injEq] using hplace
  have hparent : ∀ {item : WorkItem} (db : Db), item.parentId = none →
      ¬ ∃ p ∈ item.parentId, db.items.find? p = none := fun db hnone => by
    rw [hnone]
    rintro ⟨_, hmem, -⟩
    exact nomatch hmem
  have htrigger : ∀ {item : WorkItem}, item.parentId = none →
      ¬ (item.parentId.isSome ∧ item.admitted = true) := fun hnone h => by
    rw [hnone] at h
    exact nomatch h.1
  refine alike_bind (alike_failIf (iff_of_false (htrigger hroot) (htrigger hroot')) _) fun _ =>
    alike_read fun s t h => ?_
  refine alike_bind (alike_failIf (by rw [hrepository, h.repositories]) _) (fun _ => alike_bind
    (alike_failIf (iff_of_false (hparent s.db hroot) (hparent t.db hroot')) _) fun _ => alike_bind
    (alike_failIf (and_congr (by rw [href]) ?_) _) fun _ => ?_) s t h
  · rw [hrepository, href]
    exact h.exists_row fun place => place.2.1 = item'.repository ∧ place.2.2 = item'.sourceRef
  · by_cases hs : s.db.items.find? item.id = none
    · have ht : t.db.items.find? item'.id = none := hid ▸ (h.find?_eq_none item.id).mp hs
      rw [dif_pos hs, dif_pos ht]
      refine alike_update fun s' t' h' => ⟨h'.ticks, h.repositories, ?_⟩
      show (s.db.items.rows ++ [item]).map WorkItem.place =
        (t.db.items.rows ++ [item']).map WorkItem.place
      rw [List.map_append, List.map_append, h.rows, List.map_singleton, List.map_singleton, hplace]
    · have ht : ¬ t.db.items.find? item'.id = none := fun ht =>
        hs ((h.find?_eq_none item.id).mpr (hid ▸ ht))
      rw [dif_neg hs, dif_neg ht]
      exact alike_fail _

theorem endAlike_getRequired (id : String) :
    EndAlike SamePlaces (getRequired id) (getRequired id) := by
  intro s t h
  show (ofOption (s.db.items.find? id) _ s).1.map _ = (ofOption (t.db.items.find? id) _ t).1.map _ ∧
    SamePlaces (ofOption (s.db.items.find? id) _ s).2 (ofOption (t.db.items.find? id) _ t).2
  have hnone := h.find?_eq_none id
  cases hs : s.db.items.find? id with
  | none =>
    rw [hnone.mp hs]
    exact ⟨rfl, h⟩
  | some item =>
    obtain ⟨item', ht⟩ := Option.ne_none_iff_exists'.mp (mt hnone.mpr (hs ▸ Option.some_ne_none item))
    rw [ht]
    exact ⟨rfl, h⟩

/-- **Roots of one place and one policy subject are created alike**, up to the
item that is returned. -/
theorem endAlike_createRoot {root root' : RootWork} {payload payload' : EventPayload}
    (hrepository : root.repository = root'.repository) (href : root.sourceRef = root'.sourceRef)
    (hsubject : root.policySubject = root'.policySubject) :
    EndAlike SamePlaces (createRoot env root payload) (createRoot env root' payload') := by
  refine endAlike_bind_of_alike (alike_places_ask _) fun id => endAlike_bind_of_alike
    (alike_places_ask _) fun createdAt => endAlike_bind ?_ fun _ _ => endAlike_bind (Alike.end ?_)
    fun _ _ => endAlike_getRequired id
  · have hbind := @alike_bindPolicy_of_ask env SamePlaces (fun {_} answer => alike_places_ask answer)
      root.policySubject
    refine endAlike_bind_of_alike ?_ fun policy => (alike_insertRow_of_place ?_ rfl rfl).end
    · show Alike SamePlaces (bindPolicy env root.policySubject) (bindPolicy env root'.policySubject)
      rw [← hsubject]
      exact hbind
    · exact Prod.ext rfl (Prod.ext hrepository href)
  · exact alike_bind (alike_places_ask _) fun _ => alike_update fun _ _ h =>
      ⟨h.ticks, h.repositories, h.rows⟩

/-- **Two candidates are checked alike**: they name one source reference, the
check of a definition makes the same of both, and both ask for the same
policy. -/
structure CheckedAlike (candidate candidate' : ProposedRootInput) : Prop where
  sourceRef : candidate.sourceRef = candidate'.sourceRef
  definition : validateWorkDefinition candidate.definition =
    validateWorkDefinition candidate'.definition
  subject : ∀ repository, (RootWork.mk candidate.definition repository false none none none
      none).policySubject =
    (RootWork.mk candidate'.definition repository false none none none none).policySubject
  stable : candidate.Stable
  stable' : candidate'.Stable

theorem endAlike_proposedRootLoop {repository : String}
    {candidates candidates' : List ProposedRootInput}
    (h : List.Forall₂ CheckedAlike candidates candidates') (seen : List String) :
    EndAlike SamePlaces (proposedRootLoop env repository seen candidates)
      (proposedRootLoop env repository seen candidates') := by
  induction h generalizing seen with
  | nil => exact endAlike_pure _ _
  | @cons candidate candidate' rest rest' hboth _ ih =>
    rw [proposedRootLoop, proposedRootLoop, hboth.definition, hboth.sourceRef,
      hboth.stable.normalize, hboth.stable'.normalize]
    refine endAlike_bind_of_alike (alike_ofExcept _) fun _ => endAlike_bind_of_alike
      (alike_ofExcept _) fun _ => endAlike_bind (fun _ _ hst => ⟨rfl, hst⟩) fun _ _ =>
      endAlike_read fun s t hst => ?_
    rw [hst.sourceRefExists]
    split
    · exact endAlike_bind (ih _) (fun _ _ => endAlike_pure _ _) s t hst
    · refine endAlike_bind (endAlike_createRoot ?_ ?_ ?_) (fun _ _ =>
        endAlike_bind (ih _) fun _ _ => endAlike_pure _ _) s t hst
      · rfl
      · rfl
      · exact hboth.subject repository

theorem alike_places_assertRepositoryEnabled (repository : String) :
    Alike SamePlaces (assertRepositoryEnabled repository) (assertRepositoryEnabled repository) := by
  refine alike_bind (alike_ofExcept _) fun _ => alike_read fun s t h => ?_
  rw [h.repositories]
  exact alike_failIf Iff.rfl _ s t h

theorem endAlike_enqueueProposedRoots (repository : String)
    {candidates candidates' : List ProposedRootInput}
    (h : List.Forall₂ CheckedAlike candidates candidates') :
    EndAlike SamePlaces (enqueueProposedRoots env repository candidates)
      (enqueueProposedRoots env repository candidates') := by
  refine endAlike_bind_of_alike (alike_ofExcept _) fun _ => endAlike_atomically ?_ ?_
  · exact endAlike_bind_of_alike (alike_places_assertRepositoryEnabled repository) fun _ =>
      endAlike_proposedRootLoop h []
  · exact fun _ _ _ _ hst huv => ⟨huv.ticks, hst.repositories, hst.rows⟩

end SamePlaces

/-- An issue without what its author wrote in it. -/
def LabeledIssue.withoutBody (issue : LabeledIssue) : LabeledIssue := { issue with body := "" }

/-- The instructions of an issue are never blank. -/
theorem isBlank_issueInstructions (repository : String) (issue : LabeledIssue)
    (predecessors : List String) :
    isBlank (issueInstructions repository issue predecessors) = false := by
  refine isBlank_joinWith (List.mem_append_right _ (List.mem_cons_of_mem _ List.mem_cons_self)) ?_
  exact isBlank_ofList_cons (by decide)

/-- **The body of an issue is not what its candidate is refused for.** -/
theorem checkedAlike_issueWorkCandidate (lower : String → String) (repository : String)
    (priority : Option JsNumber) {issue issue' : LabeledIssue}
    (h : issue.withoutBody = issue'.withoutBody) :
    CheckedAlike (issueWorkCandidate lower repository priority issue)
      (issueWorkCandidate lower repository priority issue') := by
  obtain ⟨number, title, body, htmlUrl⟩ := issue
  obtain ⟨number', title', body', htmlUrl'⟩ := issue'
  simp only [LabeledIssue.withoutBody, LabeledIssue.mk.injEq, true_and] at h
  obtain ⟨rfl, rfl, rfl⟩ := h
  have hsubject : ∀ (issue : LabeledIssue) (repository' : String), (RootWork.mk
      (issueWorkCandidate lower repository priority issue).definition repository' false none none
      none none).policySubject =
      ⟨repository', issueWorkKind, issueActions, issueActions, "operator:import-issues", false⟩ :=
    fun _ _ => rfl
  refine ⟨rfl, ?_, fun _ => (hsubject _ _).trans (hsubject _ _).symm, stable_issueWorkCandidate ..,
    stable_issueWorkCandidate ..⟩
  simp only [validateWorkDefinition, assertDeliverable, issueWorkCandidate,
    isBlank_issueInstructions]

/-! ## The import -/

section Import

variable {lower : String → String} {owner name repository : String} {priority : Option JsNumber}
  {issues : List LabeledIssue}

/-- The candidates of a list. -/
theorem stable_of_mem_candidates (lower : String → String) (repository : String)
    (priority : Option JsNumber) (issues : List LabeledIssue) :
    ∀ c ∈ issues.map (issueWorkCandidate lower repository priority), c.Stable := by
  intro c hc
  obtain ⟨issue, -, rfl⟩ := List.mem_map.mp hc
  exact stable_issueWorkCandidate ..

theorem nodup_sourceRef_candidates (h : Listed owner name issues) :
    ((issues.map (issueWorkCandidate lower repository priority)).map
      ProposedRootInput.sourceRef).Nodup := by
  rw [List.map_map]
  exact h.nodup_htmlUrl

/-- Enqueueing returns out of the loop, in a repository that is opted in. -/
theorem returns_enqueueProposedRoots {candidates : List ProposedRootInput} {result : ImportResult} :
    (enqueueProposedRoots env repository candidates).Returns w result w' ↔
      validateRepository repository = .ok () ∧
        (∃ row ∈ w.db.repositories.find? repository, row.enabled = true) ∧
        (proposedRootLoop env repository [] candidates).Returns w result w' := by
  simp only [enqueueProposedRoots, returns_checked, assertRepositoryEnabled, Tx.returns_bind,
    Tx.returns_ofExcept, Tx.returns_read, Tx.returns_failIf, not_not]
  constructor
  · rintro ⟨_, hvalid, _, w, ⟨_, _, ⟨-, rfl⟩, _, w, ⟨rfl, rfl⟩, henabled, rfl⟩, hloop⟩
    exact ⟨hvalid, henabled, hloop⟩
  · rintro ⟨hvalid, henabled, hloop⟩
    exact ⟨(), hvalid, (), w, ⟨(), w, ⟨hvalid, rfl⟩, _, w, ⟨rfl, rfl⟩, henabled, rfl⟩, hloop⟩

/-- **An import returns where its roots were enqueued**: the refresh is no
reason for it to throw. -/
theorem importIssues_of_enqueued {enqueued : ImportResult} {w₁ : World}
    (h : (enqueueProposedRoots env repository
      (issues.map (issueWorkCandidate lower repository priority))).Returns w enqueued w₁) :
    ∃ refs w', (importIssues env lower repository priority issues).Returns w
        ⟨enqueued.created, enqueued.skippedSourceRefs, refs⟩ w' ∧
      Refreshed repository w₁ w' ∧
      (((issues.map (issueWorkCandidate lower repository priority)).map
          ProposedRootInput.sourceRef).Nodup →
        ∀ c ∈ issues.map (issueWorkCandidate lower repository priority),
          Settled repository w₁.db c ∨ (c.sourceRef ∈ enqueued.skippedSourceRefs ∧
            c.sourceRef ∉ enqueued.created.filterMap WorkItem.sourceRef) →
          Settled repository w'.db c) := by
  obtain ⟨refs, w', hrefresh, hleft, -, hsettles⟩ := @refreshProposedPredecessors_spec env
    repository _ (stable_of_mem_candidates lower repository priority issues)
    enqueued.skippedSourceRefs (enqueued.created.filterMap WorkItem.sourceRef) w₁
  refine ⟨refs, w', ?_, hleft, hsettles⟩
  exact Tx.returns_bind.mpr ⟨enqueued, w₁, h, Tx.returns_bind.mpr ⟨refs, w', hrefresh,
    Tx.returns_pure.mpr ⟨rfl, rfl⟩⟩⟩

/-- Where the roots are refused, the import leaves what it found. -/
theorem db_importIssues_of_refused {e : QueueError}
    (h : (enqueueProposedRoots env repository
      (issues.map (issueWorkCandidate lower repository priority))).Throws w e) :
    ((importIssues env lower repository priority issues) w).2.db = w.db := by
  have hkeeps := @keeps_checked _ _ (validateRepository repository) (fun _ : Unit => do
    assertRepositoryEnabled repository
    proposedRootLoop env repository [] (issues.map (issueWorkCandidate lower repository priority)))
  unfold importIssues
  rw [Tx.bind_of_throws h]
  exact hkeeps w e _ (Prod.ext h rfl)

/-- **Two lists that differ in their bodies only are refused alike.** -/
theorem throws_enqueueProposedRoots_of_withoutBody {issues' : List LabeledIssue}
    (h : issues'.map LabeledIssue.withoutBody = issues.map LabeledIssue.withoutBody)
    (e : QueueError) :
    (enqueueProposedRoots env repository
        (issues'.map (issueWorkCandidate lower repository priority))).Throws w e ↔
      (enqueueProposedRoots env repository
        (issues.map (issueWorkCandidate lower repository priority))).Throws w e := by
  have hpairs : List.Forall₂ (fun issue' issue : LabeledIssue =>
      issue'.withoutBody = issue.withoutBody) issues' issues := by
    rw [← List.forall₂_eq_eq_eq, List.forall₂_map_left_iff, List.forall₂_map_right_iff] at h
    exact h
  have hchecked : List.Forall₂ CheckedAlike
      (issues'.map (issueWorkCandidate lower repository priority))
      (issues.map (issueWorkCandidate lower repository priority)) := by
    rw [List.forall₂_map_left_iff, List.forall₂_map_right_iff]
    exact hpairs.imp fun _ _ hsame => checkedAlike_issueWorkCandidate lower repository priority hsame
  exact (endAlike_enqueueProposedRoots repository hchecked).throws_iff ⟨rfl, rfl, rfl⟩ e

/-- **Items past proposed are never changed by an import**, whether it returns
or throws. -/
theorem mem_importIssues_of_past {row : WorkItem} (hrow : row ∈ w.db.items.rows)
    (hpast : row.status ≠ .proposed) :
    row ∈ ((importIssues env lower repository priority issues) w).2.db.items.rows := by
  rcases Tx.returns_or_throws (enqueueProposedRoots env repository
    (issues.map (issueWorkCandidate lower repository priority))) w with ⟨enqueued, w₁, henqueue⟩ | h
  · obtain ⟨refs, w', himport, hleft, -⟩ := importIssues_of_enqueued henqueue
    have hkept := (enqueued_proposedRootLoop
      (stable_of_mem_candidates lower repository priority issues) (fun _ h => (List.not_mem_nil h).elim)
      (returns_enqueueProposedRoots.mp henqueue).2.2).kept
    rw [show (importIssues env lower repository priority issues) w = _ from himport]
    exact hleft.past row (hkept row hrow) hpast
  · obtain ⟨e, h⟩ := h
    rwa [db_importIssues_of_refused h]

/-- **The second import finds nothing to do.** -/
theorem importIssues_again (hlisted : Listed owner name issues) {result : IssueImport}
    (h : (importIssues env lower repository priority issues).Returns w result w') :
    ∃ result', (importIssues env lower repository priority issues).Returns w' result' w' ∧
      result'.created = [] ∧ result'.refreshedSourceRefs = [] := by
  have hstable := stable_of_mem_candidates lower repository priority issues
  obtain ⟨enqueued, w₁, henqueue, -⟩ := Tx.returns_bind.mp h
  obtain ⟨refs, w₂, himport, hleft, hsettles⟩ := importIssues_of_enqueued henqueue
  obtain rfl : w' = w₂ := congrArg Prod.snd (h.symm.trans himport)
  obtain ⟨hvalid, henabled, hloop⟩ := returns_enqueueProposedRoots.mp henqueue
  have hdone := enqueued_proposedRootLoop hstable (fun _ h => (List.not_mem_nil h).elim) hloop
  have hnodup : ((issues.map (issueWorkCandidate lower repository priority)).map
      ProposedRootInput.sourceRef).Nodup := nodup_sourceRef_candidates hlisted
  have hsettled : ∀ c ∈ issues.map (issueWorkCandidate lower repository priority),
      Settled repository w'.db c := by
    intro c hc
    refine hsettles hnodup c hc ?_
    by_cases hcreated : c.sourceRef ∈ enqueued.created.filterMap WorkItem.sourceRef
    · exact Or.inl (.of_forall (hdone.edges hnodup c hc hcreated))
    · exact Or.inr ⟨(hdone.accounted c hc).resolve_right hcreated, hcreated⟩
  have hopted : ∃ row ∈ w'.db.repositories.find? repository, row.enabled = true := by
    rwa [hleft.repositories, hdone.repositories]
  have hknown : ∀ c ∈ issues.map (issueWorkCandidate lower repository priority),
      sourceRefExists w'.db repository c.sourceRef = true := fun c hc => by
    rw [hleft.existing]
    exact hdone.known c hc
  have hagain := returns_enqueueProposedRoots.mpr ⟨hvalid, hopted,
    @returns_proposedRootLoop_of_known env w' repository _ hstable hdone.checked hknown []⟩
  have himported : (importIssues env lower repository priority issues).Returns w'
      ⟨[], (issues.map (issueWorkCandidate lower repository priority)).map
        ProposedRootInput.sourceRef, []⟩ w' :=
    Tx.returns_bind.mpr ⟨_, w', hagain, Tx.returns_bind.mpr ⟨[], w',
      returns_refreshProposedPredecessors_of_settled hsettled _ _, Tx.returns_pure.mpr ⟨rfl, rfl⟩⟩⟩
  exact ⟨_, himported, rfl, rfl⟩

end Import

/-- **Importing issues is idempotent, and no body aborts it**, for every list
of open issues and every state. What the parser makes of any body is stored as
it stands and never names the issue itself; lists that differ in their bodies
only are refused alike; behind an import that went through, the same import
returns with nothing created or refreshed and leaves the state as it is; and
no import changes an item past proposed. -/
theorem importIssues_idempotent {owner name : String} {issues : List LabeledIssue}
    (hlisted : Listed owner name issues) (env : Env) (lower : String → String) (repository : String)
    (priority : Option JsNumber) (w : World) :
    (∀ body selfUrl : String,
      normalizePredecessors (some (parseDependsOn lower body selfUrl)) =
          .ok (if parseDependsOn lower body selfUrl = [] then none
            else some (parseDependsOn lower body selfUrl)) ∧
        ∀ url ∈ parseDependsOn lower body selfUrl,
          url ≠ selfUrl ∧ lower url ≠ lower (trim selfUrl)) ∧
      (∀ issues' : List LabeledIssue,
        issues'.map LabeledIssue.withoutBody = issues.map LabeledIssue.withoutBody →
        ∀ e, (enqueueProposedRoots env repository
            (issues'.map (issueWorkCandidate lower repository priority))).Throws w e ↔
          (enqueueProposedRoots env repository
            (issues.map (issueWorkCandidate lower repository priority))).Throws w e) ∧
      (∀ result w', (importIssues env lower repository priority issues).Returns w result w' →
        ∃ result', (importIssues env lower repository priority issues).Returns w' result' w' ∧
          result'.created = [] ∧ result'.refreshedSourceRefs = []) ∧
      ∀ row ∈ w.db.items.rows, row.status ≠ .proposed →
        row ∈ ((importIssues env lower repository priority issues) w).2.db.items.rows :=
  ⟨fun _ _ => ⟨normalizePredecessors_parseDependsOn .., fun _ => ne_self_of_mem_parseDependsOn⟩,
    fun _ h e => throws_enqueueProposedRoots_of_withoutBody h e,
    fun _ _ h => importIssues_again hlisted h,
    fun _ hrow hpast => mem_importIssues_of_past hrow hpast⟩

/-- An issue that waits for another one. -/
def LabeledIssue.sample : LabeledIssue :=
  ⟨1, "Broken", "Depends-on: https://github.com/a/b/issues/2", issueUrl "a" "b" 1⟩

/-- Its proposal. -/
def ProposedRootInput.sample : ProposedRootInput :=
  issueWorkCandidate toLowerCase "a/b" none .sample

/-- Its proposal passes the checks. -/
theorem checked_sample :
    validateWorkDefinition ProposedRootInput.sample.definition = .ok () ∧
      validateSourceRef ProposedRootInput.sample.sourceRef = .ok () := by
  constructor
  · unfold ProposedRootInput.sample issueWorkCandidate
    refine validateWorkDefinition_eq_ok ?_ ?_ ?_ ?_ (List.cons_ne_nil _ _) ?_ ?_ ?_
    · show Patterns.workKind.test issueWorkKind = true
      decide +kernel
    · show ∀ priority ∈ some (JsNumber.int 0), _
      rintro priority hpriority
      obtain rfl := Option.some.inj hpriority
      rfl
    · decide +kernel
    · dsimp only
      exact isBlank_issueInstructions ..
    · show ∀ criterion ∈ [_, _, _], _
      simp only [List.forall_mem_cons]
      refine ⟨?_, isBlank_ofList_cons (by decide), isBlank_ofList_cons (by decide),
        List.forall_mem_nil _⟩
      repeat refine isBlank_append_left ?_
      exact isBlank_ofList_cons (by decide)
    · show isBlank "operator:import-issues" = false
      decide +kernel
    · exact assertDeliverable_eq_ok nofun rfl
  · show validateSourceRef (issueUrl "a" "b" 1) = .ok ()
    rw [show issueUrl "a" "b" 1 = "https://github.com/a/b/issues/1" by decide +kernel]
    decide +kernel

theorem predecessors_sample : ProposedRootInput.sample.definition.predecessors =
    some ["https://github.com/a/b/issues/2"] := by
  have hparsed : parseDependsOn toLowerCase LabeledIssue.sample.body LabeledIssue.sample.htmlUrl =
      ["https://github.com/a/b/issues/2"] := by decide +kernel
  unfold ProposedRootInput.sample issueWorkCandidate
  dsimp only
  rw [hparsed, if_neg (List.cons_ne_nil _ _)]

theorem stable_sample : ProposedRootInput.sample.Stable :=
  stable_issueWorkCandidate toLowerCase "a/b" none .sample

/-- A checked candidate is created in a queue without items. -/
theorem returns_proposedRootLoop_first {repository : String} {candidate : ProposedRootInput}
    (hhook : env.policyAuthority = none)
    (hchecked : validateWorkDefinition candidate.definition = .ok () ∧
      validateSourceRef candidate.sourceRef = .ok ()) (hstable : candidate.Stable)
    (hrows : w.db.items.rows = []) (hknown : w.db.repositories.find? repository ≠ none) :
    ∃ item w', (proposedRootLoop env repository [] [candidate]).Returns w ⟨[item], []⟩ w' ∧
      item.predecessors.getD [] = candidate.definition.predecessors.getD [] := by
  have hnone : ∀ row ∈ w.db.items.rows, False := fun row hrow => by
    rw [hrows] at hrow
    exact nomatch hrow
  obtain ⟨item, w', hroot⟩ := @returns_createRoot env
    (RootWork.mk candidate.definition repository false (some candidate.sourceRef)
      candidate.definition.predecessors none none)
    (.rootProposed candidate.sourceRef candidate.definition.predecessors) w
    (binds_of_no_hook hhook _) hknown (fun row hrow => (hnone row hrow).elim)
    (Table.find?_eq_none.mpr fun row hrow => (hnone row hrow).elim)
  have hunseen : ¬ (candidate.sourceRef ∈ [] ∨
      sourceRefExists w.db repository candidate.sourceRef = true) := by
    rw [sourceRefExists, hrows]
    exact fun h => nomatch h
  have hloop : (proposedRootLoop env repository [] [candidate]).Returns w ⟨[item], []⟩ w' := by
    simp only [proposedRootLoop, Tx.returns_bind, Tx.returns_ofExcept, Tx.returns_read]
    refine ⟨(), w, ⟨hchecked.1, rfl⟩, (), w, ⟨hchecked.2, rfl⟩, _, w,
      ⟨hstable.normalize, rfl⟩, w.db, w, ⟨rfl, rfl⟩, ?_⟩
    rw [if_neg hunseen]
    simp only [Tx.returns_bind, Tx.returns_pure]
    exact ⟨item, w', hroot, _, w', ⟨rfl, rfl⟩, rfl, rfl⟩
  have hleft := enqueued_proposedRootLoop (List.forall_mem_singleton.mpr hstable)
    (fun _ h => (List.not_mem_nil h).elim) hloop
  obtain ⟨id, createdAt, policy, t, hfresh, rfl, hdb, -⟩ := createRoot_spec hroot
  refine ⟨_, w', hloop, hleft.edges (List.nodup_singleton _) candidate (List.mem_singleton_self _)
    (List.mem_singleton_self _) _ ?_ ⟨rfl, rfl⟩⟩
  rw [hdb]
  exact (Db.mem_create hfresh).mpr (Or.inr rfl)

/-- An issue that waits for another one is imported with its edge, and then
once more. -/
theorem importIssues_idempotent_sample :
    ∃ result w', (importIssues Env.sample toLowerCase "a/b" none [.sample]).Returns
        (exec Env.sample [.setRepositoryEnabled "a/b" true]) result w' ∧
      result.created.map (fun item => item.predecessors.getD []) =
        [["https://github.com/a/b/issues/2"]] ∧
      ∃ result', (importIssues Env.sample toLowerCase "a/b" none [.sample]).Returns w' result' w' ∧
        result'.created = [] ∧ result'.refreshedSourceRefs = [] := by
  have hlisted : Listed "a" "b" [.sample] := ⟨by decide, by decide⟩
  have hrows : (exec Env.sample [.setRepositoryEnabled "a/b" true]).db.items.rows = [] := rfl
  have henabled : ∃ row ∈ (exec Env.sample [.setRepositoryEnabled "a/b" true]).db.repositories.find?
      "a/b", row.enabled = true := by decide +kernel
  generalize exec Env.sample [.setRepositoryEnabled "a/b" true] = w at hrows henabled ⊢
  have hknown : w.db.repositories.find? "a/b" ≠ none := by
    obtain ⟨row, hrow, -⟩ := henabled
    rw [show w.db.repositories.find? "a/b" = some row from hrow]
    exact Option.some_ne_none row
  obtain ⟨item, w₁, hloop, hedges⟩ := @returns_proposedRootLoop_first Env.sample w "a/b" _ rfl
    checked_sample stable_sample hrows hknown
  obtain ⟨refs, w', himport, -⟩ := @importIssues_of_enqueued Env.sample w toLowerCase "a/b" none
    [.sample] ⟨[item], []⟩ w₁
    (returns_enqueueProposedRoots.mpr ⟨by decide +kernel, henabled, hloop⟩)
  refine ⟨_, w', himport, ?_, (importIssues_idempotent hlisted Env.sample toLowerCase "a/b" none
    w).2.2.1 _ w' himport⟩
  rw [List.map_singleton, hedges, predecessors_sample]
  rfl

end Snowcat
