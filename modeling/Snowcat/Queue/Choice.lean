import Mathlib.Data.Prod.Lex
import Snowcat.Queue.Representation

/-!
# What a claim chooses

A claim is a question to the whole table – which rows are eligible, and
which of them is first in line – and the code answers it in pieces: one
query for the best row without predecessors, a walk over the rows with them,
a memo of what was found satisfied, a query beforehand for the repositories
the hook has to be asked about, and a comparator for the two rows that are
left. The plain question is `Eligible` and `Outranks`; the pieces answer it
(`claim_selection`).
-/

namespace Snowcat

variable {env : Env} {w : World} {db : Db} {filter : ClaimFilter} {request : ClaimRequest}
  {input : ClaimInput} {row other : WorkItem}

/-! ## The order of claims -/

/-- **A row is before another in line**: by its priority, then by its age. -/
def Outranks (a b : WorkItem) : Prop :=
  b.priority < a.priority ∨ a.priority = b.priority ∧ a.createdAt < b.createdAt

instance (a b : WorkItem) : Decidable (Outranks a b) := inferInstanceAs (Decidable (_ ∨ _))

/-- The place of a row in line, smaller is earlier. -/
def WorkItem.linePlace (row : WorkItem) : ℤᵒᵈ ×ₗ Time :=
  toLex (OrderDual.toDual row.priority, row.createdAt)

theorem outranks_iff {a b : WorkItem} : Outranks a b ↔ a.linePlace < b.linePlace := by
  unfold Outranks WorkItem.linePlace
  rw [Prod.Lex.toLex_lt_toLex, OrderDual.toDual_lt_toDual, OrderDual.toDual_inj]

theorem claimOrder_iff {a b : WorkItem} : claimOrder a b = true ↔ a.linePlace ≤ b.linePlace := by
  unfold claimOrder WorkItem.linePlace
  rw [Prod.Lex.toLex_le_toLex, OrderDual.toDual_lt_toDual, OrderDual.toDual_inj]
  simp only [Bool.or_eq_true, Bool.and_eq_true, decide_eq_true_eq]

theorem claimOrder_trans (a b c : WorkItem) (hab : claimOrder a b = true)
    (hbc : claimOrder b c = true) : claimOrder a c = true :=
  claimOrder_iff.mpr (le_trans (claimOrder_iff.mp hab) (claimOrder_iff.mp hbc))

theorem claimOrder_total (a b : WorkItem) : (claimOrder a b || claimOrder b a) = true := by
  rw [Bool.or_eq_true, claimOrder_iff, claimOrder_iff]
  exact le_total _ _

/-- The winner of two candidates is not behind either. -/
theorem linePlace_le_of_better {left right : Option WorkItem}
    (h : betterClaimCandidate left right = some row) :
    (∀ l ∈ left, row.linePlace ≤ l.linePlace) ∧ ∀ r ∈ right, row.linePlace ≤ r.linePlace := by
  unfold betterClaimCandidate at h
  split at h
  · refine ⟨fun l hl => (nomatch hl), fun r hr => ?_⟩
    obtain rfl := Option.some.inj (h.symm.trans hr)
    exact le_rfl
  · refine ⟨fun l hl => ?_, fun r hr => (nomatch hr)⟩
    obtain rfl := Option.some.inj (h.symm.trans hl)
    exact le_rfl
  · next l r =>
    suffices row.linePlace ≤ l.linePlace ∧ row.linePlace ≤ r.linePlace from
      ⟨fun l' hl => Option.some.inj hl ▸ this.1, fun r' hr => Option.some.inj hr ▸ this.2⟩
    unfold WorkItem.linePlace
    simp only [Prod.Lex.toLex_le_toLex, OrderDual.toDual_lt_toDual, OrderDual.toDual_inj]
    split_ifs at h with hpriority hlt hage holder hid <;> obtain rfl := Option.some.inj h
    · exact ⟨Or.inl hlt, Or.inr ⟨rfl, le_rfl⟩⟩
    · exact ⟨Or.inr ⟨rfl, le_rfl⟩, Or.inl (lt_of_le_of_ne (not_lt.mp hlt) (Ne.symm hpriority))⟩
    all_goals
      rw [not_not] at hpriority
    · exact ⟨Or.inr ⟨rfl, le_rfl⟩, Or.inr ⟨hpriority, holder.le⟩⟩
    · exact ⟨Or.inr ⟨hpriority.symm, not_lt.mp holder⟩, Or.inr ⟨rfl, le_rfl⟩⟩
    all_goals
      rw [not_not] at hage
    · exact ⟨Or.inr ⟨rfl, le_rfl⟩, Or.inr ⟨hpriority, hage.le⟩⟩
    · exact ⟨Or.inr ⟨hpriority.symm, hage.ge⟩, Or.inr ⟨rfl, le_rfl⟩⟩

theorem none_of_betterClaimCandidate {left right : Option WorkItem}
    (h : betterClaimCandidate left right = none) : left = none ∧ right = none := by
  cases left with
  | none => exact ⟨rfl, h⟩
  | some l =>
    cases right with
    | none => exact nomatch h
    | some r =>
      dsimp only [betterClaimCandidate] at h
      split_ifs at h

/-! ## The rows in the running -/

/-- A candidate whose every predecessor is satisfied. -/
def qualifies (db : Db) (filter : ClaimFilter) (row : WorkItem) : Bool :=
  isCandidate db filter row &&
    (row.predecessors.getD []).all fun sourceRef => (evaluatePredecessor db sourceRef).satisfied

/-- The best row without predecessors. -/
def ungatedCandidate (db : Db) (filter : ClaimFilter) : Option WorkItem :=
  (((db.items.rows.filter (isCandidate db filter)).filter fun row =>
    row.predecessors.isNone).mergeSort claimOrder).find? fun _ => true

/-- The first row with predecessors that are all satisfied. -/
def gatedCandidate (db : Db) (filter : ClaimFilter) : Option WorkItem :=
  (((db.items.rows.filter (isCandidate db filter)).filter fun row =>
    row.predecessors.isSome).mergeSort claimOrder).find? fun row =>
      (row.predecessors.getD []).all fun sourceRef => (evaluatePredecessor db sourceRef).satisfied

/-- The selection without its memo. -/
theorem selectCandidate_eq : selectCandidate db filter =
    betterClaimCandidate (ungatedCandidate db filter) (gatedCandidate db filter) := by
  unfold selectCandidate ungatedCandidate gatedCandidate
  simp only [Selection.head?_eq_find?,
    Selection.findRecalled_eq_find? _ _ (Selection.faithful_nil _)]

/-- What qualifies is looked for in one of the two halves. -/
theorem qualifies_cases (hrow : row ∈ db.items.rows) (h : qualifies db filter row = true) :
    (∃ best ∈ ungatedCandidate db filter, best.linePlace ≤ row.linePlace) ∨
      ∃ best ∈ gatedCandidate db filter, best.linePlace ≤ row.linePlace := by
  obtain ⟨hcandidate, hsatisfied⟩ := Bool.and_eq_true_iff.mp h
  have hmem : row ∈ db.items.rows.filter (isCandidate db filter) :=
    List.mem_filter.mpr ⟨hrow, hcandidate⟩
  cases hgated : row.predecessors with
  | none =>
    left
    have hhalf : row ∈ (db.items.rows.filter (isCandidate db filter)).filter fun row =>
        row.predecessors.isNone := List.mem_filter.mpr ⟨hmem, by rw [hgated]; rfl⟩
    cases hbest : ungatedCandidate db filter with
    | none => exact nomatch (Selection.find?_mergeSort_eq_none.mp hbest row hhalf)
    | some best =>
      obtain ⟨-, -, hfirst⟩ :=
        Selection.find?_mergeSort_eq_some claimOrder_trans claimOrder_total hbest
      exact ⟨best, rfl, claimOrder_iff.mp (hfirst row hhalf rfl)⟩
  | some predecessors =>
    right
    have hhalf : row ∈ (db.items.rows.filter (isCandidate db filter)).filter fun row =>
        row.predecessors.isSome := List.mem_filter.mpr ⟨hmem, by rw [hgated]; rfl⟩
    cases hbest : gatedCandidate db filter with
    | none =>
      have hnone := Selection.find?_mergeSort_eq_none.mp hbest row hhalf
      exact nomatch hsatisfied.symm.trans hnone
    | some best =>
      obtain ⟨-, -, hfirst⟩ :=
        Selection.find?_mergeSort_eq_some claimOrder_trans claimOrder_total hbest
      exact ⟨best, rfl, claimOrder_iff.mp (hfirst row hhalf hsatisfied)⟩

/-- **Nothing is selected only when nothing qualifies.** -/
theorem not_qualifies_of_selectCandidate (h : selectCandidate db filter = none)
    (hrow : row ∈ db.items.rows) : qualifies db filter row = false := by
  rw [selectCandidate_eq] at h
  refine Bool.eq_false_iff.mpr fun hqualifies => ?_
  have hnone := none_of_betterClaimCandidate h
  rcases qualifies_cases hrow hqualifies with ⟨best, hbest, -⟩ | ⟨best, hbest, -⟩
  · exact nomatch hnone.1.symm.trans hbest
  · exact nomatch hnone.2.symm.trans hbest

/-- **What is selected qualifies, and nothing that qualifies outranks it.** -/
theorem selectCandidate_eq_some (h : selectCandidate db filter = some row) :
    row ∈ db.items.rows ∧ qualifies db filter row = true ∧
      ∀ other ∈ db.items.rows, qualifies db filter other = true → ¬ Outranks other row := by
  have hcandidate := candidate_of_selectCandidate h
  rw [selectCandidate_eq] at h
  have hplace := linePlace_le_of_better h
  refine ⟨hcandidate.1, Bool.and_eq_true_iff.mpr ⟨hcandidate.2, ?_⟩, fun other hother hqualifies => ?_⟩
  · rcases betterClaimCandidate_eq h with hungated | hgated
    · obtain ⟨hmem, -⟩ :=
        Selection.find?_mergeSort_eq_some claimOrder_trans claimOrder_total hungated
      rw [Option.isNone_iff_eq_none.mp (List.mem_filter.mp hmem).2]
      rfl
    · obtain ⟨-, hsatisfied, -⟩ :=
        Selection.find?_mergeSort_eq_some claimOrder_trans claimOrder_total hgated
      exact hsatisfied
  · rw [outranks_iff, not_lt]
    rcases qualifies_cases hother hqualifies with ⟨best, hbest, hle⟩ | ⟨best, hbest, hle⟩
    · exact le_trans (hplace.1 best hbest) hle
    · exact le_trans (hplace.2 best hbest) hle

/-! ## The plain question -/

/-- **A row is eligible for a claim** in the state the claim runs in. -/
structure Eligible (env : Env) (w : World) (input : ClaimInput) (row : WorkItem) : Prop where
  /-- Its repository is opted in, and the hook, if there is one, answers true
  for it. -/
  enabled : ∃ repository ∈ w.db.repositories.find? row.repository, repository.enabled = true
  answered : ∀ hook ∈ env.claimEligibility, hook (w.ticks + 2) row.repository = true
  /-- It is queued and admitted, or its lease is over. -/
  free : row.rowStatus = .queued ∧ row.admitted = true ∨
    row.rowStatus = .claimed ∧ ∃ expiresAt ∈ row.leaseExpiresAt, expiresAt ≤ env.clock w.ticks
  /-- Workers did not release it too often of late. -/
  wanted : backoffReleaseCount w.db row.id (env.clock (w.ticks + 1) - 30 * 60 * 1000) < 3
  /-- It is in the repository and of a kind that was asked for, and of a kind
  the credential allows. -/
  repository : ∀ slug ∈ input.repository, slug ≠ "" → row.repository = slug
  requested : ∀ kinds ∈ input.kinds, kinds ≠ [] → row.kind ∈ kinds
  allowed : ∀ allowed ∈ input.allowedKinds, row.kind ∈ allowed.map trim
  /-- Each of its predecessors is the source of an item that is completed
  with all it reported delivered. -/
  satisfied : ∀ sourceRef ∈ row.predecessors.getD [], ∃ item ∈ w.db.items.rows,
    item.sourceRef = some sourceRef ∧ item.rowStatus = .completed ∧
      ∀ artifact ∈ (item.result.map WorkResult.artifacts).getD [],
        (artifact.kind = .pullRequest → artifact.observed = some .merged) ∧
          (artifact.kind = .release → artifact.observed = some .published)

/-- **What a passed request holds** of the claim it was made from. -/
theorem claimRequest_spec (h : claimRequest input = .ok request) :
    request.repository = input.repository.filter (fun repository => repository ≠ "") ∧
      request.kinds =
        effectiveKinds (input.kinds.filter fun kinds => kinds ≠ []) request.restriction ∧
      checkSome (validateWorkKinds · "claim allowedKinds") input.allowedKinds =
        .ok request.restriction := by
  simp only [claimRequest, except_bind_eq_ok, except_pure_eq_ok] at h
  obtain ⟨_, -, _, -, _, -, _, -, restriction, hrestriction, _, -, rfl⟩ := h
  exact ⟨rfl, rfl, hrestriction⟩

/-- The kinds a credential allows are those of its restriction. -/
theorem mem_restriction_iff {allowedKinds restriction : Option (List String)} {purpose : String}
    (h : checkSome (validateWorkKinds · purpose) allowedKinds = .ok restriction) (kind : String) :
    (∀ allowed ∈ allowedKinds, kind ∈ allowed.map trim) ↔ ∀ kinds ∈ restriction, kind ∈ kinds := by
  rcases checkSome_eq_ok.mp h with ⟨rfl, rfl⟩ | ⟨allowed, unique, rfl, hvalid, rfl⟩
  · exact iff_of_true (fun _ hk => nomatch hk) fun _ hk => nomatch hk
  · simp only [Option.mem_def, Option.some.injEq, forall_eq']
    exact ((validateWorkKinds_spec hvalid).1 kind).symm

/-- **The kinds a request is limited to**: a kind that was asked for within
the restriction, and no such claim is made when there is none. -/
theorem within_effectiveKinds_iff {requested restriction : Option (List String)} {kind : String}
    (hrequested : ∀ kinds ∈ requested, kinds ≠ []) (hrestriction : ∀ kinds ∈ restriction, kinds ≠ [])
    (htrim : trim kind = kind) :
    (¬ (restriction.isSome = true ∧ effectiveKinds requested restriction = some []) ∧
      within ((effectiveKinds requested restriction).filter fun kinds => kinds ≠ []) kind = true) ↔
      (∀ kinds ∈ requested, kind ∈ kinds) ∧ ∀ kinds ∈ restriction, kind ∈ kinds := by
  have hsome : ∀ {kinds : List String}, kinds ≠ [] →
      (within ((some kinds).filter fun kinds => kinds ≠ []) kind = true ↔ kind ∈ kinds) := by
    intro kinds hne
    rw [Option.filter_some, if_pos (decide_eq_true hne)]
    exact List.contains_iff_mem
  cases restriction with
  | none =>
    cases requested with
    | none => simp [effectiveKinds, within]
    | some requested =>
      show _ ∧ within ((some requested).filter fun kinds => kinds ≠ []) kind = true ↔ _
      rw [hsome (hrequested requested rfl)]
      simp
  | some restriction =>
    cases requested with
    | none =>
      show _ ∧ within ((some restriction).filter fun kinds => kinds ≠ []) kind = true ↔ _
      rw [hsome (hrestriction restriction rfl)]
      simp [effectiveKinds, hrestriction restriction rfl]
    | some requested =>
      have hmem : kind ∈ requested.filter (fun kind => trim kind ∈ restriction) ↔
          kind ∈ requested ∧ kind ∈ restriction := by
        rw [List.mem_filter, htrim, decide_eq_true_eq]
      show ¬ (true = true ∧ some (requested.filter fun kind => trim kind ∈ restriction) = some []) ∧
        within ((some (requested.filter fun kind => trim kind ∈ restriction)).filter
          fun kinds => kinds ≠ []) kind = true ↔ _
      by_cases hnil : requested.filter (fun kind => trim kind ∈ restriction) = []
      · rw [hnil] at hmem ⊢
        simpa using hmem
      · rw [hsome hnil, hmem]
        simpa using fun _ _ => hnil

/-- A repository is the one that was asked for, if one was. -/
theorem within_repository_iff {requested : Option String} {repository : String} :
    within ((requested.filter fun slug => slug ≠ "").map fun slug => [slug]) repository = true ↔
      ∀ slug ∈ requested, slug ≠ "" → repository = slug := by
  cases requested with
  | none => exact iff_of_true rfl fun _ hslug => nomatch hslug
  | some slug =>
    simp only [Option.mem_def, Option.some.injEq, forall_eq']
    by_cases hempty : slug = ""
    · rw [Option.filter_some, if_neg (by simpa using hempty)]
      exact iff_of_true rfl fun hne => absurd hempty hne
    · rw [Option.filter_some, if_pos (decide_eq_true hempty)]
      simp [within, hempty]

theorem repositoryEnabled_iff {slug : String} :
    repositoryEnabled db slug = true ↔
      ∃ repository ∈ db.repositories.find? slug, repository.enabled = true := by
  unfold repositoryEnabled
  cases db.repositories.find? slug <;> simp

theorem claimable_iff {atTime : Time} :
    claimable atTime row = true ↔ row.rowStatus = .queued ∧ row.admitted = true ∨
      row.rowStatus = .claimed ∧ ∃ expiresAt ∈ row.leaseExpiresAt, expiresAt ≤ atTime := by
  unfold claimable
  simp only [Bool.or_eq_true, Bool.and_eq_true, decide_eq_true_eq]
  cases row.leaseExpiresAt <;> simp

/-- A candidate of the first query, asked of the table and of the request. -/
theorem isCandidate_iff (h : claimRequest input = .ok request)
    (hkind : Patterns.workKind.test row.kind = true) :
    isCandidate w.db (claimFilter env w request) row = true ∧
        ¬ (request.restriction.isSome = true ∧ request.kinds = some []) ↔
      (∃ repository ∈ w.db.repositories.find? row.repository, repository.enabled = true) ∧
      (row.rowStatus = .queued ∧ row.admitted = true ∨
        row.rowStatus = .claimed ∧ ∃ expiresAt ∈ row.leaseExpiresAt, expiresAt ≤ env.clock w.ticks) ∧
      backoffReleaseCount w.db row.id (env.clock (w.ticks + 1) - 30 * 60 * 1000) < 3 ∧
      (∀ slug ∈ input.repository, slug ≠ "" → row.repository = slug) ∧
      (∀ kinds ∈ input.kinds, kinds ≠ [] → row.kind ∈ kinds) ∧
      ∀ allowed ∈ input.allowedKinds, row.kind ∈ allowed.map trim := by
  obtain ⟨hrepository, hkinds, hrestriction⟩ := claimRequest_spec h
  have hlimited : (¬ (request.restriction.isSome = true ∧ request.kinds = some []) ∧
      within (request.kinds.filter fun kinds => kinds ≠ []) row.kind = true) ↔
      (∀ kinds ∈ input.kinds, kinds ≠ [] → row.kind ∈ kinds) ∧
        ∀ allowed ∈ input.allowedKinds, row.kind ∈ allowed.map trim := by
    have hasked : ∀ kinds ∈ input.kinds.filter (fun kinds => kinds ≠ []), kinds ≠ [] :=
      fun kinds hk => of_decide_eq_true (Option.mem_filter_iff.mp hk).2
    have hne : ∀ kinds ∈ request.restriction, kinds ≠ [] := by
      rcases checkSome_eq_ok.mp hrestriction with ⟨-, hnone⟩ | ⟨_, unique, -, hvalid, hsome⟩
      · rw [hnone]
        exact fun _ hk => nomatch hk
      · rw [hsome]
        exact fun _ hk => Option.some.inj hk ▸ (validateWorkKinds_spec hvalid).2.2
    rw [hkinds, within_effectiveKinds_iff hasked hne (Patterns.trim_workKind hkind),
      mem_restriction_iff hrestriction]
    simp only [Option.mem_filter_iff, decide_eq_true_eq, and_imp]
  unfold isCandidate
  simp only [Bool.and_eq_true, claimFilter, hrepository, within_repository_iff, repositoryEnabled_iff,
    claimable_iff, decide_eq_true_eq]
  rw [← hlimited]
  constructor
  · rintro ⟨⟨⟨⟨⟨⟨henabled, hfree⟩, hwanted⟩, hplace⟩, hkinds⟩, -⟩, hlooks⟩
    exact ⟨henabled, hfree, hwanted, hplace, hlooks, hkinds⟩
  · rintro ⟨henabled, hfree, hwanted, hplace, hlooks, hkinds⟩
    exact ⟨⟨⟨⟨⟨⟨henabled, hfree⟩, hwanted⟩, hplace⟩, hkinds⟩, rfl⟩, hlooks⟩

/-- The hook's answer is one more clause of the query. -/
theorem isCandidate_repositories {repositories : Option (List String)} :
    isCandidate db { filter with repositories } row = true ↔
      isCandidate db { filter with repositories := none } row = true ∧
        ∀ eligible ∈ repositories, row.repository ∈ eligible := by
  unfold isCandidate
  simp only [Bool.and_eq_true]
  cases repositories with
  | none => exact (and_iff_left fun _ h => nomatch h).symm
  | some eligible =>
    simp only [Option.mem_def, Option.some.injEq, forall_eq']
    rw [show within (some eligible) row.repository = true ↔ row.repository ∈ eligible from
      List.contains_iff_mem]
    rw [show within none row.repository = true ↔ True from iff_of_true rfl trivial, and_true]

/-- The repositories the hook answered for are, for a candidate, those it
answers true for. -/
theorem mem_claimRepositories (hrow : row ∈ w.db.items.rows)
    (hcandidate : isCandidate w.db (claimFilter env w request) row = true) :
    (∀ eligible ∈ claimRepositories env w request, row.repository ∈ eligible) ↔
      ∀ hook ∈ env.claimEligibility, hook (w.ticks + 2) row.repository = true := by
  have hmem : row.repository ∈ ((w.db.items.rows.filter
      (isCandidate w.db (claimFilter env w request))).map WorkItem.repository).eraseDups :=
    List.mem_eraseDups.mpr (List.mem_map.mpr ⟨row, List.mem_filter.mpr ⟨hrow, hcandidate⟩, rfl⟩)
  unfold claimRepositories
  cases env.claimEligibility with
  | none => exact iff_of_true (fun _ h => nomatch h) fun _ h => nomatch h
  | some hook =>
    simp only [Option.map_some, Option.mem_def, Option.some.injEq, forall_eq', List.mem_filter]
    exact and_iff_right hmem

/-- **A row of the table qualifies exactly when it is eligible.** -/
theorem qualifies_iff (h : claimRequest input = .ok request) (hrow : row ∈ w.db.items.rows)
    (hkind : Patterns.workKind.test row.kind = true) :
    qualifies w.db
        { claimFilter env w request with repositories := claimRepositories env w request } row = true ∧
        ¬ (request.restriction.isSome = true ∧ request.kinds = some []) ↔
      Eligible env w input row := by
  have hfilter : { claimFilter env w request with repositories := none } =
    claimFilter env w request := rfl
  unfold qualifies
  rw [Bool.and_eq_true, isCandidate_repositories, hfilter]
  simp only [List.all_eq_true, satisfied_evaluatePredecessor, delivers_iff]
  constructor
  · rintro ⟨⟨⟨hcandidate, heligible⟩, hsatisfied⟩, hlooks⟩
    obtain ⟨henabled, hfree, hwanted, hplace, hrequested, hallowed⟩ :=
      (isCandidate_iff h hkind).mp ⟨hcandidate, hlooks⟩
    exact ⟨henabled, (mem_claimRepositories hrow hcandidate).mp heligible, hfree, hwanted, hplace,
      hrequested, hallowed, hsatisfied⟩
  · intro he
    obtain ⟨hcandidate, hlooks⟩ := (isCandidate_iff h hkind).mpr
      ⟨he.enabled, he.free, he.wanted, he.repository, he.requested, he.allowed⟩
    exact ⟨⟨⟨hcandidate, (mem_claimRepositories hrow hcandidate).mpr he.answered⟩, he.satisfied⟩,
      hlooks⟩

/-- The selection of a claim: when the hook answers for no repository there
is no candidate either. -/
theorem claimSelection_eq : claimSelection env w request = selectCandidate w.db
    { claimFilter env w request with repositories := claimRepositories env w request } := by
  unfold claimSelection
  split
  · next hnone =>
    rw [hnone]
    cases hselect : selectCandidate w.db { claimFilter env w request with repositories := some [] } with
    | none => rfl
    | some row =>
      obtain ⟨-, hcandidate⟩ := candidate_of_selectCandidate hselect
      exact nomatch (isCandidate_repositories.mp hcandidate).2 [] rfl
  · rfl

/-! ## A claim -/

/-- Every row of a run is of a work kind. -/
theorem workKind_exec (ops : List Op) :
    EveryRow (fun item _ => Patterns.workKind.test item.kind = true) (exec env ops).db := by
  refine row_invariant (fun hbirth => ?_) (fun h hm => ?_) (fun h => ?_) ops
  · cases hbirth with
    | root guard => exact (validateWorkDefinition_spec guard.checked).1
    | child guard =>
      obtain ⟨proposal, hchecked⟩ := guard.checked
      simp only [checkFollowUp, except_bind_eq_ok] at hchecked
      obtain ⟨_, -, normalized, -, _, -, _, hvalid, _, -, _, -, hreturned⟩ := hchecked
      obtain rfl := Except.ok.inj hreturned
      exact (validateWorkDefinition_spec hvalid).1
  · cases hm <;> exact h
  · unfold WorkItem.renamed
    split <;> exact h

/-- A stored row is leased unless it is not admitted. -/
theorem throws_leaseRow {atTime : Time} {e : QueueError} (hrow : w.db.items.find? row.id = some row)
    (h : (leaseRow env request atTime row).Throws w e) : row.admitted = false := by
  have hexpire : ∀ {w : World}, ¬ (expireLease env row).Throws w e := by
    intro w
    unfold expireLease
    split <;> simp
  simp only [leaseRow, Tx.throws_bind, throws_randomUUID, returns_randomUUID, throws_now, returns_now,
    Tx.throws_failIf, Tx.returns_failIf, throws_updateItem, returns_updateItem, throws_addEvent,
    returns_addEvent, throws_getRequired, returns_getRequired, Tx.throws_pure, false_or, and_false,
    exists_false, or_false] at h
  obtain h | ⟨_, w₁, hreturns, _, _, ⟨rfl, rfl⟩, _, _, ⟨rfl, rfl⟩, ⟨hadmitted, -⟩ | ⟨_, _, ⟨-, rfl⟩, _, _,
    rfl, _, _, rfl, hmissing, -⟩⟩ := h
  · exact absurd h hexpire
  · exact hadmitted
  · obtain ⟨_, hdb, -⟩ := expireLease_spec hreturns
    have hfind : w₁.db.items.find? row.id = some row := by rw [hdb]; exact hrow
    dsimp only at hmissing
    rw [Table.find?_modify_self hfind] at hmissing
    cases hmissing

/-- **A claim is refused** for its input, or for a label that leaks a token
of a lease; and never for the admission of the row it selected. -/
theorem throws_claim {e : QueueError} (hrepresented : ∀ item ∈ w.db.items.rows, Represented item)
    (h : (claim env input).Throws w e) :
    claimRequest input = .error e ∨ ∃ request, claimRequest input = .ok request ∧
      LeaksToken w.db request.label ∧ e = .error "claim label may not contain a lease token" := by
  have heligible : ∀ {db : Db} {filter : ClaimFilter} {w : World},
      ¬ (eligibleRepositories env db filter).Throws w e := by
    intro db filter w
    unfold eligibleRepositories
    split <;> simp
  simp only [claim, Tx.throws_bind, Tx.throws_ofExcept, Tx.returns_ofExcept] at h
  obtain h | ⟨request, w, ⟨hrequest, rfl⟩, h⟩ := h
  · exact Or.inl h
  refine Or.inr ⟨request, hrequest, ?_⟩
  split at h
  · exact (Tx.throws_pure.mp h).elim
  · simp only [throws_transaction, claimTransaction, Tx.throws_bind, throws_now, returns_now,
      Tx.throws_read, Tx.returns_read, Tx.throws_failIf, Tx.returns_failIf, false_or] at h
    obtain ⟨_, _, ⟨rfl, rfl⟩, _, _, ⟨rfl, rfl⟩, ⟨hleaks, he⟩ | ⟨_, _, ⟨-, rfl⟩, _, _, ⟨rfl, rfl⟩,
      h | ⟨repositories, w₁, hreturns, h⟩⟩⟩ := h
    · exact ⟨hleaks, he⟩
    · exact absurd h heligible
    · split at h
      · exact (Tx.throws_pure.mp h).elim
      · split at h
        · exact (Tx.throws_pure.mp h).elim
        · next row hselect =>
          obtain ⟨-, hdb, -⟩ := @eligibleRepositories_spec env request w _ _ hreturns
          obtain ⟨hrow, hcandidate⟩ := candidate_of_selectCandidate hselect
          have hproposed := throws_leaseRow (by rw [hdb]; exact Table.find?_key hrow) h
          unfold isCandidate at hcandidate
          simp only [Bool.and_eq_true] at hcandidate
          rcases claimable_iff.mp hcandidate.1.1.1.1.2 with ⟨-, hadmitted⟩ | ⟨hclaimed, -⟩
          · cases hproposed.symm.trans hadmitted
          · cases hproposed.symm.trans ((hrepresented row hrow).admitted (Or.inl hclaimed))

/-- **Claim selection equals the plain specification.** In every state of
every run, a claim is refused, for its input or for a label that leaks the
token of a lease, and changes nothing; or it answers. It answers with an item
if and only if some row is eligible, and the row it leased is eligible and no
eligible row outranks it. -/
theorem claim_selection (env : Env) (ops : List Op) (input : ClaimInput) :
    (∃ e, ((Op.claim input).run env (exec env ops)).1 = .error e ∧
      ((Op.claim input).run env (exec env ops)).2.db = (exec env ops).db ∧
      (claimRequest input = .error e ∨ ∃ request, claimRequest input = .ok request ∧
        LeaksToken (exec env ops).db request.label ∧
        e = .error "claim label may not contain a lease token")) ∨
    ∃ reply, ((Op.claim input).run env (exec env ops)).1 = .ok (.found reply) ∧
      (reply.isSome = true ↔
        ∃ row ∈ (exec env ops).db.items.rows, Eligible env (exec env ops) input row) ∧
      ∀ leased ∈ reply, ∃ row ∈ (exec env ops).db.items.rows, leased.id = row.id ∧
        leased.rowStatus = .claimed ∧
        ((Op.claim input).run env (exec env ops)).2.db.items.find? row.id = some leased ∧
        Eligible env (exec env ops) input row ∧
        ∀ other ∈ (exec env ops).db.items.rows, Eligible env (exec env ops) input other →
          ¬ Outranks other row := by
  have hkind : ∀ row ∈ (exec env ops).db.items.rows, Patterns.workKind.test row.kind = true :=
    fun row hrow => workKind_exec ops row hrow
  have hrepresented : ∀ row ∈ (exec env ops).db.items.rows, Represented row :=
    fun row hrow => represented_exec ops row hrow
  generalize exec env ops = w at *
  rcases run_cases env (.claim input) w with ⟨r, hreturns, hreply⟩ | ⟨e, herror, hdb⟩
  · obtain ⟨reply, hclaim, rfl⟩ := returns_reply.mp hreturns
    refine Or.inr ⟨reply, hreply, ?_⟩
    obtain ⟨request, hrequest, ⟨hnothing, rfl, -⟩ | ⟨hlooks, -, hsearched⟩⟩ := claim_spec hclaim
    · -- no kind was asked for that is allowed
      refine ⟨iff_of_false nofun ?_, fun _ h => nomatch h⟩
      rintro ⟨row, hrow, heligible⟩
      exact ((qualifies_iff hrequest hrow (hkind row hrow)).mpr heligible).2 hnothing
    · rw [claimSelection_eq] at hsearched
      rcases hsearched with ⟨hselect, rfl, -⟩ | ⟨row, leased, hselect, rfl, hfind, hleased⟩
      · refine ⟨iff_of_false nofun ?_, fun _ h => nomatch h⟩
        rintro ⟨row, hrow, heligible⟩
        have hnone := not_qualifies_of_selectCandidate hselect hrow
        exact nomatch hnone.symm.trans
          ((qualifies_iff hrequest hrow (hkind row hrow)).mpr heligible).1
      · obtain ⟨hrow, hqualifies, hfirst⟩ := selectCandidate_eq_some hselect
        have heligible := (qualifies_iff hrequest hrow (hkind row hrow)).mp ⟨hqualifies, hlooks⟩
        refine ⟨iff_of_true rfl ⟨row, hrow, heligible⟩, fun leased' hleased' => ?_⟩
        obtain rfl := Option.some.inj hleased'
        obtain ⟨token, expiresAt, t₁, t₂, -, hwritten, hdb⟩ := hleased.written
        have hid : leased.id = row.id := by rw [hwritten]
        refine ⟨row, hrow, hid, by rw [hwritten], ?_, heligible, fun other hother h => ?_⟩
        · rw [hdb, Db.find?_write (by rw [hid]; exact hfind), if_pos hid.symm]
        · exact hfirst other hother ((qualifies_iff hrequest hother (hkind other hother)).mpr h).1
  · exact Or.inl ⟨e, herror, hdb, throws_claim hrepresented (throws_reply.mp herror)⟩

/-- Whether an outcome is a leased item. -/
def Outcome.isLease : Outcome → Bool
  | .ok (.found (some _)) => true
  | _ => false

/-- In a queue with one seed a claim leases an item, so there was an eligible
row. -/
theorem claim_selection_sample :
    ∃ row ∈ (exec Env.sample
        [.setRepositoryEnabled "a/b" true, .enqueueSeed "a/b" .sample]).db.items.rows,
      Eligible Env.sample (exec Env.sample
        [.setRepositoryEnabled "a/b" true, .enqueueSeed "a/b" .sample]) { worker := "w" } row := by
  have hlease : Outcome.isLease ((Op.claim { worker := "w" }).run Env.sample (exec Env.sample
      [.setRepositoryEnabled "a/b" true, .enqueueSeed "a/b" .sample])).1 = true := by
    decide +kernel
  rcases claim_selection Env.sample
      [.setRepositoryEnabled "a/b" true, .enqueueSeed "a/b" .sample] { worker := "w" } with
    ⟨e, herror, -⟩ | ⟨reply, hreply, hiff, -⟩
  · rw [herror] at hlease
    exact nomatch hlease
  · rw [hreply] at hlease
    cases reply with
    | none => exact nomatch hlease
    | some leased => exact hiff.mp rfl

end Snowcat
