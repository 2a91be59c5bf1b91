import Snowcat.Queue.Lineage
import Snowcat.Sweep.Cure

/-!
# One cure for each head

The candidates of a cure pass are keyed by the URL as it was reported, its
listing by the URL built from the repository's slug, and the store creates
one root for each source reference, which is the URL at the head. So one pull
request has as many cures of a head as it has spellings that get as far as
the store. `one_cure_per_head` says that there is one cure for each pull
request and head in every run in which no head is asked for under a second
spelling, of the URL or of the repository.
-/

namespace Snowcat

/-! ## Runs of passes and calls -/

/-- **A turn of a run**: a call by a worker or an operator, or a whole cure
pass with what it meets outside. -/
inductive CureTurn where
  | call (op : Op)
  | pass (out : Outside) (repository : Option String) (limit : ℤ) (actor : String)

/-- A turn as it should be: whoever calls the store, and whoever calls it
while a pass waits, asks for a cure only as a pass does. Two passes may
overlap. -/
def CureTurn.Orderly : CureTurn → Prop
  | .call op => op.AsksForCure
  | .pass out _ _ _ => Snowcat.Orderly out

/-- The queue after a turn. -/
def CureTurn.take {env : Env} (turn : CureTurn) (s : Pass env) : Pass env :=
  match turn with
  | .call op => s.after [op]
  | .pass out repository limit actor => (curePullRequests out repository limit actor s).2

/-- The queue after a run of turns. -/
def afterTurns (env : Env) (turns : List CureTurn) : Pass env :=
  turns.foldl (fun s turn => turn.take s) (Pass.start env)

theorem afterTurns_concat {env : Env} (turns : List CureTurn) (turn : CureTurn) :
    afterTurns env (turns ++ [turn]) = turn.take (afterTurns env turns) := List.foldl_concat ..

/-- **Every state a run of turns reaches is reached by calls that ask for
cures as passes do.** -/
theorem asksForCure_afterTurns {env : Env} {turns : List CureTurn}
    (hturns : ∀ turn ∈ turns, turn.Orderly) :
    ∀ op ∈ (afterTurns env turns).calls, op.AsksForCure := by
  induction turns using List.reverseRecOn with
  | nil => exact fun _ hop => nomatch hop
  | append_singleton turns turn ih =>
    have hbefore := ih fun t ht => hturns t (List.mem_append_left _ ht)
    have hturn := hturns turn (List.mem_append_right _ (List.mem_singleton_self turn))
    rw [afterTurns_concat]
    intro op hop
    cases turn with
    | call called =>
      rcases List.mem_append.mp hop with hop | hop
      · exact hbefore op hop
      · exact List.mem_singleton.mp hop ▸ hturn
    | pass out repository limit actor =>
      have : Orderly out := hturn
      obtain ⟨new, hnew, hasks⟩ := (@asksForCures_curePullRequests env out _ repository limit
        actor).appends (afterTurns env turns)
      rw [CureTurn.take, hnew] at hop
      rcases List.mem_append.mp hop with hop | hop
      · exact hbefore op hop
      · exact hasks op hop

/-! ## One cure for each head -/

section OneCure

variable (env : Env)

/-- The pull request of a cure in a repository: the repository's slug without
regard to case, and the number. -/
def cureIdentity (repository : String) (cure : PullRequestCure) : String × Option ℕ :=
  (toLowerCase repository, pullRequestNumber env cure.pullRequestUrl)

/-- An item is the cure of a pull request at a head. -/
def CureOf (item : WorkItem) (identity : String × Option ℕ) (headSha : String) : Prop :=
  item.kind = "pr-cure" ∧
    ∃ cure, item.cure = some cure ∧ cureIdentity env item.repository cure = identity ∧
      cure.headSha = headSha

/-- **One cure for each pull request and head.** -/
def OneCurePerHead (db : Db) : Prop :=
  ∀ identity headSha, ∀ i ∈ db.items.rows, ∀ j ∈ db.items.rows,
    CureOf env i identity headSha → CureOf env j identity headSha → i.id = j.id

/-- **The condition on a call**, in the state it meets. A cure is not asked
for when the pull request has one of the same head under another spelling of
its URL or of its repository, and a repository is not renamed to a slug that
items have under another spelling. -/
def OneSpelling (db : Db) : Op → Prop
  | .enqueueCureRoot repository input =>
    ∀ item ∈ db.items.rows, item.kind = "pr-cure" → ∀ cure ∈ item.cure,
      cureIdentity env item.repository cure = cureIdentity env repository input.cure →
      cure.headSha = input.cure.headSha →
      item.repository = repository ∧ cure.pullRequestUrl = input.cure.pullRequestUrl
  | .renameRepository _ target _ =>
    ∀ item ∈ db.items.rows, toLowerCase item.repository ≠ toLowerCase target
  | _ => True

instance (db : Db) (op : Op) : Decidable (OneSpelling env db op) := by
  cases op
  case enqueueCureRoot | renameRepository =>
    exact inferInstanceAs (Decidable (∀ item ∈ db.items.rows, _))
  all_goals exact isTrue trivial

/-- The source reference of a cure is its pull request at its head. -/
def CureRefs (db : Db) : Prop :=
  ∀ item ∈ db.items.rows, item.kind = "pr-cure" → ∀ cure, item.cure = some cure →
    item.sourceRef = some s!"{cure.pullRequestUrl}@{cure.headSha}"

end OneCure

section Steps

variable {env : Env} {op : Op} {lo hi : ℕ} {db db' : Db}

/-- **Where a row comes from**: it was there, with what it is bound to and in
its place, or it was born. -/
theorem Move.origin (hm : Move env op lo hi db db') {row : WorkItem}
    (hrow : row ∈ db'.items.rows) :
    (∃ old ∈ db.items.rows, ∃ ρ, SamePlace ρ old row ∧ row.cure = old.cure ∧
        row.sourceRef = old.sourceRef ∧
        ((∀ repository, ρ repository = repository) ∨
          ∃ source target actor, op = .renameRepository source target actor ∧
            ρ = renamedTo source target)) ∨
      (db.items.find? row.id = none ∧ ∃ posting, Birth env op lo hi db row posting) := by
  have hfind := Table.find?_key hrow
  cases hm.rowStep row.id with
  | stays hsame =>
    exact Or.inl ⟨row, Table.mem_of_find? (hsame.symm.trans hfind), id, .refl row, rfl, rfl,
      Or.inl fun _ => rfl⟩
  | @written old new _ hold hnew hmove =>
    obtain rfl := Option.some.inj (hnew.symm.trans hfind)
    refine Or.inl ⟨old, Table.mem_of_find? hold, id, hmove.samePlace, ?_, ?_, Or.inl fun _ => rfl⟩
    · cases hmove <;> rfl
    · cases hmove <;> rfl
  | @born new posting hfresh hnew hbirth =>
    obtain rfl := Option.some.inj (hnew.symm.trans hfind)
    exact Or.inr ⟨hfresh, posting, hbirth⟩
  | @renamed source target actor hop hnew =>
    rw [hfind] at hnew
    obtain ⟨old, hold, rfl⟩ := Option.map_eq_some_iff.mp hnew.symm
    refine Or.inl ⟨old, Table.mem_of_find? hold, renamedTo source target,
      samePlace_renamed source target old, ?_, ?_, Or.inr ⟨source, target, actor, hop, rfl⟩⟩
    · unfold WorkItem.renamed
      split <;> rfl
    · unfold WorkItem.renamed
      split <;> rfl

/-- Only the cure pass's call creates a cure. -/
theorem Birth.cure {row : WorkItem} {posting : Posting} (h : Birth env op lo hi db row posting)
    (hkind : row.kind = "pr-cure") {cure : PullRequestCure} (hcure : row.cure = some cure) :
    ∃ repository input, op = .enqueueCureRoot repository input ∧ cure = input.cure ∧
      row.repository = repository ∧ row.sourceRef = some input.sourceRef := by
  cases h with
  | @root root id createdAt t policy payload guard _ =>
    have hasked := guard.asked
    cases op with
    | enqueueCureRoot repository input =>
      have hroot : root = _ := hasked
      subst hroot
      exact ⟨repository, input, rfl, (Option.some.inj hcure).symm, rfl, rfl⟩
    | enqueueSeed repository input =>
      have hroot : root = _ := hasked
      subst hroot
      exact nomatch hcure
    | enqueueReviewRoot repository input =>
      have hroot : root = _ := hasked
      subst hroot
      exact nomatch hcure
    | enqueueInactiveRootBatch repository candidates cooldownSeconds =>
      obtain ⟨_, -, rfl⟩ := hasked
      exact nomatch hcure
    | enqueueProposedRoots repository candidates =>
      obtain ⟨_, -, _, rfl⟩ := hasked
      exact nomatch hcure
    | _ => exact hasked.elim
  | @child parent followUp worker id createdAt t policy guard =>
    -- a follow-up inherits a cure only as a `pr-cure-change`
    have hinherited : inheritedCureBinding parent followUp = some cure := hcure
    rw [inheritedCureBinding, if_pos (Or.inl ?_)] at hinherited
    · exact nomatch hinherited
    · show followUp.kind ≠ cureChangeKind
      rw [show followUp.kind = "pr-cure" from hkind]
      decide

/-- What a run keeps: the source references, and one cure for each head. -/
structure CuresApart (env : Env) (db : Db) : Prop where
  refs : CureRefs db
  one : OneCurePerHead env db

/-- A table whose cures were there before, under their repository and with
their id, is as apart as it was. -/
theorem CuresApart.of_old (h : CuresApart env db)
    (hold : ∀ row ∈ db'.items.rows, ∀ cure, row.kind = "pr-cure" → row.cure = some cure →
      ∃ old ∈ db.items.rows, old.id = row.id ∧ old.kind = "pr-cure" ∧ old.cure = some cure ∧
        old.sourceRef = row.sourceRef ∧ old.repository = row.repository) : CuresApart env db' := by
  constructor
  · intro row hrow hkind cure hcure
    obtain ⟨old, hmem, -, hkind', hcure', href, -⟩ := hold row hrow cure hkind hcure
    rw [← href]
    exact h.refs old hmem hkind' cure hcure'
  · intro identity headSha i hi j hj ⟨hik, ci, hci, hii, hih⟩ ⟨hjk, cj, hcj, hji, hjh⟩
    obtain ⟨i₀, hi₀, hid, hk, hc, -, hr⟩ := hold i hi ci hik hci
    obtain ⟨j₀, hj₀, hjd, hk', hc', -, hr'⟩ := hold j hj cj hjk hcj
    rw [← hid, ← hjd]
    exact h.one identity headSha i₀ hi₀ j₀ hj₀ ⟨hk, ci, hc, by rw [hr]; exact hii, hih⟩
      ⟨hk', cj, hc', by rw [hr']; exact hji, hjh⟩

/-- Moves of other calls create no cure and rename nothing. -/
theorem CuresApart.move (hcure : ∀ repository input, op ≠ .enqueueCureRoot repository input)
    (hrename : ∀ source target actor, op ≠ .renameRepository source target actor)
    (h : CuresApart env db) (hm : Move env op lo hi db db') : CuresApart env db' := by
  refine h.of_old fun row hrow cure hkind hrowcure => ?_
  rcases hm.origin hrow with ⟨old, hold, ρ, hplace, hsame, href, hρ⟩ | ⟨-, posting, hbirth⟩
  · rcases hρ with hρ | ⟨source, target, actor, hop, -⟩
    · exact ⟨old, hold, hplace.sameId.symm, hplace.kind.symm.trans hkind, hsame.symm.trans hrowcure,
        href.symm, by rw [hplace.repository, hρ]⟩
    · exact absurd hop (hrename source target actor)
  · obtain ⟨repository, input, hop, -⟩ := hbirth.cure hkind hrowcure
    exact absurd hop (hcure repository input)

/-- **A rename to a slug nothing else has keeps the cures apart.** -/
theorem CuresApart.rename (h : CuresApart env db) {source target : String} {moved : RepositoryRow}
    {hmoved : db.repositories.find? moved.slug = none}
    (hnew : ∀ item ∈ db.items.rows, toLowerCase item.repository ≠ toLowerCase target) :
    CuresApart env (db.rename source target moved hmoved) := by
  have hrows : ∀ row ∈ (db.rename source target moved hmoved).items.rows,
      ∃ old ∈ db.items.rows, row = old.renamed source target := fun row hrow => by
    obtain ⟨old, hold, rfl⟩ := List.mem_map.mp hrow
    exact ⟨old, hold, rfl⟩
  have hkept : ∀ old : WorkItem, (old.renamed source target).cure = old.cure ∧
      (old.renamed source target).sourceRef = old.sourceRef := fun old => by
    unfold WorkItem.renamed
    split <;> exact ⟨rfl, rfl⟩
  constructor
  · intro row hrow hkind cure hcure
    obtain ⟨old, hold, rfl⟩ := hrows row hrow
    rw [(hkept old).2]
    exact h.refs old hold ((samePlace_renamed ..).kind.symm.trans hkind) cure
      ((hkept old).1.symm.trans hcure)
  · intro identity headSha i' hi' j' hj' ⟨hik, ci, hci, hii, hih⟩ ⟨hjk, cj, hcj, hji, hjh⟩
    obtain ⟨i, hi, rfl⟩ := hrows i' hi'
    obtain ⟨j, hj, rfl⟩ := hrows j' hj'
    have hplacei := samePlace_renamed source target i
    have hplacej := samePlace_renamed source target j
    rw [hplacei.kind] at hik
    rw [hplacej.kind] at hjk
    rw [(hkept i).1] at hci
    rw [(hkept j).1] at hcj
    rw [hplacei.sameId, hplacej.sameId]
    rw [hplacei.repository] at hii
    rw [hplacej.repository] at hji
    have hsame := hii.trans hji.symm
    simp only [cureIdentity, Prod.mk.injEq] at hsame
    -- the slugs agreed before the rename, as none of them was the target's
    have hslug : toLowerCase i.repository = toLowerCase j.repository := by
      unfold renamedTo at hsame
      by_cases hi_source : i.repository = source
      · by_cases hj_source : j.repository = source
        · rw [hi_source, hj_source]
        · rw [if_pos hi_source, if_neg hj_source] at hsame
          exact absurd hsame.1.symm (hnew j hj)
      · by_cases hj_source : j.repository = source
        · rw [if_neg hi_source, if_pos hj_source] at hsame
          exact absurd hsame.1 (hnew i hi)
        · rw [if_neg hi_source, if_neg hj_source] at hsame
          exact hsame.1
    exact h.one (cureIdentity env i.repository ci) headSha i hi j hj ⟨hik, ci, hci, rfl, hih⟩
      ⟨hjk, cj, hcj, by rw [cureIdentity, cureIdentity, hslug, hsame.2], hjh⟩

/-- What a call for a cure does: nothing, or it creates one under a source
reference the repository does not have. -/
theorem enqueueCureRoot_spec {w w' : World} {repository : String} {input : CureRootInput}
    {reply : Option WorkItem} (h : (enqueueCureRoot env repository input).Returns w reply w') :
    (sourceRefExists w.db repository input.sourceRef = true ∧ w'.db = w.db) ∨
      (sourceRefExists w.db repository input.sourceRef = false ∧
        ∃ row posting, ∃ hfresh : w.db.items.find? row.id = none,
          w'.db = w.db.create row hfresh posting ∧ row.repository = repository ∧
          row.kind = input.definition.kind ∧ row.sourceRef = some input.sourceRef ∧
          row.cure = some input.cure) := by
  simp only [enqueueCureRoot, returns_checked, Tx.returns_bind] at h
  obtain ⟨_, -, _, _, henabled, _, _, ⟨rfl, rfl⟩, h⟩ := h
  obtain rfl := returns_assertRepositoryEnabled henabled
  split at h
  · next hseen =>
    obtain ⟨-, rfl⟩ := Tx.returns_pure.mp h
    exact Or.inl ⟨hseen, rfl⟩
  · next hunseen =>
    simp only [Tx.returns_bind, Tx.returns_pure] at h
    obtain ⟨item, _, hroot, -, rfl⟩ := h
    obtain ⟨id, createdAt, policy, t, hfresh, -, hdb, -⟩ := createRoot_spec hroot
    exact Or.inr ⟨Bool.not_eq_true _ ▸ hunseen, _, _, hfresh, hdb, rfl, rfl, rfl, rfl⟩

/-- **A call for a cure keeps the cures apart**, when the pull request has no
cure of the head under another spelling. -/
theorem CuresApart.enqueueCureRoot {w w' : World} (h : CuresApart env w.db) {repository : String}
    {input : CureRootInput} (hasks : (Op.enqueueCureRoot repository input).AsksForCure)
    (hspelling : OneSpelling env w.db (.enqueueCureRoot repository input))
    {reply : Option WorkItem}
    (hreturns : (Snowcat.enqueueCureRoot env repository input).Returns w reply w') :
    CuresApart env w'.db := by
  rcases enqueueCureRoot_spec hreturns with ⟨-, hsame⟩ | ⟨hunseen, row, posting, hfresh, hdb,
    hrepository, -, href, hcure⟩
  · rw [hsame]
    exact h
  · rw [hdb]
    -- a cure of the same head would have the source reference already
    have hnone : ∀ old ∈ w.db.items.rows, ∀ headSha,
        CureOf env old (cureIdentity env row.repository input.cure) headSha →
        input.cure.headSha ≠ headSha := by
      intro old hold headSha ⟨hkind, cure, hcure', hidentity, hhead⟩ hheadSha
      obtain ⟨hslug, hurl⟩ := hspelling old hold hkind cure hcure'
        (hidentity.trans (by rw [hrepository])) (hhead.trans hheadSha.symm)
      have hold_ref := h.refs old hold hkind cure hcure'
      rw [hurl, hhead, ← hheadSha, ← show input.sourceRef = _ from hasks] at hold_ref
      refine absurd (List.any_eq_true.mpr ⟨old, hold, ?_⟩) (Bool.eq_false_iff.mp hunseen)
      simp only [Bool.and_eq_true, decide_eq_true_eq]
      exact ⟨hslug, hold_ref⟩
    constructor
    · intro item hitem hkind cure hitemcure
      rcases (Db.mem_create hfresh).mp hitem with hitem | rfl
      · exact h.refs item hitem hkind cure hitemcure
      · obtain rfl := Option.some.inj (hcure.symm.trans hitemcure)
        rw [href]
        exact congrArg some hasks
    · intro identity headSha i hi j hj hic hjc
      have hnew : ∀ old ∈ w.db.items.rows, CureOf env old identity headSha →
          ¬ CureOf env row identity headSha := by
        intro old hold holdcure ⟨_, cure, hrowcure, hidentity, hhead⟩
        obtain rfl := Option.some.inj (hcure.symm.trans hrowcure)
        exact hnone old hold headSha (hidentity ▸ holdcure) hhead
      rcases (Db.mem_create hfresh).mp hi with hi₀ | hi₀
      · rcases (Db.mem_create hfresh).mp hj with hj₀ | hj₀
        · exact h.one identity headSha i hi₀ j hj₀ hic hjc
        · exact absurd (hj₀ ▸ hjc) (hnew i hi₀ hic)
      · rcases (Db.mem_create hfresh).mp hj with hj₀ | hj₀
        · exact absurd (hi₀ ▸ hic) (hnew j hj₀ hjc)
        · rw [hi₀, hj₀]

/-- **A call keeps the cures apart**, when it meets the condition. -/
theorem CuresApart.step {w : World} (h : CuresApart env w.db) (hasks : op.AsksForCure)
    (hspelling : OneSpelling env w.db op) : CuresApart env (op.run env w).2.db := by
  rcases run_cases env op w with ⟨r, hreturns, -⟩ | ⟨e, -, hdb⟩
  · by_cases hcure : ∃ repository input, op = .enqueueCureRoot repository input
    · obtain ⟨repository, input, rfl⟩ := hcure
      obtain ⟨_, hreturns, -⟩ := returns_reply.mp hreturns
      exact h.enqueueCureRoot hasks hspelling hreturns
    by_cases hrename : ∃ source target actor, op = .renameRepository source target actor
    · obtain ⟨source, target, actor, rfl⟩ := hrename
      obtain ⟨_, hreturns, -⟩ := returns_reply.mp hreturns
      obtain ⟨_, moved, hmoved, -, rfl, -, hdb⟩ := renameRepository_spec hreturns
      rw [hdb]
      exact h.rename hspelling
    · refine (step_moves op w).keeps (P := CuresApart env) (CuresApart.move ?_ ?_) h
      · exact fun repository input hop => hcure ⟨repository, input, hop⟩
      · exact fun source target actor hop => hrename ⟨source, target, actor, hop⟩
  · rw [hdb]
    exact h

end Steps

/-- **One cure for each head**, after every run of cure passes and of calls by
workers and operators, whatever GitHub answers, in which no cure is asked for
under a second spelling. -/
theorem one_cure_per_head (env : Env) (turns : List CureTurn)
    (hturns : ∀ turn ∈ turns, turn.Orderly)
    (hspelling : ∀ e ∈ steps env (afterTurns env turns).calls, OneSpelling env e.before.db e.input) :
    OneCurePerHead env (afterTurns env turns).db := by
  have hasks := @asksForCure_afterTurns env turns hturns
  have hstart : CuresApart env (queue env).start.db :=
    { refs := fun _ hrow => nomatch hrow
      one := fun _ _ _ hi => nomatch hi }
  rw [Pass.db_eq]
  refine ((queue env).invariant_along (P := fun w => CuresApart env w.db)
    (C := fun e => e.input.AsksForCure ∧ OneSpelling env e.before.db e.input) hstart
    (fun w op hop h => h.step hop.1 hop.2) fun e he => ⟨?_, hspelling e he⟩).one
  obtain ⟨pre, post, hops, -⟩ := mem_steps he
  exact hasks e.input (hops ▸ List.mem_append_right _ (List.mem_cons_self ..))

/-- A platform that reads the path of a GitHub URL as it is spelled. -/
def Env.spelled : Env :=
  { Env.sample with
    parseUrl := fun s =>
      if startsWith s "https://github.com/" = true then
        some ⟨"https:", "", "", "github.com", "", String.ofList (s.toList.drop 18), "", ""⟩
      else none }

/-- The head of every pull request of the conflicting world. -/
def conflictingSha : String := "0123456789012345678901234567890123456789"

/-- Every pull request is open, targets `a/b` and conflicts with its base. -/
def Outside.conflicting : Outside :=
  { Outside.missing with
    answer := fun _ request => match request with
      | .pull .. => .response 200 (.object
          [("number", .number (.int 1)), ("state", .text "open"), ("title", .text "fix: it"),
            ("mergeable_state", .text "dirty"),
            ("base", .object [("repo", .object [("full_name", .text "a/b")])]),
            ("head", .object [("sha", .text conflictingSha)])])
      | .checkRuns .. | .reviews .. | .files .. => .response 200 (.array [])
      | _ => .unavailable
    number := fun value => match value with
      | .number n => n
      | _ => .int 0 }

/-- The health `inspectPullRequestHealth` reads there. -/
def conflictingHealth (url : String) : PullRequestHealth where
  number := 1
  url
  headSha := conflictingSha
  state := .opened
  draft := false
  title := "fix: it"
  mergeableState := some "dirty"
  notes :=
    let reason := "GitHub GraphQL unavailable"
    [s!"review threads unavailable: {reason}"]
  patchDigest := some Digest.zero
  decay := [.dirty]

theorem checkPull_conflicting (url : String) (asks : ℕ) :
    checkPull .conflicting "a/b" url ⟨"a", "b", 1⟩
        (Outside.conflicting.answer asks (.pull "a" "b" 1)) =
      .found ⟨conflictingSha, .opened, false, "fix: it", none, some "dirty"⟩ := by
  have hsha : Patterns.anyCaseCommitSha.test conflictingSha = true := by decide +kernel
  have hslug : toLowerCase "a/b" = "a/b" := by decide +kernel
  have hfilter : (some conflictingSha).filter (fun sha => Patterns.anyCaseCommitSha.test sha) =
      some conflictingSha := by rw [Option.filter_some, if_pos hsha]
  simp [checkPull, Outside.conflicting, Json.field, Json.asObject, Json.text?, pullState]
  rw [hfilter]

/-- The health of a pull request there, after five questions. -/
theorem returns_inspect_conflicting {env : Env} {url : String}
    (hurl : parsePullRequestUrl env "a/b" url = some ⟨"a", "b", 1⟩) (s : Pass env) :
    ∃ t, (inspectPullRequestHealth .conflicting "a/b" url).Returns s
      (.found (conflictingHealth url)) t ∧ t.world = s.world ∧ t.calls = s.calls := by
  have hask : ∀ (request : GitHubRequest) (s : Pass env),
      (githubApiJson .conflicting request).Returns s (Outside.conflicting.answer s.asks request)
        (s.asked (some request) []) := fun request s =>
    (returns_githubApiJson _).mpr ⟨rfl, rfl⟩
  let s₁ := s.asked (some (.pull "a" "b" 1)) []
  let s₂ := s₁.asked (some (.checkRuns "a" "b" conflictingSha)) []
  let s₃ := s₂.asked (some (.reviews "a" "b" 1)) []
  let s₄ := s₃.asked (some (.reviewThreads "a" "b" 1)) []
  refine ⟨s₄.asked (some (.files "a" "b" 1 1)) [], ?_, rfl, by simp [s₁, s₂, s₃, s₄]⟩
  have hthreads : (readUnresolvedThreads .conflicting ⟨"a", "b", 1⟩).Returns s₃
      (.error "GitHub GraphQL unavailable") s₄ :=
    Tx.returns_bind.mpr ⟨_, s₄, hask _ s₃, Tx.returns_pure.mpr ⟨rfl, rfl⟩⟩
  have hpatch : (readPatchDigest .conflicting ⟨"a", "b", 1⟩).Returns s₄ (.digest Digest.zero)
      (s₄.asked (some (.files "a" "b" 1 1)) []) :=
    Tx.returns_bind.mpr ⟨_, _, hask _ s₄, Tx.returns_pure.mpr ⟨rfl, rfl⟩⟩
  have hdecay : ∀ health : PullRequestHealth, health.title = "fix: it" →
      health.mergeableState = some "dirty" → health.failingChecks = [] →
      health.changesRequested = false → health.unresolvedThreads = none →
      decayOf health = [.dirty] := by
    intro health h₁ h₂ h₃ h₄ h₅
    have : lintPullRequestTitle "fix: it" = true := by decide +kernel
    simp [decayOf, h₁, h₂, h₃, h₄, h₅, this]
  have hsha : toLowerCase conflictingSha = conflictingSha := by decide +kernel
  unfold inspectPullRequestHealth
  rw [hurl]
  refine Tx.returns_bind.mpr ⟨_, s₁, hask _ s, ?_⟩
  dsimp only
  rw [checkPull_conflicting]
  refine Tx.returns_bind.mpr ⟨_, s₂, hask _ s₁, Tx.returns_bind.mpr ⟨_, s₃, hask _ s₂,
    Tx.returns_bind.mpr ⟨_, s₄, hthreads, Tx.returns_bind.mpr ⟨_, _, hpatch, ?_⟩⟩⟩⟩
  refine Tx.returns_pure.mpr ⟨?_, rfl⟩
  have hchecks : failingChecksOf (.array []) = [] := List.mergeSort_nil
  simp only [Bool.false_eq_true, if_false]
  rw [hdecay, hsha, hchecks]
  all_goals first | rfl | exact hchecks

/-- Turns that are calls are these calls. -/
theorem afterTurns_calls {env : Env} (ops : List Op) :
    (afterTurns env (ops.map .call)).calls = ops := by
  induction ops using List.reverseRecOn with
  | nil => rfl
  | append_singleton ops op ih =>
    rw [List.map_append, List.map_singleton, afterTurns_concat]
    exact congrArg (· ++ [op]) ih

theorem spelled_injective : Function.Injective Env.spelled.randomUUID := Env.sample_injective

/-- What the pass asks for in the conflicting world. -/
def conflictingInput (url id : String) : CureRootInput :=
  cureRootInput "a/b" (conflictingHealth url) Digest.zero "system" ⟨"a/b", 0, some id⟩

/-- A candidate there gets a cure, under the URL it is inspected with. -/
theorem inspect_conflicting {s : Pass Env.spelled} {url id : String} {row : RepositoryRow}
    (hurl : parsePullRequestUrl .spelled "a/b" url = some ⟨"a", "b", 1⟩)
    (hrow : s.db.repositories.find? "a/b" = some row) (henabled : row.enabled = true)
    (hcure : validateCure (conflictingInput url id).cure = .ok ())
    (href : validateSourceRef (conflictingInput url id).sourceRef = .ok ())
    (hunseen : sourceRefExists s.db "a/b" (conflictingInput url id).sourceRef = false) :
    ∃ (entries : List CureEntry) (t : Pass .spelled),
      (inspectCandidate .conflicting "system" url ⟨"a/b", 0, some id⟩).Returns s entries t ∧
      t.calls = s.calls ++ [.enqueueCureRoot "a/b" (conflictingInput url id)] ∧
      ∃ row posting, ∃ hfresh : s.db.items.find? row.id = none,
        t.db = s.db.create row hfresh posting ∧ row.repository = "a/b" ∧ row.kind = "pr-cure" ∧
        row.sourceRef = some (conflictingInput url id).sourceRef ∧
        row.cure = some (conflictingInput url id).cure := by
  have hvalid : (conflictingInput url id).Valid "a/b" :=
    valid_cureRootInput (by decide) href hcure rfl (by decide)
  obtain ⟨t, hhealth, hworld, hcalls⟩ := returns_inspect_conflicting hurl s
  have hfresh : t.world.db.items.find? (Env.spelled.randomUUID t.world.ticks) = none := by
    rw [t.reached]
    exact find?_randomUUID spelled_injective t.calls le_rfl
  have hdb : t.world.db = s.db := congrArg World.db hworld
  have hrow' : t.world.db.repositories.find? "a/b" = some row := hdb ▸ hrow
  obtain ⟨reply, w', hreturns⟩ := returns_enqueueCureRoot hvalid hrow' henabled
    (binds_of_no_hook rfl _) hfresh
  have hspec := enqueueCureRoot_spec hreturns
  rw [hdb, hunseen] at hspec
  obtain ⟨-, row, posting, hfresh, hcreate, hrepository, hkind, hsource, hrowcure⟩ :=
    hspec.resolve_left fun h => nomatch h.1
  have hperform : (perform (.enqueueCureRoot "a/b" (conflictingInput url id))).Returns t
      (.found reply) (t.after [.enqueueCureRoot "a/b" (conflictingInput url id)]) :=
    returns_perform.mpr ⟨congrArg Prod.fst (returns_reply.mpr ⟨reply, hreturns, rfl⟩), rfl⟩
  have henqueue : ∃ entry, (enqueueCure ⟨"a/b", 0, some id⟩ "system" url (conflictingHealth url)
      Digest.zero).Returns t entry (t.after [.enqueueCureRoot "a/b" (conflictingInput url id)]) := by
    cases reply with
    | none => exact ⟨_, Tx.returns_bind.mpr ⟨_, _, hperform, Tx.returns_pure.mpr ⟨rfl, rfl⟩⟩⟩
    | some item => exact ⟨_, Tx.returns_bind.mpr ⟨_, _, hperform, Tx.returns_pure.mpr ⟨rfl, rfl⟩⟩⟩
  obtain ⟨entry, henqueue⟩ := henqueue
  have hinspect : (inspectCandidate .conflicting "system" url ⟨"a/b", 0, some id⟩).Returns s
      ((conflictingHealth url).notes.map (.note url) ++ [entry])
      (t.after [.enqueueCureRoot "a/b" (conflictingInput url id)]) := by
    have hopen : ¬ (conflictingHealth url).state ≠ .opened := not_not_intro rfl
    have hready : ¬ (conflictingHealth url).draft = true := Bool.false_ne_true
    have hdecayed : ¬ (conflictingHealth url).decay = [] := List.cons_ne_nil _ _
    refine Tx.returns_bind.mpr ⟨_, t, hhealth, ?_⟩
    dsimp only
    rw [if_neg hopen, if_neg hready, if_neg hdecayed]
    exact Tx.returns_bind.mpr ⟨entry, _, henqueue, Tx.returns_pure.mpr ⟨rfl, rfl⟩⟩
  refine ⟨_, _, hinspect, ?_, row, posting, hfresh, ?_, hrepository, hkind, hsource, hrowcure⟩
  · rw [Pass.calls_after, hcalls]
  · refine Eq.trans ?_ hcreate
    exact congrArg World.db (congrArg Prod.snd (returns_reply.mpr ⟨reply, hreturns, rfl⟩))

/-- The pull request has a cure of the conflicting head under a URL. -/
def HasCure (db : Db) (url : String) : Prop :=
  ∃ row ∈ db.items.rows, row.kind = "pr-cure" ∧ row.repository = "a/b" ∧
    ∃ cure, row.cure = some cure ∧ cure.pullRequestUrl = url ∧ cure.headSha = conflictingSha

/-- What is needed of a URL for a cure under it. -/
structure Curable (url : String) : Prop where
  located : parsePullRequestUrl .spelled "a/b" url = some ⟨"a", "b", 1⟩
  cure : validateCure (conflictingInput url "uu").cure = .ok ()
  sourceRef : validateSourceRef (conflictingInput url "uu").sourceRef = .ok ()

/-- The reported candidates are inspected one after the other. -/
theorem returns_inspectReported_cons {env : Env} {out : Outside} {actor : String}
    {candidate : String × CureOrigin} {candidates : List (String × CureOrigin)} {s u t : Pass env}
    {inspected rest : List CureEntry}
    (h : (inspectCandidate out actor candidate.1 candidate.2).Returns s inspected u)
    (hrest : (inspectReported out actor candidates).Returns u rest t) :
    (inspectReported out actor (candidate :: candidates)).Returns s
      (.inspected candidate.1 false :: inspected ++ rest) t := by
  obtain ⟨entries, _, hloop, hpure⟩ := Tx.returns_bind.mp hrest
  obtain ⟨rfl, rfl⟩ := Tx.returns_pure.mp hpure
  refine Tx.returns_bind.mpr ⟨_, _, Tx.returns_each_cons.mpr
    ⟨.inspected candidate.1 false :: inspected, u, ?_, entries, hloop, rfl⟩,
    Tx.returns_pure.mpr ⟨rfl, rfl⟩⟩
  exact Tx.returns_bind.mpr ⟨inspected, u, h, Tx.returns_pure.mpr ⟨rfl, rfl⟩⟩

/-- **Every URL gets a cure of its own**, one after the other: no two of them
have a source reference in common. -/
theorem inspectReported_conflicting {s : Pass Env.spelled} {row : RepositoryRow}
    (hrow : s.db.repositories.find? "a/b" = some row) (henabled : row.enabled = true)
    {urls : List String} (hurls : ∀ url ∈ urls, Curable url) (hnodup : urls.Nodup)
    (hunseen : ∀ url ∈ urls,
      sourceRefExists s.db "a/b" (conflictingInput url "uu").sourceRef = false) :
    ∃ (entries : List CureEntry) (t : Pass .spelled), (inspectReported .conflicting "system"
        (urls.map fun url => (url, ⟨"a/b", 0, some "uu"⟩))).Returns s entries t ∧
      t.calls = s.calls ++
        urls.map (fun url => .enqueueCureRoot "a/b" (conflictingInput url "uu")) ∧
      t.db.repositories = s.db.repositories ∧ (∀ url, HasCure s.db url → HasCure t.db url) ∧
      ∀ url ∈ urls, HasCure t.db url := by
  induction urls generalizing s with
  | nil =>
    refine ⟨[], s, ?_, (List.append_nil _).symm, rfl, fun _ h => h, fun _ h => nomatch h⟩
    exact Tx.returns_bind.mpr ⟨[], s, Tx.returns_pure.mpr ⟨rfl, rfl⟩,
      Tx.returns_pure.mpr ⟨rfl, rfl⟩⟩
  | cons url urls ih =>
    have hurl := hurls url (List.mem_cons_self ..)
    obtain ⟨inspected, s₁, hinspect, hcalls, new, posting, hfresh, hdb, hrepository, hkind, hsource,
        hcure⟩ :=
      inspect_conflicting hurl.located hrow henabled hurl.cure hurl.sourceRef
        (hunseen url (List.mem_cons_self ..))
    have hkept : ∀ other, HasCure s.db other → HasCure s₁.db other := by
      rintro other ⟨old, hold, h⟩
      rw [hdb]
      exact ⟨old, (Db.mem_create hfresh).mpr (Or.inl hold), h⟩
    have hnew : HasCure s₁.db url := by
      rw [hdb]
      exact ⟨new, (Db.mem_create hfresh).mpr (Or.inr rfl), hkind, hrepository, _, hcure, rfl, rfl⟩
    have hunseen' : ∀ other ∈ urls,
        sourceRefExists s₁.db "a/b" (conflictingInput other "uu").sourceRef = false := by
      intro other hother
      have hold := hunseen other (List.mem_cons_of_mem _ hother)
      rw [sourceRefExists, List.any_eq_false] at hold ⊢
      intro item hitem
      rw [hdb] at hitem
      rcases (Db.mem_create hfresh).mp hitem with hitem | rfl
      · exact hold item hitem
      · simp only [Bool.and_eq_true, decide_eq_true_eq]
        rintro ⟨-, href⟩
        rw [hsource] at href
        have hsame : url = other := by
          have := congrArg String.toList (Option.some.inj href)
          exact String.toList_inj.mp (by
            simpa [conflictingInput, cureRootInput, conflictingHealth, toString] using this)
        exact (List.nodup_cons.mp hnodup).1 (hsame ▸ hother)
    have hrow' : s₁.db.repositories.find? "a/b" = some row := by
      rw [hdb]
      exact hrow
    obtain ⟨more, t, hmore, hcalls', hrepositories, hkept', hcured⟩ := ih hrow'
      (fun other h => hurls other (List.mem_cons_of_mem _ h)) (List.nodup_cons.mp hnodup).2 hunseen'
    let candidate : String × CureOrigin := (url, ⟨"a/b", 0, some "uu"⟩)
    have hfirst : (inspectCandidate .conflicting "system" candidate.1 candidate.2).Returns s
        inspected s₁ := hinspect
    refine ⟨_, t, returns_inspectReported_cons hfirst hmore, ?_, ?_, ?_, ?_⟩
    · rw [hcalls', hcalls, List.append_assoc]
      rfl
    · rw [hrepositories, hdb]
      rfl
    · exact fun other h => hkept' other (hkept other h)
    · intro other hother
      rcases List.mem_cons.mp hother with rfl | hother
      · exact hkept' _ hnew
      · exact hcured other hother

/-- A change reports pull request 1 under some URLs, and all of them are found
open. -/
def reportedRun (urls : List String) : List Op :=
  deliveredRun (urls.map fun url => ⟨.pullRequest, url, none, none⟩) ++
    urls.map fun url => .recordArtifactVerification (Env.sample.randomUUID 1) url
      (.verified { verifiedAt := "t", number := .int 1, state := .opened }) "system"

/-- A cure pass meets such a change. -/
def curedRun (urls : List String) : List CureTurn :=
  (reportedRun urls).map .call ++ [.pass .conflicting none 100 "system"]

/-- The completed items of the tables that wait for something. -/
def waiting (db : Db) : List WorkItem :=
  db.items.rows.filter fun item =>
    item.rowStatus = .completed && item.result.isSome && item.artifacts.any WorkArtifact.isPending

/-- A lone item needs no order. -/
theorem selected_of_lone {db : Db} (h : (waiting db).length = 1) :
    completedItemsWithPendingArtifacts db none 100 = waiting db := by
  have hfilter : (db.items.rows.filter fun item =>
      item.rowStatus = .completed && item.result.isSome &&
        (none : Option String).all (fun r => item.repository = r) &&
        item.artifacts.any WorkArtifact.isPending) = waiting db := by
    simp only [Option.all_none, Bool.and_true, waiting]
  rw [completedItemsWithPendingArtifacts, hfilter]
  obtain ⟨item, hitem⟩ := List.length_eq_one_iff.mp h
  rw [hitem, List.mergeSort_singleton]
  rfl

/-- **A pass over the reported URLs** asks for a cure under each of them, and
each of them gets one. -/
theorem cures_curedRun {urls : List String} (hurls : ∀ url ∈ urls, Curable url)
    (hnodup : urls.Nodup)
    (hlone : (waiting (exec .spelled (reportedRun urls)).db).length = 1)
    (hcandidates : cureCandidates (waiting (exec .spelled (reportedRun urls)).db) =
      urls.map fun url => (url, ⟨"a/b", 0, some "uu"⟩))
    (henabled : ∃ row ∈ (exec .spelled (reportedRun urls)).db.repositories.find? "a/b",
      row.enabled = true)
    (hforeign : ∀ row ∈ (exec .spelled (reportedRun urls)).db.repositories.rows,
      row.cureForeign = false)
    (hunbound : ∀ row ∈ (exec .spelled (reportedRun urls)).db.items.rows, row.sourceRef = none) :
    (afterTurns .spelled (curedRun urls)).calls = reportedRun urls ++
        urls.map (fun url => .enqueueCureRoot "a/b" (conflictingInput url "uu")) ∧
      ∀ url ∈ urls, HasCure (afterTurns .spelled (curedRun urls)).db url := by
  rw [curedRun, afterTurns_concat]
  let s := afterTurns .spelled ((reportedRun urls).map .call)
  have hcalls : s.calls = reportedRun urls := afterTurns_calls _
  have hdb : s.db = (exec .spelled (reportedRun urls)).db := by rw [s.db_eq, hcalls]
  rw [← hdb] at hlone hcandidates henabled hforeign hunbound
  obtain ⟨row, hrow, henabled⟩ := henabled
  have hunseen : ∀ url ∈ urls,
      sourceRefExists s.db "a/b" (conflictingInput url "uu").sourceRef = false := by
    intro url _
    rw [sourceRefExists, List.any_eq_false]
    intro item hitem
    rw [hunbound item hitem]
    simp
  obtain ⟨entries, t, hreported, htcalls, hrepositories, -, hcured⟩ :=
    inspectReported_conflicting hrow henabled hurls hnodup hunseen
  have hnone : foreignCureRepositories t.db = [] := by
    have hoff : (t.db.repositories.rows.filter fun row => row.enabled && row.cureForeign) = [] := by
      rw [hrepositories, List.filter_eq_nil_iff]
      intro row hrow
      rw [hforeign row hrow]
      simp
    rw [foreignCureRepositories, hoff]
    exact List.mergeSort_nil
  have hpass : (curePullRequests .conflicting none 100 "system").Returns s entries t := by
    refine Tx.returns_bind.mpr ⟨_, s, returns_selectPendingItems (fun _ h => nomatch h), ?_⟩
    rw [show none.filter _ = none from rfl, selected_of_lone hlone]
    dsimp only
    rw [hcandidates]
    refine Tx.returns_bind.mpr ⟨entries, t, hreported, Tx.returns_bind.mpr ⟨[], t,
      returns_view.mpr ⟨hnone.symm, rfl⟩, Tx.returns_bind.mpr ⟨[], t, Tx.returns_pure.mpr ⟨rfl, rfl⟩,
        Tx.returns_pure.mpr ⟨(List.append_nil _).symm, rfl⟩⟩⟩⟩
  have htake : CureTurn.take (.pass .conflicting none 100 "system") s = t := congrArg Prod.snd hpass
  rw [htake, htcalls, hcalls]
  exact ⟨rfl, hcured⟩

/-- The URL in both its spellings is accepted by the store. -/
theorem curable_lower : Curable "https://github.com/a/b/pull/1" where
  located := by decide +kernel
  cure := by decide +kernel
  sourceRef := by decide +kernel

theorem curable_upper : Curable "https://github.com/A/b/pull/1" where
  located := by decide +kernel
  cure := by decide +kernel
  sourceRef := by decide +kernel

theorem spelling_reportedRun (urls : List String) (db : Db) :
    ∀ op ∈ reportedRun urls, OneSpelling .spelled db op := by
  intro op hop
  rcases List.mem_append.mp hop with hop | hop
  · simp only [deliveredRun, List.mem_cons, List.not_mem_nil, or_false] at hop
    rcases hop with rfl | rfl | rfl | rfl <;> trivial
  · obtain ⟨url, -, rfl⟩ := List.mem_map.mp hop
    trivial

theorem orderly_curedRun (urls : List String) : ∀ turn ∈ curedRun urls, turn.Orderly := by
  intro turn hturn
  rcases List.mem_append.mp hturn with hturn | hturn
  · obtain ⟨op, hop, rfl⟩ := List.mem_map.mp hturn
    rcases List.mem_append.mp hop with hop | hop
    · simp only [deliveredRun, List.mem_cons, List.not_mem_nil, or_false] at hop
      rcases hop with rfl | rfl | rfl | rfl <;> trivial
    · obtain ⟨url, -, rfl⟩ := List.mem_map.mp hop
      trivial
  · rw [List.mem_singleton.mp hturn]
    exact { asks := fun _ _ hop => by cases hop }

/-- One spelling gets one cure. -/
theorem one_cure_per_head_sample :
    OneCurePerHead .spelled
      (afterTurns .spelled (curedRun ["https://github.com/a/b/pull/1"])).db := by
  refine one_cure_per_head .spelled _ (orderly_curedRun _) ?_
  obtain ⟨hcalls, -⟩ := @cures_curedRun ["https://github.com/a/b/pull/1"]
    (List.forall_mem_singleton.mpr curable_lower) (by decide) (by decide +kernel)
    (by decide +kernel) (by decide +kernel) (by decide +kernel) (by decide +kernel)
  rw [hcalls]
  intro e he
  rw [steps, Machine.trace_append] at he
  rcases List.mem_append.mp he with he | he
  · obtain ⟨pre, post, hops, -⟩ := mem_steps he
    exact spelling_reportedRun _ e.before.db e.input
      (hops ▸ List.mem_append_right _ (List.mem_cons_self ..))
  · have hnone : ∀ item ∈ (exec .spelled
        (reportedRun ["https://github.com/a/b/pull/1"])).db.items.rows, item.kind ≠ "pr-cure" := by
      decide +kernel
    rw [List.mem_singleton.mp he]
    exact fun item hitem hkind => absurd hkind (hnone item hitem)

/-- **Two spellings get two cures** of the same head, in one pass. -/
theorem not_oneCurePerHead_spelled :
    (∀ turn ∈ curedRun ["https://github.com/a/b/pull/1", "https://github.com/A/b/pull/1"],
        turn.Orderly) ∧
      ¬ OneCurePerHead .spelled (afterTurns .spelled
        (curedRun ["https://github.com/a/b/pull/1", "https://github.com/A/b/pull/1"])).db := by
  refine ⟨orderly_curedRun _, fun h => ?_⟩
  have hboth : ∀ url ∈ ["https://github.com/a/b/pull/1", "https://github.com/A/b/pull/1"],
      Curable url :=
    List.forall_mem_cons.mpr ⟨curable_lower, List.forall_mem_singleton.mpr curable_upper⟩
  obtain ⟨-, hcured⟩ := @cures_curedRun
    ["https://github.com/a/b/pull/1", "https://github.com/A/b/pull/1"]
    hboth (by decide) (by decide +kernel)
    (by decide +kernel) (by decide +kernel) (by decide +kernel) (by decide +kernel)
  simp only [List.forall_mem_cons] at hcured
  obtain ⟨⟨i, hi, hik, hir, ci, hci, hiu, hih⟩, ⟨j, hj, hjk, hjr, cj, hcj, hju, hjh⟩, -⟩ := hcured
  have hidentity : ∀ cure : PullRequestCure, cure.pullRequestUrl = "https://github.com/a/b/pull/1" ∨
      cure.pullRequestUrl = "https://github.com/A/b/pull/1" →
      cureIdentity .spelled "a/b" cure = ("a/b", some 1) := by
    rintro cure (hurl | hurl) <;> rw [cureIdentity, hurl] <;> decide +kernel
  have hid : i.id = j.id := h ("a/b", some 1) conflictingSha i hi j hj
    ⟨hik, ci, hci, hir ▸ hidentity ci (Or.inl hiu), hih⟩
    ⟨hjk, cj, hcj, hjr ▸ hidentity cj (Or.inr hju), hjh⟩
  have hsame : i = j := Option.some.inj
    ((Table.find?_key hi).symm.trans ((congrArg _ hid).trans (Table.find?_key hj)))
  subst hsame
  obtain rfl := Option.some.inj (hci.symm.trans hcj)
  exact absurd (hiu.symm.trans hju) (by decide)
end Snowcat
