import Snowcat.Queue.Moves

/-!
# What each operation does when it returns

One lemma for each operation that has more to it than a decision: what its
checks had established, and the tables it left. They are stated over the
tables and not over the steps of the body, so that everything behind this
module reasons about tables.
-/

namespace Snowcat

variable {env : Env}

/-- A computation that returns has not moved the ticks back. -/
theorem ticks_le_of_returns {α : Type} {x : QueueTx α} [hx : x.Grows World.ticks] {w w' : World}
    {a : α} (h : x.Returns w a w') : w.ticks ≤ w'.ticks := by
  have hle := hx.le w
  rwa [show x w = (.ok a, w') from h] at hle

/-- Rewriting the row of an id and posting about it is a write. -/
theorem write_eq {db : Db} {id : String} {item : WorkItem} {f : WorkItem → WorkItem}
    (hf : ∀ item, (f item).id = item.id) (hitem : db.items.find? id = some item)
    (postings : List Posting) :
    ({ db with
      items := db.items.modify id f hf
      ledger := db.ledger.postAll id postings } : Db) = db.write (f item) postings := by
  have hid : (f item).id = id := (hf item).trans (Table.key_of_find? hitem)
  unfold Db.write
  rw [Table.modify_eq_replace hitem, hid]

/-- The rewritten row, read back. -/
theorem eq_of_updated {db : Db} {id : String} {item item' : WorkItem} {f : WorkItem → WorkItem}
    (hf : ∀ item, (f item).id = item.id) (h : (db.items.modify id f hf).find? id = some item')
    (hitem : db.items.find? id = some item) : item' = f item :=
  Option.some.inj (h.symm.trans (Table.find?_modify_self hitem))

/-! ## Creation -/

/-- **An inserted definition** is its row, under an id no row had, with the
policy that was bound for it. -/
theorem insertWork_spec {work : NewWork} {w w' : World} {u : Unit}
    (h : (insertWork env work).Returns w u w') :
    ∃ policy, ∃ hfresh : w.db.items.find? work.id = none,
      w.ticks ≤ w'.ticks ∧
      w'.db = { w.db with items := w.db.items.insert (work.row policy) hfresh } ∧
      BindsPolicy env work.policySubject w.ticks w'.ticks policy ∧
      w.db.repositories.find? work.repository ≠ none := by
  simp only [insertWork, Tx.returns_bind] at h
  obtain ⟨policy, w₁, hpolicy, hinsert⟩ := h
  obtain ⟨hdb, hticks, hbound⟩ := bindPolicy_spec hpolicy
  obtain ⟨db, ticks⟩ := w
  obtain rfl : w₁.db = db := hdb
  obtain ⟨-, hknown, -, hfresh, rfl⟩ := returns_insertRow hinsert
  exact ⟨policy, hfresh, hticks, rfl, hbound, hknown⟩

/-- **A created root** is the row of its definition under a fresh id, with
one event. -/
theorem createRoot_spec {root : RootWork} {payload : EventPayload} {w w' : World}
    {item : WorkItem} (h : (createRoot env root payload).Returns w item w') :
    ∃ id createdAt policy t, ∃ hfresh : w.db.items.find? id = none,
      item = (root.withId id createdAt).row policy ∧
      w'.db = w.db.create ((root.withId id createdAt).row policy) hfresh
        ⟨root.definition.createdBy, payload, t⟩ ∧
      Drawn env w.ticks w'.ticks id ∧ Reading env w.ticks w'.ticks createdAt ∧
      BindsPolicy env (root.withId id createdAt).policySubject w.ticks w'.ticks policy ∧
      w.db.repositories.find? root.repository ≠ none := by
  simp only [createRoot, Tx.returns_bind, returns_randomUUID, returns_now, returns_addEvent,
    returns_getRequired] at h
  obtain ⟨_, _, ⟨rfl, rfl⟩, _, _, ⟨rfl, rfl⟩, _, w₁, hinsert, _, _, rfl, hitem, rfl⟩ := h
  obtain ⟨policy, hfresh, hticks, hdb, hbound, hknown⟩ := insertWork_spec hinsert
  dsimp only at hdb hticks hbound hitem ⊢
  rw [hdb] at hitem ⊢
  refine ⟨env.randomUUID w.ticks, env.clock (w.ticks + 1), policy, env.clock w₁.ticks, hfresh,
    ?_, rfl, ⟨w.ticks, le_rfl, by omega, rfl⟩, ⟨w.ticks + 1, Nat.le_succ _, by omega, rfl⟩, hbound.mono (by omega) (by omega), hknown⟩
  exact Option.some.inj (hitem.symm.trans (Table.find?_insert_self hfresh))

/-- Inserting a root of another kind makes no kind active. -/
theorem inactive_create {db : Db} {repository kind : String} {row : WorkItem}
    {h : db.items.find? row.id = none} {p : Posting} (hinactive : db.Inactive repository kind)
    (hroot : row.rootId = row.id) (hkind : row.kind ≠ kind) :
    (db.create row h p).Inactive repository kind := by
  intro item hitem hrepository hactive root hfind
  rw [Db.find?_create] at hfind
  split at hfind
  · exact Option.some.inj hfind ▸ hkind
  · next hne =>
    rcases (Db.mem_create h).mp hitem with hitem | rfl
    · exact hinactive item hitem hrepository hactive root hfind
    · exact absurd hroot hne

/-! ## Claims -/

/-- The filter a claim starts its candidate query with, from the state it
runs in. -/
def claimFilter (env : Env) (w : World) (request : ClaimRequest) : ClaimFilter where
  atTime := env.clock w.ticks
  windowStart := env.clock (w.ticks + 1) - claimBackoffWindowSeconds * 1000
  repository := request.repository
  kinds := request.kinds
  repositories := none

/-- What the hook answers such a claim, when there is a hook. -/
def claimRepositories (env : Env) (w : World) (request : ClaimRequest) : Option (List String) :=
  env.claimEligibility.map fun hook =>
    (((w.db.items.rows.filter (isCandidate w.db (claimFilter env w request))).map
      WorkItem.repository).eraseDups).filter (hook (w.ticks + 2))

/-- The row such a claim selects. -/
def claimSelection (env : Env) (w : World) (request : ClaimRequest) : Option WorkItem :=
  if claimRepositories env w request = some [] then none
  else selectCandidate w.db
    { claimFilter env w request with repositories := claimRepositories env w request }

/-- Whether a label smuggles a live token. -/
def LeaksToken (db : Db) (label : Option String) : Prop :=
  ∃ text ∈ label, ∃ holder ∈ db.items.rows, ∃ token ∈ holder.leaseToken,
    includes text token = true

/-- **What a lease writes.** -/
structure Leased (env : Env) (request : ClaimRequest) (atTime : Time) (lo hi : ℕ) (db : Db)
    (row leased : WorkItem) (db' : Db) : Prop where
  admitted : row.admitted = true
  written : ∃ token expiresAt t₁ t₂, (∃ k, lo ≤ k ∧ k < hi ∧ token = env.randomUUID k) ∧
    leased =
      { row with
        rowStatus := .claimed
        leaseOwner := some request.worker
        leaseToken := some token
        leaseExpiresAt := some expiresAt
        updatedAt := atTime } ∧
    db' = db.write leased (expiryPostings row t₁ ++
      [⟨request.worker, .workClaimed expiresAt request.label request.restriction request.grant,
        t₂⟩])

theorem Leased.mono {request : ClaimRequest} {atTime : Time} {lo lo' hi : ℕ} {db db' : Db}
    {row leased : WorkItem} (h : Leased env request atTime lo hi db row leased db')
    (hlo : lo' ≤ lo) : Leased env request atTime lo' hi db row leased db' where
  admitted := h.admitted
  written :=
    have ⟨token, expiresAt, t₁, t₂, ⟨k, hk, htoken⟩, hwritten⟩ := h.written
    ⟨token, expiresAt, t₁, t₂, ⟨k, le_trans hlo hk, htoken⟩, hwritten⟩

/-- The winner of two candidates is one of them. -/
theorem betterClaimCandidate_eq {left right : Option WorkItem} {row : WorkItem}
    (h : betterClaimCandidate left right = some row) : left = some row ∨ right = some row := by
  unfold betterClaimCandidate at h
  split at h
  · exact Or.inr h
  · exact Or.inl h
  · split_ifs at h <;> first | exact Or.inl h | exact Or.inr h

/-- A selected row is a candidate of the table. -/
theorem candidate_of_selectCandidate {db : Db} {filter : ClaimFilter} {row : WorkItem}
    (h : selectCandidate db filter = some row) :
    row ∈ db.items.rows ∧ isCandidate db filter row = true := by
  have hmem : row ∈ db.items.rows.filter (isCandidate db filter) := by
    rcases betterClaimCandidate_eq h with hungated | hgated
    · have := List.mem_of_mem_head? hungated
      rw [List.mem_mergeSort] at this
      exact (List.mem_filter.mp this).1
    · rw [Selection.findRecalled_eq_find? _ _ (Selection.faithful_nil _)] at hgated
      have := List.mem_of_find?_eq_some hgated
      rw [List.mem_mergeSort] at this
      exact (List.mem_filter.mp this).1
  exact List.mem_filter.mp hmem

/-- The end of a lapsed lease is an event, and nothing else. -/
theorem expireLease_spec {row : WorkItem} {w w' : World} {u : Unit}
    (h : (expireLease env row).Returns w u w') :
    ∃ t, w'.db = { w.db with ledger := w.db.ledger.postAll row.id (expiryPostings row t) } ∧
      w.ticks ≤ w'.ticks := by
  unfold expireLease at h
  unfold expiryPostings
  split at h
  · next hclaimed =>
    rw [returns_addEvent] at h
    subst h
    exact ⟨env.clock w.ticks, by rw [if_pos hclaimed]; rfl, Nat.le_succ _⟩
  · next hclaimed =>
    obtain ⟨-, rfl⟩ := Tx.returns_pure.mp h
    exact ⟨0, by rw [if_neg hclaimed]; rfl, le_rfl⟩

theorem leaseRow_spec {request : ClaimRequest} {atTime : Time} {row : WorkItem} {w w' : World}
    {reply : Option WorkItem} (hrow : w.db.items.find? row.id = some row)
    (h : (leaseRow env request atTime row).Returns w reply w') :
    ∃ leased, reply = some leased ∧
      Leased env request atTime w.ticks w'.ticks w.db row leased w'.db := by
  simp only [leaseRow, Tx.returns_bind, returns_randomUUID, returns_now, Tx.returns_failIf,
    returns_updateItem, returns_addEvent, returns_getRequired, Tx.returns_pure] at h
  obtain ⟨_, w₁, hexpire, _, _, ⟨rfl, rfl⟩, _, _, ⟨rfl, rfl⟩, _, _, ⟨hadmitted, rfl⟩, _, _, rfl,
    _, _, rfl, leased, _, ⟨hleased, rfl⟩, rfl, rfl⟩ := h
  have hexpired := expireLease_spec hexpire
  obtain ⟨t₁, hdb, hticks⟩ := hexpired
  have hfind : w₁.db.items.find? row.id = some row := by rw [hdb]; exact hrow
  dsimp only at hleased ⊢
  have hreply := eq_of_updated (by intro _; rfl) hleased hfind
  refine ⟨leased, rfl, by simpa using hadmitted, env.randomUUID w₁.ticks,
    env.clock (w₁.ticks + 1) + request.leaseSeconds * 1000, t₁, env.clock (w₁.ticks + 1 + 1),
    ⟨w₁.ticks, hticks, by omega, rfl⟩, hreply, ?_⟩
  simp only [hdb, ← Ledger.postAll_concat, hreply]
  exact write_eq _ hrow _

/-- The hook is asked about the candidates of the first query, and the tables
stay as they are. -/
theorem eligibleRepositories_spec {request : ClaimRequest} {w w' : World}
    {repositories : Option (List String)}
    (h : (eligibleRepositories env w.db (claimFilter env w request)).Returns
      { w with ticks := w.ticks + 2 } repositories w') :
    repositories = claimRepositories env w request ∧ w'.db = w.db ∧ w.ticks ≤ w'.ticks := by
  unfold eligibleRepositories at h
  unfold claimRepositories
  split at h
  · next hhook =>
    obtain ⟨rfl, rfl⟩ := Tx.returns_pure.mp h
    rw [hhook]
    exact ⟨rfl, rfl, Nat.le_add_right _ 2⟩
  · next hook hhook =>
    simp only [Tx.returns_bind, returns_ask, Tx.returns_pure] at h
    obtain ⟨_, _, ⟨rfl, rfl⟩, rfl, rfl⟩ := h
    rw [hhook]
    exact ⟨rfl, rfl, Nat.le_add_right _ 3⟩

/-- **What a claim did that returns.** Its input passed; it looked for
nothing, or found nothing, or leased the row it selected. -/
theorem claim_spec {input : ClaimInput} {w w' : World} {reply : Option WorkItem}
    (h : (claim env input).Returns w reply w') :
    ∃ request, claimRequest input = .ok request ∧
      ((request.restriction.isSome = true ∧ request.kinds = some []) ∧ reply = none ∧ w' = w ∨
        ¬ (request.restriction.isSome = true ∧ request.kinds = some []) ∧
          ¬ LeaksToken w.db request.label ∧
          (claimSelection env w request = none ∧ reply = none ∧ w'.db = w.db ∨
            ∃ row leased, claimSelection env w request = some row ∧ reply = some leased ∧
              w.db.items.find? row.id = some row ∧
              Leased env request (env.clock w.ticks) w.ticks w'.ticks w.db row leased w'.db)) := by
  simp only [claim, Tx.returns_bind, Tx.returns_ofExcept] at h
  obtain ⟨request, w, ⟨hrequest, rfl⟩, h⟩ := h
  refine ⟨request, hrequest, ?_⟩
  split at h
  · next hempty =>
    obtain ⟨rfl, rfl⟩ := Tx.returns_pure.mp h
    exact Or.inl ⟨hempty, rfl, rfl⟩
  · next hempty =>
    simp only [returns_transaction, claimTransaction, Tx.returns_bind, returns_now, Tx.returns_read,
      Tx.returns_failIf] at h
    obtain ⟨_, _, ⟨rfl, rfl⟩, _, _, ⟨rfl, rfl⟩, _, _, ⟨hleak, rfl⟩, _, _, ⟨rfl, rfl⟩,
      repositories, w₁, hrepositories, h⟩ := h
    have hasked := @eligibleRepositories_spec env request w w₁ repositories hrepositories
    obtain ⟨rfl, hdb, hticks⟩ := hasked
    refine Or.inr ⟨hempty, hleak, ?_⟩
    split at h
    · next hnone =>
      obtain ⟨rfl, rfl⟩ := Tx.returns_pure.mp h
      exact Or.inl ⟨if_pos hnone, rfl, hdb⟩
    · next hsome =>
      split at h
      · next hselect =>
        obtain ⟨rfl, rfl⟩ := Tx.returns_pure.mp h
        exact Or.inl ⟨(if_neg hsome).trans hselect, rfl, hdb⟩
      · next row hselect =>
        have hrow : w.db.items.find? row.id = some row :=
          Table.find?_key (candidate_of_selectCandidate hselect).1
        have hrow₁ : w₁.db.items.find? row.id = some row := by rw [hdb]; exact hrow
        obtain ⟨leased, rfl, hleased⟩ := leaseRow_spec hrow₁ h
        rw [hdb] at hleased
        exact Or.inr ⟨row, leased, (if_neg hsome).trans hselect, rfl, hrow, hleased.mono hticks⟩

/-! ## Leases -/

/-- **A worker holds the lease** of an item at an instant: the row is claimed
by it, under this token, and the lease is not over. -/
structure HoldsLease (db : Db) (item : WorkItem) (id token worker : String) (atTime : Time) :
    Prop where
  stored : db.items.find? id = some item
  claimed : item.rowStatus = .claimed
  token : item.leaseToken = some token
  owner : item.leaseOwner = some worker
  live : ∃ expiresAt, item.leaseExpiresAt = some expiresAt ∧ atTime < expiresAt

@[simp] theorem returns_assertActiveLease {id token worker : String} {w w' : World}
    {item : WorkItem} :
    (assertActiveLease env id token worker).Returns w item w' ↔
      HoldsLease w.db item id token worker (env.clock w.ticks) ∧ w' = ⟨w.db, w.ticks + 1⟩ := by
  simp only [assertActiveLease, Tx.returns_bind, returns_getRequired, Tx.returns_failIf,
    Tx.returns_ofOption, returns_now, Tx.returns_pure]
  constructor
  · rintro ⟨_, _, ⟨hstored, rfl⟩, _, _, ⟨hclaimed, rfl⟩, _, _, ⟨hmatch, rfl⟩, expiresAt, _,
      ⟨hexpires, rfl⟩, _, _, ⟨rfl, rfl⟩, _, _, ⟨hlive, rfl⟩, rfl, rfl⟩
    rw [not_or, not_not, not_not] at hmatch
    exact ⟨⟨hstored, by simpa using hclaimed, hmatch.1, hmatch.2,
      expiresAt, hexpires, not_le.mp hlive⟩, rfl⟩
  · rintro ⟨⟨hstored, hclaimed, htoken, howner, expiresAt, hexpires, hlive⟩, rfl⟩
    exact ⟨item, w, ⟨hstored, rfl⟩, (), w, ⟨by simpa using hclaimed, rfl⟩, (), w,
      ⟨by simp [htoken, howner], rfl⟩, expiresAt, w, ⟨hexpires, rfl⟩, _, _, ⟨rfl, rfl⟩, (), _,
      ⟨not_le.mpr hlive, rfl⟩, rfl, rfl⟩

/-- The depth a walk counts is the length of the chain above the item. -/
theorem lineageDepthLoop_spec {item : WorkItem} {remaining n : ℕ} {w w' : World}
    (h : (lineageDepthLoop item remaining).Returns w n w') : w' = w ∧ Chain w.db item n := by
  induction remaining generalizing item n w with
  | zero =>
    unfold lineageDepthLoop at h
    split at h
    · next hroot =>
      obtain ⟨rfl, rfl⟩ := Tx.returns_pure.mp h
      exact ⟨rfl, .root hroot⟩
    · exact (Tx.returns_fail.mp h).elim
  | succ remaining ih =>
    unfold lineageDepthLoop at h
    split at h
    · next hroot =>
      obtain ⟨rfl, rfl⟩ := Tx.returns_pure.mp h
      exact ⟨rfl, .root hroot⟩
    · next p hp =>
      simp only [Tx.returns_bind, returns_getRequired, Tx.returns_pure] at h
      obtain ⟨parent, _, ⟨hparent, rfl⟩, depth, _, hdepth, rfl, rfl⟩ := h
      obtain ⟨rfl, hchain⟩ := ih hdepth
      exact ⟨rfl, .step hp hparent hchain⟩

end Snowcat
