import Snowcat.Queue.Reads
import Snowcat.Queue.Representation

/-!
# Leases and the ledger

A lease begins and ends by a write, and the ledger records both: a write
that takes or leaves the claimed status posts exactly the lifecycle event
of it, and every other write posts none (`LeaseEffect`). Reclaiming a lapsed
lease is the one write that does both, and posts both. From that one lemma
follow the two facts the ledger's readers rely on: the lifecycle events of
an item alternate, and the last of them says whether it is claimed
(`lifecycle_exec`).
-/

namespace Snowcat

open Sessions (Alternating endsOpen)

variable {env : Env} {op : Op} {lo hi : ℕ} {item item' : WorkItem} {ps : List Posting}

/-- Whether a posting opens a lease. -/
def Posting.opensLease (p : Posting) : Bool := p.payload.type = .workClaimed

/-- Whether a posting ends a lease. -/
def Posting.endsLease (p : Posting) : Bool := p.payload.type.attemptOutcome.isSome

/-- The lifecycle postings among postings. -/
def leasePostings (ps : List Posting) : List Posting :=
  ps.filter fun p => p.payload.type.isLifecycle

theorem leasePostings_append (ps qs : List Posting) :
    leasePostings (ps ++ qs) = leasePostings ps ++ leasePostings qs := List.filter_append _ _

/-- **What a write does to the lease of its row**, by the lifecycle events
it posts. -/
inductive LeaseEffect (env : Env) (op : Op) (lo hi : ℕ) (item item' : WorkItem) :
    List Posting → Prop
  | keeps (hstatus : item'.rowStatus = .claimed ↔ item.rowStatus = .claimed)
      (hlease : item.rowStatus = .claimed →
        item'.leaseOwner = item.leaseOwner ∧ item'.leaseToken = item.leaseToken) :
      LeaseEffect env op lo hi item item' []
  | ends {p : Posting} (hclaimed : item.rowStatus = .claimed) (hends : p.endsLease = true)
      (hfree : item'.rowStatus ≠ .claimed) : LeaseEffect env op lo hi item item' [p]
  | begins {input : ClaimInput} {p : Posting} {token : String} {t : Time}
      (hop : op = .claim input) (hopens : p.opensLease = true)
      (hclaimed : item'.rowStatus = .claimed) (howner : item'.leaseOwner = some p.actor)
      (htoken : item'.leaseToken = some token) (hadmitted : item.admitted = true) :
      LeaseEffect env op lo hi item item' (expiryPostings item t ++ [p])

/-- A status that is not claimed stays so when the write is of the other
columns. -/
theorem LeaseEffect.of_free (h : item.rowStatus ≠ .claimed) (h' : item'.rowStatus ≠ .claimed) :
    LeaseEffect env op lo hi item item' [] :=
  .keeps (iff_of_false h' h) fun hclaimed => absurd hclaimed h

/-- **Every write has its effect on the lease.** -/
theorem RowMove.leaseEffect (hm : RowMove env op lo hi item item' ps) :
    LeaseEffect env op lo hi item item' (leasePostings ps) := by
  cases hm with
  | @claim input request token expiresAt updatedAt t₁ t₂ hop _ _ hadmitted =>
    have hposted : leasePostings (expiryPostings item t₁ ++ [⟨request.worker, .workClaimed expiresAt
        request.label request.restriction request.grant, t₂⟩]) = expiryPostings item t₁ ++
          [⟨request.worker, .workClaimed expiresAt request.label request.restriction request.grant,
            t₂⟩] := by
      rw [leasePostings_append]
      unfold expiryPostings
      split <;> rfl
    rw [hposted]
    exact .begins hop rfl rfl rfl rfl hadmitted
  | heartbeat hclaimed => exact .keeps Iff.rfl fun _ => ⟨rfl, rfl⟩
  | @complete worker result review? followUpIds updatedAt t reviewed hclaimed _ hreviewed =>
    have hnone : leasePostings reviewed = [] := by
      refine List.filter_eq_nil_iff.mpr fun p hp => ?_
      rw [hreviewed p hp]
      exact Bool.false_ne_true
    have hposted : leasePostings (⟨worker, .workCompleted followUpIds result.artifacts.length
        result.model, t⟩ :: reviewed) = [⟨worker, .workCompleted followUpIds
          result.artifacts.length result.model, t⟩] :=
      congrArg (List.cons _) hnone
    rw [hposted]
    exact .ends hclaimed rfl nofun
  | block hclaimed => exact .ends hclaimed rfl nofun
  | release hclaimed => exact .ends hclaimed rfl nofun
  | approve => exact .keeps Iff.rfl fun _ => ⟨rfl, rfl⟩
  | defer hqueued =>
    have hrow : item.rowStatus = .queued := (WorkItem.status_eq_queued.mp hqueued).1
    exact .of_free (by rw [hrow]; exact nofun) (by show item.rowStatus ≠ _; rw [hrow]; exact nofun)
  | note => exact .keeps Iff.rfl fun _ => ⟨rfl, rfl⟩
  | prioritize => exact .keeps Iff.rfl fun _ => ⟨rfl, rfl⟩
  | reject hproposed =>
    have hrow : item.rowStatus = .queued := (WorkItem.status_eq_proposed.mp hproposed).1
    exact .of_free (by rw [hrow]; exact nofun) nofun
  | requeue hblocked => exact .of_free (by rw [hblocked]; exact nofun) nofun
  | releaseLease hclaimed => exact .ends hclaimed rfl nofun
  | cancel hstatus =>
    refine .of_free ?_ nofun
    rcases hstatus with hstatus | hstatus
    · rw [(WorkItem.status_eq_queued.mp hstatus).1]
      exact nofun
    · rw [hstatus]
      exact nofun
  | artifacts hcompleted hpayload =>
    have hrow : item.rowStatus ≠ .claimed := by
      rw [hcompleted]
      exact nofun
    have hposted : ∀ p : Posting, p.payload.type = .artifactReady ∨
        p.payload.type = .artifactVerified ∨ p.payload.type = .artifactAttached →
          leasePostings [p] = [] := by
      intro p hp
      refine List.filter_eq_nil_iff.mpr fun q hq => ?_
      rw [List.mem_singleton.mp hq]
      rcases hp with hp | hp | hp <;> rw [hp] <;> exact Bool.false_ne_true
    rw [hposted _ hpayload]
    exact .of_free hrow hrow
  | predecessors => exact .keeps Iff.rfl fun _ => ⟨rfl, rfl⟩

/-! ## Alternation -/

/-- **The ledger tells the lease**: the lifecycle events of an item
alternate, and it is claimed exactly while the last of them is a claim. -/
structure LeaseRecorded (item : WorkItem) (hist : List Posting) : Prop where
  alternating : Alternating Posting.opensLease (leasePostings hist)
  claimed : item.rowStatus = .claimed ↔ endsOpen Posting.opensLease (leasePostings hist) = true

/-- An event that ends a lease opens none. -/
theorem opensLease_of_endsLease {p : Posting} (h : p.endsLease = true) : p.opensLease = false := by
  by_contra hopens
  have htype : p.payload.type = .workClaimed := by simpa [Posting.opensLease] using hopens
  rw [Posting.endsLease, htype] at h
  cases h

/-- The lifecycle events behind a write are those before it and the ones it
posted; each kind of effect keeps them telling the lease. -/
theorem LeaseRecorded.write {hist : List Posting} (h : LeaseRecorded item hist)
    (hm : RowMove env op lo hi item item' ps) : LeaseRecorded item' (hist ++ ps) := by
  obtain ⟨halternating, hclaimed⟩ := h
  have heffect := hm.leaseEffect
  have happend := leasePostings_append hist ps
  generalize leasePostings ps = posted at heffect happend
  generalize leasePostings hist = before at halternating hclaimed happend
  cases heffect with
  | keeps hstatus =>
    rw [List.append_nil] at happend
    exact ⟨happend ▸ halternating, by rw [hstatus, hclaimed, happend]⟩
  | @ends p hleased hends hfree =>
    have hp := opensLease_of_endsLease hends
    refine ⟨?_, ?_⟩
    · rw [happend]
      exact Sessions.alternating_concat halternating (by rw [hp, hclaimed.mp hleased]; rfl)
    · rw [happend, Sessions.endsOpen_concat, hp]
      exact iff_of_false hfree Bool.false_ne_true
  | @begins input p token t _ hopens hleased =>
    by_cases hheld : item.rowStatus = .claimed
    · -- a lapsed lease is ended and the next one begun
      have hexpiry : expiryPostings item t =
          [⟨"system", .leaseExpired item.leaseOwner item.leaseExpiresAt, t⟩] := if_pos hheld
      rw [hexpiry, ← List.append_assoc] at happend
      have hended := Sessions.alternating_concat halternating
        (a := ⟨"system", .leaseExpired item.leaseOwner item.leaseExpiresAt, t⟩)
        (by rw [hclaimed.mp hheld]; rfl)
      refine ⟨?_, ?_⟩
      · rw [happend]
        exact Sessions.alternating_concat hended (by rw [hopens, Sessions.endsOpen_concat]; rfl)
      · rw [happend, Sessions.endsOpen_concat, hopens]
        exact iff_of_true hleased rfl
    · have hexpiry : expiryPostings item t = [] := if_neg hheld
      rw [hexpiry, List.nil_append] at happend
      have hclosed : endsOpen Posting.opensLease before = false := by
        simpa using fun hopen => hheld (hclaimed.mpr hopen)
      refine ⟨?_, ?_⟩
      · rw [happend]
        exact Sessions.alternating_concat halternating (by rw [hopens, hclosed]; rfl)
      · rw [happend, Sessions.endsOpen_concat, hopens]
        exact iff_of_true hleased rfl

/-- A born row has no lifecycle events. -/
theorem Birth.leasePostings {db : Db} {row : WorkItem} {p : Posting}
    (h : Birth env op lo hi db row p) : leasePostings [p] = [] := by
  cases h with
  | @root root id createdAt t policy payload guard hpayload =>
    refine List.filter_eq_nil_iff.mpr fun q hq => ?_
    rw [List.mem_singleton.mp hq]
    show ¬ payload.type.isLifecycle = true
    rw [hpayload]
    split <;> exact Bool.false_ne_true
  | child guard => rfl

theorem Birth.leaseRecorded {db : Db} {row : WorkItem} {p : Posting}
    (h : Birth env op lo hi db row p) : LeaseRecorded row [p] := by
  have hqueued : row.rowStatus ≠ .claimed := by
    cases h <;> exact nofun
  refine ⟨?_, ?_⟩
  · rw [h.leasePostings]
    exact Sessions.alternating_nil
  · rw [h.leasePostings]
    exact iff_of_false hqueued Bool.false_ne_true

/-- **In every reachable state the ledger tells the lease.** -/
theorem leaseRecorded_exec (ops : List Op) : EveryRow LeaseRecorded (exec env ops).db :=
  row_invariant Birth.leaseRecorded (fun h hm => h.write hm)
    (fun h => ⟨h.alternating, by rw [rowStatus_renamed]; exact h.claimed⟩) ops

end Snowcat
