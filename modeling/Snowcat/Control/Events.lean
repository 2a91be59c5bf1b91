import Snowcat.Control.Projection

/-!
# The pages of the event cursor are the events

Events are only recorded behind those that are there, so a generation keeps
being what it would be built as now, until the details of transactions are
pruned; and then every older generation is gone. A reader that goes from
page to page under one generation therefore pages through one list of
events, and sees each of those it may see once, in their order
(`projectedEvents_pages`).
-/

namespace Snowcat

open Calendar (Instant)
open Paging (Ordered)

section Order

variable {s : ControlTables} {after : EventCursor} {e : ProjectedEvent} {o : DurableOccurrence}

@[simp] theorem DurableOccurrence.key_projected (o : DurableOccurrence) :
    o.projected.key = o.key := rfl

/-- The place of a cursor. -/
def EventCursor.key (cursor : EventCursor) : LedgerKey :=
  toLex (cursor.transactionSequence, cursor.transactionPosition)

@[simp] theorem ProjectedEvent.key_cursor (e : ProjectedEvent) : e.cursor.key = e.key := rfl

/-- The query asks for the events behind the cursor in the order of the ledger. -/
theorem ProjectedEvent.isBehind_eq (after : EventCursor) (e : ProjectedEvent) :
    e.isBehind after = decide (after.key < e.key) := by
  rw [Bool.eq_iff_iff, decide_eq_true_eq, EventCursor.key, ProjectedEvent.key,
    Prod.Lex.toLex_lt_toLex]
  simp only [ProjectedEvent.isBehind, Bool.or_eq_true, Bool.and_eq_true, decide_eq_true_eq]
  rw [eq_comm (a := (e.transactionSequence : ℤ))]

theorem EventCursor.start_lt_key (e : ProjectedEvent) : EventCursor.start.key < e.key := by
  rw [EventCursor.key, ProjectedEvent.key, Prod.Lex.toLex_lt_toLex]
  simp only [EventCursor.start]
  omega

end Order

/-! ## What the tables keep -/

section Consistent

variable (digest : Json → String)

/-- A generation is what would be built now. -/
structure ControlTables.Keeps (s : ControlTables) (generation : ProjectionGeneration) : Prop where
  below : generation.sourceSequence ≤ s.lastTransactionSequence
  contract : generation.contractVersion = 1 ∧ generation.transformationVersion = 1 ∧
    generation.informationHandlingVersion = 1
  sourceDigest : generation.sourceDigest =
    sourceDigestOf digest (eventProjectionSources s generation.sourceSequence)
  outputDigest : generation.outputDigest = outputDigestOf digest
    ((eventProjectionSources s generation.sourceSequence).map DurableOccurrence.projected)
  rowCount : generation.rowCount = (eventProjectionSources s generation.sourceSequence).length
  rows : (s.eventRows.filter fun row => row.generationId = generation.generationId).map
      EventCursorRow.event =
    (eventProjectionSources s generation.sourceSequence).map DurableOccurrence.projected

/-- **The tables are consistent.** -/
structure ControlTables.Consistent (s : ControlTables) : Prop where
  keys : (s.occurrences.map DurableOccurrence.key).Nodup
  recordIds : (s.occurrences.map DurableOccurrence.recordId).Nodup
  recorded : ∀ o ∈ s.occurrences, o.transactionSequence ≤ s.lastTransactionSequence
  keeps : ∀ generation ∈ s.generations, s.Keeps digest generation
  rows : ∀ row ∈ s.eventRows, ∃ generation ∈ s.generations,
    generation.generationId = row.generationId
  head : ∀ head ∈ s.head, head.sourceSequence ≤ s.lastTransactionSequence

/-- The sequence the published generation was built at. -/
def ControlTables.publishedSequence (s : ControlTables) : ℕ :=
  (s.head.map ProjectionHead.sourceSequence).getD 0

variable {digest} {s s' : ControlTables} {n : ℕ} {o : DurableOccurrence}

theorem mem_eventProjectionSources : o ∈ eventProjectionSources s n ↔
    o ∈ s.occurrences ∧ o.occurrenceType = .event ∧ o.transactionSequence ≤ n := by
  rw [eventProjectionSources, List.mem_insertionSort, List.mem_filter]
  simp

/-- The events are in the order of the ledger, and no two of them in one place. -/
theorem ordered_eventProjectionSources (h : (s.occurrences.map DurableOccurrence.key).Nodup)
    (n : ℕ) : Ordered DurableOccurrence.key (eventProjectionSources s n) := by
  have hsorted := List.pairwise_insertionSort (fun a b : DurableOccurrence => a.key ≤ b.key)
    (s.occurrences.filter fun o =>
      o.occurrenceType = .event && decide (o.transactionSequence ≤ n))
  have hdistinct : ((eventProjectionSources s n).map DurableOccurrence.key).Nodup := by
    refine ((List.perm_insertionSort _ _).map _).nodup_iff.mpr ?_
    exact h.sublist (List.filter_sublist.map _)
  exact (hsorted.and (List.pairwise_map.mp hdistinct)).imp fun h => lt_of_le_of_ne h.1 h.2

/-- What is recorded behind a sequence does not count before it. -/
theorem eventProjectionSources_append {more : List DurableOccurrence}
    (hs : s'.occurrences = s.occurrences ++ more) (hmore : ∀ o ∈ more, n < o.transactionSequence) :
    eventProjectionSources s' n = eventProjectionSources s n := by
  unfold eventProjectionSources
  rw [hs, List.filter_append, List.filter_eq_nil_iff (l := more).mpr, List.append_nil]
  intro o ho
  rw [Bool.and_eq_true, decide_eq_true_eq, decide_eq_true_eq]
  exact fun h => absurd h.2 (Nat.not_le.mpr (hmore o ho))

/-! ## One command -/

/-- What `insertOccurrence` does where it does not throw. -/
theorem insertOccurrence_eq_ok (h : insertOccurrence s o = .ok s') :
    (∀ old ∈ s.occurrences, old.recordId ≠ o.recordId) ∧
      (∀ old ∈ s.occurrences, old.key ≠ o.key) ∧
      s' = { s with occurrences := s.occurrences ++ [o] } := by
  simp only [insertOccurrence, except_bind_eq_ok, except_pure_eq_ok, refuseIf_eq_ok, not_exists,
    not_and] at h
  obtain ⟨_, hids, _, hkeys, rfl⟩ := h
  exact ⟨hids, hkeys, rfl⟩

theorem foldlM_insertOccurrence {more : List DurableOccurrence}
    (h : more.foldlM insertOccurrence s = .ok s') :
    s' = { s with occurrences := s.occurrences ++ more } ∧
      ((s.occurrences.map DurableOccurrence.key).Nodup →
        ((s.occurrences ++ more).map DurableOccurrence.key).Nodup) ∧
      ((s.occurrences.map DurableOccurrence.recordId).Nodup →
        ((s.occurrences ++ more).map DurableOccurrence.recordId).Nodup) := by
  induction more generalizing s with
  | nil =>
    obtain rfl := Except.ok.inj h
    rw [List.append_nil]
    exact ⟨rfl, id, id⟩
  | cons o more ih =>
    rw [List.foldlM_cons, except_bind_eq_ok] at h
    obtain ⟨t, ho, h⟩ := h
    obtain ⟨hids, hkeys, rfl⟩ := insertOccurrence_eq_ok ho
    obtain ⟨rfl, hkeep, hkeepIds⟩ := ih h
    rw [List.append_assoc, List.singleton_append] at hkeep hkeepIds
    refine ⟨by rw [List.append_assoc, List.singleton_append], fun hs => hkeep ?_,
      fun hs => hkeepIds ?_⟩
    · rw [List.map_append, List.nodup_append]
      refine ⟨hs, List.nodup_singleton _, ?_⟩
      rintro _ hold _ hnew rfl
      obtain ⟨old, hold, heq⟩ := List.mem_map.mp hold
      exact hkeys old hold (heq.trans (List.mem_singleton.mp hnew))
    · rw [List.map_append, List.nodup_append]
      refine ⟨hs, List.nodup_singleton _, ?_⟩
      rintro _ hold _ hnew rfl
      obtain ⟨old, hold, heq⟩ := List.mem_map.mp hold
      exact hids old hold (heq.trans (List.mem_singleton.mp hnew))

/-- What `recordTransaction` does where it does not throw. -/
theorem recordTransaction_eq_ok {drafts : List DurableOccurrence}
    (h : recordTransaction s drafts = .ok s') :
    ∃ more, s' = { s with
        occurrences := s.occurrences ++ more
        lastTransactionSequence := s.lastTransactionSequence + 1 } ∧
      (∀ o ∈ more, o.transactionSequence = s.lastTransactionSequence + 1) ∧
      ((s.occurrences.map DurableOccurrence.key).Nodup →
        (s'.occurrences.map DurableOccurrence.key).Nodup) ∧
      ((s.occurrences.map DurableOccurrence.recordId).Nodup →
        (s'.occurrences.map DurableOccurrence.recordId).Nodup) := by
  simp only [recordTransaction, except_bind_eq_ok, except_pure_eq_ok] at h
  obtain ⟨t, ht, rfl⟩ := h
  obtain ⟨rfl, hkeys, hids⟩ := foldlM_insertOccurrence ht
  refine ⟨_, rfl, fun o ho => ?_, hkeys, hids⟩
  obtain ⟨draft, -, rfl⟩ := List.mem_map.mp ho
  rfl

/-- What `buildAndPublish` does where it does not throw. -/
theorem buildAndPublish_eq_ok {build : ProjectionBuild}
    (h : buildAndPublish digest s n build = .ok s') :
    (∀ old ∈ s.generations, old.generationId ≠ build.generationId) ∧
      s' = { s with
        generations := s.generations ++ [builtGeneration digest s n build]
        eventRows := s.eventRows ++ (eventProjectionSources s n).map fun o =>
          ⟨build.generationId, o.projected⟩
        head := some ⟨1, build.generationId, n, build.evaluationTime⟩ } := by
  simp only [buildAndPublish, except_bind_eq_ok, except_pure_eq_ok, refuseIf_eq_ok, not_exists,
    not_and] at h
  obtain ⟨_, hids, rfl⟩ := h
  exact ⟨hids, rfl⟩

namespace ControlTables

theorem Keeps.of_same {generation : ProjectionGeneration} (h : s.Keeps digest generation)
    (hlast : s.lastTransactionSequence ≤ s'.lastTransactionSequence)
    (hsources : eventProjectionSources s' generation.sourceSequence =
      eventProjectionSources s generation.sourceSequence)
    (hrows : (s'.eventRows.filter fun row => row.generationId = generation.generationId) =
      s.eventRows.filter fun row => row.generationId = generation.generationId) :
    s'.Keeps digest generation where
  below := h.below.trans hlast
  contract := h.contract
  sourceDigest := hsources ▸ h.sourceDigest
  outputDigest := hsources ▸ h.outputDigest
  rowCount := hsources ▸ h.rowCount
  rows := by rw [hrows, hsources, h.rows]

theorem consistent_empty : Consistent digest empty where
  keys := List.nodup_nil
  recordIds := List.nodup_nil
  recorded := fun _ h => nomatch h
  keeps := fun _ h => nomatch h
  rows := fun _ h => nomatch h
  head := fun _ h => nomatch h

theorem Consistent.withoutProjections (h : s.Consistent digest) (kept : DurableOccurrence → Bool) :
    Consistent digest { s.withoutProjections with occurrences := s.occurrences.filter kept } where
  keys := h.keys.sublist (List.filter_sublist.map _)
  recordIds := h.recordIds.sublist (List.filter_sublist.map _)
  recorded := fun o ho => h.recorded o (List.mem_of_mem_filter ho)
  keeps := fun _ h => nomatch h
  rows := fun _ h => nomatch h
  head := fun _ h => nomatch h

theorem Consistent.record {drafts : List DurableOccurrence} (h : s.Consistent digest)
    (hrun : recordTransaction s drafts = .ok s') : s'.Consistent digest := by
  obtain ⟨more, rfl, hmore, hkeys, hids⟩ := recordTransaction_eq_ok hrun
  refine ⟨hkeys h.keys, hids h.recordIds, fun o ho => ?_, fun generation hgeneration => ?_, h.rows,
    fun head hhead => (h.head head hhead).trans (Nat.le_succ _)⟩
  · rcases List.mem_append.mp ho with ho | ho
    · exact (h.recorded o ho).trans (Nat.le_succ _)
    · exact (hmore o ho).le
  · have hkeeps := h.keeps generation hgeneration
    refine hkeeps.of_same (Nat.le_succ _) ?_ rfl
    refine eventProjectionSources_append rfl fun o ho => ?_
    rw [hmore o ho]
    exact Nat.lt_succ_of_le hkeeps.below

theorem Consistent.build {build : ProjectionBuild} (h : s.Consistent digest)
    (hn : n ≤ s.lastTransactionSequence) (hrun : buildAndPublish digest s n build = .ok s') :
    s'.Consistent digest := by
  obtain ⟨hfresh, rfl⟩ := buildAndPublish_eq_ok hrun
  refine ⟨h.keys, h.recordIds, h.recorded, fun generation hgeneration => ?_, fun row hrow => ?_,
    fun head hhead => ?_⟩
  · rcases List.mem_append.mp hgeneration with hgeneration | hgeneration
    · refine (h.keeps generation hgeneration).of_same (le_refl _) rfl ?_
      rw [List.filter_append, List.append_right_eq_self, List.filter_eq_nil_iff]
      intro row hrow
      obtain ⟨o, -, rfl⟩ := List.mem_map.mp hrow
      rw [decide_eq_true_eq]
      exact Ne.symm (hfresh generation hgeneration)
    · obtain rfl := List.mem_singleton.mp hgeneration
      refine ⟨hn, ⟨rfl, rfl, rfl⟩, rfl, rfl, rfl, ?_⟩
      have hold : (s.eventRows.filter fun row => row.generationId = build.generationId) = [] := by
        refine List.filter_eq_nil_iff.mpr fun row hrow => ?_
        obtain ⟨old, hold, hid⟩ := h.rows row hrow
        rw [decide_eq_true_eq, ← hid]
        exact hfresh old hold
      show ((s.eventRows ++ (eventProjectionSources s n).map fun o =>
          (⟨build.generationId, o.projected⟩ : EventCursorRow)).filter fun row =>
          row.generationId = build.generationId).map EventCursorRow.event =
        (eventProjectionSources s n).map DurableOccurrence.projected
      rw [List.filter_append, hold, List.nil_append, List.filter_eq_self.mpr, List.map_map]
      · rfl
      · intro row hrow
        obtain ⟨o, -, rfl⟩ := List.mem_map.mp hrow
        exact decide_eq_true rfl
  · rcases List.mem_append.mp hrow with hrow | hrow
    · obtain ⟨generation, hgeneration, hid⟩ := h.rows row hrow
      exact ⟨generation, List.mem_append_left _ hgeneration, hid⟩
    · obtain ⟨o, -, rfl⟩ := List.mem_map.mp hrow
      exact ⟨_, List.mem_append_right _ (List.mem_singleton_self _), rfl⟩
  · obtain rfl := Option.mem_some.mp hhead
    exact hn

/-- **One command keeps the tables consistent.** -/
theorem Consistent.run {command : ControlCommand} (h : s.Consistent digest)
    (hrun : command.run digest s = .ok s') : s'.Consistent digest := by
  cases command with
  | record drafts => exact h.record hrun
  | rebuildProjections build => exact h.build (le_refl _) hrun
  | repairProjections build =>
    have hcleared := h.withoutProjections fun _ => true
    rw [List.filter_true] at hcleared
    exact hcleared.build (le_refl _) hrun
  | pruneCoreCheckDetail deleted drafts build =>
    simp only [ControlCommand.run, except_bind_eq_ok] at hrun
    obtain ⟨recorded, hrecorded, hbuilt⟩ := hrun
    exact ((h.withoutProjections _).record hrecorded).build (le_refl _) hbuilt

/-- **How one state comes after another**: what was recorded until then is still
what it was, or a generation was published since. -/
structure Grows (s s' : ControlTables) : Prop where
  last : s.lastTransactionSequence ≤ s'.lastTransactionSequence
  published : s.publishedSequence ≤ s'.publishedSequence
  sources : (∀ n ≤ s.lastTransactionSequence,
      eventProjectionSources s' n = eventProjectionSources s n) ∨
    s.lastTransactionSequence < s'.publishedSequence

theorem Grows.refl (s : ControlTables) : s.Grows s :=
  ⟨le_refl _, le_refl _, Or.inl fun _ _ => rfl⟩

theorem Grows.trans {s'' : ControlTables} (h : s.Grows s') (h' : s'.Grows s'') : s.Grows s'' where
  last := h.last.trans h'.last
  published := h.published.trans h'.published
  sources := by
    rcases h.sources with hsame | hpublished
    · rcases h'.sources with hsame' | hpublished'
      · exact Or.inl fun n hn => (hsame' n (hn.trans h.last)).trans (hsame n hn)
      · exact Or.inr (h.last.trans_lt hpublished')
    · exact Or.inr (hpublished.trans_le h'.published)

theorem Consistent.published_le (h : s.Consistent digest) :
    s.publishedSequence ≤ s.lastTransactionSequence := by
  cases hhead : s.head with
  | none =>
    rw [publishedSequence, hhead]
    exact Nat.zero_le _
  | some head =>
    rw [publishedSequence, hhead]
    exact h.head head hhead

/-- **One command goes on from a state.** -/
theorem Consistent.grows {command : ControlCommand} (h : s.Consistent digest)
    (hrun : command.run digest s = .ok s') : s.Grows s' := by
  cases command with
  | record drafts =>
    obtain ⟨more, rfl, hmore, -, -⟩ := recordTransaction_eq_ok hrun
    refine ⟨Nat.le_succ _, le_refl _, Or.inl fun n hn => ?_⟩
    refine eventProjectionSources_append rfl fun o ho => ?_
    rw [hmore o ho]
    exact Nat.lt_succ_of_le hn
  | rebuildProjections build =>
    obtain ⟨-, rfl⟩ := buildAndPublish_eq_ok hrun
    exact ⟨le_refl _, h.published_le, Or.inl fun _ _ => rfl⟩
  | repairProjections build =>
    obtain ⟨-, rfl⟩ := buildAndPublish_eq_ok hrun
    exact ⟨le_refl _, h.published_le, Or.inl fun _ _ => rfl⟩
  | pruneCoreCheckDetail deleted drafts build =>
    simp only [ControlCommand.run, except_bind_eq_ok] at hrun
    obtain ⟨recorded, hrecorded, hbuilt⟩ := hrun
    obtain ⟨more, rfl, -, -, -⟩ := recordTransaction_eq_ok hrecorded
    obtain ⟨-, rfl⟩ := buildAndPublish_eq_ok hbuilt
    exact ⟨Nat.le_succ _, h.published_le.trans (Nat.le_succ _), Or.inr (Nat.lt_succ_self _)⟩

end ControlTables

/-! ## Every run -/

/-- **The tables are consistent in every state of every run.** -/
theorem consistent_run (commands : List ControlCommand) :
    ((controlPlane digest).run commands).Consistent digest := by
  refine (controlPlane digest).invariant ControlTables.consistent_empty (fun s command h => ?_) _
  unfold controlPlane
  dsimp only
  cases hrun : command.run digest s with
  | ok s' => exact h.run hrun
  | error e => exact h

/-- **What a run goes on to.** -/
theorem grows_after (h : s.Consistent digest) (commands : List ControlCommand) :
    s.Grows ((controlPlane digest).after s commands) ∧
      ((controlPlane digest).after s commands).Consistent digest := by
  refine (controlPlane digest).after_keeps
    (P := fun t => s.Grows t ∧ t.Consistent digest) (fun t command ht => ?_) commands
    ⟨.refl s, h⟩
  unfold controlPlane
  dsimp only
  cases hrun : command.run digest t with
  | ok t' => exact ⟨ht.1.trans (ht.2.grows hrun), ht.2.run hrun⟩
  | error e => exact ht

end Consistent

/-! ## One page -/

section Reading

variable {digest : Json → String} {s : ControlTables} {generation : ProjectionGeneration}
variable {access : ProjectionAccess} {cursor : EventCursor} {limit : JsNumber}

theorem activeProjectionGeneration_eq_ok (h : activeProjectionGeneration s = .ok generation) :
    generation ∈ s.generations ∧ s.publishedSequence = generation.sourceSequence := by
  unfold activeProjectionGeneration at h
  cases hhead : s.head with
  | none =>
    rw [hhead] at h
    exact nomatch h
  | some head =>
    rw [hhead, Option.bind_some] at h
    cases hfound : s.generations.find? fun g => g.generationId = head.generationId with
    | none =>
      rw [hfound] at h
      exact nomatch h
    | some found =>
      rw [hfound, Option.map_some] at h
      simp only [except_bind_eq_ok, except_pure_eq_ok, refuseIf_eq_ok, not_or, not_not] at h
      obtain ⟨_, -, _, ⟨-, hsequence⟩, rfl⟩ := h
      refine ⟨List.mem_of_find?_eq_some hfound, ?_⟩
      rw [ControlTables.publishedSequence, hhead]
      exact hsequence

/-- The events of the ledger that a caller may see, up to a sequence. -/
def visibleEvents (s : ControlTables) (access : ProjectionAccess) (sourceSequence : ℕ) :
    List DurableOccurrence :=
  (eventProjectionSources s sourceSequence).filter fun o =>
    canAccessProjectionRow access o.informationClass o.informationScope

theorem ordered_visibleEvents (h : s.Consistent digest) (n : ℕ) :
    Ordered DurableOccurrence.key (visibleEvents s access n) :=
  (ordered_eventProjectionSources h.keys n).filter _

/-- Rows that are in the order of the ledger are in the order of their keys. -/
theorem insertionSort_projected {events : List DurableOccurrence}
    (h : Ordered DurableOccurrence.key events) :
    (events.map DurableOccurrence.projected).insertionSort (fun a b => a.key ≤ b.key) =
      events.map DurableOccurrence.projected := by
  refine List.Pairwise.insertionSort_eq (List.pairwise_map.mpr ?_)
  exact h.imp fun hlt => le_of_lt hlt

theorem storedEvents_eq (h : s.Consistent digest) (hkeeps : s.Keeps digest generation) :
    storedEvents s generation.generationId =
      (eventProjectionSources s generation.sourceSequence).map DurableOccurrence.projected := by
  rw [storedEvents, hkeeps.rows, insertionSort_projected (ordered_eventProjectionSources h.keys _)]

/-- **A generation that is kept verifies.** -/
theorem verifyProjectionGeneration_of_keeps (h : s.Consistent digest)
    (hkeeps : s.Keeps digest generation) :
    verifyProjectionGeneration digest s generation = .ok () := by
  obtain ⟨hcontract, htransformation, hhandling⟩ := hkeeps.contract
  simp only [verifyProjectionGeneration, except_bind_eq_ok, refuseIf_eq_ok, storedEvents_eq h hkeeps,
    List.length_map, not_or, not_not]
  exact ⟨(), ⟨hcontract, htransformation, hhandling⟩, (), hkeeps.rowCount.symm, (),
    hkeeps.sourceDigest.symm, hkeeps.outputDigest.symm⟩

/-- An event is found again in the ledger. -/
theorem sourceOf_projected (h : s.Consistent digest) {n : ℕ} {o : DurableOccurrence}
    (ho : o ∈ eventProjectionSources s n) : sourceOf s o.projected = some o := by
  obtain ⟨hmem, hevent, -⟩ := mem_eventProjectionSources.mp ho
  have hfound : (s.occurrences.find? fun o' =>
      o'.recordId = o.recordId && o'.occurrenceType = .event).isSome = true := by
    rw [List.find?_isSome]
    exact ⟨o, hmem, by simp [hevent]⟩
  obtain ⟨o', ho'⟩ := Option.isSome_iff_exists.mp hfound
  have hsame := List.find?_some ho'
  rw [Bool.and_eq_true, decide_eq_true_eq] at hsame
  have hinj := List.inj_on_of_nodup_map h.recordIds
  obtain rfl := hinj (List.mem_of_find?_eq_some ho') hmem hsame.1
  exact ho'

theorem eventRowsBehind_eq (h : s.Consistent digest) (hkeeps : s.Keeps digest generation) :
    eventRowsBehind s generation.generationId cursor =
      (Paging.after DurableOccurrence.key cursor.key
        (eventProjectionSources s generation.sourceSequence)).map fun o => (o.projected, o) := by
  have hrows : (s.eventRows.filter fun row =>
        row.generationId = generation.generationId && row.event.isBehind cursor).map
        EventCursorRow.event =
      (Paging.after DurableOccurrence.key cursor.key
        (eventProjectionSources s generation.sourceSequence)).map
        DurableOccurrence.projected := by
    have hsplit : (s.eventRows.filter fun row =>
          row.generationId = generation.generationId && row.event.isBehind cursor) =
        (s.eventRows.filter fun row => row.generationId = generation.generationId).filter
          ((ProjectedEvent.isBehind cursor) ∘ EventCursorRow.event) := by
      rw [List.filter_filter]
      exact List.filter_congr fun row _ => Bool.and_comm _ _
    rw [hsplit, ← List.filter_map, hkeeps.rows, List.filter_map]
    refine congrArg (List.map _) (List.filter_congr fun o _ => ?_)
    exact ProjectedEvent.isBehind_eq cursor o.projected
  have hordered := ordered_eventProjectionSources h.keys generation.sourceSequence
  rw [eventRowsBehind, hrows, insertionSort_projected hordered.after, List.filterMap_map,
    ← List.filterMap_eq_map]
  refine List.filterMap_congr fun o ho => ?_
  show (sourceOf s o.projected).map _ = _
  rw [sourceOf_projected h (List.mem_of_mem_filter ho)]
  rfl

/-- **One page** is a page of the events of the ledger that the caller may see. -/
theorem projectedEvents_eq (h : s.Consistent digest)
    (hactive : activeProjectionGeneration s = .ok generation)
    (haccepted : assertEventPage access cursor limit = .ok ()) :
    projectedEvents digest s access cursor limit =
      .ok
        { generation
          stale := generation.sourceSequence ≠ s.lastTransactionSequence
          rows := (Paging.page DurableOccurrence.key cursor.key limit.toInt.toNat
            (visibleEvents s access generation.sourceSequence)).map
              DurableOccurrence.projected } := by
  have hkeeps := h.keeps generation (activeProjectionGeneration_eq_ok hactive).1
  unfold projectedEvents
  rw [haccepted, hactive]
  show (verifyProjectionGeneration digest s generation >>= fun _ => _) = _
  rw [verifyProjectionGeneration_of_keeps h hkeeps, eventRowsBehind_eq h hkeeps]
  refine congrArg (fun rows => Except.ok (⟨generation, _, rows⟩ : ProjectionReadResult)) ?_
  rw [List.filter_map, ← List.map_take, List.map_map]
  have hvisible : (Paging.after DurableOccurrence.key cursor.key
      (eventProjectionSources s generation.sourceSequence)).filter (fun o =>
        canAccessProjectionRow access o.informationClass o.informationScope) =
      Paging.after DurableOccurrence.key cursor.key
        (visibleEvents s access generation.sourceSequence) := List.filter_comm _ _ _
  exact congrArg (fun events => (events.take limit.toInt.toNat).map DurableOccurrence.projected)
    hvisible

end Reading

/-! ## Every page -/

section Pages

variable (digest : Json → String)

/-- The states that the reads of a sequence meet: commands run between them. -/
def statesAt (s : ControlTables) (between : ℕ → List ControlCommand) : ℕ → ControlTables
  | 0 => s
  | k + 1 => (controlPlane digest).after (statesAt s between k) (between k)

/-- The cursor of each read: the place of the last row of the page before. -/
def cursorAt (states : ℕ → ControlTables) (access : ProjectionAccess) (limits : ℕ → JsNumber) :
    ℕ → EventCursor
  | 0 => .start
  | k + 1 =>
    let cursor := cursorAt states access limits k
    match projectedEvents digest (states k) access cursor (limits k) with
    | .ok page => (page.rows.getLast?.map ProjectedEvent.cursor).getD cursor
    | .error _ => cursor

/-- Each read of a sequence. -/
def pageAt (states : ℕ → ControlTables) (access : ProjectionAccess) (limits : ℕ → JsNumber)
    (k : ℕ) : Except ControlError ProjectionReadResult :=
  projectedEvents digest (states k) access (cursorAt digest states access limits k) (limits k)

/-- **A caller may see an event** of its class or below, of one of its deployments. -/
def ProjectionAccess.MaySee (access : ProjectionAccess) (o : DurableOccurrence) : Prop :=
  o.informationClass.index ≤ access.maximumInformationClass.index ∧
    ∃ id ∈ access.deploymentIds, exactDeploymentScope o.informationScope = some id

variable {digest} {s : ControlTables} {generation : ProjectionGeneration}
variable {between : ℕ → List ControlCommand} {access : ProjectionAccess} {limits : ℕ → JsNumber}

theorem canAccessProjectionRow_iff {o : DurableOccurrence} :
    canAccessProjectionRow access o.informationClass o.informationScope = true ↔
      access.MaySee o := by
  rw [canAccessProjectionRow, informationClassAtLeast, Bool.and_eq_true, decide_eq_true_eq,
    Option.any_eq_true, ProjectionAccess.MaySee]
  refine and_congr_right fun _ => exists_congr fun id => ?_
  rw [List.contains_iff_mem, and_comm]

theorem assertEventPage_eq_ok {cursor : EventCursor} {limit : JsNumber} :
    assertEventPage access cursor limit = .ok () ↔
      assertProjectionAccess access = .ok () ∧ 0 ≤ cursor.transactionSequence ∧
        -1 ≤ cursor.transactionPosition ∧ limit.isSafeInteger = true ∧ 1 ≤ limit.toInt ∧
        limit.toInt ≤ 1000 := by
  simp only [assertEventPage, except_bind_eq_ok, refuseIf_eq_ok, not_lt, not_or,
    Bool.not_eq_false]
  constructor
  · rintro ⟨_, haccess, _, hsequence, _, hposition, hlimit⟩
    exact ⟨haccess, hsequence, hposition, hlimit⟩
  · rintro ⟨haccess, hsequence, hposition, hlimit⟩
    exact ⟨(), haccess, (), hsequence, (), hposition, hlimit⟩

theorem consistent_statesAt (h : s.Consistent digest) (k : ℕ) :
    (statesAt digest s between k).Consistent digest ∧ s.Grows (statesAt digest s between k) := by
  induction k with
  | zero => exact ⟨h, .refl s⟩
  | succ k ih =>
    obtain ⟨hgrows, hconsistent⟩ := grows_after ih.1 (between k)
    exact ⟨hconsistent, ih.2.trans hgrows⟩

/-- **Under one generation the events stay**, whatever is recorded meanwhile. -/
theorem visibleEvents_statesAt (h : s.Consistent digest)
    (hactive : ∀ k, activeProjectionGeneration (statesAt digest s between k) = .ok generation)
    (k : ℕ) :
    visibleEvents (statesAt digest s between k) access generation.sourceSequence =
      visibleEvents s access generation.sourceSequence := by
  have hfirst := activeProjectionGeneration_eq_ok (hactive 0)
  have hbelow := (h.keeps generation hfirst.1).below
  have hpublished := (activeProjectionGeneration_eq_ok (hactive k)).2
  obtain hsame | hlater := (consistent_statesAt h k).2.sources
  · unfold visibleEvents
    rw [hsame _ hbelow]
  · rw [hpublished] at hlater
    exact absurd hbelow (Nat.not_le.mpr hlater)

/-- The reads of a sequence go through the visible events page by page. -/
theorem cursorAt_key (h : s.Consistent digest)
    (haccepted : ∀ k, assertEventPage access .start (limits k) = .ok ())
    (hactive : ∀ k, activeProjectionGeneration (statesAt digest s between k) = .ok generation)
    (k : ℕ) :
    let cursor := cursorAt digest (statesAt digest s between) access limits k
    cursor.key = Paging.cursorAt DurableOccurrence.key
        (visibleEvents s access generation.sourceSequence) EventCursor.start.key
        (fun k => (limits k).toInt.toNat) k ∧
      assertEventPage access cursor (limits k) = .ok () ∧
      0 ≤ cursor.transactionSequence ∧ -1 ≤ cursor.transactionPosition := by
  induction k with
  | zero => exact ⟨rfl, haccepted 0, le_refl _, le_refl _⟩
  | succ k ih =>
    obtain ⟨hkey, haccept, hsequence, hposition⟩ := ih
    have hpage := projectedEvents_eq (consistent_statesAt h k).1 (hactive k) haccept
    rw [visibleEvents_statesAt h hactive] at hpage
    have hlimit := assertEventPage_eq_ok.mp (haccepted (k + 1))
    dsimp only [cursorAt]
    rw [hpage]
    dsimp only
    rw [List.getLast?_map, Option.map_map, Paging.cursorAt, Paging.behind, ← hkey]
    cases (Paging.page DurableOccurrence.key _ (limits k).toInt.toNat
        (visibleEvents s access generation.sourceSequence)).getLast? with
    | none =>
      exact ⟨rfl, assertEventPage_eq_ok.mpr ⟨hlimit.1, hsequence, hposition, hlimit.2.2.2⟩,
        hsequence, hposition⟩
    | some last =>
      have hstart : (0 : ℤ) ≤ last.projected.cursor.transactionSequence ∧
          -1 ≤ last.projected.cursor.transactionPosition := by
        constructor
        · exact Int.natCast_nonneg _
        · exact (by decide : (-1 : ℤ) ≤ 0).trans (Int.natCast_nonneg _)
      exact ⟨rfl, assertEventPage_eq_ok.mpr ⟨hlimit.1, hstart.1, hstart.2, hlimit.2.2.2⟩, hstart⟩

/-- **The pages of the event cursor are the events**: under one generation, and
whatever is recorded meanwhile, the pages put together until one is empty are
the events up to the generation's sequence that the caller may see, each once
and in their order, and a page that its limit did not cut is the last one
before it. -/
theorem projectedEvents_pages (commands : List ControlCommand)
    (haccepted : ∀ k, assertEventPage access .start (limits k) = .ok ())
    (hactive : ∀ k, activeProjectionGeneration
      (statesAt digest ((controlPlane digest).run commands) between k) = .ok generation) :
    ∃ (seen : List DurableOccurrence) (pages : ℕ → List ProjectedEvent) (n : ℕ),
      (∀ o, o ∈ seen ↔ o ∈ ((controlPlane digest).run commands).occurrences ∧
        o.occurrenceType = .event ∧ o.transactionSequence ≤ generation.sourceSequence ∧
        access.MaySee o) ∧
      Ordered DurableOccurrence.key seen ∧
      (∀ k, ∃ page, pageAt digest (statesAt digest ((controlPlane digest).run commands) between)
        access limits k = .ok page ∧ page.rows = pages k) ∧
      pages n = [] ∧ (∀ k < n, pages k ≠ []) ∧
      (List.range n).flatMap pages = seen.map DurableOccurrence.projected ∧
      ∀ k < n, ((pages k).length : ℤ) < (limits k).toInt → k + 1 = n := by
  have h := @consistent_run digest commands
  generalize (controlPlane digest).run commands = s at h hactive ⊢
  let seen := visibleEvents s access generation.sourceSequence
  let sizes : ℕ → ℕ := fun k => (limits k).toInt.toNat
  have hordered : Ordered DurableOccurrence.key seen := ordered_visibleEvents h _
  have hsizes : ∀ k, 1 ≤ sizes k := fun k => by
    have hlimit := (assertEventPage_eq_ok.mp (haccepted k)).2.2.2.2.1
    show 1 ≤ (limits k).toInt.toNat
    omega
  obtain ⟨n, hempty, hbefore, hall⟩ := @Paging.exists_pageAt_eq_nil _ _ _ DurableOccurrence.key
    seen EventCursor.start.key sizes hordered hsizes
  have hstart : Paging.after DurableOccurrence.key EventCursor.start.key seen = seen :=
    List.filter_eq_self.mpr fun o _ => decide_eq_true (EventCursor.start_lt_key o.projected)
  let found := Paging.pageAt DurableOccurrence.key seen EventCursor.start.key sizes
  refine ⟨seen, fun k => (found k).map DurableOccurrence.projected, n, fun o => ?_, hordered,
    fun k => ?_, ?_, fun k hk hnil => hbefore k hk (List.map_eq_nil_iff.mp hnil), ?_,
    fun k hk hshort => ?_⟩
  · show o ∈ visibleEvents s access generation.sourceSequence ↔ _
    rw [visibleEvents, List.mem_filter, mem_eventProjectionSources, canAccessProjectionRow_iff,
      and_assoc, and_assoc]
  · obtain ⟨hkey, haccept, -, -⟩ := cursorAt_key h haccepted hactive k
    have hpage := projectedEvents_eq (consistent_statesAt h k).1 (hactive k) haccept
    rw [visibleEvents_statesAt h hactive, hkey] at hpage
    exact ⟨_, hpage, rfl⟩
  · exact List.map_eq_nil_iff.mpr hempty
  · rw [← List.map_flatMap, hall, hstart]
  · rw [List.length_map] at hshort
    have hcut : (found k).length < sizes k := by
      show (found k).length < (limits k).toInt.toNat
      omega
    have hnext : found (k + 1) = [] := by
      show Paging.page _ _ _ _ = []
      rw [Paging.page, Paging.after_eq_nil_of_length_lt hordered hcut, List.take_nil]
    by_contra hne
    exact hbefore (k + 1) (by omega) hnext

/-! ### A ledger with two events -/

/-- The first instant of a year. -/
def firstOfYear : Instant :=
  ⟨2026, 1, 1, 0, 0, 0, 0, by decide, by decide, by decide, by decide, by decide, by decide,
    by decide⟩

/-- An event of a deployment, at a place of its transaction. -/
def deploymentEvent (recordId deploymentId : String) (informationClass : InformationClass)
    (transactionPosition : ℕ) : DurableOccurrence where
  recordId
  occurrenceType := .event
  kind := "core.check-detail-pruned"
  schemaVersion := 1
  subjectKind := "control-plane-database"
  subjectId := deploymentId
  correlationId := recordId
  informationClass
  informationScope := .object [("deploymentId", .text deploymentId)]
  payloadDigest := ""
  transactionSequence := 0
  transactionPosition
  recordedAt := firstOfYear

/-- A digest that is none. -/
def noDigest (_ : Json) : String :=
  "sha256:0000000000000000000000000000000000000000000000000000000000000000"

/-- A deployment. -/
def sampleDeployment : String := "01890000-0000-7000-8000-000000000000"

/-- A transaction with an event that is for everyone and one that is not; then
the projections are built. -/
def twoEvents : List ControlCommand :=
  [.record [deploymentEvent "e" sampleDeployment .organization 0,
      deploymentEvent "f" sampleDeployment .restricted 1],
    .rebuildProjections ⟨"01890000-0000-7000-8000-000000000001", firstOfYear⟩]

/-- A caller reads the events of the organization in pages of one. -/
theorem projectedEvents_pages_sample :
    ∃ (seen : List DurableOccurrence) (pages : ℕ → List ProjectedEvent) (n : ℕ),
      (∀ o, o ∈ seen ↔ o ∈ ((controlPlane noDigest).run twoEvents).occurrences ∧
        o.occurrenceType = .event ∧ o.transactionSequence ≤ 1 ∧
        ProjectionAccess.MaySee ⟨.organization, [sampleDeployment]⟩ o) ∧
      Ordered DurableOccurrence.key seen ∧
      (∀ k, ∃ page, pageAt noDigest
        (statesAt noDigest ((controlPlane noDigest).run twoEvents) fun _ => [])
        ⟨.organization, [sampleDeployment]⟩ (fun _ => .int 1) k = .ok page ∧
          page.rows = pages k) ∧
      pages n = [] ∧ (∀ k < n, pages k ≠ []) ∧
      (List.range n).flatMap pages = seen.map DurableOccurrence.projected ∧
      ∀ k < n, ((pages k).length : ℤ) < 1 → k + 1 = n := by
  have hstates : ∀ k, statesAt noDigest ((controlPlane noDigest).run twoEvents) (fun _ => []) k =
      (controlPlane noDigest).run twoEvents := fun k => by
    induction k with
    | zero => rfl
    | succ k ih => exact ih
  have haccepted : assertEventPage ⟨.organization, [sampleDeployment]⟩ .start (.int 1) = .ok () := by
    decide +kernel
  exact projectedEvents_pages twoEvents (fun _ => haccepted) fun k => by
    rw [hstates]
    show _ = Except.ok (builtGeneration noDigest ((controlPlane noDigest).run twoEvents) 1
      ⟨"01890000-0000-7000-8000-000000000001", firstOfYear⟩)
    decide +kernel

end Pages

end Snowcat
