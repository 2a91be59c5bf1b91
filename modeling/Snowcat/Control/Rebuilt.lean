import Mathlib.Data.List.Dedup
import Snowcat.Control.WellKept
import Snowcat.Lib.GitObjects

/-!
# Projections are rebuilt from the ledger

A generation keeps what is derived from the ledger up to a transaction
(`Kept`), and such a generation passes every check that is made of it
(`Kept.verifies`). On a well-kept ledger a projection can always be built and
published (`buildAndPublish_eq_ok`), whatever the tables of the projections hold
when they are deleted first. What commands record afterwards is behind the
generation, so it stays as it is; a prune, which takes events away, builds the
projections again (`Sound.run`).
-/

namespace Snowcat.Projections

variable {digest : Json → String} {L L' : Ledger} {P P' : ProjectionTables} {s s' : ControlState}
  {name : ProjectionName} {n : ℕ} {build : Build} {g : Generation}

/-! ## What is derived from the ledger -/

/-- The subjects that a projection keeps. -/
def subjectsOf (L : Ledger) (n : ℕ) : ProjectionName → List ProjectedSubject
  | .subjectLookup => (L.subjectProjectionSources n).map SubjectSource.projected
  | .eventCursor => []

/-- The events that a projection keeps. -/
def eventsOf (L : Ledger) (n : ℕ) : ProjectionName → List ProjectedEvent
  | .subjectLookup => []
  | .eventCursor => (L.eventProjectionSources n).map DurableOccurrence.projected

/-- What a projection is derived from. -/
def sourceMaterial (L : Ledger) (n : ℕ) : ProjectionName → List Json
  | .subjectLookup => (L.subjectProjectionSources n).map SubjectSource.json
  | .eventCursor => (L.eventProjectionSources n).map DurableOccurrence.sourceJson

/-- What a projection keeps. -/
def outputMaterial (L : Ledger) (n : ℕ) : ProjectionName → List Json
  | .subjectLookup => (subjectsOf L n .subjectLookup).map ProjectedSubject.json
  | .eventCursor => (eventsOf L n .eventCursor).map ProjectedEvent.outputJson

/-- The generation that is built from the ledger. -/
def shadowGeneration (digest : Json → String) (L : Ledger) (n : ℕ) (build : Build)
    (name : ProjectionName) : Generation :=
  generationOf digest name build n (sourceMaterial L n name) (outputMaterial L n name)

/-- **The subjects of the sources** are those that were created until then. -/
theorem subjectSources_perm (hL : WellKept L) (n : ℕ) :
    ((L.subjectProjectionSources n).map SubjectSource.subject).Perm
      (L.subjects.filter fun subject => subject.createdTransactionSequence ≤ n) := by
  refine ((List.perm_insertionSort _ _).map SubjectSource.subject).trans (List.Perm.of_eq ?_)
  have hjoin := forall₂_sourcesOf hL (@List.filter_subset_self _ (fun subject : Subject =>
    decide (subject.createdTransactionSequence ≤ n)) L.subjects)
  rw [@Join.map_eq_of_forall₂ _ _ _ id SubjectSource.subject _ _ (hjoin.imp fun _ _ h => h.1),
    List.map_id]

/-- No two sources are of one subject. -/
theorem subjectSources_nodup (hL : WellKept L) (n : ℕ) :
    ((L.subjectProjectionSources n).map fun source => source.subject.key).Nodup := by
  have hkeys := (subjectSources_perm hL n).map Subject.key
  rw [List.map_map] at hkeys
  exact hkeys.nodup_iff.mpr (hL.subjects.sublist (List.filter_sublist.map _))

theorem Subject.order_injective : ∀ {a b : Subject}, a.order = b.order → a.key = b.key := by
  intro a b h
  obtain ⟨hkind, hid⟩ := Prod.mk.inj (toLex_inj.mp h)
  exact Prod.ext (SubjectKind.text_injective hkind) hid

/-- No kind has the character that ends it in an identity. -/
theorem nul_notMem_text (kind : SubjectKind) : '\x00' ∉ kind.text.toList := by
  cases kind <;> decide

theorem identity_injective {a b : SubjectSource} (h : a.identity = b.identity) :
    a.subject.key = b.subject.key := by
  have hlist := congrArg String.toList h
  simp only [SubjectSource.identity, String.toList_append, List.append_assoc] at hlist
  obtain ⟨hkind, hid⟩ := Git.append_cons_inj (nul_notMem_text _) (nul_notMem_text _) hlist
  exact Prod.ext (SubjectKind.text_injective (String.toList_inj.mp hkind))
    (String.toList_inj.mp hid)

/-- **There is exactly one source for each subject**, as the build checks it. -/
theorem subjectSources_counted (hL : WellKept L) (n : ℕ) :
    (L.subjectProjectionSources n).length = (L.subjects.filter fun subject =>
        subject.createdTransactionSequence ≤ n).length ∧
      ((L.subjectProjectionSources n).map SubjectSource.identity).dedup.length =
        (L.subjects.filter fun subject => subject.createdTransactionSequence ≤ n).length := by
  have hlength := (subjectSources_perm hL n).length_eq
  rw [List.length_map] at hlength
  have hnodup : ((L.subjectProjectionSources n).map SubjectSource.identity).Nodup :=
    List.Pairwise.map _ (fun a b (hne : a.subject.key ≠ b.subject.key) h =>
      hne (identity_injective h)) (List.pairwise_map.mp (subjectSources_nodup hL n))
  refine ⟨hlength, ?_⟩
  rw [hnodup.dedup, List.length_map, hlength]

/-- The subjects are kept in their order. -/
theorem subjectsOf_sorted (L : Ledger) (n : ℕ) (name : ProjectionName) :
    (subjectsOf L n name).Pairwise fun a b => a.order ≤ b.order := by
  cases name with
  | subjectLookup =>
    refine List.pairwise_map.mpr ((List.pairwise_insertionSort _ _).imp fun {a b} h => ?_)
    exact (Prod.Lex.le_iff.mp h).elim le_of_lt fun h => le_of_eq h.1
  | eventCursor => exact .nil

/-- The events are kept in their order. -/
theorem eventsOf_sorted (L : Ledger) (n : ℕ) (name : ProjectionName) :
    (eventsOf L n name).Pairwise fun a b => a.key ≤ b.key := by
  cases name with
  | subjectLookup => exact .nil
  | eventCursor => exact List.pairwise_map.mpr (List.pairwise_insertionSort _ _)

/-- No two of the subjects are one. -/
theorem subjectsOf_distinct (hL : WellKept L) (n : ℕ) (name : ProjectionName) :
    (subjectsOf L n name).Pairwise fun a b => a.order ≠ b.order := by
  cases name with
  | subjectLookup =>
    exact List.pairwise_map.mpr ((List.pairwise_map.mp (subjectSources_nodup hL n)).imp
      fun hne h => hne (Subject.order_injective h))
  | eventCursor => exact .nil

/-- No two of the events are one. -/
theorem eventsOf_distinct (hL : Indexed L) (n : ℕ) (name : ProjectionName) :
    (eventsOf L n name).Pairwise fun a b => a.recordId ≠ b.recordId ∧ a.key ≠ b.key := by
  cases name with
  | subjectLookup => exact .nil
  | eventCursor =>
    have hpairwise : L.occurrences.Pairwise fun a b => a.recordId ≠ b.recordId ∧ a.key ≠ b.key :=
      (List.pairwise_map.mp hL.recordIds).and (List.pairwise_map.mp hL.keys)
    unfold eventsOf
    rw [eventProjectionSources_eq hL]
    refine List.pairwise_map.mpr ?_
    exact ((List.perm_insertionSort _ _).pairwise_iff fun h => ⟨h.1.symm, h.2.symm⟩).mpr
      ((hpairwise.filter _).filter _)

/-! ## Building and publishing -/

/-- **What the tables of the projections refer to is there.** -/
structure Referential (P : ProjectionTables) : Prop where
  heads : ∀ head ∈ P.heads, head.generationId ∈ P.generations.map Generation.generationId
  subjectRows : ∀ row ∈ P.subjectRows,
    row.generationId ∈ P.generations.map Generation.generationId
  eventRows : ∀ row ∈ P.eventRows, row.generationId ∈ P.generations.map Generation.generationId

theorem Referential.empty : Referential .empty :=
  ⟨List.forall_mem_nil _, List.forall_mem_nil _, List.forall_mem_nil _⟩

namespace ProjectionTables

/-- The tables with a generation and its rows. -/
def withShadow (P : ProjectionTables) (g : Generation) (subjects : List ProjectedSubject)
    (events : List ProjectedEvent) : ProjectionTables :=
  { P with
    generations := P.generations ++ [g]
    subjectRows := P.subjectRows ++ subjects.map (⟨g.generationId, ·⟩)
    eventRows := P.eventRows ++ events.map (⟨g.generationId, ·⟩) }

/-- The tables with the shadow of a projection. -/
def withShadowOf (P : ProjectionTables) (digest : Json → String) (L : Ledger) (n : ℕ)
    (build : Build) (name : ProjectionName) : ProjectionTables :=
  P.withShadow (shadowGeneration digest L n build name) (subjectsOf L n name) (eventsOf L n name)

/-- The tables with a head, in the place of the one of its name. -/
def withHead (P : ProjectionTables) (head : Head) : ProjectionTables :=
  { P with
    heads := if P.heads.any (fun old => old.projectionName = head.projectionName) = true then
        P.heads.map fun old => if old.projectionName = head.projectionName then head else old
      else P.heads ++ [head] }

end ProjectionTables

/-- The head of a generation. -/
def Generation.head (g : Generation) : Head :=
  ⟨g.projectionName, g.contract.contractVersion, g.generationId, g.sourceSequence,
    g.evaluationTime⟩

theorem insertProjectionGeneration_eq_ok : P.insertProjectionGeneration g = .ok P' ↔
    g.generationId ∉ P.generations.map Generation.generationId ∧
      P' = { P with generations := P.generations ++ [g] } := by
  simp only [ProjectionTables.insertProjectionGeneration, except_bind_eq_ok, refuseIf_eq_ok,
    except_pure_eq_ok, exists_and_left, List.mem_map]
  constructor
  · rintro ⟨hfresh, _, h⟩
    exact ⟨hfresh, h.symm⟩
  · rintro ⟨hfresh, h⟩
    exact ⟨hfresh, (), h.symm⟩

/-- No row of a table is of a generation that is not there. -/
theorem insertSubjectRows {subjects : List ProjectedSubject} {generationId : String}
    (hfresh : ∀ row ∈ P.subjectRows, row.generationId ≠ generationId)
    (hdistinct : subjects.Pairwise fun a b => a.order ≠ b.order) :
    (subjects.map (⟨generationId, ·⟩)).foldlM ProjectionTables.insertSubjectRow P =
      .ok { P with subjectRows := P.subjectRows ++ subjects.map (⟨generationId, ·⟩) } := by
  refine @Join.foldlM_insert _ _ _ _ ProjectionTables.subjectRows
    (fun P rows => { P with subjectRows := P.subjectRows ++ rows })
    (fun a b => ¬ (a.generationId = b.generationId ∧ a.subject.order = b.subject.order))
    (fun t => by rw [List.append_nil]) (fun t row rows => by
      rw [List.append_assoc, List.singleton_append]) (fun _ _ => rfl) (fun t row hold => ?_) _ _
    ?_ ?_
  · exact except_bind_eq_ok.mpr ⟨(), refuseIf_eq_ok.mpr fun ⟨old, hmem, hsame⟩ =>
      hold old hmem hsame, rfl⟩
  · intro old hold row hrow hsame
    obtain ⟨_, -, rfl⟩ := List.mem_map.mp hrow
    exact hfresh old hold hsame.1
  · exact List.pairwise_map.mpr (hdistinct.imp fun hne hsame => hne hsame.2)

/-- The rows of the events. -/
theorem insertEventRows {events : List ProjectedEvent} {generationId : String}
    (hfresh : ∀ row ∈ P.eventRows, row.generationId ≠ generationId)
    (hdistinct : events.Pairwise fun a b => a.recordId ≠ b.recordId ∧ a.key ≠ b.key) :
    (events.map (⟨generationId, ·⟩)).foldlM ProjectionTables.insertEventRow P =
      .ok { P with eventRows := P.eventRows ++ events.map (⟨generationId, ·⟩) } := by
  refine @Join.foldlM_insert _ _ _ _ ProjectionTables.eventRows
    (fun P rows => { P with eventRows := P.eventRows ++ rows })
    (fun a b => ¬ (a.generationId = b.generationId ∧ a.event.recordId = b.event.recordId) ∧
      ¬ (a.generationId = b.generationId ∧ a.event.key = b.event.key))
    (fun t => by rw [List.append_nil]) (fun t row rows => by
      rw [List.append_assoc, List.singleton_append]) (fun _ _ => rfl) (fun t row hold => ?_) _ _
    ?_ ?_
  · exact except_bind_eq_ok.mpr ⟨(), refuseIf_eq_ok.mpr fun ⟨old, hmem, hsame⟩ =>
      (hold old hmem).1 hsame, except_bind_eq_ok.mpr ⟨(), refuseIf_eq_ok.mpr
        fun ⟨old, hmem, hsame⟩ => (hold old hmem).2 hsame, rfl⟩⟩
  · intro old hold row hrow
    obtain ⟨_, -, rfl⟩ := List.mem_map.mp hrow
    exact ⟨fun hsame => hfresh old hold hsame.1, fun hsame => hfresh old hold hsame.1⟩
  · exact List.pairwise_map.mpr (hdistinct.imp fun hne =>
      ⟨fun hsame => hne.1 hsame.2, fun hsame => hne.2 hsame.2⟩)

/-- **On a well-kept ledger a shadow is always built**, under an identity that is not taken. -/
theorem buildProjectionShadow_of_fresh (hL : WellKept L) (hP : Referential P)
    (hfresh : build.generationId name ∉ P.generations.map Generation.generationId) :
    buildProjectionShadow digest L name n build P =
      .ok (shadowGeneration digest L n build name, P.withShadowOf digest L n build name) := by
  obtain ⟨hcount, hidentities⟩ := subjectSources_counted hL n
  cases name with
  | subjectLookup =>
    refine except_bind_eq_ok.mpr ⟨(), refuseIf_eq_ok.mpr fun h => ?_, except_bind_eq_ok.mpr
      ⟨_, insertProjectionGeneration_eq_ok.mpr ⟨hfresh, rfl⟩, except_bind_eq_ok.mpr
        ⟨_, insertSubjectRows (fun row hrow heq => hfresh ?_)
          (subjectsOf_distinct hL n .subjectLookup), except_pure_eq_ok.mpr (Prod.ext rfl ?_)⟩⟩⟩
    · exact h.elim (fun hne => hne hcount) fun hne => hne hidentities
    · exact Eq.mp (congrArg (· ∈ P.generations.map _) heq) (hP.subjectRows row hrow)
    · show _ = { P with generations := _, subjectRows := _, eventRows := P.eventRows ++ [] }
      rw [List.append_nil]
      rfl
  | eventCursor =>
    refine except_bind_eq_ok.mpr
      ⟨_, insertProjectionGeneration_eq_ok.mpr ⟨hfresh, rfl⟩, except_bind_eq_ok.mpr
        ⟨_, insertEventRows (fun row hrow heq => hfresh ?_)
          (eventsOf_distinct hL.toIndexed n .eventCursor), except_pure_eq_ok.mpr (Prod.ext rfl ?_)⟩⟩
    · exact Eq.mp (congrArg (· ∈ P.generations.map _) heq) (hP.eventRows row hrow)
    · show _ = { P with generations := _, subjectRows := P.subjectRows ++ [], eventRows := _ }
      rw [List.append_nil]
      rfl

theorem fresh_of_buildProjectionShadow {out : Generation × ProjectionTables}
    (h : buildProjectionShadow digest L name n build P = .ok out) :
    build.generationId name ∉ P.generations.map Generation.generationId := by
  cases name with
  | subjectLookup =>
    obtain ⟨_, -, h⟩ := except_bind_eq_ok.mp h
    obtain ⟨_, hinserted, -⟩ := except_bind_eq_ok.mp h
    exact (insertProjectionGeneration_eq_ok.mp hinserted).1
  | eventCursor =>
    obtain ⟨_, hinserted, -⟩ := except_bind_eq_ok.mp h
    exact (insertProjectionGeneration_eq_ok.mp hinserted).1

theorem Referential.withShadowOf (hP : Referential P) :
    Referential (P.withShadowOf digest L n build name) := by
  have hold : ∀ id ∈ P.generations.map Generation.generationId,
      id ∈ (P.generations ++ [shadowGeneration digest L n build name]).map
        Generation.generationId := by
    intro id hid
    rw [List.map_append]
    exact List.mem_append_left _ hid
  have hnew : (shadowGeneration digest L n build name).generationId ∈
      (P.generations ++ [shadowGeneration digest L n build name]).map Generation.generationId := by
    rw [List.map_append]
    exact List.mem_append_right _ (List.mem_singleton_self _)
  refine ⟨fun head hhead => hold _ (hP.heads head hhead), fun row hrow => ?_, fun row hrow => ?_⟩
  · rcases List.mem_append.mp hrow with hrow | hrow
    · exact hold _ (hP.subjectRows row hrow)
    · obtain ⟨_, -, rfl⟩ := List.mem_map.mp hrow
      exact hnew
  · rcases List.mem_append.mp hrow with hrow | hrow
    · exact hold _ (hP.eventRows row hrow)
    · obtain ⟨_, -, rfl⟩ := List.mem_map.mp hrow
      exact hnew

theorem mem_withHead {head old : Head} (h : old ∈ (P.withHead head).heads) :
    old ∈ P.heads ∨ old = head := by
  unfold ProjectionTables.withHead at h
  dsimp only at h
  split at h
  · obtain ⟨other, hother, rfl⟩ := List.mem_map.mp h
    split
    · exact .inr rfl
    · exact .inl hother
  · exact (List.mem_append.mp h).imp id List.mem_singleton.mp

theorem Referential.withHead {head : Head} (hP : Referential P)
    (hhead : head.generationId ∈ P.generations.map Generation.generationId) :
    Referential (P.withHead head) := by
  refine ⟨fun old hold => ?_, hP.subjectRows, hP.eventRows⟩
  rcases mem_withHead hold with hold | rfl
  · exact hP.heads old hold
  · exact hhead

/-- **A head stands for its name, and leaves the other ones.** -/
theorem find?_withHead {head : Head} (name : ProjectionName) :
    ((P.withHead head).heads.find? fun old => old.projectionName = name) =
      if head.projectionName = name then some head
      else P.heads.find? fun old => old.projectionName = name := by
  have hreplace : ∀ heads : List Head,
      (heads.map fun old => if old.projectionName = head.projectionName then head else old).find?
        (fun old => old.projectionName = name) =
      if head.projectionName = name then
        (heads.find? fun old => old.projectionName = name).map fun _ => head
      else heads.find? fun old => old.projectionName = name := by
    intro heads
    induction heads with
    | nil => split <;> rfl
    | cons old heads ih =>
      rw [List.map_cons, List.find?_cons, List.find?_cons, ih]
      by_cases hold : old.projectionName = head.projectionName
      · rw [if_pos hold, hold]
        by_cases hname : head.projectionName = name
        · simp only [decide_eq_true hname, if_pos hname, Option.map_some]
        · simp only [decide_eq_false hname, if_neg hname]
      · rw [if_neg hold]
        by_cases hname : head.projectionName = name
        · rw [decide_eq_false fun h => hold (h.trans hname.symm)]
        · rw [if_neg hname, if_neg hname]
  unfold ProjectionTables.withHead
  by_cases hany : (P.heads.any fun old => old.projectionName = head.projectionName) = true
  · dsimp only
    rw [if_pos hany, hreplace]
    by_cases hname : head.projectionName = name
    · obtain ⟨old, hold, heq⟩ := List.any_eq_true.mp hany
      obtain ⟨found, hfound⟩ : ∃ found,
          (P.heads.find? fun old => old.projectionName = name) = some found :=
        Option.isSome_iff_exists.mp (List.find?_isSome.mpr
          ⟨old, hold, decide_eq_true ((of_decide_eq_true heq).trans hname)⟩)
      rw [if_pos hname, if_pos hname, hfound]
      rfl
    · rw [if_neg hname, if_neg hname]
  · dsimp only
    rw [if_neg hany, List.find?_append, List.find?_singleton]
    by_cases hname : head.projectionName = name
    · have hnone : (P.heads.find? fun old => old.projectionName = name) = none := by
        refine List.find?_eq_none.mpr fun old hold h => hany (List.any_eq_true.mpr
          ⟨old, hold, decide_eq_true ((of_decide_eq_true h).trans hname.symm)⟩)
      rw [if_pos hname, hnone, if_pos (decide_eq_true hname)]
      rfl
    · rw [if_neg hname, if_neg (by rwa [decide_eq_true_eq]), Option.or_none]

theorem publish_eq_ok {publishedAt : Calendar.Instant} (hat : publishedAt = g.evaluationTime) :
    P.publish publishedAt g = .ok P' ↔
      (∀ old ∈ P.heads, old.projectionName ≠ g.projectionName →
        old.generationId ≠ g.generationId) ∧ P' = P.withHead g.head := by
  subst hat
  simp only [ProjectionTables.publish, except_bind_eq_ok, refuseIf_eq_ok, except_pure_eq_ok,
    exists_const, not_exists, not_and]
  exact and_congr Iff.rfl eq_comm

/-- **The tables with the two projections of a ledger**, built and published. -/
def published (digest : Json → String) (L : Ledger) (build : Build) (P : ProjectionTables) :
    ProjectionTables :=
  let n := L.lastTransactionSequence
  (((P.withShadowOf digest L n build .subjectLookup).withShadowOf digest L n build
    .eventCursor).withHead (shadowGeneration digest L n build .subjectLookup).head).withHead
      (shadowGeneration digest L n build .eventCursor).head

/-- The identities of a build are not taken, and not the same. -/
structure Fresh (build : Build) (P : ProjectionTables) : Prop where
  unused : ∀ name, build.generationId name ∉ P.generations.map Generation.generationId
  distinct : build.generationId .subjectLookup ≠ build.generationId .eventCursor

/-- **Building and publishing**: the projections of a well-kept ledger can always be built. -/
theorem buildAndPublish_eq_ok (hL : WellKept L) (hP : Referential P) :
    buildAndPublish digest L build P = .ok P' ↔
      Fresh build P ∧ P' = published digest L build P := by
  have hP₁ : Referential (P.withShadowOf digest L L.lastTransactionSequence build .subjectLookup) :=
    hP.withShadowOf
  -- the second identity is neither among the old ones nor the first
  have hsecond : build.generationId .eventCursor ∉
      (P.withShadowOf digest L L.lastTransactionSequence build .subjectLookup).generations.map
        Generation.generationId ↔
      build.generationId .eventCursor ∉ P.generations.map Generation.generationId ∧
        build.generationId .subjectLookup ≠ build.generationId .eventCursor := by
    show _ ∉ (P.generations ++ [_]).map _ ↔ _
    rw [List.map_append, List.mem_append, not_or, List.map_singleton, List.mem_singleton]
    exact and_congr Iff.rfl ne_comm
  constructor
  · intro h
    obtain ⟨⟨subjects, P₁⟩, hfirst, h⟩ := except_bind_eq_ok.mp h
    obtain ⟨⟨events, P₂⟩, hnext, h⟩ := except_bind_eq_ok.mp h
    obtain ⟨P₃, hhead, h⟩ := except_bind_eq_ok.mp h
    have hunused := fresh_of_buildProjectionShadow hfirst
    rw [buildProjectionShadow_of_fresh hL hP hunused] at hfirst
    obtain ⟨rfl, rfl⟩ := Prod.mk.inj (Except.ok.inj hfirst)
    have hunused' := fresh_of_buildProjectionShadow hnext
    rw [buildProjectionShadow_of_fresh hL hP₁ hunused'] at hnext
    obtain ⟨rfl, rfl⟩ := Prod.mk.inj (Except.ok.inj hnext)
    obtain ⟨-, rfl⟩ := (publish_eq_ok rfl).mp hhead
    obtain ⟨-, rfl⟩ := (publish_eq_ok rfl).mp h
    obtain ⟨hevents, hdistinct⟩ := hsecond.mp hunused'
    refine ⟨⟨fun name => ?_, hdistinct⟩, rfl⟩
    cases name with
    | subjectLookup => exact hunused
    | eventCursor => exact hevents
  · rintro ⟨hfresh, rfl⟩
    refine except_bind_eq_ok.mpr ⟨_, buildProjectionShadow_of_fresh hL hP (hfresh.unused _),
      except_bind_eq_ok.mpr ⟨_, buildProjectionShadow_of_fresh hL hP₁
        (hsecond.mpr ⟨hfresh.unused _, hfresh.distinct⟩), except_bind_eq_ok.mpr ⟨_,
          (publish_eq_ok rfl).mpr ⟨fun old hold _ => ?_, rfl⟩,
          (publish_eq_ok rfl).mpr ⟨fun old hold hname => ?_, rfl⟩⟩⟩⟩
    · exact ne_of_mem_of_not_mem (hP.heads old hold) (hfresh.unused .subjectLookup)
    · rcases mem_withHead hold with hold | rfl
      · exact ne_of_mem_of_not_mem (hP.heads old hold) (hfresh.unused .eventCursor)
      · exact hfresh.distinct

theorem Referential.published (hP : Referential P) :
    Referential (published digest L build P) := by
  have hP₁ : Referential (P.withShadowOf digest L L.lastTransactionSequence build .subjectLookup) :=
    hP.withShadowOf
  have hP₂ : Referential ((P.withShadowOf digest L L.lastTransactionSequence build
      .subjectLookup).withShadowOf digest L L.lastTransactionSequence build .eventCursor) :=
    hP₁.withShadowOf
  refine (hP₂.withHead ?_).withHead ?_
  · show _ ∈ ((P.generations ++ [_]) ++ [_]).map Generation.generationId
    rw [List.append_assoc, List.map_append]
    exact List.mem_append_right _ List.mem_cons_self
  · show _ ∈ ((P.generations ++ [_]) ++ [_]).map Generation.generationId
    rw [List.append_assoc, List.map_append]
    exact List.mem_append_right _ (List.mem_cons_of_mem _ (List.mem_singleton_self _))

/-! ## What a generation keeps -/

/-- **A generation that keeps what is derived from the ledger**, up to its sequence. -/
structure Kept (digest : Json → String) (s : ControlState) (g : Generation) : Prop where
  made : ∃ build, g = shadowGeneration digest s.ledger g.sourceSequence build g.projectionName
  positive : 1 ≤ g.sourceSequence
  upTo : g.sourceSequence ≤ s.ledger.lastTransactionSequence
  subjectRows : (s.projections.subjectRows.filter fun row =>
    row.generationId = g.generationId).map SubjectLookupRow.subject =
      subjectsOf s.ledger g.sourceSequence g.projectionName
  eventRows : (s.projections.eventRows.filter fun row =>
    row.generationId = g.generationId).map EventCursorRow.event =
      eventsOf s.ledger g.sourceSequence g.projectionName

/-- Such a generation is well formed. -/
theorem Kept.decoded (hdigest : ∀ v, Patterns.sha256Digest.test (digest v) = true)
    (h : Kept digest s g) : decodeProjectionGeneration g = .ok () := by
  obtain ⟨⟨build, hmade⟩, hpositive, -⟩ := h
  have hversions : 1 ≤ g.projectionName.contract.contractVersion ∧
      1 ≤ g.projectionName.contract.transformationVersion ∧
        1 ≤ g.projectionName.contract.informationHandlingVersion := by
    cases g.projectionName <;> decide
  have hcontract : g.contract = g.projectionName.contract := by
    rw [hmade]
    rfl
  have hid := build.uuid g.projectionName
  simp only [decodeProjectionGeneration, except_bind_eq_ok, refuseIf_eq_ok]
  refine ⟨(), ?_, (), ?_, (), ?_, (), ?_, ?_⟩
  · rw [hmade]
    show ¬ isUuidV7 (build.generationId g.projectionName) = false
    rw [hid]
    exact Bool.noConfusion
  · rw [hcontract]
    omega
  · rw [hmade]
    show ¬ (Patterns.sha256Digest.test (digest _) = false ∨
      Patterns.sha256Digest.test (digest _) = false)
    rw [hdigest, hdigest]
    exact fun h => h.elim Bool.noConfusion Bool.noConfusion
  · rw [hmade]
    exact fun h => h rfl
  · rw [hmade]
    exact fun h => h rfl

/-- What is kept is read in the order in which it was derived. -/
theorem Kept.stored (h : Kept digest s g) :
    s.projections.storedSubjects g.generationId =
        subjectsOf s.ledger g.sourceSequence g.projectionName ∧
      s.projections.storedEvents g.generationId =
        eventsOf s.ledger g.sourceSequence g.projectionName := by
  unfold ProjectionTables.storedSubjects ProjectionTables.storedEvents
  rw [h.subjectRows, h.eventRows]
  exact ⟨(subjectsOf_sorted _ _ _).insertionSort_eq, (eventsOf_sorted _ _ _).insertionSort_eq⟩

/-- **A generation that keeps what is derived passes every check.** -/
theorem Kept.verifies (h : Kept digest s g) : verifyProjectionGeneration digest s g = .ok () := by
  obtain ⟨hsubjects, hevents⟩ := h.stored
  obtain ⟨⟨build, hmade⟩, -, -, hsubjectRows, heventRows⟩ := h
  have hmaterial : materialOf s g = (sourceMaterial s.ledger g.sourceSequence g.projectionName,
      outputMaterial s.ledger g.sourceSequence g.projectionName, 0) := by
    unfold materialOf
    cases hname : g.projectionName with
    | subjectLookup =>
      rw [hname] at hsubjects heventRows
      dsimp only
      rw [hsubjects, ← List.length_map EventCursorRow.event, heventRows]
      rfl
    | eventCursor =>
      rw [hname] at hevents hsubjectRows
      dsimp only
      rw [hevents, ← List.length_map SubjectLookupRow.subject, hsubjectRows]
      rfl
  have hcontract : g.contract = g.projectionName.contract := by
    rw [hmade]
    rfl
  have hrest : g.invariantResult = "ok" ∧
      g.rowCount = (outputMaterial s.ledger g.sourceSequence g.projectionName).length ∧
      g.sourceDigest = digest (.array (sourceMaterial s.ledger g.sourceSequence
        g.projectionName)) ∧
      g.outputDigest = digest (.array (outputMaterial s.ledger g.sourceSequence
        g.projectionName)) := by
    rw [hmade]
    exact ⟨rfl, rfl, rfl, rfl⟩
  unfold verifyProjectionGeneration
  rw [hmaterial]
  simp only [except_bind_eq_ok, refuseIf_eq_ok, not_not]
  exact ⟨(), hcontract, (), hrest.1, (), trivial, (), hrest.2.1.symm, (), hrest.2.2.1.symm,
    hrest.2.2.2.symm⟩

/-- The rows of a generation among those of a table and of the ones that are added. -/
theorem filter_rows {ρ α : Type} {id : ρ → String} {value : ρ → α} {rows : List ρ}
    {generationId : String} (hfresh : ∀ row ∈ rows, id row ≠ generationId) (new : List ρ)
    (hnew : ∀ row ∈ new, id row = generationId) :
    ((rows ++ new).filter fun row => id row = generationId).map value = new.map value := by
  rw [List.filter_append, List.filter_eq_nil_iff.mpr fun row hrow => by
    rw [decide_eq_true_eq]
    exact hfresh row hrow, List.nil_append, List.filter_eq_self.mpr fun row hrow =>
      decide_eq_true (hnew row hrow)]

/-- What the tables keep of the two projections that are published. -/
theorem rows_published (hP : Referential P) (hfresh : Fresh build P) (name : ProjectionName) :
    (((published digest L build P).subjectRows.filter fun row =>
        row.generationId = build.generationId name).map SubjectLookupRow.subject =
          subjectsOf L L.lastTransactionSequence name) ∧
      (((published digest L build P).eventRows.filter fun row =>
        row.generationId = build.generationId name).map EventCursorRow.event =
          eventsOf L L.lastTransactionSequence name) := by
  have hsubjects : (published digest L build P).subjectRows = P.subjectRows ++
      (subjectsOf L L.lastTransactionSequence .subjectLookup).map
        (⟨build.generationId .subjectLookup, ·⟩) := List.append_nil _
  have hevents : (published digest L build P).eventRows = P.eventRows ++
      (eventsOf L L.lastTransactionSequence .eventCursor).map
        (⟨build.generationId .eventCursor, ·⟩) := by
    show (P.eventRows ++ []) ++ _ = _
    rw [List.append_nil]
    rfl
  have hold : ∀ row ∈ P.subjectRows, row.generationId ≠ build.generationId name :=
    fun row hrow => ne_of_mem_of_not_mem (hP.subjectRows row hrow) (hfresh.unused name)
  have hold' : ∀ row ∈ P.eventRows, row.generationId ≠ build.generationId name :=
    fun row hrow => ne_of_mem_of_not_mem (hP.eventRows row hrow) (hfresh.unused name)
  rw [hsubjects, hevents]
  cases name with
  | subjectLookup =>
    constructor
    · rw [filter_rows hold _ (List.forall_mem_map.mpr fun _ _ => rfl), List.map_map]
      exact List.map_id _
    · rw [List.filter_eq_nil_iff.mpr, List.map_nil]
      · rfl
      · intro row hrow
        rw [decide_eq_true_eq]
        rcases List.mem_append.mp hrow with hrow | hrow
        · exact hold' row hrow
        · obtain ⟨_, -, rfl⟩ := List.mem_map.mp hrow
          exact hfresh.distinct.symm
  | eventCursor =>
    constructor
    · rw [List.filter_eq_nil_iff.mpr, List.map_nil]
      · rfl
      · intro row hrow
        rw [decide_eq_true_eq]
        rcases List.mem_append.mp hrow with hrow | hrow
        · exact hold row hrow
        · obtain ⟨_, -, rfl⟩ := List.mem_map.mp hrow
          exact hfresh.distinct
    · rw [filter_rows hold' _ (List.forall_mem_map.mpr fun _ _ => rfl), List.map_map]
      exact List.map_id _

/-- **The head of a name stands for the generation that was built.** -/
theorem headOf_published (hfresh : Fresh build P) (name : ProjectionName) :
    (published digest L build P).headOf name =
      some ((shadowGeneration digest L L.lastTransactionSequence build name).head,
        shadowGeneration digest L L.lastTransactionSequence build name) := by
  have hhead : ((published digest L build P).heads.find? fun head => head.projectionName = name) =
      some (shadowGeneration digest L L.lastTransactionSequence build name).head := by
    unfold published
    rw [find?_withHead]
    cases name with
    | subjectLookup =>
      rw [if_neg (by exact nofun), find?_withHead]
      exact if_pos rfl
    | eventCursor => exact if_pos rfl
  have hgenerations : (published digest L build P).generations = P.generations ++
      [shadowGeneration digest L L.lastTransactionSequence build .subjectLookup,
        shadowGeneration digest L L.lastTransactionSequence build .eventCursor] :=
    List.append_assoc _ _ _
  have hgeneration : ((published digest L build P).generations.find? fun generation =>
      generation.generationId = build.generationId name) =
        some (shadowGeneration digest L L.lastTransactionSequence build name) := by
    have hnone : (P.generations.find? fun generation =>
        generation.generationId = build.generationId name) = none :=
      List.find?_eq_none.mpr fun old hold h => hfresh.unused name
        (List.mem_map.mpr ⟨old, hold, of_decide_eq_true h⟩)
    rw [hgenerations, List.find?_append, hnone, Option.none_or]
    cases name with
    | subjectLookup => exact List.find?_cons_of_pos (decide_eq_true rfl)
    | eventCursor =>
      have hother : decide ((shadowGeneration digest L L.lastTransactionSequence build
          .subjectLookup).generationId = build.generationId .eventCursor) = false :=
        decide_eq_false hfresh.distinct
      rw [List.find?_cons, hother]
      exact List.find?_cons_of_pos (decide_eq_true rfl)
  unfold ProjectionTables.headOf
  rw [hhead]
  show (((published digest L build P).generations.find? fun generation =>
    generation.generationId = build.generationId name).bind _) = _
  rw [hgeneration]
  rfl

/-- **What is published is active, and kept.** -/
theorem active_published (hdigest : ∀ v, Patterns.sha256Digest.test (digest v) = true)
    (hL : WellKept L) (hP : Referential P) (hfresh : Fresh build P) (name : ProjectionName) :
    (published digest L build P).activeProjectionGeneration name =
        .ok (shadowGeneration digest L L.lastTransactionSequence build name) ∧
      Kept digest ⟨L, published digest L build P⟩
        (shadowGeneration digest L L.lastTransactionSequence build name) := by
  have hkept : Kept digest ⟨L, published digest L build P⟩
      (shadowGeneration digest L L.lastTransactionSequence build name) :=
    ⟨⟨build, rfl⟩, hL.positive, le_rfl, (rows_published hP hfresh name).1,
      (rows_published hP hfresh name).2⟩
  refine ⟨?_, hkept⟩
  unfold ProjectionTables.activeProjectionGeneration
  rw [headOf_published hfresh]
  simp only [except_bind_eq_ok, refuseIf_eq_ok, except_pure_eq_ok]
  exact ⟨(), hkept.decoded hdigest, (), fun h => h rfl, (), fun h => h.elim (fun h => h rfl)
    fun h => h rfl, trivial⟩

/-! ## Every run -/

/-- Both projections are active, and kept. -/
def Projected (digest : Json → String) (s : ControlState) : Prop :=
  ∀ name, ∃ g, s.projections.activeProjectionGeneration name = .ok g ∧ Kept digest s g

/-- **A sound control plane.** -/
structure Sound (digest : Json → String) (s : ControlState) : Prop where
  ledger : WellKept s.ledger
  projections : Referential s.projections
  projected : Projected digest s

/-- What is built and published makes a control plane sound. -/
theorem Sound.ofPublished (hdigest : ∀ v, Patterns.sha256Digest.test (digest v) = true)
    (hL : WellKept L) (hP : Referential P) (h : buildAndPublish digest L build P = .ok P') :
    Sound digest ⟨L, P'⟩ := by
  obtain ⟨hfresh, rfl⟩ := (buildAndPublish_eq_ok hL hP).mp h
  exact ⟨hL, hP.published, fun name => ⟨_, active_published hdigest hL hP hfresh name⟩⟩

/-- **What a command records is behind every generation.** -/
theorem Kept.recorded {command : CommandKind} {call : Call} {new : List Subject}
    (hL : WellKept s.ledger) (h : Recorded command call new s.ledger L') (hg : Kept digest s g) :
    Kept digest { s with ledger := L' } g := by
  have hsubjects := h.subjectProjectionSources hL hg.upTo
  have hevents := h.eventProjectionSources hL.toIndexed hg.upTo
  have hsame : ∀ name, subjectsOf L' g.sourceSequence name =
        subjectsOf s.ledger g.sourceSequence name ∧
      eventsOf L' g.sourceSequence name = eventsOf s.ledger g.sourceSequence name ∧
      sourceMaterial L' g.sourceSequence name = sourceMaterial s.ledger g.sourceSequence name := by
    intro name
    cases name with
    | subjectLookup =>
      unfold subjectsOf sourceMaterial
      rw [hsubjects]
      exact ⟨rfl, rfl, rfl⟩
    | eventCursor =>
      unfold eventsOf sourceMaterial
      rw [hevents]
      exact ⟨rfl, rfl, rfl⟩
  obtain ⟨hsubjects, hevents, hsources⟩ := hsame g.projectionName
  obtain ⟨build, hmade⟩ := hg.made
  refine ⟨⟨build, ?_⟩, hg.positive, ?_, hg.subjectRows.trans hsubjects.symm,
    hg.eventRows.trans hevents.symm⟩
  · refine hmade.trans ?_
    unfold shadowGeneration
    have houtput : outputMaterial L' g.sourceSequence g.projectionName =
        outputMaterial s.ledger g.sourceSequence g.projectionName := by
      unfold outputMaterial
      cases hname : g.projectionName with
      | subjectLookup => rw [hname] at hsubjects; exact congrArg (List.map _) hsubjects
      | eventCursor => rw [hname] at hevents; exact congrArg (List.map _) hevents
    rw [hsources, houtput]
  · rw [h.last]
    exact hg.upTo.trans (Nat.le_succ _)

/-- **Every command keeps the control plane sound.** -/
theorem Sound.run (hdigest : ∀ v, Patterns.sha256Digest.test (digest v) = true)
    {command : ControlCommand} (hs : Sound digest s) (h : command.run digest s = .ok s') :
    Sound digest s' := by
  cases command with
  | write command _ call =>
    obtain ⟨ledger, hledger, h⟩ := except_bind_eq_ok.mp h
    obtain rfl := except_pure_eq_ok.mp h
    obtain ⟨new, hnew⟩ := record_eq_ok hledger
    refine ⟨hnew.wellKept (.inl hs.ledger), hs.projections, fun name => ?_⟩
    obtain ⟨g, hactive, hkept⟩ := hs.projected name
    exact ⟨g, hactive, hkept.recorded hs.ledger hnew⟩
  | rebuildProjections build =>
    obtain ⟨_, -, h⟩ := except_bind_eq_ok.mp h
    obtain ⟨P, hP, h⟩ := except_bind_eq_ok.mp h
    obtain rfl := except_pure_eq_ok.mp h
    exact .ofPublished hdigest hs.ledger hs.projections hP
  | repairProjections build =>
    obtain ⟨P, hP, h⟩ := except_bind_eq_ok.mp h
    obtain rfl := except_pure_eq_ok.mp h
    exact .ofPublished hdigest hs.ledger .empty hP
  | pruneCoreCheckDetail chosen call build =>
    obtain ⟨_, -, h⟩ := except_bind_eq_ok.mp h
    obtain ⟨ledger, hledger, h⟩ := except_bind_eq_ok.mp h
    obtain ⟨P, hP, h⟩ := except_bind_eq_ok.mp h
    obtain rfl := except_pure_eq_ok.mp h
    obtain ⟨new, hnew⟩ := record_eq_ok hledger
    have hkept : WellKept (((s.ledger.checkDetails.map Prod.fst).filter chosen).foldl
        Ledger.deleteTransaction s.ledger) :=
      hs.ledger.deleteTransactions fun sequence hsequence =>
        isCheckDetail_of_mem hs.ledger (List.mem_of_mem_filter hsequence)
    exact .ofPublished hdigest (hnew.wellKept (.inl hkept)) .empty hP

/-- A new database is sound. -/
theorem Sound.ofInitialized (hdigest : ∀ v, Patterns.sha256Digest.test (digest v) = true)
    {input : Initialization} (h : initializeControlPlane digest input = .ok s) :
    Sound digest s := by
  obtain ⟨ledger, hledger, h⟩ := except_bind_eq_ok.mp h
  obtain ⟨P, hP, h⟩ := except_bind_eq_ok.mp h
  obtain rfl := except_pure_eq_ok.mp h
  obtain ⟨new, hnew⟩ := record_eq_ok hledger
  exact .ofPublished hdigest (hnew.wellKept (.inr ⟨rfl, rfl, rfl, rfl, rfl⟩)) .empty hP

/-- **Every run keeps the control plane sound.** -/
theorem Sound.runs (hdigest : ∀ v, Patterns.sha256Digest.test (digest v) = true)
    (hs : Sound digest s) (commands : List ControlCommand) :
    Sound digest ((controlLedger digest s).run commands) := by
  refine (controlLedger digest s).invariant hs (fun s command hs => ?_) commands
  unfold controlLedger
  dsimp only
  cases h : command.run digest s with
  | ok s' => exact hs.run hdigest h
  | error e => exact hs

/-! ## Projections are restored -/

/-- What a row shows of a subject: its first record in the transaction that created it. -/
def ShowsSubject (L : Ledger) (subject : Subject) (row : ProjectedSubject) : Prop :=
  ∃ o, IsCreation L subject o ∧ row = ⟨subject.kind.text, subject.subjectId,
    subject.createdTransactionSequence, o.recordId, o.informationClass, o.informationScope⟩

/-- **The active generations pass every check.** -/
def ActiveVerify (digest : Json → String) (s : ControlState) : Prop :=
  ∀ name, ∃ g, s.projections.activeProjectionGeneration name = .ok g ∧
    verifyProjectionGeneration digest s g = .ok ()

/-- **The projections show exactly the ledger**: the active generations are those of its last
transaction, with one row for each subject and one for each event. -/
structure Restored (L : Ledger) (s : ControlState) : Prop where
  ledger : s.ledger = L
  subjects : ∃ g, s.projections.activeProjectionGeneration .subjectLookup = .ok g ∧
    g.sourceSequence = L.lastTransactionSequence ∧
    ∃ rows, (s.projections.storedSubjects g.generationId).Perm rows ∧
      List.Forall₂ (ShowsSubject L) L.subjects rows
  events : ∃ g, s.projections.activeProjectionGeneration .eventCursor = .ok g ∧
    g.sourceSequence = L.lastTransactionSequence ∧
    (s.projections.storedEvents g.generationId).Perm
      ((L.occurrences.filter fun o => o.occurrenceType = .event).map DurableOccurrence.projected)

theorem Sound.activeVerify (hs : Sound digest s) : ActiveVerify digest s := by
  intro name
  obtain ⟨g, hactive, hkept⟩ := hs.projected name
  exact ⟨g, hactive, hkept.verifies⟩

/-- The subjects of a well-kept ledger, derived. -/
theorem subjectsOf_last (hL : WellKept L) :
    ∃ rows, (subjectsOf L L.lastTransactionSequence .subjectLookup).Perm rows ∧
      List.Forall₂ (ShowsSubject L) L.subjects rows := by
  have hall : (L.subjects.filter fun subject =>
      subject.createdTransactionSequence ≤ L.lastTransactionSequence) = L.subjects := by
    refine List.filter_eq_self.mpr fun subject hsubject => decide_eq_true ?_
    obtain ⟨command, hmem, -⟩ := hL.created subject hsubject
    exact hL.bounded _ hmem
  refine ⟨(L.subjects.flatMap L.sourcesOf).map SubjectSource.projected, ?_, ?_⟩
  · unfold subjectsOf Ledger.subjectProjectionSources
    rw [hall]
    exact (List.perm_insertionSort _ _).map _
  · refine List.forall₂_map_right_iff.mpr ((forall₂_sourcesOf hL (List.Subset.refl _)).imp ?_)
    rintro subject source ⟨rfl, hcreation⟩
    exact ⟨source.creation, hcreation, rfl⟩

/-- The events of a well-kept ledger, derived. -/
theorem eventsOf_last (hL : WellKept L) :
    (eventsOf L L.lastTransactionSequence .eventCursor).Perm
      ((L.occurrences.filter fun o => o.occurrenceType = .event).map
        DurableOccurrence.projected) := by
  have hall : ((L.occurrences.filter fun o => o.occurrenceType = .event).filter fun o =>
      o.transactionSequence ≤ L.lastTransactionSequence) =
        L.occurrences.filter fun o => o.occurrenceType = .event :=
    List.filter_eq_self.mpr fun o ho =>
      decide_eq_true (hL.below o (List.mem_of_mem_filter ho))
  unfold eventsOf
  rw [eventProjectionSources_eq hL.toIndexed, hall]
  exact (List.perm_insertionSort _ _).map _

/-- **What is built and published restores the projections.** -/
theorem Restored.ofPublished (hdigest : ∀ v, Patterns.sha256Digest.test (digest v) = true)
    (hL : WellKept L) (hP : Referential P) (h : buildAndPublish digest L build P = .ok P') :
    Restored L ⟨L, P'⟩ := by
  obtain ⟨hfresh, rfl⟩ := (buildAndPublish_eq_ok hL hP).mp h
  have hactive := active_published hdigest hL hP hfresh
  refine ⟨rfl, ⟨_, (hactive .subjectLookup).1, rfl, ?_⟩, ⟨_, (hactive .eventCursor).1, rfl, ?_⟩⟩
  · rw [(hactive .subjectLookup).2.stored.1]
    exact subjectsOf_last hL
  · rw [(hactive .eventCursor).2.stored.2]
    exact eventsOf_last hL

/-- **A rebuild restores exactly what the ledger holds.** On the ledger of any run, whatever the
tables of the projections hold, a repair commits, and a rebuild does when the catalog is as it
should be; afterwards the ledger is the same, the projections show exactly it, and the active
generations pass every check then and after every command that follows. -/
theorem projections_restored {digest : Json → String}
    (hdigest : ∀ v, Patterns.sha256Digest.test (digest v) = true) {input : Initialization}
    {s₀ : ControlState} (h₀ : initializeControlPlane digest input = .ok s₀)
    (commands : List ControlCommand) (L : Ledger)
    (hL : L = ((controlLedger digest s₀).run commands).ledger) :
    (∀ subject ∈ L.subjects, ∃ o ∈ L.occurrences,
      o.occurrenceType = .record ∧ Ledger.createdIn subject o = true) ∧
    (∀ P build name, Referential P →
      build.generationId name ∉ P.generations.map Generation.generationId →
        ∃ out, buildProjectionShadow digest L name L.lastTransactionSequence build P = .ok out) ∧
    (∀ P build, build.generationId .subjectLookup ≠ build.generationId .eventCursor →
      ∃ s', repairProjections digest ⟨L, P⟩ build = .ok s') ∧
    (∀ P build, Referential P → Fresh build P → verifyProjectionCatalog ⟨L, P⟩ = .ok () →
      ∃ s', rebuildProjections digest ⟨L, P⟩ build = .ok s') ∧
    (∀ P build s', repairProjections digest ⟨L, P⟩ build = .ok s' ∨
        Referential P ∧ rebuildProjections digest ⟨L, P⟩ build = .ok s' →
      Restored L s' ∧ ∀ more, ActiveVerify digest ((controlLedger digest s').run more)) := by
  have hkept : WellKept L := by
    rw [hL]
    exact ((Sound.ofInitialized hdigest h₀).runs hdigest commands).ledger
  refine ⟨fun subject hsubject => hkept.founded subject hsubject, ?_, ?_, ?_, ?_⟩
  · intro P build name hP hfresh
    exact ⟨_, buildProjectionShadow_of_fresh hkept hP hfresh⟩
  · intro P build hdistinct
    have hfresh : Fresh build .empty := ⟨fun _ => List.not_mem_nil, hdistinct⟩
    exact ⟨_, except_bind_eq_ok.mpr
      ⟨_, (buildAndPublish_eq_ok hkept .empty).mpr ⟨hfresh, rfl⟩, rfl⟩⟩
  · intro P build hP hfresh hcatalog
    exact ⟨_, except_bind_eq_ok.mpr ⟨(), hcatalog, except_bind_eq_ok.mpr
      ⟨_, (buildAndPublish_eq_ok hkept hP).mpr ⟨hfresh, rfl⟩, rfl⟩⟩⟩
  · intro P build s' h
    -- either way the projections were built from the ledger, next to tables that are in order
    obtain ⟨P₀, P', hP₀, hbuilt, rfl⟩ : ∃ P₀ P', Referential P₀ ∧
        buildAndPublish digest L build P₀ = .ok P' ∧ s' = ⟨L, P'⟩ := by
      rcases h with h | ⟨hP, h⟩
      · obtain ⟨P', hbuilt, h⟩ := except_bind_eq_ok.mp h
        exact ⟨.empty, P', .empty, hbuilt, (except_pure_eq_ok.mp h).symm⟩
      · obtain ⟨_, -, h⟩ := except_bind_eq_ok.mp h
        obtain ⟨P', hbuilt, h⟩ := except_bind_eq_ok.mp h
        exact ⟨P, P', hP, hbuilt, (except_pure_eq_ok.mp h).symm⟩
    refine ⟨.ofPublished hdigest hkept hP₀ hbuilt, fun more => ?_⟩
    exact ((Sound.ofPublished hdigest hkept hP₀ hbuilt).runs hdigest more).activeVerify

/-! ### A database that is initialized -/

/-- An identity with a digit. -/
def identityAt (n : ℕ) : String :=
  "00000000-0000-7000-8000-00000000000" ++ String.ofList [Nat.digitChar n]

/-- A digest that is always the same. -/
def constantDigest (_ : Json) : String :=
  "sha256:0000000000000000000000000000000000000000000000000000000000000000"

theorem constantDigest_test (v : Json) :
    Patterns.sha256Digest.test (constantDigest v) = true := by
  show Patterns.sha256Digest.test (constantDigest .null) = true
  decide +kernel

/-- What the first command is called with. -/
def firstCall : Call where
  recordId := identityAt
  payloadDigest _ := constantDigest .null
  correlationId := identityAt 3
  recordedAt := Calendar.Instant.greatest
  snapshotId := ""
  repositoryId := ""
  hookSubjectId := ""
  pullRequestId := ""

/-- What the second command is called with. -/
def secondCall : Call := { firstCall with recordId := fun n => identityAt (n + 8) }

/-- A database of its own. -/
def firstInitialization : Initialization where
  databaseLineageId := identityAt 4
  operatorPrincipalId := identityAt 5
  call := firstCall
  build :=
    { generationId := fun
        | .subjectLookup => identityAt 6
        | .eventCursor => identityAt 7
      evaluationTime := Calendar.Instant.greatest
      uuid := fun name => by cases name <;> decide +kernel }

/-- The database is initialized. -/
theorem initializeControlPlane_firstInitialization :
    ∃ s₀, initializeControlPlane constantDigest firstInitialization = .ok s₀ := by
  obtain ⟨L, hL⟩ : ∃ L : Ledger, Ledger.record ⟨identityAt 4, identityAt 5, 0, [], [], [], [], []⟩
      .initializeControlPlane firstCall = .ok L := ⟨_, rfl⟩
  obtain ⟨new, hnew⟩ := record_eq_ok hL
  have hkept := hnew.wellKept (.inr ⟨rfl, rfl, rfl, rfl, rfl⟩)
  have hfresh : Fresh firstInitialization.build .empty :=
    ⟨fun _ => List.not_mem_nil, by decide⟩
  exact ⟨_, except_bind_eq_ok.mpr ⟨L, hL, except_bind_eq_ok.mpr
    ⟨_, (buildAndPublish_eq_ok hkept .empty).mpr ⟨hfresh, rfl⟩, rfl⟩⟩⟩

/-- Its integrity is checked, its projections are lost and repaired, and they verify. -/
theorem projections_restored_sample :
    ∃ s₀, initializeControlPlane constantDigest firstInitialization = .ok s₀ ∧
      ∃ s', repairProjections constantDigest ⟨((controlLedger constantDigest s₀).run
        [.write .checkIntegrity rfl secondCall]).ledger, .empty⟩ firstInitialization.build = .ok s' ∧
      ActiveVerify constantDigest ((controlLedger constantDigest s').run []) := by
  obtain ⟨s₀, h₀⟩ := initializeControlPlane_firstInitialization
  obtain ⟨-, -, hrepair, -, hrestored⟩ := projections_restored constantDigest_test h₀
    [.write .checkIntegrity rfl secondCall] _ rfl
  obtain ⟨s', hs'⟩ := hrepair .empty firstInitialization.build (by decide)
  exact ⟨s₀, h₀, s', hs', (hrestored .empty firstInitialization.build s' (.inl hs')).2 []⟩

end Snowcat.Projections
