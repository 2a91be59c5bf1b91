import Snowcat.Control.Ledger
import Snowcat.Lib.Join

/-!
# What the ledger keeps

Every command that inserts a subject inserts a record of it in the same
transaction, and no command that is pruned inserts one (`WellKept.record`,
`WellKept.deleteTransactions`). So in a ledger that commands have written every
subject has a record of its own in exactly the transaction that created it
(`WellKept.founded`), and the join that the subjects are projected from has one
row for each (`forall₂_sourcesOf`).
-/

namespace Snowcat.Projections

variable {L L' : Ledger} {command : CommandKind} {call : Call} {subject : Subject}
  {o : DurableOccurrence}

/-- What a subject is known by. -/
def Subject.key (subject : Subject) : SubjectKind × String := (subject.kind, subject.subjectId)

theorem SubjectKind.text_injective : Function.Injective SubjectKind.text := by
  intro a b h
  cases a <;> cases b <;> first | rfl | exact absurd h (by decide)

/-- **The tables of the occurrences belong together**: the records are the occurrences that are
records, and the events are those that are events. -/
structure Indexed (L : Ledger) : Prop where
  recordIds : (L.occurrences.map DurableOccurrence.recordId).Nodup
  keys : (L.occurrences.map DurableOccurrence.key).Nodup
  records : L.records.map Prod.fst =
    (L.occurrences.filter fun o => o.occurrenceType = .record).map DurableOccurrence.recordId
  events : L.events =
    (L.occurrences.filter fun o => o.occurrenceType = .event).map DurableOccurrence.recordId

/-- **A well-kept ledger.** -/
structure WellKept (L : Ledger) : Prop extends Indexed L where
  positive : 1 ≤ L.lastTransactionSequence
  numbered : (L.transactions.map Prod.fst).Nodup
  bounded : ∀ transaction ∈ L.transactions, transaction.1 ≤ L.lastTransactionSequence
  below : ∀ o ∈ L.occurrences, o.transactionSequence ≤ L.lastTransactionSequence
  subjects : (L.subjects.map Subject.key).Nodup
  /-- No check of the Core creates a subject. -/
  created : ∀ subject ∈ L.subjects, ∃ command : CommandKind,
    (subject.createdTransactionSequence, command) ∈ L.transactions ∧
      command.isCheckDetail = false
  /-- Every subject has a record of its own in the transaction that created it. -/
  founded : ∀ subject ∈ L.subjects, ∃ o ∈ L.occurrences,
    o.occurrenceType = .record ∧ Ledger.createdIn subject o = true

theorem createdIn_iff : Ledger.createdIn subject o = true ↔
    o.subjectKind = subject.kind.text ∧ o.subjectId = subject.subjectId ∧
      o.transactionSequence = subject.createdTransactionSequence := by
  unfold Ledger.createdIn
  rw [Bool.and_eq_true, Bool.and_eq_true, decide_eq_true_eq, decide_eq_true_eq, decide_eq_true_eq,
    and_assoc]

/-! ## One transaction -/

/-- **What inserting subjects does.** -/
structure AddsSubjects (sequence : ℕ) (id : SubjectKind → String) (kinds : List SubjectKind)
    (new : List Subject) (L L' : Ledger) : Prop where
  eq : L' = { L with subjects := L.subjects ++ new }
  of : ∀ subject ∈ new, subject.kind ∈ kinds ∧ subject.subjectId = id subject.kind ∧
    subject.createdTransactionSequence = sequence
  nodup : (L.subjects.map Subject.key).Nodup → (L'.subjects.map Subject.key).Nodup

theorem hasSubject_eq_false {kind : SubjectKind} {subjectId : String}
    (h : L.hasSubject kind.text subjectId = false) :
    ∀ subject ∈ L.subjects, subject.key ≠ (kind, subjectId) := by
  intro subject hsubject heq
  have hany : L.hasSubject kind.text subjectId = true := by
    refine List.any_eq_true.mpr ⟨subject, hsubject, ?_⟩
    rw [Bool.and_eq_true, decide_eq_true_eq, decide_eq_true_eq]
    exact ⟨congrArg SubjectKind.text (congrArg Prod.fst heq), congrArg Prod.snd heq⟩
  rw [h] at hany
  exact Bool.noConfusion hany

theorem insertSubject_eq_ok {sequence : ℕ} {kind : SubjectKind} {id : SubjectKind → String}
    (h : L.insertSubject sequence kind (id kind) = .ok L') :
    AddsSubjects sequence id [kind] [⟨kind, id kind, sequence⟩] L L' := by
  simp only [Ledger.insertSubject, except_bind_eq_ok, refuseIf_eq_ok, except_pure_eq_ok,
    Bool.not_eq_true] at h
  obtain ⟨_, hfresh, rfl⟩ := h
  refine ⟨rfl, ?_, fun hnodup => ?_⟩
  · intro subject hsubject
    rw [List.mem_singleton.mp hsubject]
    exact ⟨List.mem_singleton_self _, rfl, rfl⟩
  · show ((L.subjects ++ [_]).map Subject.key).Nodup
    rw [List.map_append, List.map_singleton, List.nodup_append_comm]
    refine List.nodup_cons.mpr ⟨fun hmem => ?_, hnodup⟩
    obtain ⟨old, hold, heq⟩ := List.mem_map.mp hmem
    exact hasSubject_eq_false hfresh old hold heq

theorem ensureSubject_eq_ok {sequence : ℕ} {kind : SubjectKind} {id : SubjectKind → String}
    (h : L.ensureSubject sequence kind (id kind) = .ok L') :
    ∃ new, AddsSubjects sequence id [kind] new L L' := by
  unfold Ledger.ensureSubject at h
  split at h
  · refine ⟨[], ?_, List.forall_mem_nil _, ?_⟩
    · rw [← Except.ok.inj h, List.append_nil]
    · rw [← Except.ok.inj h]
      exact fun hnodup => hnodup
  · exact ⟨_, insertSubject_eq_ok h⟩

/-- Subjects are inserted one after another. -/
theorem foldlM_addsSubjects {sequence : ℕ} {id : SubjectKind → String}
    {f : Ledger → SubjectKind → Except ControlError Ledger}
    (hf : ∀ {L L' kind}, f L kind = .ok L' → ∃ new, AddsSubjects sequence id [kind] new L L')
    {kinds : List SubjectKind} (h : kinds.foldlM f L = .ok L') :
    ∃ new, AddsSubjects sequence id kinds new L L' := by
  induction kinds generalizing L with
  | nil =>
    obtain rfl := Except.ok.inj h
    exact ⟨[], by rw [List.append_nil], List.forall_mem_nil _, fun hnodup => hnodup⟩
  | cons kind kinds ih =>
    rw [List.foldlM_cons, except_bind_eq_ok] at h
    obtain ⟨M, hM, h⟩ := h
    obtain ⟨new, heq, hof, hnodup⟩ := hf hM
    obtain ⟨more, heq', hof', hnodup'⟩ := ih h
    refine ⟨new ++ more, ?_, ?_, fun h => hnodup' (hnodup h)⟩
    · rw [heq', heq, List.append_assoc]
    · intro subject hsubject
      rcases List.mem_append.mp hsubject with hsubject | hsubject
      · obtain ⟨hkind, hrest⟩ := hof subject hsubject
        exact ⟨List.mem_singleton.mp hkind ▸ List.mem_cons_self, hrest⟩
      · obtain ⟨hkind, hrest⟩ := hof' subject hsubject
        exact ⟨List.mem_cons_of_mem _ hkind, hrest⟩

/-- **What inserting occurrences does.** -/
structure AddsOccurrences (inputs : List (DurableOccurrence × Option RecordClass))
    (L L' : Ledger) : Prop where
  eq : ∃ records events, L' = { L with
      occurrences := L.occurrences ++ inputs.map Prod.fst
      records := L.records ++ records
      events := L.events ++ events } ∧
    ∀ row ∈ records, row.1 ∈ inputs.map fun input => input.1.recordId
  indexed : Indexed L → Indexed L'

theorem insertOccurrence_eq_ok {input : DurableOccurrence × Option RecordClass}
    (h : L.insertOccurrence input = .ok L') : AddsOccurrences [input] L L' := by
  obtain ⟨o, recordClass⟩ := input
  simp only [Ledger.insertOccurrence, except_bind_eq_ok, refuseIf_eq_ok, not_exists, not_and] at h
  obtain ⟨_, hids, _, hkeys, _, -, h⟩ := h
  have hnodup : ∀ {κ : Type} {f : DurableOccurrence → κ}, (L.occurrences.map f).Nodup →
      (∀ old ∈ L.occurrences, ¬ f old = f o) → ((L.occurrences ++ [o]).map f).Nodup := by
    intro κ f hL hnew
    rw [List.map_append, List.map_singleton, List.nodup_append_comm]
    refine List.nodup_cons.mpr ⟨fun hmem => ?_, hL⟩
    obtain ⟨old, hold, heq⟩ := List.mem_map.mp hmem
    exact hnew old hold heq
  have hsplit : ∀ type, ((L.occurrences ++ [o]).filter fun o => o.occurrenceType = type).map
      DurableOccurrence.recordId = (L.occurrences.filter fun o => o.occurrenceType = type).map
        DurableOccurrence.recordId ++ if o.occurrenceType = type then [o.recordId] else [] := by
    intro type
    rw [List.filter_append, List.map_append, List.filter_singleton]
    by_cases htype : o.occurrenceType = type
    · rw [if_pos htype, decide_eq_true htype]
      rfl
    · rw [if_neg htype, decide_eq_false htype]
      rfl
  cases htype : o.occurrenceType with
  | record =>
    cases recordClass with
    | none =>
      rw [htype] at h
      cases h
    | some recordClass =>
      rw [htype] at h
      obtain rfl := Except.ok.inj h
      refine ⟨⟨[(o.recordId, recordClass)], [], ?_, ?_⟩, fun hL => ?_⟩
      · rw [List.append_nil]
        rfl
      · exact List.forall_mem_singleton.mpr (List.mem_singleton_self _)
      · refine ⟨hnodup hL.recordIds hids, hnodup hL.keys hkeys, ?_, ?_⟩
        · refine Eq.trans ?_ (hsplit .record).symm
          rw [List.map_append, hL.records, if_pos htype]
          rfl
        · refine Eq.trans ?_ (hsplit .event).symm
          rw [htype, if_neg (by decide), List.append_nil]
          exact hL.events
  | event =>
    rw [htype] at h
    have heq : L' = { L with
        occurrences := L.occurrences ++ [o], events := L.events ++ [o.recordId] } := by
      cases recordClass <;> exact (Except.ok.inj h).symm
    subst heq
    refine ⟨⟨[], [o.recordId], ?_, List.forall_mem_nil _⟩, fun hL => ?_⟩
    · rw [List.append_nil]
      rfl
    · refine ⟨hnodup hL.recordIds hids, hnodup hL.keys hkeys, ?_, ?_⟩
      · refine Eq.trans ?_ (hsplit .record).symm
        rw [htype, if_neg (by decide), List.append_nil]
        exact hL.records
      · refine Eq.trans ?_ (hsplit .event).symm
        rw [if_pos htype, hL.events]

/-- Occurrences are inserted one after another. -/
theorem foldlM_insertOccurrence {inputs : List (DurableOccurrence × Option RecordClass)}
    (h : inputs.foldlM Ledger.insertOccurrence L = .ok L') : AddsOccurrences inputs L L' := by
  induction inputs generalizing L with
  | nil =>
    obtain rfl := Except.ok.inj h
    refine ⟨⟨[], [], ?_, List.forall_mem_nil _⟩, fun hL => hL⟩
    rw [List.map_nil, List.append_nil, List.append_nil, List.append_nil]
  | cons input inputs ih =>
    rw [List.foldlM_cons, except_bind_eq_ok] at h
    obtain ⟨M, hM, h⟩ := h
    obtain ⟨⟨records, events, heq, hof⟩, hindexed⟩ := insertOccurrence_eq_ok hM
    obtain ⟨⟨records', events', heq', hof'⟩, hindexed'⟩ := ih h
    refine ⟨⟨records ++ records', events ++ events', ?_, ?_⟩, fun hL => hindexed' (hindexed hL)⟩
    · rw [heq', heq, List.map_cons]
      simp only [List.append_assoc, List.map_cons, List.map_nil, List.cons_append, List.nil_append]
    · intro row hrow
      rcases List.mem_append.mp hrow with hrow | hrow
      · rw [List.mem_singleton.mp (hof row hrow)]
        exact List.mem_cons_self
      · exact List.mem_cons_of_mem _ (hof' row hrow)

/-- **What the transaction of a command does.** -/
structure Recorded (command : CommandKind) (call : Call) (new : List Subject) (L L' : Ledger) :
    Prop where
  last : L'.lastTransactionSequence = L.lastTransactionSequence + 1
  transactions : L'.transactions =
    L.transactions ++ [(L.lastTransactionSequence + 1, command)]
  subjects : L'.subjects = L.subjects ++ new
  occurrences : L'.occurrences = L.occurrences ++
    (L.occurrencesOf command call (L.lastTransactionSequence + 1)).map Prod.fst
  records : ∃ more, L'.records = L.records ++ more ∧ ∀ row ∈ more, row.1 ∈
    (L.occurrencesOf command call (L.lastTransactionSequence + 1)).map fun input => input.1.recordId
  of : ∀ subject ∈ new, subject.kind ∈ command.inserts ++ command.ensures ∧
    subject.subjectId = L.subjectId call subject.kind ∧
    subject.createdTransactionSequence = L.lastTransactionSequence + 1
  nodup : (L.subjects.map Subject.key).Nodup → (L'.subjects.map Subject.key).Nodup
  indexed : Indexed L → Indexed L'

theorem record_eq_ok (h : L.record command call = .ok L') :
    ∃ new, Recorded command call new L L' := by
  simp only [Ledger.record, except_bind_eq_ok, except_pure_eq_ok] at h
  obtain ⟨inserted, hinserted, ensured, hensured, written, hwritten, rfl⟩ := h
  obtain ⟨new, heq, hof, hnodup⟩ := @foldlM_addsSubjects _ _ _ (L.subjectId call) _
    (fun h => ⟨_, insertSubject_eq_ok h⟩) _ hinserted
  obtain ⟨more, heq', hof', hnodup'⟩ := @foldlM_addsSubjects _ _ _ (L.subjectId call) _
    (fun h => ensureSubject_eq_ok h) _ hensured
  obtain ⟨⟨records, events, heq'', hrecords⟩, hindexed⟩ := foldlM_insertOccurrence hwritten
  subst heq
  subst heq'
  subst heq''
  refine ⟨new ++ more, rfl, rfl, List.append_assoc _ _ _, rfl, ⟨records, rfl, hrecords⟩, ?_,
    fun h => hnodup' (hnodup h), fun hL => ?_⟩
  · intro subject hsubject
    rcases List.mem_append.mp hsubject with hsubject | hsubject
    · obtain ⟨hkind, hrest⟩ := hof subject hsubject
      exact ⟨List.mem_append_left _ hkind, hrest⟩
    · obtain ⟨hkind, hrest⟩ := hof' subject hsubject
      exact ⟨List.mem_append_right _ hkind, hrest⟩
  · obtain ⟨hids, hkeys, hrecords, hevents⟩ :=
      hindexed ⟨hL.recordIds, hL.keys, hL.records, hL.events⟩
    exact ⟨hids, hkeys, hrecords, hevents⟩

/-- A command that inserts subjects of a kind inserts a record of that kind. -/
theorem exists_output_of_inserts {kind : SubjectKind}
    (h : kind ∈ command.inserts ++ command.ensures) :
    ∃ output ∈ command.outputs, output.recordClass.isSome = true ∧ output.subjectKind = kind := by
  cases command <;> cases kind <;> revert h <;> decide

theorem inserts_of_isCheckDetail (h : command.isCheckDetail = true) :
    command.inserts ++ command.ensures = [] := by
  cases command <;> first | rfl | exact nomatch h

theorem mem_occurrencesOf {sequence : ℕ} {input : DurableOccurrence × Option RecordClass}
    (h : input ∈ L.occurrencesOf command call sequence) :
    input.1.transactionSequence = sequence := by
  obtain ⟨⟨output, position⟩, -, rfl⟩ := List.mem_map.mp h
  rfl

/-- What a command inserts of an output. -/
theorem exists_mem_occurrencesOf {sequence : ℕ} {output : Output}
    (h : output ∈ command.outputs) (hclass : output.recordClass.isSome = true) :
    ∃ o ∈ (L.occurrencesOf command call sequence).map Prod.fst, o.occurrenceType = .record ∧
      o.subjectKind = output.subjectKind.text ∧
      o.subjectId = L.subjectId call output.subjectKind ∧ o.transactionSequence = sequence := by
  obtain ⟨position, hlt, rfl⟩ := List.mem_iff_getElem.mp h
  have hposition := List.mk_mem_zipIdx_iff_getElem?.mpr (List.getElem?_eq_getElem hlt)
  exact ⟨_, List.mem_map.mpr ⟨_, List.mem_map.mpr ⟨_, hposition, rfl⟩, rfl⟩, if_pos hclass, rfl, rfl,
    rfl⟩

section Recorded

variable {new : List Subject}

/-- The occurrences of a transaction are behind those that are there. -/
theorem Recorded.behind (_ : Recorded command call new L L') {o : DurableOccurrence}
    (ho : o ∈ (L.occurrencesOf command call (L.lastTransactionSequence + 1)).map Prod.fst) :
    o.transactionSequence = L.lastTransactionSequence + 1 := by
  obtain ⟨input, hinput, rfl⟩ := List.mem_map.mp ho
  exact mem_occurrencesOf hinput

/-- The subjects that a transaction creates have a record in it. -/
theorem Recorded.founded (h : Recorded command call new L L') (hsubject : subject ∈ new) :
    ∃ o ∈ L'.occurrences, o.occurrenceType = .record ∧ Ledger.createdIn subject o = true := by
  obtain ⟨hkind, hid, hsequence⟩ := h.of subject hsubject
  obtain ⟨output, houtput, hclass, houtputKind⟩ := exists_output_of_inserts hkind
  obtain ⟨o, ho, htype, hokind, hoid, hosequence⟩ :=
    @exists_mem_occurrencesOf L command call (L.lastTransactionSequence + 1) output houtput hclass
  rw [h.occurrences]
  refine ⟨o, List.mem_append_right _ ho, htype, createdIn_iff.mpr ⟨?_, ?_, ?_⟩⟩
  · rw [hokind, houtputKind]
  · rw [hoid, houtputKind, hid]
  · rw [hosequence, hsequence]

/-- **A transaction keeps the ledger well.** A new one is well kept from its first. -/
theorem Recorded.wellKept (h : Recorded command call new L L')
    (hL : WellKept L ∨ L.transactions = [] ∧ L.subjects = [] ∧ L.occurrences = [] ∧
      L.records = [] ∧ L.events = []) : WellKept L' := by
  -- what the tables keep of an empty ledger they keep of any that is well kept
  have hindexed : Indexed L := by
    rcases hL with hL | ⟨-, -, ho, hr, he⟩
    · exact hL.toIndexed
    · refine ⟨?_, ?_, ?_, ?_⟩
      · rw [ho]; exact List.nodup_nil
      · rw [ho]; exact List.nodup_nil
      · rw [ho, hr]; rfl
      · rw [ho, he]; rfl
  have hnumbered : (L.transactions.map Prod.fst).Nodup ∧
      ∀ transaction ∈ L.transactions, transaction.1 ≤ L.lastTransactionSequence := by
    rcases hL with hL | ⟨ht, -⟩
    · exact ⟨hL.numbered, hL.bounded⟩
    · rw [ht]
      exact ⟨List.nodup_nil, List.forall_mem_nil _⟩
  have hbelow : ∀ o ∈ L.occurrences, o.transactionSequence ≤ L.lastTransactionSequence := by
    rcases hL with hL | ⟨-, -, ho, -⟩
    · exact hL.below
    · rw [ho]
      exact List.forall_mem_nil _
  have hsubjects : (L.subjects.map Subject.key).Nodup ∧ ∀ subject ∈ L.subjects,
      (∃ command : CommandKind, (subject.createdTransactionSequence, command) ∈ L.transactions ∧
        command.isCheckDetail = false) ∧
      ∃ o ∈ L.occurrences, o.occurrenceType = .record ∧ Ledger.createdIn subject o = true := by
    rcases hL with hL | ⟨-, hs, -⟩
    · exact ⟨hL.subjects, fun subject hs => ⟨hL.created subject hs, hL.founded subject hs⟩⟩
    · rw [hs]
      exact ⟨List.nodup_nil, List.forall_mem_nil _⟩
  obtain ⟨hids, hkeys, hrecords, hevents⟩ := h.indexed hindexed
  refine ⟨⟨hids, hkeys, hrecords, hevents⟩, ?_, ?_, ?_, ?_, h.nodup hsubjects.1, ?_, ?_⟩
  · rw [h.last]
    exact Nat.le_add_left 1 _
  · rw [h.transactions, List.map_append, List.map_singleton, List.nodup_append_comm]
    refine List.nodup_cons.mpr ⟨fun hmem => ?_, hnumbered.1⟩
    obtain ⟨transaction, htransaction, heq⟩ := List.mem_map.mp hmem
    have := hnumbered.2 transaction htransaction
    omega
  · rw [h.transactions, h.last]
    intro transaction htransaction
    rcases List.mem_append.mp htransaction with htransaction | htransaction
    · exact (hnumbered.2 transaction htransaction).trans (Nat.le_succ _)
    · rw [List.mem_singleton.mp htransaction]
  · rw [h.occurrences, h.last]
    intro o ho
    rcases List.mem_append.mp ho with ho | ho
    · exact (hbelow o ho).trans (Nat.le_succ _)
    · exact (h.behind ho).le
  · rw [h.subjects, h.transactions]
    intro subject hsubject
    rcases List.mem_append.mp hsubject with hsubject | hsubject
    · obtain ⟨creator, hmem, hdetail⟩ := (hsubjects.2 subject hsubject).1
      exact ⟨creator, List.mem_append_left _ hmem, hdetail⟩
    · obtain ⟨hkind, -, hsequence⟩ := h.of subject hsubject
      refine ⟨command, ?_, ?_⟩
      · rw [hsequence]
        exact List.mem_append_right _ (List.mem_singleton_self _)
      · by_contra hdetail
        rw [Bool.not_eq_false] at hdetail
        rw [inserts_of_isCheckDetail hdetail] at hkind
        exact nomatch hkind
  · intro subject hsubject
    rw [h.subjects] at hsubject
    rcases List.mem_append.mp hsubject with hsubject | hsubject
    · obtain ⟨o, ho, hcreated⟩ := (hsubjects.2 subject hsubject).2
      rw [h.occurrences]
      exact ⟨o, List.mem_append_left _ ho, hcreated⟩
    · exact h.founded hsubject

end Recorded

/-! ## Deleting transactions -/

/-- **Deleting a check keeps the ledger well**: it created no subject. -/
theorem WellKept.deleteTransaction {sequence : ℕ} (hL : WellKept L)
    (hdetail : ∀ command, (sequence, command) ∈ L.transactions → command.isCheckDetail = true) :
    WellKept (L.deleteTransaction sequence) := by
  have hcontains : ∀ o ∈ L.occurrences, ((L.occurrences.filter fun o =>
      o.transactionSequence = sequence).map DurableOccurrence.recordId).contains o.recordId =
        decide (o.transactionSequence = sequence) := by
    intro o ho
    rw [Bool.eq_iff_iff, List.contains_iff_mem, decide_eq_true_eq, List.mem_map]
    constructor
    · rintro ⟨other, hother, heq⟩
      obtain ⟨hmem, hsequence⟩ := List.mem_filter.mp hother
      rw [List.inj_on_of_nodup_map hL.recordIds hmem ho heq] at hsequence
      exact of_decide_eq_true hsequence
    · exact fun h => ⟨o, List.mem_filter.mpr ⟨ho, decide_eq_true h⟩, rfl⟩
  -- what is kept of the identities of some occurrences
  have hkept : ∀ p : DurableOccurrence → Bool,
      ((L.occurrences.filter p).map DurableOccurrence.recordId).filter (fun recordId =>
        !((L.occurrences.filter fun o => o.transactionSequence = sequence).map
          DurableOccurrence.recordId).contains recordId) =
      ((L.deleteTransaction sequence).occurrences.filter p).map DurableOccurrence.recordId := by
    intro p
    rw [List.filter_map]
    show _ = ((L.occurrences.filter fun o => decide (o.transactionSequence ≠ sequence)).filter
      p).map _
    rw [List.filter_comm]
    refine congrArg (fun os => (List.filter p os).map _) (List.filter_congr fun o ho => ?_)
    show (!List.contains _ o.recordId) = _
    rw [hcontains o ho, decide_not]
  have hcreated : ∀ subject ∈ L.subjects, subject.createdTransactionSequence ≠ sequence := by
    rintro subject hsubject rfl
    obtain ⟨command, hmem, hnot⟩ := hL.created subject hsubject
    rw [hdetail command hmem] at hnot
    exact Bool.noConfusion hnot
  refine ⟨⟨?_, ?_, ?_, ?_⟩, hL.positive, ?_, ?_, ?_, hL.subjects, ?_, ?_⟩
  · exact hL.recordIds.sublist (List.filter_sublist.map _)
  · exact hL.keys.sublist (List.filter_sublist.map _)
  · rw [← hkept, ← hL.records, List.filter_map]
    rfl
  · rw [← hkept, ← hL.events]
    rfl
  · exact hL.numbered.sublist (List.filter_sublist.map _)
  · exact fun transaction h => hL.bounded transaction (List.mem_of_mem_filter h)
  · exact fun o ho => hL.below o (List.mem_of_mem_filter ho)
  · intro subject hsubject
    obtain ⟨command, hmem, hnot⟩ := hL.created subject hsubject
    exact ⟨command, List.mem_filter.mpr ⟨hmem, decide_eq_true (hcreated subject hsubject)⟩, hnot⟩
  · intro subject hsubject
    obtain ⟨o, ho, htype, hin⟩ := hL.founded subject hsubject
    refine ⟨o, List.mem_filter.mpr ⟨ho, decide_eq_true ?_⟩, htype, hin⟩
    rw [(createdIn_iff.mp hin).2.2]
    exact hcreated subject hsubject

/-- Checks are deleted one after another. -/
theorem WellKept.deleteTransactions {sequences : List ℕ} (hL : WellKept L)
    (hdetail : ∀ sequence ∈ sequences, ∀ command, (sequence, command) ∈ L.transactions →
      command.isCheckDetail = true) :
    WellKept (sequences.foldl Ledger.deleteTransaction L) := by
  induction sequences generalizing L with
  | nil => exact hL
  | cons sequence sequences ih =>
    obtain ⟨hfirst, hrest⟩ := List.forall_mem_cons.mp hdetail
    exact ih (hL.deleteTransaction hfirst) fun other hother command hmem =>
      hrest other hother command (List.mem_of_mem_filter hmem)

/-- What a prune chooses from are checks. -/
theorem isCheckDetail_of_mem {sequence : ℕ} (hL : WellKept L)
    (h : sequence ∈ L.checkDetails.map Prod.fst) :
    ∀ command, (sequence, command) ∈ L.transactions → command.isCheckDetail = true := by
  intro command hmem
  obtain ⟨history, hhistory, rfl⟩ := List.mem_map.mp h
  obtain ⟨transaction, htransaction, rfl⟩ := List.mem_map.mp (List.mem_of_mem_filter hhistory)
  obtain ⟨hin, hdetail⟩ := List.mem_filter.mp htransaction
  have hsame := List.inj_on_of_nodup_map hL.numbered hmem hin rfl
  rw [← hsame] at hdetail
  exact hdetail

/-! ## The sources of the projections -/

/-- **The first record of a subject**, in the transaction that created it. -/
structure IsCreation (L : Ledger) (subject : Subject) (o : DurableOccurrence) : Prop where
  mem : o ∈ L.occurrences
  isRecord : o.occurrenceType = .record
  createdIn : Ledger.createdIn subject o = true
  first : ∀ other ∈ L.occurrences, other.occurrenceType = .record →
    Ledger.createdIn subject other = true → o.transactionPosition ≤ other.transactionPosition

theorem any_records_iff (hL : Indexed L) (ho : o ∈ L.occurrences) :
    (L.records.any fun row => row.1 = o.recordId) = true ↔ o.occurrenceType = .record := by
  have hmem : (L.records.any fun row => row.1 = o.recordId) = true ↔
      o.recordId ∈ L.records.map Prod.fst := by
    rw [List.any_eq_true, List.mem_map]
    exact exists_congr fun row => and_congr_right fun _ => decide_eq_true_iff
  rw [hmem, hL.records, List.mem_map]
  constructor
  · rintro ⟨other, hother, heq⟩
    obtain ⟨hin, htype⟩ := List.mem_filter.mp hother
    rw [List.inj_on_of_nodup_map hL.recordIds hin ho heq] at htype
    exact of_decide_eq_true htype
  · exact fun htype => ⟨o, List.mem_filter.mpr ⟨ho, decide_eq_true htype⟩, rfl⟩

/-- **A subject has one row in the join**, with its first record. -/
theorem sourcesOf_eq (hL : WellKept L) (hsubject : subject ∈ L.subjects) :
    ∃ source, L.sourcesOf subject = [source] ∧
      source.subject = subject ∧ IsCreation L subject source.creation := by
  have hcandidates : ∀ position, position ∈ (L.occurrences.filter fun o =>
      Ledger.createdIn subject o && L.records.any fun row => row.1 = o.recordId).map
        DurableOccurrence.transactionPosition ↔
      ∃ o ∈ L.occurrences, o.occurrenceType = .record ∧ Ledger.createdIn subject o = true ∧
        o.transactionPosition = position := by
    intro position
    rw [List.mem_map]
    constructor
    · rintro ⟨o, ho, rfl⟩
      obtain ⟨hin, hboth⟩ := List.mem_filter.mp ho
      rw [Bool.and_eq_true] at hboth
      exact ⟨o, hin, (any_records_iff hL.toIndexed hin).mp hboth.2, hboth.1, rfl⟩
    · rintro ⟨o, hin, htype, hcreated, rfl⟩
      exact ⟨o, List.mem_filter.mpr ⟨hin, Bool.and_eq_true_iff.mpr
        ⟨hcreated, (any_records_iff hL.toIndexed hin).mpr htype⟩⟩, rfl⟩
  obtain ⟨position, hposition⟩ : ∃ position, L.creationPosition subject = some position := by
    obtain ⟨o, ho, htype, hcreated⟩ := hL.founded subject hsubject
    refine Option.isSome_iff_exists.mp (List.isSome_min?_of_mem (a := o.transactionPosition) ?_)
    exact (hcandidates _).mpr ⟨o, ho, htype, hcreated, rfl⟩
  obtain ⟨hmem, hleast⟩ := List.min?_eq_some_iff.mp hposition
  obtain ⟨o, ho, htype, hcreated, hat⟩ := (hcandidates position).mp hmem
  have hcreation : IsCreation L subject o :=
    ⟨ho, htype, hcreated, fun other hother htype' hcreated' => by
      rw [hat]
      exact hleast _ ((hcandidates _).mpr ⟨other, hother, htype', hcreated', rfl⟩)⟩
  -- no other occurrence stands in its place
  have hoccurrence : L.occurrences.filter (fun o => Ledger.createdIn subject o &&
      decide (some o.transactionPosition = L.creationPosition subject)) = [o] := by
    refine Join.filter_eq_singleton (hL.recordIds.of_map _) ho ?_ fun other hother hboth => ?_
    · rw [hcreated, hposition, hat]
      exact decide_eq_true rfl
    · rw [Bool.and_eq_true, decide_eq_true_eq, hposition] at hboth
      refine List.inj_on_of_nodup_map hL.keys hother ho ?_
      unfold DurableOccurrence.key
      rw [(createdIn_iff.mp hboth.1).2.2, (createdIn_iff.mp hcreated).2.2, hat,
        Option.some.inj hboth.2]
  obtain ⟨row, hrow, hid⟩ := List.any_eq_true.mp ((any_records_iff hL.toIndexed ho).mpr htype)
  have hrecords : L.records.filter (fun other => other.1 = o.recordId) = [row] := by
    rw [← of_decide_eq_true hid]
    refine @Join.filter_key _ _ _ Prod.fst _ _ ?_ hrow
    rw [hL.records]
    exact hL.recordIds.sublist (List.filter_sublist.map _)
  refine ⟨⟨subject, o, row.2⟩, ?_, rfl, hcreation⟩
  unfold Ledger.sourcesOf
  rw [hoccurrence, List.flatMap_singleton, hrecords]
  rfl

/-- **The join has one row for each subject.** -/
theorem forall₂_sourcesOf (hL : WellKept L) {subjects : List Subject}
    (hsubjects : subjects ⊆ L.subjects) :
    List.Forall₂ (fun subject source => source.subject = subject ∧
      IsCreation L subject source.creation) subjects (subjects.flatMap L.sourcesOf) :=
  Join.forall₂_flatMap fun _ hsubject => sourcesOf_eq hL (hsubjects hsubject)

/-- The events are the occurrences that are events. -/
theorem eventProjectionSources_eq (hL : Indexed L) (n : ℕ) :
    L.eventProjectionSources n = ((L.occurrences.filter fun o => o.occurrenceType = .event).filter
      fun o => o.transactionSequence ≤ n).insertionSort fun a b => a.key ≤ b.key := by
  unfold Ledger.eventProjectionSources
  rw [hL.events, Join.flatMap_filter_key hL.recordIds]

section Recorded

variable {new : List Subject} {n : ℕ}

/-- **What a transaction records does not count before it**: the events. -/
theorem Recorded.eventProjectionSources (h : Recorded command call new L L') (hL : Indexed L)
    (hn : n ≤ L.lastTransactionSequence) :
    L'.eventProjectionSources n = L.eventProjectionSources n := by
  rw [eventProjectionSources_eq (h.indexed hL), eventProjectionSources_eq hL, h.occurrences,
    List.filter_append, List.filter_append]
  have hnew : ∀ occurrences : List DurableOccurrence,
      (∀ o ∈ occurrences, o.transactionSequence = L.lastTransactionSequence + 1) →
        (occurrences.filter fun o => o.occurrenceType = .event).filter
          (fun o => decide (o.transactionSequence ≤ n)) = [] := by
    intro occurrences hall
    refine List.filter_eq_nil_iff.mpr fun o ho => ?_
    rw [decide_eq_true_eq, hall o (List.mem_of_mem_filter ho)]
    omega
  rw [hnew _ fun o ho => h.behind ho, List.append_nil]

/-- **What a transaction records does not count before it**: the subjects. -/
theorem Recorded.subjectProjectionSources (h : Recorded command call new L L') (hL : WellKept L)
    (hn : n ≤ L.lastTransactionSequence) :
    L'.subjectProjectionSources n = L.subjectProjectionSources n := by
  have hL' := h.wellKept (Or.inl hL)
  have hsubjects : L'.subjects.filter (fun subject =>
      decide (subject.createdTransactionSequence ≤ n)) =
        L.subjects.filter fun subject => decide (subject.createdTransactionSequence ≤ n) := by
    rw [h.subjects, List.filter_append, List.filter_eq_nil_iff (l := new).mpr, List.append_nil]
    intro subject hsubject
    rw [decide_eq_true_eq, (h.of subject hsubject).2.2]
    omega
  unfold Ledger.subjectProjectionSources
  rw [hsubjects, List.flatMap_congr]
  intro subject hsubject
  have hmem := List.mem_of_mem_filter hsubject
  have hmem' : subject ∈ L'.subjects := by
    rw [h.subjects]
    exact List.mem_append_left _ hmem
  -- its sequence is one that was there before
  obtain ⟨creator, hcreator, -⟩ := hL.created subject hmem
  have hsequence := hL.bounded _ hcreator
  obtain ⟨source, hsource, hof, hcreation⟩ := sourcesOf_eq hL hmem
  obtain ⟨source', hsource', hof', hcreation'⟩ := sourcesOf_eq hL' hmem'
  have hold : ∀ o ∈ L'.occurrences, Ledger.createdIn subject o = true → o ∈ L.occurrences := by
    intro o ho hin
    rw [h.occurrences] at ho
    rcases List.mem_append.mp ho with ho | ho
    · exact ho
    · have hnew := h.behind ho
      rw [(createdIn_iff.mp hin).2.2] at hnew
      omega
  have hkept : source.creation ∈ L'.occurrences := by
    rw [h.occurrences]
    exact List.mem_append_left _ hcreation.mem
  have hsame : source'.creation = source.creation := by
    refine List.inj_on_of_nodup_map hL'.keys hcreation'.mem hkept ?_
    have hle := hcreation'.first _ hkept hcreation.isRecord hcreation.createdIn
    have hge := hcreation.first _ (hold _ hcreation'.mem hcreation'.createdIn) hcreation'.isRecord
      hcreation'.createdIn
    unfold DurableOccurrence.key
    rw [(createdIn_iff.mp hcreation.createdIn).2.2, (createdIn_iff.mp hcreation'.createdIn).2.2,
      le_antisymm hle hge]
  -- and its class is told by the one row of its record
  obtain ⟨more, hrecords, hmore⟩ := h.records
  have hclass : ∀ {M : Ledger} {source : SubjectSource}, M.sourcesOf subject = [source] →
      (source.creation.recordId, source.recordClass) ∈ M.records := by
    intro M source hM
    have hin : source ∈ M.sourcesOf subject := hM ▸ List.mem_singleton_self _
    obtain ⟨o, -, hin⟩ := List.mem_flatMap.mp hin
    obtain ⟨row, hrow, rfl⟩ := List.mem_map.mp hin
    obtain ⟨hrow, hid⟩ := List.mem_filter.mp hrow
    rw [← of_decide_eq_true hid]
    exact hrow
  have hrow : (source.creation.recordId, source.recordClass) ∈ L'.records := by
    rw [hrecords]
    exact List.mem_append_left _ (hclass hsource)
  have hrow' := hclass hsource'
  have hnodup : (L'.records.map Prod.fst).Nodup := by
    rw [hL'.records]
    exact hL'.recordIds.sublist (List.filter_sublist.map _)
  have hrows := List.inj_on_of_nodup_map hnodup hrow' hrow (by rw [hsame])
  have hsameClass : source'.recordClass = source.recordClass := (Prod.mk.inj hrows).2
  rw [hsource, hsource']
  cases source
  cases source'
  subst hof
  subst hof'
  subst hsame
  subst hsameClass
  rfl

end Recorded

end Snowcat.Projections
