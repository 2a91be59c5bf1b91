import Snowcat.Source.Admitted

/-!
# The coverage of a repository is one chain

The checkpoints of a repository continue one another from a point, under
one App and installation. A gap opens at the end of the latest checkpoint
and stops the chain until a repair closes it with a checkpoint that goes
on from there. So the intervals of the checkpoints cover everything
between the first boundary and the last, once.
-/

namespace Snowcat

open Calendar (Instant)

variable {sha256 : Sha256} {ts : List SourceTransaction} {t : SourceTransaction}
  {repositoryId : String}

/-! ## One entry more -/

theorem checkpointsOf_concat : checkpointsOf repositoryId (ts ++ [t]) =
    checkpointsOf repositoryId ts ++ (t.entry.checkpointOf repositoryId).toList := by
  rw [checkpointsOf, List.filterMap_append]
  cases h : t.entry.checkpointOf repositoryId <;> simp [checkpointsOf, h]

theorem gapsOf_concat : gapsOf repositoryId (ts ++ [t]) =
    gapsOf repositoryId ts ++ (t.entry.gapOf repositoryId).toList := by
  rw [gapsOf, List.filterMap_append]
  cases h : t.entry.gapOf repositoryId <;> simp [gapsOf, h]

theorem mem_gapsOf {g : GitHubSourceGapPayload} : g ∈ gapsOf repositoryId ts ↔
    ∃ t ∈ ts, ∃ e, t.entry = .gap g e ∧ g.repositoryId = repositoryId := by
  simp only [gapsOf, List.mem_filterMap]
  refine exists_congr fun t => and_congr_right fun _ => ?_
  cases h : t.entry with
  | gap g' e =>
    simp only [SourceEntry.gapOf, Option.ite_none_right_eq_some, Option.some.injEq,
      SourceEntry.gap.injEq]
    constructor
    · rintro ⟨hrepo, rfl⟩
      exact ⟨e, ⟨rfl, rfl⟩, hrepo⟩
    · rintro ⟨e', ⟨rfl, rfl⟩, hrepo⟩
      exact ⟨hrepo, rfl⟩
  | _ => simp [SourceEntry.gapOf]

theorem mem_openGaps {g : GitHubSourceGapPayload} : g ∈ openGaps repositoryId ts ↔
    g ∈ gapsOf repositoryId ts ∧ ∀ t ∈ ts, t.entry.repairs g.gapRecordId = false := by
  simp [openGaps]

/-- The record of a gap is one of the ledger's. -/
theorem gapRecordId_mem {g : GitHubSourceGapPayload} (h : g ∈ gapsOf repositoryId ts) :
    g.gapRecordId ∈ ts.flatMap (·.entry.recordIds) := by
  obtain ⟨t, ht, e, hentry, -⟩ := mem_gapsOf.mp h
  refine List.mem_flatMap.mpr ⟨t, ht, ?_⟩
  rw [hentry]
  exact List.mem_cons_self

/-- The gaps that are open behind one more entry. -/
theorem openGaps_concat : openGaps repositoryId (ts ++ [t]) =
    (openGaps repositoryId ts).filter (fun g => !t.entry.repairs g.gapRecordId) ++
      (t.entry.gapOf repositoryId).toList.filter fun g =>
        !(ts ++ [t]).any (·.entry.repairs g.gapRecordId) := by
  rw [openGaps, gapsOf_concat, List.filter_append, openGaps, List.filter_filter]
  congr 1
  refine List.filter_congr fun g _ => ?_
  simp [Bool.and_comm]

/-! ## What a lawful ledger says of its gaps -/

namespace Lawful

/-- A repair cites a gap of its repository. -/
theorem cites (h : Lawful ts) {t : SourceTransaction} (ht : t ∈ ts)
    {c : GitHubSourceCheckpointPayload} {r : GitHubSourceGapRepairPayload}
    (hentry : t.entry = .repair c r) :
    ∃ g ∈ gapsOf r.repositoryId ts, g.gapRecordId = r.gapRecordId := by
  induction h with
  | nil => exact nomatch ht
  | snoc h hadmitted hfresh ih =>
    rw [gapsOf_concat]
    rcases List.mem_append.mp ht with ht | ht
    · obtain ⟨g, hg, hid⟩ := ih ht
      exact ⟨g, List.mem_append_left _ hg, hid⟩
    · rw [← List.mem_singleton.mp ht, hentry] at hadmitted
      obtain ⟨-, g, hopen, hid, -⟩ := hadmitted
      exact ⟨g, List.mem_append_left _ (mem_openGaps.mp (List.mem_of_getLast? hopen)).1, hid.symm⟩

/-- No entry repairs what is no record of the ledger. -/
theorem not_repairs (h : Lawful ts) {id : String} (hid : id ∉ ts.flatMap (·.entry.recordIds))
    {t : SourceTransaction} (ht : t ∈ ts) : t.entry.repairs id = false := by
  cases hentry : t.entry with
  | repair c r =>
    obtain ⟨g, hg, hcites⟩ := h.cites ht hentry
    have hne : r.gapRecordId ≠ id := by
      rintro rfl
      exact hid (hcites ▸ gapRecordId_mem hg)
    simpa [SourceEntry.repairs] using hne
  | _ => rfl

/-- A gap's record is of no other gap. -/
theorem gap_unique (h : Lawful ts) {r r' : String} {g g' : GitHubSourceGapPayload}
    (hg : g ∈ gapsOf r ts) (hg' : g' ∈ gapsOf r' ts) (hid : g.gapRecordId = g'.gapRecordId) :
    g = g' := by
  induction h with
  | nil => exact nomatch hg
  | @snoc ts t h hadmitted hfresh ih =>
    -- the new entry's gap has a record that no earlier gap has
    have hnew : ∀ {r r' : String} {g g' : GitHubSourceGapPayload}, g ∈ gapsOf r ts →
        g' ∈ (t.entry.gapOf r').toList → g.gapRecordId ≠ g'.gapRecordId := by
      intro r r' g g' hg hg' hsame
      cases hentry : t.entry with
      | gap g'' e =>
        rw [hentry] at hg' hfresh
        simp only [SourceEntry.gapOf, Option.mem_toList, Option.ite_none_right_eq_some,
          Option.some.injEq] at hg'
        obtain ⟨-, rfl⟩ := hg'
        exact hfresh _ List.mem_cons_self (hsame ▸ gapRecordId_mem hg)
      | _ => simp [hentry, SourceEntry.gapOf] at hg'
    rw [gapsOf_concat, List.mem_append] at hg hg'
    rcases hg with hg | hg <;> rcases hg' with hg' | hg'
    · exact ih hg hg'
    · exact absurd hid (hnew hg hg')
    · exact absurd hid.symm (hnew hg' hg)
    · cases hentry : t.entry with
      | gap g'' e =>
        rw [hentry] at hg hg'
        simp only [SourceEntry.gapOf, Option.mem_toList, Option.ite_none_right_eq_some,
          Option.some.injEq] at hg hg'
        exact hg.2.symm.trans hg'.2
      | _ => simp [hentry, SourceEntry.gapOf] at hg

/-- **At most one gap of a repository is open**, and it opened at the end of the
latest checkpoint. -/
theorem openGaps_latest (h : Lawful ts) : openGaps repositoryId ts = [] ∨
    ∃ g c, openGaps repositoryId ts = [g] ∧
      (checkpointsOf repositoryId ts).getLast? = some c ∧ OpensAt g c := by
  induction h with
  | nil => exact Or.inl rfl
  | @snoc ts t h hadmitted hfresh ih =>
    rw [openGaps_concat, checkpointsOf_concat]
    cases hentry : t.entry with
    | direct receipt observation => simpa [SourceEntry.repairs, SourceEntry.gapOf,
        SourceEntry.checkpointOf] using ih
    | audited audit observation => simpa [SourceEntry.repairs, SourceEntry.gapOf,
        SourceEntry.checkpointOf] using ih
    | checkpoint c e =>
      rw [hentry] at hadmitted
      by_cases hrepo : c.repositoryId = repositoryId
      · refine Or.inl ?_
        have hnone := hadmitted.1
        rw [hrepo] at hnone
        simp [SourceEntry.gapOf, hnone]
      · simpa [SourceEntry.repairs, SourceEntry.gapOf, SourceEntry.checkpointOf, hrepo] using ih
    | gap g e =>
      rw [hentry] at hadmitted hfresh
      by_cases hrepo : g.repositoryId = repositoryId
      · -- the gap has a record of its own, so no repair cites it
        obtain ⟨hnone, -, c, hlatest, hopens⟩ := hadmitted
        rw [hrepo] at hnone hlatest
        have huncited : ∀ t ∈ ts, t.entry.repairs g.gapRecordId = false :=
          fun t ht => h.not_repairs (hfresh _ List.mem_cons_self) ht
        refine Or.inr ⟨g, c, ?_, ?_, hopens⟩
        · simpa [SourceEntry.gapOf, hrepo, hnone, hentry, SourceEntry.repairs] using huncited
        · simpa [SourceEntry.checkpointOf] using hlatest
      · simpa [SourceEntry.repairs, SourceEntry.gapOf, SourceEntry.checkpointOf, hrepo] using ih
    | repair c r =>
      rw [hentry] at hadmitted
      obtain ⟨hsame, g, hopen, hid, -⟩ := hadmitted
      by_cases hrepo : r.repositoryId = repositoryId
      · -- the repair closes the one gap that is open
        refine Or.inl ?_
        rw [hrepo] at hopen
        rcases ih with hnone | ⟨g', c', hone, -⟩
        · simp [hnone] at hopen
        · obtain rfl : g' = g := by simpa [hone] using hopen
          simp [SourceEntry.gapOf, SourceEntry.repairs, hone, hid]
      · -- the gaps of another repository are not the one it cites
        have hother : ∀ g' ∈ openGaps repositoryId ts, (r.gapRecordId == g'.gapRecordId) = false := by
          intro g' hg'
          have hgap := (mem_openGaps.mp hg').1
          have hcited := (mem_openGaps.mp (List.mem_of_getLast? hopen)).1
          rw [beq_eq_false_iff_ne, hid]
          intro heq
          obtain rfl := h.gap_unique hcited hgap heq
          obtain ⟨_, _, _, _, hone⟩ := mem_gapsOf.mp hgap
          obtain ⟨_, _, _, _, htwo⟩ := mem_gapsOf.mp hcited
          exact hrepo (htwo.symm.trans hone)
        have hkept : (openGaps repositoryId ts).filter (fun g' => !(r.gapRecordId == g'.gapRecordId)) =
            openGaps repositoryId ts :=
          List.filter_eq_self.mpr fun g' hg' => by rw [hother g' hg']; rfl
        simpa [SourceEntry.gapOf, SourceEntry.repairs, SourceEntry.checkpointOf, hsame, hrepo,
          hkept] using ih

/-- **No gap is repaired twice.** -/
theorem countP_repairs_le (h : Lawful ts) (id : String) :
    ts.countP (·.entry.repairs id) ≤ 1 := by
  induction h with
  | nil => exact Nat.zero_le 1
  | @snoc ts t h hadmitted hfresh ih =>
    rw [List.countP_append, List.countP_singleton]
    split_ifs with hrepairs
    · have hnone : ts.countP (·.entry.repairs id) = 0 := by
        cases hentry : t.entry with
        | repair c r =>
          rw [hentry] at hadmitted hrepairs
          obtain ⟨-, g, hopen, hid, -⟩ := hadmitted
          obtain rfl : g.gapRecordId = id := by
            rw [← hid]
            simpa [SourceEntry.repairs] using hrepairs
          refine List.countP_eq_zero.mpr fun t' ht' hcited => ?_
          rw [(mem_openGaps.mp (List.mem_of_getLast? hopen)).2 t' ht'] at hcited
          exact nomatch hcited
        | _ => simp [hentry, SourceEntry.repairs] at hrepairs
      omega
    · exact ih

/-- **A gap is open, or closed by one repair.** -/
theorem countP_repairs (h : Lawful ts) {g : GitHubSourceGapPayload}
    (hg : g ∈ gapsOf repositoryId ts) : ts.countP (·.entry.repairs g.gapRecordId) =
      if g ∈ openGaps repositoryId ts then 0 else 1 := by
  split_ifs with hopen
  · refine List.countP_eq_zero.mpr fun t ht hrepairs => ?_
    rw [(mem_openGaps.mp hopen).2 t ht] at hrepairs
    exact nomatch hrepairs
  · have hpos : 0 < ts.countP (·.entry.repairs g.gapRecordId) := by
      rw [List.countP_pos_iff]
      by_contra hnone
      refine hopen (mem_openGaps.mpr ⟨hg, fun t ht => ?_⟩)
      by_contra hrepairs
      exact hnone ⟨t, ht, by simpa using hrepairs⟩
    have := h.countP_repairs_le g.gapRecordId
    omega

/-- A ledger was lawful before each of its entries, and admitted it. -/
theorem admitted (h : Lawful ts) {pre post : List SourceTransaction} {t : SourceTransaction}
    (hsplit : ts = pre ++ t :: post) : Lawful pre ∧ Admitted pre t.entry := by
  induction h generalizing post with
  | nil => simp at hsplit
  | @snoc ts t' h hadmitted hfresh ih =>
    rcases List.eq_nil_or_concat post with rfl | ⟨post, t'', rfl⟩
    · obtain ⟨rfl, heq⟩ := List.append_inj' hsplit rfl
      obtain rfl : t' = t := by simpa using heq
      exact ⟨h, hadmitted⟩
    · rw [List.concat_eq_append, ← List.cons_append, ← List.append_assoc] at hsplit
      exact ih (List.append_inj' hsplit rfl).1

/-! ## What it says of its checkpoints -/

/-- **Every checkpoint follows the latest one**, a repair's as well: no checkpoint
is recorded while a gap is open. -/
theorem follows (h : Lawful ts) (hadmitted : Admitted ts t.entry)
    {c : GitHubSourceCheckpointPayload} (hc : t.entry.checkpointOf repositoryId = some c) :
    Follows (checkpointsOf repositoryId ts).getLast? c ∧
      (t.entry.Forward → c.coveredFrom ≤ c.coveredThrough) := by
  cases hentry : t.entry with
  | checkpoint c' e =>
    rw [hentry] at hadmitted hc
    simp only [SourceEntry.checkpointOf, Option.ite_none_right_eq_some, Option.some.injEq] at hc
    obtain ⟨rfl, rfl⟩ := hc
    exact ⟨hadmitted.2, id⟩
  | repair c' r =>
    rw [hentry] at hadmitted hc
    simp only [SourceEntry.checkpointOf, Option.ite_none_right_eq_some, Option.some.injEq] at hc
    obtain ⟨hrepo, rfl⟩ := hc
    obtain ⟨hsame, g, hopen, -, hfrom, hlater, hprevious, happ, hinstallation⟩ := hadmitted
    rw [← hsame, hrepo] at hopen
    rcases @Lawful.openGaps_latest _ repositoryId h with hnone | ⟨g', latest, hone, hlatest, hopens⟩
    · simp [hnone] at hopen
    · obtain rfl : g' = g := by simpa [hone] using hopen
      obtain ⟨hbound, hrecord, hgapApp, hgapInstallation⟩ := hopens
      rw [hlatest, hfrom]
      refine ⟨⟨hfrom.trans hbound, happ.trans hgapApp, hinstallation.trans hgapInstallation, ?_⟩,
        fun _ => le_of_lt hlater⟩
      rw [hprevious, hrecord]
  | _ => simp [hentry, SourceEntry.checkpointOf] at hc

/-- The checkpoints start at a point, go on from one another, and never go
back. -/
theorem checkpoints (h : Lawful ts) (hforward : ∀ t ∈ ts, t.entry.Forward) :
    (∀ c ∈ (checkpointsOf repositoryId ts).head?, Follows none c) ∧
      (checkpointsOf repositoryId ts).IsChain Continues ∧
      ∀ c ∈ checkpointsOf repositoryId ts, c.coveredFrom ≤ c.coveredThrough := by
  induction h with
  | nil => exact ⟨(fun _ h => nomatch h), List.IsChain.nil, (fun _ h => nomatch h)⟩
  | @snoc ts t h hadmitted hfresh ih =>
    rw [checkpointsOf_concat]
    have ih := ih fun t ht => hforward t (List.mem_append_left _ ht)
    cases hc : t.entry.checkpointOf repositoryId with
    | none => simpa using ih
    | some c =>
      obtain ⟨hfollows, hnew⟩ := h.follows hadmitted hc
      obtain ⟨hstarts, hchain, hforwards⟩ := ih
      refine ⟨?_, List.isChain_append.mpr ⟨hchain, List.IsChain.singleton c, ?_⟩, ?_⟩
      · cases hall : checkpointsOf repositoryId ts with
        | nil =>
          rw [hall] at hfollows
          rintro c' hc'
          obtain rfl : c = c' := by simpa using hc'
          exact hfollows
        | cons first rest => simpa [hall] using hstarts
      · intro previous hprevious c' hc'
        obtain rfl : c = c' := by simpa using hc'
        rw [Option.mem_def] at hprevious
        rwa [hprevious] at hfollows
      · intro c' hc'
        rcases List.mem_append.mp hc' with hc' | hc'
        · exact hforwards c' hc'
        · obtain rfl : c' = c := by simpa using hc'
          exact hnew (hforward t (List.mem_append_right _ List.mem_cons_self))

end Lawful

/-! ## The law -/

/-- The interval of a checkpoint. -/
def GitHubSourceCheckpointPayload.interval (c : GitHubSourceCheckpointPayload) :
    Stretch Instant := ⟨c.coveredFrom, c.coveredThrough⟩

/-- **The coverage of a repository is one chain.** -/
structure CoverageLaw (repositoryId : String) (ts : List SourceTransaction) : Prop where
  /-- The first checkpoint is a point. -/
  starts : ∀ c ∈ (checkpointsOf repositoryId ts).head?, Follows none c
  /-- Every other starts where the one before it ends. -/
  continues : (checkpointsOf repositoryId ts).IsChain Continues
  /-- None ends before it starts. -/
  forward : ∀ c ∈ checkpointsOf repositoryId ts, c.coveredFrom ≤ c.coveredThrough
  /-- All are under one App and one installation. -/
  oneSource : ∀ c ∈ checkpointsOf repositoryId ts, ∀ c' ∈ checkpointsOf repositoryId ts,
    c.appId = c'.appId ∧ c.installationId = c'.installationId
  /-- At most one gap is open. -/
  oneGap : (openGaps repositoryId ts).length ≤ 1
  /-- No checkpoint but a repair's is recorded while one is. -/
  ordinary : ∀ pre t post c e, ts = pre ++ t :: post → t.entry = .checkpoint c e →
    c.repositoryId = repositoryId → openGaps repositoryId pre = []
  /-- A gap opens at the end of the checkpoint that is latest then. -/
  opens : ∀ pre t post g e, ts = pre ++ t :: post → t.entry = .gap g e →
    g.repositoryId = repositoryId →
    ∃ c, (checkpointsOf repositoryId pre).getLast? = some c ∧ g.lowerBoundAt = c.coveredThrough
  /-- A gap is open, or closed by exactly one repair. -/
  closed : ∀ g ∈ gapsOf repositoryId ts, ts.countP (·.entry.repairs g.gapRecordId) =
    if g ∈ openGaps repositoryId ts then 0 else 1
  /-- A repair closes the open gap with a checkpoint of its repository that starts
  at the gap's lower bound and ends later. -/
  repairs : ∀ pre t post c r, ts = pre ++ t :: post → t.entry = .repair c r →
    r.repositoryId = repositoryId → c.repositoryId = repositoryId ∧
      ∃ g, openGaps repositoryId pre = [g] ∧ r.gapRecordId = g.gapRecordId ∧
        c.coveredFrom = g.lowerBoundAt ∧ g.lowerBoundAt < c.coveredThrough
  /-- Every instant from the first boundary to the last is covered once, and no
  other is. -/
  covered : ∀ first last, (checkpointsOf repositoryId ts).head? = some first →
    (checkpointsOf repositoryId ts).getLast? = some last → ∀ instant,
    (checkpointsOf repositoryId ts).countP (fun c => c.interval.contains instant) =
      if first.coveredFrom ≤ instant ∧ instant < last.coveredThrough then 1 else 0

/-- Checkpoints that continue one another cover what lies between them once. -/
theorem countP_interval {cs : List GitHubSourceCheckpointPayload}
    {first last : GitHubSourceCheckpointPayload} (hfirst : cs.head? = some first)
    (hlast : cs.getLast? = some last) (hchain : cs.IsChain Continues)
    (hforward : ∀ c ∈ cs, c.coveredFrom ≤ c.coveredThrough) (instant : Instant) :
    cs.countP (fun c => c.interval.contains instant) =
      if first.coveredFrom ≤ instant ∧ instant < last.coveredThrough then 1 else 0 := by
  obtain ⟨rest, rfl⟩ : ∃ rest, cs = first :: rest := List.head?_eq_some_iff.mp hfirst
  have hmeets : ((first :: rest).map GitHubSourceCheckpointPayload.interval).IsChain
      Stretch.Meets :=
    (List.isChain_map _).mpr (hchain.imp fun c c' h => h.1.symm)
  have hintervals : ∀ i ∈ (first :: rest).map GitHubSourceCheckpointPayload.interval,
      i.from_ ≤ i.through := by
    intro i hi
    obtain ⟨c, hc, rfl⟩ := List.mem_map.mp hi
    exact hforward c hc
  have hcount : ((first :: rest).map GitHubSourceCheckpointPayload.interval).countP
      (Stretch.contains instant) = _ := Stretch.countP_contains hmeets hintervals instant
  have hend : (((first :: rest).map GitHubSourceCheckpointPayload.interval).getLast
      (List.cons_ne_nil _ _)).through = last.coveredThrough := by
    rw [List.getLast_map, List.getLast_of_getLast?_eq_some hlast]
    rfl
  rw [List.countP_map] at hcount
  rw [← hend]
  exact hcount

theorem Lawful.coverageLaw (h : Lawful ts) (hforward : ∀ t ∈ ts, t.entry.Forward)
    (repositoryId : String) : CoverageLaw repositoryId ts := by
  obtain ⟨hstarts, hchain, hforward⟩ := @Lawful.checkpoints _ repositoryId h hforward
  refine ⟨hstarts, hchain, hforward, ?_, ?_, ?_, ?_, fun g hg => h.countP_repairs hg, ?_,
    fun first last hfirst hlast => countP_interval hfirst hlast hchain hforward⟩
  · let source (c : GitHubSourceCheckpointPayload) := (c.appId, c.installationId)
    have hsame : ((checkpointsOf repositoryId ts).map source).IsChain Eq :=
      (List.isChain_map _).mpr (hchain.imp fun c c' hcontinues =>
        Prod.ext hcontinues.2.1.symm hcontinues.2.2.1.symm)
    intro c hc c' hc'
    have heq : source c = source c' := hsame.pairwise.forall_of_forall (fun _ _ => rfl)
      (List.mem_map_of_mem hc) (List.mem_map_of_mem hc')
    exact Prod.ext_iff.mp heq
  · rcases @Lawful.openGaps_latest _ repositoryId h with hnone | ⟨g, c, hone, -⟩
    · simp [hnone]
    · simp [hone]
  · rintro pre t post c e hsplit hentry rfl
    have hadmitted := (h.admitted hsplit).2
    rw [hentry] at hadmitted
    exact hadmitted.1
  · rintro pre t post g e hsplit hentry rfl
    have hadmitted := (h.admitted hsplit).2
    rw [hentry] at hadmitted
    obtain ⟨-, -, c, hlatest, hbound, -⟩ := hadmitted
    exact ⟨c, hlatest, hbound⟩
  · rintro pre t post c r hsplit hentry rfl
    obtain ⟨hpre, hadmitted⟩ := h.admitted hsplit
    rw [hentry] at hadmitted
    obtain ⟨hsame, g, hopen, hid, hfrom, hlater, -⟩ := hadmitted
    refine ⟨hsame, g, ?_, hid, hfrom, hlater⟩
    rcases @Lawful.openGaps_latest _ r.repositoryId hpre with hnone | ⟨g', c', hone, -⟩
    · simp [hnone] at hopen
    · obtain rfl : g' = g := by simpa [hone] using hopen
      exact hone

/-- **The source coverage is one chain for each repository**, after every run of
commands that gives no checkpoint whose boundaries are in order as texts and
reversed in time. -/
theorem coverage_one_chain (sha256 : Sha256) (evaluationTime : Instant) (recordIds : List String)
    (calls : List SourceInput) (horder : ∀ i ∈ calls, i.call.InOrder) (repositoryId : String) :
    CoverageLaw repositoryId
      ((sourceMachine sha256 evaluationTime recordIds).run calls).transactions :=
  (lawful_run calls).coverageLaw (forward_run horder) repositoryId

/-! ## Samples -/

theorem newYear_month_le : (1 : ℕ) ≤ 1 ∧ (1 : ℕ) ≤ 12 := by decide

theorem newYear_day_le (year : ℤ) : 1 ≤ 1 ∧ 1 ≤ Calendar.daysIn year 1 := by
  simp [Calendar.daysIn]

theorem midnight_hour_lt : (0 : ℕ) < 24 := by decide

theorem midnight_minute_lt : (0 : ℕ) < 60 := by decide

theorem midnight_milli_lt : (0 : ℕ) < 1000 := by decide

/-- Midnight at the start of a year. -/
def newYear (year : ℤ) (h : Calendar.first ≤ Calendar.order year 1 1 0 0 0 0 ∧
    Calendar.order year 1 1 0 0 0 0 ≤ Calendar.last) : Instant :=
  ⟨year, 1, 1, 0, 0, 0, 0, newYear_month_le, newYear_day_le year, midnight_hour_lt,
    midnight_minute_lt, midnight_minute_lt, midnight_milli_lt, h⟩

theorem inRange_2025 : Calendar.first ≤ Calendar.order 2025 1 1 0 0 0 0 ∧
    Calendar.order 2025 1 1 0 0 0 0 ≤ Calendar.last := by decide

theorem inRange_2026 : Calendar.first ≤ Calendar.order 2026 1 1 0 0 0 0 ∧
    Calendar.order 2026 1 1 0 0 0 0 ≤ Calendar.last := by decide

/-- There are some. -/
instance sampleId_neZero : @NeZero ℕ (@Zero.ofOfNat0 ℕ (instOfNatNat (nat_lit 0))) 16 :=
  ⟨Nat.succ_ne_zero 15⟩

/-- Some identifiers. -/
def sampleId (k : Fin 16) : String :=
  String.ofList ("00000000-0000-7000-8000-00000000000".toList ++ [Nat.digitChar k])

theorem isUuidV7_sampleId : ∀ k, isUuidV7 (sampleId k) = true := by decide +kernel

/-- A digest. -/
def sampleDigest : String :=
  "sha256:0000000000000000000000000000000000000000000000000000000000000000"

theorem test_sampleDigest : Patterns.sha256Digest.test sampleDigest = true := by decide +kernel

/-- A moment that draws the identifiers from some on. -/
def sampleMoment (now : Instant) (from_ : ℕ) : SourceMoment :=
  ⟨now, fun k => ⟨sampleId (Fin.ofNat 16 (from_ + k)), isUuidV7_sampleId _⟩, .ok ()⟩

/-- A checkpoint of some repository. -/
def sampleCheckpoint (sequence : ℕ) (run : Fin 16) (coveredFrom coveredThrough : Instant) :
    GitHubSourceCheckpointInput :=
  ⟨sequence, sampleId run, "github.com:1", "1", "github.com:installation:1", coveredFrom,
    coveredThrough, 1, 0, sampleDigest, sampleDigest⟩

/-- A repository is enrolled, and its coverage starts at an instant. -/
def sampleStart (boundary : Instant) : List SourceInput :=
  let now := newYear 2026 inRange_2026
  [⟨.other [] ["github.com:1"], sampleMoment now 0⟩,
    ⟨.checkpoint (sampleCheckpoint 2 0 boundary boundary), sampleMoment now 1⟩]

/-- A first boundary, with all its digests the same. -/
theorem coverage_one_chain_sample :
    CoverageLaw "github.com:1" ((sourceMachine (fun _ => ⟨sampleDigest, test_sampleDigest⟩)
      (newYear 2026 (by decide)) []).run (sampleStart (newYear 2025 (by decide)))).transactions ∧
    (checkpointsOf "github.com:1" ((sourceMachine (fun _ => ⟨sampleDigest, test_sampleDigest⟩)
      (newYear 2026 (by decide)) []).run
        (sampleStart (newYear 2025 (by decide)))).transactions).length = 1 :=
  ⟨coverage_one_chain _ _ _ _ (by decide +kernel) _, by decide +kernel⟩

/-- **A checkpoint can go back**: the text of a year before the first is in order
behind that of the year after it. -/
theorem coverage_goes_back :
    ¬ CoverageLaw "github.com:1" ((sourceMachine (fun _ => ⟨sampleDigest, test_sampleDigest⟩)
      (newYear 2026 (by decide)) []).run (sampleStart (newYear (-1) (by decide)) ++
        [⟨.checkpoint (sampleCheckpoint 3 1 (newYear (-1) (by decide)) (newYear (-2) (by decide))),
          sampleMoment (newYear 2026 (by decide)) 3⟩])).transactions := by
  intro h
  have hback : ∃ c ∈ checkpointsOf "github.com:1"
      ((sourceMachine (fun _ => ⟨sampleDigest, test_sampleDigest⟩)
        (newYear 2026 (by decide)) []).run (sampleStart (newYear (-1) (by decide)) ++
        [⟨.checkpoint (sampleCheckpoint 3 1 (newYear (-1) (by decide)) (newYear (-2) (by decide))),
          sampleMoment (newYear 2026 (by decide)) 3⟩])).transactions,
      ¬ c.coveredFrom ≤ c.coveredThrough := by decide +kernel
  obtain ⟨c, hc, hback⟩ := hback
  exact hback (h.forward c hc)

end Snowcat
