import Snowcat.Repository.Walked

/-!
# What a valid surface is evidence of

A path resolves in a Git tree when it runs through trees only
(`Git.Resolves`). A surface that the evaluation finds missing resolves
nowhere. What it finds valid is what the path leads to – except where the
walk was stopped by a regular file on the way, which passes the evaluation
as the surface itself. So a valid result is evidence of the surfaces
exactly where no file's path runs through a regular file, as far as the
identities go; the digest of a directory also covers the kinds and the
sizes GitHub lists, which no tree has.
-/

namespace Snowcat

open Bytes

variable {world : SurfaceWorld}

/-! ## What the evaluation has seen -/

@[simp] theorem RepositorySurfaceProbeEntry.surfaceId_normalized
    (entry : RepositorySurfaceProbeEntry) :
    (entry.normalized world).surfaceId = entry.surfaceId := by
  cases entry <;> rfl

theorem normalize_resolved {input : RepositorySurfaceProbeInput} {defaultBranch : String}
    {commitId treeId : ObjectId} {entries : List RepositorySurfaceProbeEntry}
    (h : normalizeRepositorySurfaceProbe world input =
      .ok (.resolved defaultBranch commitId treeId entries)) :
    ∃ surfaces, input = .resolved defaultBranch commitId treeId surfaces ∧
      entries = surfaces.map (RepositorySurfaceProbeEntry.normalized world) := by
  cases input with
  | unavailable => exact nomatch h
  | resolved branch commit tree surfaces =>
    simp only [normalizeRepositorySurfaceProbe, except_bind_eq_ok] at h
    obtain ⟨_, -, _, -, h⟩ := h
    cases h
    exact ⟨surfaces, rfl, rfl⟩

/-- The entry a probe has for a surface of its contract is the one the walk
reported for it. -/
theorem find_of_probed {rootTreeId : ObjectId} {w : Walk}
    {surfaces : List RepositorySurfaceDefinition} {entries : List RepositorySurfaceProbeEntry}
    (h : List.Forall₂ (Probed world rootTreeId w) surfaces entries)
    (hdistinct : (surfaces.map RepositorySurfaceDefinition.id).Nodup)
    {expected : RepositorySurfaceDefinition} (hmem : expected ∈ surfaces) :
    ∃ entry, Probed world rootTreeId w expected entry ∧
      (entries.map (RepositorySurfaceProbeEntry.normalized world)).find?
        (·.surfaceId = expected.id) = some (entry.normalized world) := by
  induction h with
  | nil => exact nomatch hmem
  | @cons surface entry surfaces entries hprobed hrest ih =>
    rw [List.map_cons, List.nodup_cons] at hdistinct
    rw [List.map_cons]
    have hid : (entry.normalized world).surfaceId = surface.id := by
      rw [RepositorySurfaceProbeEntry.surfaceId_normalized, hprobed.1]
    rcases List.mem_cons.mp hmem with rfl | hmem
    · exact ⟨entry, hprobed, List.find?_cons_of_pos (by simp [hid])⟩
    · obtain ⟨found, hfound, hfind⟩ := ih hdistinct.2 hmem
      have hne : surface.id ≠ expected.id := fun heq =>
        hdistinct.1 (heq ▸ List.mem_map_of_mem hmem)
      refine ⟨found, hfound, ?_⟩
      rw [List.find?_cons_of_neg (by simp [hid, hne])]
      exact hfind

/-- What the evaluation has made of a surface that passed. -/
def Summarized (world : SurfaceWorld) (entries : List RepositorySurfaceProbeEntry)
    (expected : RepositorySurfaceDefinition) (summary : RepositorySurfaceSummary) : Prop :=
  ∃ entry, entries.find? (·.surfaceId = expected.id) = some (.found entry) ∧
    entry.path = expected.path ∧ entry.ofKind expected.artifactType = true ∧
    summarize world expected entry = .ok summary

/-- What the evaluation has made of a contract: every surface passed, or one
did not. -/
def Evaluated (world : SurfaceWorld) (entries : List RepositorySurfaceProbeEntry)
    (contract : List RepositorySurfaceDefinition) (before : List RepositorySurfaceSummary) :
    SurfaceEvaluation → Prop
  | .passed summaries _ => ∃ more, summaries = before ++ more ∧
      List.Forall₂ (Summarized world entries) contract more
  | .failed _ result failedSurfaceId => result ≠ .valid ∧ result ≠ .unavailable ∧
      (result = .missing → ∃ expected ∈ contract, expected.id = failedSurfaceId ∧
        ∀ entry, entries.find? (·.surfaceId = expected.id) = some (.found entry) →
          entry.path ≠ expected.path)

/-- A surface that passes is in front of what is made of the rest. -/
theorem Evaluated.cons {entries : List RepositorySurfaceProbeEntry}
    {expected : RepositorySurfaceDefinition} {contract : List RepositorySurfaceDefinition}
    {before : List RepositorySurfaceSummary} {summary : RepositorySurfaceSummary}
    {evaluation : SurfaceEvaluation} (hsummary : Summarized world entries expected summary)
    (h : Evaluated world entries contract (before ++ [summary]) evaluation) :
    Evaluated world entries (expected :: contract) before evaluation := by
  cases evaluation with
  | passed summaries policy =>
    obtain ⟨more, rfl, hmore⟩ := h
    exact ⟨summary :: more, List.append_assoc _ _ _, .cons hsummary hmore⟩
  | failed summaries result failedSurfaceId =>
    obtain ⟨hvalid, havailable, hmissing⟩ := h
    refine ⟨hvalid, havailable, fun hresult => ?_⟩
    obtain ⟨other, hmem, hother⟩ := hmissing hresult
    exact ⟨other, List.mem_cons_of_mem _ hmem, hother⟩

theorem evaluateSurfaces_spec {entries : List RepositorySurfaceProbeEntry}
    {contract : List RepositorySurfaceDefinition} {before : List RepositorySurfaceSummary}
    {policy : Option Json} {evaluation : SurfaceEvaluation}
    (h : evaluateSurfaces world entries contract before policy = .ok evaluation) :
    Evaluated world entries contract before evaluation := by
  induction contract generalizing before policy with
  | nil =>
    cases h
    exact ⟨[], (List.append_nil _).symm, .nil⟩
  | cons expected contract ih =>
    have hmissing : (∀ entry, entries.find? (·.surfaceId = expected.id) = some (.found entry) →
        entry.path ≠ expected.path) →
        Evaluated world entries (expected :: contract) before
          (.failed before .missing expected.id) := fun hnone =>
      ⟨by decide, by decide, fun _ => ⟨expected, List.mem_cons_self, rfl, hnone⟩⟩
    rw [evaluateSurfaces] at h
    cases hfind : entries.find? (·.surfaceId = expected.id) with
    | none =>
      rw [hfind] at h hmissing
      cases h
      exact hmissing fun _ hnone => nomatch hnone
    | some found =>
      cases found with
      | missing surfaceId path =>
        rw [hfind] at h hmissing
        cases h
        exact hmissing fun _ hnone => nomatch hnone
      | found entry =>
        rw [hfind] at h hmissing
        by_cases hpath : entry.path = expected.path
        · simp only [hpath, ne_eq, not_true, if_false] at h
          by_cases hkind : entry.ofKind expected.artifactType = false
          · rw [if_pos hkind] at h
            cases h
            exact ⟨by decide, by decide, fun hresult => nomatch hresult⟩
          · rw [if_neg hkind, except_bind_eq_ok] at h
            obtain ⟨summary, hsummary, h⟩ := h
            have hpassed : Summarized world entries expected summary :=
              ⟨entry, hfind, hpath, Bool.eq_true_of_not_eq_false hkind, hsummary⟩
            split_ifs at h with hpolicy
            · cases hgovernance : world.governance (entry.bytes.getD []) with
              | none =>
                rw [hgovernance] at h
                cases h
                exact ⟨by decide, by decide, fun hresult => nomatch hresult⟩
              | some read =>
                rw [hgovernance] at h
                exact (ih h).cons hpassed
            · exact (ih h).cons hpassed
        · simp only [ne_eq, hpath, not_false_eq_true, if_true] at h
          cases h
          exact hmissing fun other hother => by
            cases hother
            exact hpath

/-- **An inspection that is evaluated**: what the walk reported, and what the
evaluation made of it. -/
theorem inspectAndEvaluate_spec (hsha : Git.CollisionFree world.sha1)
    {target : RepositorySurfaceInspectionTarget} {w' : Walk}
    {result : EvaluatedRepositorySurfaceProbe}
    (h : (inspectAndEvaluate world target).Returns ⟨0, []⟩ result w') :
    result.result = .unavailable ∨
      ∃ treeId entries, ObservedTree world target treeId ∧ w'.Sound world ∧
        List.Forall₂ (Probed world treeId w') target.contract.surfaces entries ∧
        result.repositoryTreeId = some treeId ∧
        ∃ evaluation, Evaluated world
            (entries.map (RepositorySurfaceProbeEntry.normalized world))
            target.contract.surfaces [] evaluation ∧
          ((∃ policy, evaluation = .passed result.surfaces policy ∧ result.result = .valid) ∨
            ∃ failedSurfaceId, result.failedSurfaceId = some failedSurfaceId ∧
              evaluation = .failed result.surfaces result.result failedSurfaceId) := by
  simp only [inspectAndEvaluate] at h
  simp only [Tx.returns_bind, Tx.returns_ofExcept] at h
  obtain ⟨input, _, hinspect, probe, _, ⟨hnormalize, rfl⟩, hevaluate, rfl⟩ := h
  cases probe with
  | unavailable =>
    cases hevaluate
    exact Or.inl rfl
  | resolved defaultBranch commitId treeId surfaces =>
    obtain ⟨entries, rfl, rfl⟩ := normalize_resolved hnormalize
    obtain ⟨hobserved, hsound, hprobed⟩ := inspectRepositorySurfaces_spec hsha hinspect
    simp only [evaluateRepositorySurfaceProbe, except_bind_eq_ok] at hevaluate
    obtain ⟨_, -, evaluation, hevaluation, h⟩ := hevaluate
    refine Or.inr ⟨treeId, entries, hobserved, hsound, hprobed, ?_⟩
    cases evaluation with
    | failed summaries failure failedSurfaceId =>
      cases h
      exact ⟨rfl, _, evaluateSurfaces_spec hevaluation, Or.inr ⟨_, rfl, rfl⟩⟩
    | passed summaries policy =>
      simp only [except_bind_eq_ok] at h
      obtain ⟨_, -, h⟩ := h
      cases h
      exact ⟨rfl, _, evaluateSurfaces_spec hevaluation, Or.inl ⟨_, rfl, rfl⟩⟩

/-! ## What the evidence is of -/

/-- **A listed entry says what its object is**: its kind is its mode's, and
its size its blob's. -/
def RepositorySurfaceTreeEntry.Honest (world : SurfaceWorld) (e : RepositorySurfaceTreeEntry) :
    Prop :=
  match e.mode with
  | .regular | .executable | .symlink => e.type = .blob ∧
      ∃ bytes, e.objectId.bytes = world.sha1 (Git.blobText bytes) ∧ e.size = some bytes.length
  | .directory => e.type = .tree ∧ e.size = none
  | .submodule => e.type = .commit ∧ e.size = none

/-- **What is recorded of a surface is authentic**: its path resolves in the
tree to an entry of its kind, whose object has the identity and the digest
that are recorded. -/
def Authentic (world : SurfaceWorld) (treeId : ObjectId) (expected : RepositorySurfaceDefinition)
    (summary : RepositorySurfaceSummary) : Prop :=
  ∃ e, Git.Resolves world.sha1 treeId.bytes (pathBytes expected.path) e ∧
    e.object = summary.objectId.bytes ∧
    match expected.artifactType with
    | .file => (e.mode = TreeMode.regular.gitText ∨ e.mode = TreeMode.executable.gitText) ∧
        ∃ bytes, e.object = world.sha1 (Git.blobText bytes) ∧
          summary.contentDigest = world.sha256 bytes
    | .directory => e.mode = Git.treeMode ∧
        ∃ entries, ListingOf world e.object entries ∧ (∀ l ∈ entries, l.Honest world) ∧
          summary.contentDigest = surfaceTreeDigest world entries

/-- **The evidence is authentic**: every surface of a valid result is, in the
tree that was observed, and a path that is called missing resolves to
nothing there. -/
def SurfacesAuthentic (world : SurfaceWorld) (target : RepositorySurfaceInspectionTarget)
    (result : EvaluatedRepositorySurfaceProbe) : Prop :=
  (result.result = .valid → ∃ treeId, result.repositoryTreeId = some treeId ∧
    ObservedTree world target treeId ∧
    List.Forall₂ (Authentic world treeId) target.contract.surfaces result.surfaces) ∧
  (result.result = .missing → ∃ treeId, result.repositoryTreeId = some treeId ∧
    ObservedTree world target treeId ∧
    ∃ expected ∈ target.contract.surfaces, result.failedSurfaceId = some expected.id ∧
      ∀ e, ¬ Git.Resolves world.sha1 treeId.bytes (pathBytes expected.path) e)

/-- **No file's path runs through a regular file**, in the tree that is
observed. -/
def NoFileOnPath (world : SurfaceWorld) (target : RepositorySurfaceInspectionTarget) : Prop :=
  ∀ treeId, ObservedTree world target treeId → ∀ surface ∈ target.contract.surfaces,
    surface.artifactType = .file → ∀ pre post e, splitAtSlash surface.path = pre ++ post →
      post ≠ [] → Git.Resolves world.sha1 treeId.bytes (pre.map utf8) e →
      e.mode ≠ TreeMode.regular.gitText ∧ e.mode ≠ TreeMode.executable.gitText

/-- **The listings of the directories are honest**, those that an inspection
was answered with. -/
def HonestListings (world : SurfaceWorld) (target : RepositorySurfaceInspectionTarget) (w : Walk) :
    Prop :=
  ∀ treeId, ObservedTree world target treeId → ∀ surface ∈ target.contract.surfaces,
    surface.artifactType = .directory → ∀ e,
      Git.Resolves world.sha1 treeId.bytes (pathBytes surface.path) e →
      ∀ id listing, (id, listing) ∈ w.trees → ObjectId.bytes id = e.object →
        ∀ l ∈ listing, l.Honest world

theorem ObservedTree.unique {target : RepositorySurfaceInspectionTarget} {treeId treeId' : ObjectId}
    (h : ObservedTree world target treeId) (h' : ObservedTree world target treeId') :
    treeId = treeId' := by
  obtain ⟨value, commitId, hanswer, hparse⟩ := h
  obtain ⟨value', commitId', hanswer', hparse'⟩ := h'
  cases hanswer.symm.trans hanswer'
  cases hparse.symm.trans hparse'
  rfl

/-- **A file that passed** is where a beginning of its path leads. -/
theorem file_of_summarized {rootTreeId : ObjectId} {w : Walk}
    {expected : RepositorySurfaceDefinition} {summary : RepositorySurfaceSummary}
    {reported : RepositorySurfaceProbeEntry} {entry : FoundSurface}
    (hprobed : Probed world rootTreeId w expected reported)
    (hentry : reported.normalized world = .found entry)
    (hfile : expected.artifactType = .file) (hkind : entry.ofKind .file = true)
    (hsummary : summarize world expected entry = .ok summary) :
    ∃ pre post e, splitAtSlash expected.path = pre ++ post ∧
      Git.Resolves world.sha1 rootTreeId.bytes (pre.map utf8) e ∧
      e.object = summary.objectId.bytes ∧
      (e.mode = TreeMode.regular.gitText ∨ e.mode = TreeMode.executable.gitText) ∧
      ∃ bytes, e.object = world.sha1 (Git.blobText bytes) ∧
        summary.contentDigest = world.sha256 bytes := by
  cases reported with
  | missing surfaceId path => exact nomatch hentry
  | found reported =>
    obtain ⟨-, -, ⟨pre, post, listed, hpath, hresolves, hmode, -, hobject, -⟩, -, -⟩ := hprobed
    cases hentry
    simp only [summarize, hfile, except_bind_eq_ok, refuseIf_eq_ok, not_not] at hsummary
    obtain ⟨_, hid, hsummary⟩ := hsummary
    cases hsummary
    simp only [FoundSurface.ofKind, Bool.and_eq_true, Bool.or_eq_true, beq_iff_eq] at hkind
    refine ⟨pre, post, listed.raw, hpath, hresolves, ?_, ?_, _, ?_, rfl⟩
    · show listed.objectId.bytes = reported.objectId.bytes
      rw [hobject]
    · show listed.mode.gitText = _ ∨ listed.mode.gitText = _
      rw [← hmode]
      exact hkind.1.1.2.imp (congrArg TreeMode.gitText) (congrArg TreeMode.gitText)
    · show listed.objectId.bytes = _
      rw [← hobject]
      exact bytes_eq_of_toHex hid

/-- **A directory that passed** is where its path leads, and what is recorded
is of the listing that was answered. -/
theorem directory_of_summarized {rootTreeId : ObjectId} {w : Walk} (hw : w.Sound world)
    {expected : RepositorySurfaceDefinition} {summary : RepositorySurfaceSummary}
    {reported : RepositorySurfaceProbeEntry} {entry : FoundSurface}
    (hprobed : Probed world rootTreeId w expected reported)
    (hentry : reported.normalized world = .found entry)
    (hdirectory : expected.artifactType = .directory) (hkind : entry.ofKind .directory = true)
    (hsummary : summarize world expected entry = .ok summary) :
    ∃ e listing, Git.Resolves world.sha1 rootTreeId.bytes (pathBytes expected.path) e ∧
      e.object = summary.objectId.bytes ∧ e.mode = Git.treeMode ∧
      (summary.objectId, listing) ∈ w.trees ∧ ListingOf world e.object listing ∧
      summary.contentDigest =
        surfaceTreeDigest world (listing.insertionSort (localeOrder world)) := by
  cases reported with
  | missing surfaceId path => exact nomatch hentry
  | found reported =>
    obtain ⟨-, -, ⟨pre, post, listed, hpath, hresolves, hmode, htype, hobject, hstop⟩, -, hkept⟩ :=
      hprobed
    cases hentry
    simp only [summarize, hdirectory, except_bind_eq_ok, refuseIf_eq_ok, not_not] at hsummary
    obtain ⟨_, -, hsummary⟩ := hsummary
    cases hsummary
    simp only [FoundSurface.ofKind, Bool.and_eq_true, beq_iff_eq, Option.isSome_map] at hkind
    obtain ⟨⟨⟨htree, hmode'⟩, -⟩, hentries⟩ := hkind
    obtain ⟨listing, hlisting⟩ := Option.isSome_iff_exists.mp hentries
    have hnil : post = [] := by
      rcases hstop with hnil | hstop | hstop
      · exact hnil
      · exact (hstop (htype.symm.trans htree)).elim
      · exact (hstop (hmode.symm.trans hmode')).elim
    rw [hnil, List.append_nil] at hpath
    obtain ⟨k, value, -, hparse⟩ := hw.served _ (hkept listing hlisting)
    refine ⟨listed.raw, listing, ?_, ?_, ?_, hkept listing hlisting, ?_, ?_⟩
    · rw [pathBytes, hpath]
      exact hresolves
    · show listed.objectId.bytes = reported.objectId.bytes
      rw [hobject]
    · show listed.mode.gitText = _
      rw [← hmode, hmode']
      rfl
    · show ListingOf world listed.objectId.bytes listing
      rw [← hobject]
      exact (listingOf_parseTree hparse).1
    · show surfaceTreeDigest world ((reported.treeEntries.map _).getD []) = _
      rw [hlisting]
      rfl

/-- What two relations say pairwise they say of every first together. -/
theorem exists_of_forall₂ {α β : Type} {R S : α → β → Prop} {as : List α} {bs : List β}
    (h : List.Forall₂ R as bs) (h' : List.Forall₂ S as bs) {a : α} (ha : a ∈ as) :
    ∃ b, R a b ∧ S a b := by
  induction h with
  | nil => exact nomatch ha
  | cons hR _ ih =>
    cases h' with
    | cons hS h' =>
      rcases List.mem_cons.mp ha with rfl | ha
      · exact ⟨_, hR, hS⟩
      · exact ih h' ha

theorem ListingOf.perm {id : List UInt8} {entries entries' : List RepositorySurfaceTreeEntry}
    (h : ListingOf world id entries) (hperm : entries.Perm entries') :
    ListingOf world id entries' := by
  obtain ⟨es, hid, hnodup, hes⟩ := h
  exact ⟨es, hid, hnodup, hes.trans (hperm.map _)⟩

/-- **A surface that passed is authentic** where no file is on its path and
its listing is honest. -/
theorem authentic_of_summarized {target : RepositorySurfaceInspectionTarget} {treeId : ObjectId}
    {w : Walk} (hw : w.Sound world) (hobserved : ObservedTree world target treeId)
    (hpaths : NoFileOnPath world target) (hlistings : HonestListings world target w)
    {entries : List RepositorySurfaceProbeEntry}
    (hprobed : List.Forall₂ (Probed world treeId w) target.contract.surfaces entries)
    {expected : RepositorySurfaceDefinition} {summary : RepositorySurfaceSummary}
    (hmem : expected ∈ target.contract.surfaces)
    (h : Summarized world (entries.map (RepositorySurfaceProbeEntry.normalized world)) expected
      summary) :
    Authentic world treeId expected summary := by
  obtain ⟨entry, hfind, -, hkind, hsummary⟩ := h
  obtain ⟨reported, hreported, hfound⟩ := find_of_probed hprobed target.contract.distinct hmem
  have hentry : reported.normalized world = .found entry := Option.some.inj (hfound.symm.trans hfind)
  cases htype : expected.artifactType with
  | file =>
    rw [htype] at hkind
    obtain ⟨pre, post, e, hpath, hresolves, hobject, hmode, bytes, hblob, hdigest⟩ :=
      file_of_summarized hreported hentry htype hkind hsummary
    have hnil : post = [] := by
      by_contra hpost
      obtain ⟨hregular, hexecutable⟩ :=
        hpaths treeId hobserved expected hmem htype pre post e hpath hpost hresolves
      exact hmode.elim hregular hexecutable
    rw [hnil, List.append_nil] at hpath
    refine ⟨e, by rwa [pathBytes, hpath], hobject, ?_⟩
    rw [htype]
    exact ⟨hmode, bytes, hblob, hdigest⟩
  | directory =>
    rw [htype] at hkind
    obtain ⟨e, listing, hresolves, hobject, hmode, hkept, hlisting, hdigest⟩ :=
      directory_of_summarized hw hreported hentry htype hkind hsummary
    have hperm := (List.perm_insertionSort (localeOrder world) listing).symm
    refine ⟨e, hresolves, hobject, ?_⟩
    rw [htype]
    refine ⟨hmode, _, hlisting.perm hperm, fun l hl => ?_, hdigest⟩
    exact hlistings treeId hobserved expected hmem htype e hresolves _ listing hkept
      hobject.symm l (hperm.mem_iff.mpr hl)

/-- **Authentic files have no file on their path.** -/
theorem noFileOnPath_of_authentic (hsha : Git.CollisionFree world.sha1)
    {target : RepositorySurfaceInspectionTarget} {treeId : ObjectId}
    {summaries : List RepositorySurfaceSummary} (hobserved : ObservedTree world target treeId)
    (h : List.Forall₂ (Authentic world treeId) target.contract.surfaces summaries) :
    NoFileOnPath world target := by
  intro treeId' hobserved' surface hmem htype pre post e hpath hpost hresolves
  obtain rfl := hobserved.unique hobserved'
  obtain ⟨summary, ⟨full, hfull, -⟩, -⟩ := exists_of_forall₂ h h hmem
  rw [pathBytes, hpath, List.map_append] at hfull
  have htree : e.mode = Git.treeMode :=
    hresolves.isTree_of_append hsha hfull fun hnil => hpost (List.map_eq_nil_iff.mp hnil)
  rw [htree]
  exact ⟨by decide, by decide⟩

/-- **Authentic directories were listed honestly**, as far as a digest tells
listings apart. -/
theorem honestListings_of_authentic (hsha : Git.CollisionFree world.sha1)
    (hdigest : Function.Injective world.listingDigest)
    {target : RepositorySurfaceInspectionTarget} {treeId : ObjectId} {w : Walk}
    (hw : w.Sound world) (hobserved : ObservedTree world target treeId)
    {entries : List RepositorySurfaceProbeEntry} {summaries : List RepositorySurfaceSummary}
    (hprobed : List.Forall₂ (Probed world treeId w) target.contract.surfaces entries)
    (hsummarized : List.Forall₂ (Summarized world
      (entries.map (RepositorySurfaceProbeEntry.normalized world))) target.contract.surfaces
      summaries)
    (h : List.Forall₂ (Authentic world treeId) target.contract.surfaces summaries) :
    HonestListings world target w := by
  intro treeId' hobserved' surface hmem htype e hresolves id listing hkept hid
  obtain rfl := hobserved.unique hobserved'
  obtain ⟨summary, ⟨entry, hfind, -, hkind, hsummary⟩, e', hresolves', hobject', hauthentic⟩ :=
    exists_of_forall₂ hsummarized h hmem
  rw [htype] at hkind hauthentic
  obtain ⟨-, truth, -, htruth, hrecorded⟩ := hauthentic
  obtain ⟨reported, hreported, hfound⟩ := find_of_probed hprobed target.contract.distinct hmem
  have hentry : reported.normalized world = .found entry := Option.some.inj (hfound.symm.trans hfind)
  obtain ⟨e'', answered, hresolves'', hobject'', -, hkept', -, hanswered⟩ :=
    directory_of_summarized hw hreported hentry htype hkind hsummary
  -- the listing that is kept under the tree's identity is the one that was recorded
  have hsame : id = summary.objectId := by
    apply ObjectId.bytes_injective
    rw [hid, hresolves.unique hsha hresolves', hobject']
  have hlisting : listing = answered := by
    have hpair := List.inj_on_of_nodup_map hw.once hkept hkept' hsame
    exact (Prod.mk.inj hpair).2
  have hsorted := hdigest (hanswered.symm.trans hrecorded)
  have hperm : answered.Perm truth := by
    have htwice := List.perm_insertionSort (localeOrder world)
      (answered.insertionSort (localeOrder world))
    rw [hsorted] at htwice
    exact (List.perm_insertionSort _ answered).symm.trans
      (htwice.symm.trans (List.perm_insertionSort _ truth))
  intro l hl
  exact htruth l (hperm.mem_iff.mp (hlisting ▸ hl))

/-- The bytes a character of base64 stands for. -/
def base64Value (c : Char) : ℕ :=
  if c.toNat < 48 then (if c = '+' then 62 else 63)
  else if c.toNat < 58 then c.toNat + 4
  else if c.toNat < 91 then c.toNat - 65
  else c.toNat - 71

/-- The bytes of well-formed base64. -/
def ofBase64 : List Char → List UInt8
  | [a, b, '=', '='] => [(base64Value a * 4 + base64Value b / 16).toUInt8]
  | [a, b, c, '='] => [(base64Value a * 4 + base64Value b / 16).toUInt8,
      (base64Value b * 16 + base64Value c / 4).toUInt8]
  | a :: b :: c :: d :: rest => (base64Value a * 4 + base64Value b / 16).toUInt8 ::
      (base64Value b * 16 + base64Value c / 4).toUInt8 ::
      (base64Value c * 64 + base64Value d).toUInt8 :: ofBase64 rest
  | _ => []

/-- A character of base64. -/
def base64Digit (n : ℕ) : Char :=
  if n < 26 then Char.ofNat (n + 65) else if n < 52 then Char.ofNat (n + 71)
  else if n < 62 then Char.ofNat (n - 4) else if n = 62 then '+' else '/'

/-- The base64 of some bytes. -/
def toBase64 : List UInt8 → List Char
  | a :: b :: c :: rest => base64Digit (a.toNat / 4) ::
      base64Digit (a.toNat % 4 * 16 + b.toNat / 16) ::
      base64Digit (b.toNat % 16 * 4 + c.toNat / 64) :: base64Digit (c.toNat % 64) :: toBase64 rest
  | [a, b] => [base64Digit (a.toNat / 4), base64Digit (a.toNat % 4 * 16 + b.toNat / 16),
      base64Digit (b.toNat % 16 * 4), '=']
  | [a] => [base64Digit (a.toNat / 4), base64Digit (a.toNat % 4 * 16), '=', '=']
  | [] => []

/-- The contract of the organization. -/
def sampleContract : RepositorySurfaceContract where
  version := 1
  surfaces := [⟨"agent-instructions", "AGENTS.md", .file⟩,
    ⟨"agent-governance", "policies/agent-governance.json", .file⟩,
    ⟨"agent-skills", ".agents/skills", .directory⟩,
    ⟨"documentation-index", "docs/README.md", .file⟩]
  distinct := by decide +kernel

mutual

/-- The bytes of JSON without blanks. -/
def Json.print : Json → List UInt8
  | .null => utf8 "null"
  | .bool b => utf8 (if b then "true" else "false")
  | .number (.int n) => utf8 (toString n)
  | .number .notInteger => []
  | .text s => utf8 "\"" ++ utf8 s ++ utf8 "\""
  | .array values => utf8 "[" ++ Json.printAll values ++ utf8 "]"
  | .object fields => utf8 "\x7b" ++ Json.printFields fields ++ utf8 "\x7d"

/-- The bytes of values. -/
def Json.printAll : List Json → List UInt8
  | [] => []
  | [value] => value.print
  | value :: values => value.print ++ utf8 "," ++ Json.printAll values

/-- The bytes of fields. -/
def Json.printFields : List (String × Json) → List UInt8
  | [] => []
  | [(name, value)] => utf8 "\"" ++ utf8 name ++ utf8 "\":" ++ value.print
  | (name, value) :: fields =>
    utf8 "\"" ++ utf8 name ++ utf8 "\":" ++ value.print ++ utf8 "," ++ Json.printFields fields

end

/-- The least that a repository's governance policy says. -/
def samplePolicy : Json :=
  .object [("schema_version", .number (.int 1)), ("default_decision", .text "deny"),
    ("actions", .object []), ("protected_boundaries", .array []),
    ("change_controls", .object [("pull_requests_required", .bool true),
      ("human_review_before_merge", .bool true), ("highest_applicable_risk", .bool true),
      ("validation_evidence_required", .bool true), ("least_privilege", .bool true),
      ("untrusted_content_is_data", .bool true),
      ("never_relax", .array [.text "required-checks", .text "security-checks",
        .text "review-requirements", .text "coverage-checks", .text "provenance-verification"])]),
    ("exception_controls", .object [("independent_authorized_approver", .bool true),
      ("self_approval", .bool false),
      ("required_fields", .array [.text "rationale", .text "target",
        .text "compensating-controls", .text "expires-at",
        .text "restoration-or-closure-plan"])]),
    ("risk_classification", .object [
      ("tiers", .array [.text "low", .text "moderate", .text "high", .text "critical"]),
      ("classification_rule", .text "highest-applicable"),
      ("uncertainty_rule", .text "higher-plausible")])]

/-! The objects of two repositories: the tree of one is empty, and in the
tree of the other a file named `policies` stands in the place of the
directory. -/

def agentsBlob : ObjectId := ⟨"57be659e9c301121aedc5c85154cf8c8b5bc55bc", by decide +kernel⟩
def docsBlob : ObjectId := ⟨"d0fa60edab3510b80d03fa4af708bea7a61cc4cd", by decide +kernel⟩
def policyBlob : ObjectId := ⟨"2d43fa0c4436de48aac6fd2471f8d87814350f11", by decide +kernel⟩
def reviewBlob : ObjectId := ⟨"3002e3245833c90af5e283ce90e2c1cf0dcc1d4d", by decide +kernel⟩
def skillsTree : ObjectId := ⟨"f188a0571939b7c61acc39f355f8e00459eb9997", by decide +kernel⟩
def agentsTree : ObjectId := ⟨"a80bf98644d83c9616ffa6f389aa7df7879b3585", by decide +kernel⟩
def docsTree : ObjectId := ⟨"38b05972b8c57251533b8e59ab51176a4725aa19", by decide +kernel⟩
def strippedTree : ObjectId := ⟨"545a97af439c993a2c9252ef898bb81f217ce55d", by decide +kernel⟩
def emptyTree : ObjectId := ⟨"4b825dc642cb6eb9a060e54bf8d69288fbee4904", by decide +kernel⟩

/-- The blobs that are read. -/
def sampleBlobs : List (ObjectId × List UInt8) :=
  [(agentsBlob, utf8 "# Agents\n"), (docsBlob, utf8 "# Docs\n"), (policyBlob, samplePolicy.print)]

/-- The file in the place of a directory. -/
def policiesFile : RepositorySurfaceTreeEntry :=
  ⟨⟨"policies", by decide +kernel⟩, .regular, .blob, policyBlob, some 751⟩

/-- The trees, as GitHub lists them. -/
def sampleTrees : List (ObjectId × List RepositorySurfaceTreeEntry) :=
  [(skillsTree, [⟨⟨"review.md", by decide +kernel⟩, .regular, .blob, reviewBlob, some 9⟩]),
    (agentsTree, [⟨⟨"skills", by decide +kernel⟩, .directory, .tree, skillsTree, none⟩]),
    (docsTree, [⟨⟨"README.md", by decide +kernel⟩, .regular, .blob, docsBlob, some 7⟩]),
    (strippedTree, [⟨⟨".agents", by decide +kernel⟩, .directory, .tree, agentsTree, none⟩,
      ⟨⟨"AGENTS.md", by decide +kernel⟩, .regular, .blob, agentsBlob, some 9⟩,
      ⟨⟨"docs", by decide +kernel⟩, .directory, .tree, docsTree, none⟩, policiesFile]),
    (emptyTree, [])]

/-- The objects, by their texts. -/
def sampleObjects : List (List UInt8 × List UInt8) :=
  sampleBlobs.map (fun blob => (Git.blobText blob.2, ObjectId.bytes blob.1)) ++
    sampleTrees.map fun tree => (Git.treeText
      ((tree.2.insertionSort gitOrder).map RepositorySurfaceTreeEntry.raw), ObjectId.bytes tree.1)

/-- The identities of some objects; no other has one of twenty bytes. -/
def hashOf (objects : List (List UInt8 × List UInt8)) (text : List UInt8) : List UInt8 :=
  (objects.lookup text).getD (List.replicate 21 0 ++ text)

theorem hashOf_collisionFree {objects : List (List UInt8 × List UInt8)}
    (hdistinct : (objects.map Prod.snd).Nodup) (htwenty : ∀ o ∈ objects, o.2.length = 20) :
    Git.CollisionFree (hashOf objects) := by
  have hnone : ∀ {text text'}, objects.lookup text = none → objects.lookup text' ≠ none →
      hashOf objects text ≠ hashOf objects text' := by
    intro text text' htext htext' heq
    obtain ⟨id, hid⟩ := Option.ne_none_iff_exists'.mp htext'
    have hlength := congrArg List.length heq
    rw [hashOf, hashOf, htext, hid, Option.getD_none, Option.getD_some,
      htwenty _ (Selection.mem_of_lookup hid)] at hlength
    simp at hlength
  intro text _ text' _ heq
  cases htext : objects.lookup text with
  | none =>
    by_cases htext' : objects.lookup text' = none
    · rw [hashOf, hashOf, htext, htext', Option.getD_none, Option.getD_none] at heq
      exact List.append_cancel_left heq
    · exact (hnone htext htext' heq).elim
  | some id =>
    cases htext' : objects.lookup text' with
    | none => exact (hnone htext' (by rw [htext]; exact Option.some_ne_none _) heq.symm).elim
    | some id' =>
      rw [hashOf, hashOf, htext, htext', Option.getD_some, Option.getD_some] at heq
      have hpair := List.inj_on_of_nodup_map hdistinct (Selection.mem_of_lookup htext)
        (Selection.mem_of_lookup htext') heq
      exact (Prod.mk.inj hpair).1

/-- The JSON of a listed entry. -/
def RepositorySurfaceTreeEntry.json (e : RepositorySurfaceTreeEntry) : Json :=
  .object ([("path", .text e.path.1),
    ("mode", .text (match e.mode with
      | .regular => "100644" | .executable => "100755" | .symlink => "120000"
      | .directory => "040000" | .submodule => "160000")),
    ("type", .text (match e.type with | .blob => "blob" | .tree => "tree" | .commit => "commit")),
    ("sha", .text e.objectId.1)] ++ e.size.toList.map fun size => ("size", .number (.int size)))

/-- What GitHub answers of the two repositories: the default branch of the
empty one is `main`, and of the other `next`. -/
def sampleAnswer : SurfaceRequest → GitHubJsonResponse
  | .commit branch =>
    let tree := if branch = "main" then emptyTree else strippedTree
    .response 200 (.object [("sha", .text (String.ofList (List.replicate 40 'a'))),
      ("commit", .object [("tree", .object [("sha", .text tree.1)])])])
  | .tree id =>
    match sampleTrees.lookup id with
    | none => .response 404 .null
    | some entries => .response 200 (.object [("sha", .text id.1), ("truncated", .bool false),
        ("tree", .array (entries.map RepositorySurfaceTreeEntry.json))])
  | .blob id =>
    match sampleBlobs.lookup id with
    | none => .response 404 .null
    | some bytes => .response 200 (.object [("sha", .text id.1), ("encoding", .text "base64"),
        ("content", .text (String.ofList (toBase64 bytes))),
        ("size", .number (.int bytes.length))])

/-- Two repositories. -/
def sampleWorld : SurfaceWorld where
  answer _ := sampleAnswer
  sha1 := hashOf sampleObjects
  sha256 bytes :=
    if bytes = samplePolicy.print then
      "sha256:5f798a48fa69c4aef291d8e91bcef1958cf71a1f7ef0fc7401815d02dbba6271"
    else if bytes = utf8 "# Docs\n" then
      "sha256:b8c2322c9fb62341ee3069769f1e43c3272ec10c83d89a44529b519b97c9cae4"
    else "sha256:070a8ff8c31696dd57f1d0f8dfbfb1c9151ebd903c5d7e41d9dbf4133d54f84e"
  listingDigest _ := "sha256:fd0ddd77a9e58b1dfe1e29baab1f6394a809f082af3103fdd049ad74eea8cf9b"
  localeLe path path' := decide (¬ utf8 path' < utf8 path)
  base64 := ofBase64
  governance bytes := if bytes = samplePolicy.print then some samplePolicy else none

/-- A repository by its default branch. -/
def sampleTarget (defaultBranch : String) : RepositorySurfaceInspectionTarget :=
  ⟨"frostyard", "snowcat", defaultBranch, sampleContract⟩

theorem sampleWorld_collisionFree : Git.CollisionFree sampleWorld.sha1 :=
  hashOf_collisionFree (by decide +kernel) (by decide +kernel)

/-- A blob that is read ends the probe of its surface. -/
theorem probeSurface_of_blob {world : SurfaceWorld} {rootTreeId : ObjectId}
    {surface : RepositorySurfaceDefinition} {w u : Walk} {resolved : FoundSurface} {value : Json}
    {bytes : List UInt8}
    (hresolve : (resolveSurface world rootTreeId surface).Returns w (some (.found resolved)) u)
    (htype : resolved.objectType = .blob)
    (hanswer : world.answer u.asks (.blob resolved.objectId) = .response 200 value)
    (hparse : parseBlob world value resolved.objectId = some bytes) :
    (probeSurface world rootTreeId surface).Returns w
      (some (.found { resolved with bytes := some bytes })) { u with asks := u.asks + 1 } := by
  have hanswered : (answered world (.blob resolved.objectId)).Returns u (some value)
      { u with asks := u.asks + 1 } := by
    refine Tx.returns_bind.mpr ⟨u.asks, u, rfl, ?_⟩
    refine Tx.returns_bind.mpr ⟨(), _, rfl, ?_⟩
    rw [hanswer]
    exact Tx.returns_pure.mpr ⟨rfl, rfl⟩
  refine Tx.returns_bind.mpr ⟨_, _, hresolve, ?_⟩
  simp only [htype]
  refine Tx.returns_bind.mpr ⟨_, _, hanswered, ?_⟩
  simp only [Option.bind_some, hparse]
  exact Tx.returns_pure.mpr ⟨rfl, rfl⟩

theorem probeSurfaces_cons {world : SurfaceWorld} {rootTreeId : ObjectId}
    {surface : RepositorySurfaceDefinition} {surfaces : List RepositorySurfaceDefinition}
    {w u v : Walk} {entry : RepositorySurfaceProbeEntry}
    {entries : List RepositorySurfaceProbeEntry}
    (hentry : (probeSurface world rootTreeId surface).Returns w (some entry) u)
    (hentries : (probeSurfaces world rootTreeId surfaces).Returns u (some entries) v) :
    (probeSurfaces world rootTreeId (surface :: surfaces)).Returns w (some (entry :: entries)) v := by
  refine Tx.returns_bind.mpr ⟨_, _, hentry, ?_⟩
  refine Tx.returns_bind.mpr ⟨_, _, hentries, ?_⟩
  exact Tx.returns_pure.mpr ⟨rfl, rfl⟩

/-- Bytes in base64 are read when they are the blob's. -/
theorem parseBlob_of_base64 {world : SurfaceWorld} {value : Json} {id : ObjectId}
    {encoded : List Char} {bytes : List UInt8}
    (hsha : (value.field "sha").bind Json.text? = some id.1)
    (hencoding : (value.field "encoding").bind Json.text? = some "base64")
    (hcontent : (value.field "content").bind Json.text? = some (String.ofList encoded))
    (hsize : parseSize (value.field "size") = some (some bytes.length))
    (hbound : bytes.length ≤ 1048576) (hline : '\r' ∉ encoded ∧ '\n' ∉ encoded)
    (hencoded : isBase64 encoded = true) (hbytes : world.base64 encoded = bytes)
    (hid : repositoryGitBlobObjectId world bytes = id.1) :
    parseBlob world value id = some bytes := by
  have hletters : encoded.filter (fun c => c != '\r' && c != '\n') = encoded := by
    rw [List.filter_eq_self]
    intro c hc
    simp [ne_of_mem_of_not_mem hc hline.1, ne_of_mem_of_not_mem hc hline.2]
  simp only [parseBlob, hsha, hencoding, hcontent, hsize, Option.bind_eq_bind, Option.bind_some,
    String.toList_ofList, hletters, hbytes, hid]
  simp [hencoded, Nat.not_lt.mpr hbound]

/-- The policy is read as the file that stands in the place of its
directory. -/
theorem parseBlob_policy :
    parseBlob sampleWorld (.object [("sha", .text policyBlob.1), ("encoding", .text "base64"),
      ("content", .text (String.ofList (toBase64 samplePolicy.print))),
      ("size", .number (.int samplePolicy.print.length))]) policyBlob =
      some samplePolicy.print := by
  have hlines : '\r' ∉ toBase64 samplePolicy.print ∧ '\n' ∉ toBase64 samplePolicy.print := by
    decide +kernel
  exact parseBlob_of_base64 rfl rfl rfl (by decide +kernel) (by decide +kernel) hlines
    (by decide +kernel) (by decide +kernel) (by decide +kernel)

/-- What the walk reports of the repository. -/
def strippedProbe : List RepositorySurfaceProbeEntry :=
  [.found ⟨"agent-instructions", "AGENTS.md", .regular, .blob, agentsBlob,
      some (utf8 "# Agents\n"), none⟩,
    .found ⟨"agent-governance", "policies/agent-governance.json", .regular, .blob, policyBlob,
      some samplePolicy.print, none⟩,
    .found ⟨"agent-skills", ".agents/skills", .directory, .tree, skillsTree, none,
      sampleTrees.lookup skillsTree⟩,
    .found ⟨"documentation-index", "docs/README.md", .regular, .blob, docsBlob,
      some (utf8 "# Docs\n"), none⟩]

/-- What the walk has kept, after some requests. -/
def strippedWalk (asks : ℕ) (trees : List ObjectId) : Walk :=
  ⟨asks, trees.map fun id => (id, (sampleTrees.lookup id).getD [])⟩

theorem probeSurfaces_stripped :
    (probeSurfaces sampleWorld strippedTree sampleContract.surfaces).Returns ⟨1, []⟩
      (some strippedProbe)
      (strippedWalk 8 [docsTree, skillsTree, agentsTree, strippedTree]) := by
  have hinstructions : (probeSurface sampleWorld strippedTree
      ⟨"agent-instructions", "AGENTS.md", .file⟩) ⟨1, []⟩ =
      (.ok strippedProbe[0], strippedWalk 3 [strippedTree]) := by decide +kernel
  have hgovernance : (resolveSurface sampleWorld strippedTree
      ⟨"agent-governance", "policies/agent-governance.json", .file⟩).Returns
      (strippedWalk 3 [strippedTree])
      (some (.found ⟨"agent-governance", "policies/agent-governance.json", .regular, .blob,
        policyBlob, none, none⟩)) (strippedWalk 3 [strippedTree]) := by
    show resolveSurface sampleWorld strippedTree _ _ = _
    decide +kernel
  have hskills : (probeSurface sampleWorld strippedTree
      ⟨"agent-skills", ".agents/skills", .directory⟩) (strippedWalk 4 [strippedTree]) =
      (.ok strippedProbe[2], strippedWalk 6 [skillsTree, agentsTree, strippedTree]) := by
    decide +kernel
  have hdocs : (probeSurface sampleWorld strippedTree
      ⟨"documentation-index", "docs/README.md", .file⟩)
      (strippedWalk 6 [skillsTree, agentsTree, strippedTree]) =
      (.ok strippedProbe[3],
        strippedWalk 8 [docsTree, skillsTree, agentsTree, strippedTree]) := by decide +kernel
  have hpolicy := probeSurface_of_blob hgovernance rfl rfl parseBlob_policy
  exact probeSurfaces_cons hinstructions (probeSurfaces_cons hpolicy
    (probeSurfaces_cons hskills (probeSurfaces_cons hdocs rfl)))

/-- **A file in the place of a directory is valid**, as each of the files
below it. -/
theorem stripped_valid : ∃ result, result.result = .valid ∧
    result.repositoryTreeId = some strippedTree ∧
    (inspectAndEvaluate sampleWorld (sampleTarget "next")).Returns ⟨0, []⟩ result
      (strippedWalk 8 [docsTree, skillsTree, agentsTree, strippedTree]) := by
  have hcommit : answered sampleWorld (.commit "next") ⟨0, []⟩ =
      (.ok (match sampleAnswer (.commit "next") with
        | .response _ value => some value | .unavailable => none), ⟨1, []⟩) := by
    rfl
  have hids : (match sampleAnswer (.commit "next") with
      | .response _ value => some value | .unavailable => none).bind parseCommit =
      some (⟨String.ofList (List.replicate 40 'a'), by decide +kernel⟩, strippedTree) := by
    decide +kernel
  have hinspect : (inspectRepositorySurfaces sampleWorld (sampleTarget "next")).Returns ⟨0, []⟩
      (.resolved "next" ⟨String.ofList (List.replicate 40 'a'), by decide +kernel⟩ strippedTree
        strippedProbe) (strippedWalk 8 [docsTree, skillsTree, agentsTree, strippedTree]) := by
    refine Tx.returns_bind.mpr ⟨(), ⟨0, []⟩, ?_, ?_⟩
    · exact Tx.returns_ofExcept.mpr ⟨by decide +kernel, rfl⟩
    refine Tx.returns_bind.mpr ⟨_, _, hcommit, ?_⟩
    simp only [hids]
    refine Tx.returns_bind.mpr ⟨_, _, probeSurfaces_stripped, ?_⟩
    exact Tx.returns_pure.mpr ⟨rfl, rfl⟩
  have hnormalize : normalizeRepositorySurfaceProbe sampleWorld (.resolved "next"
      ⟨String.ofList (List.replicate 40 'a'), by decide +kernel⟩ strippedTree strippedProbe) =
      .ok (.resolved "next" ⟨String.ofList (List.replicate 40 'a'), by decide +kernel⟩
        strippedTree strippedProbe) := by
    decide +kernel
  have hevaluate : ((evaluateRepositorySurfaceProbe sampleWorld (.resolved "next"
      ⟨String.ofList (List.replicate 40 'a'), by decide +kernel⟩ strippedTree strippedProbe)
      "next" sampleContract).toOption.map fun result =>
        (result.result, result.repositoryTreeId)) = some (.valid, some strippedTree) := by
    decide +kernel
  obtain ⟨result, hresult, hpair⟩ := Option.map_eq_some_iff.mp hevaluate
  obtain ⟨hvalid, htree⟩ := Prod.mk.inj hpair
  refine ⟨result, hvalid, htree, ?_⟩
  refine Tx.returns_bind.mpr ⟨_, _, hinspect, ?_⟩
  refine Tx.returns_bind.mpr ⟨_, _, Tx.returns_ofExcept.mpr ⟨hnormalize, rfl⟩, ?_⟩
  refine Tx.returns_ofExcept.mpr ⟨?_, rfl⟩
  exact Tx.except_eq_ok_of_toOption hresult

end Snowcat
