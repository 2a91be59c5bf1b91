import Snowcat.Lib.Selection
import Snowcat.Repository.Surfaces

/-!
# What the walk of a repository reports

An answer is kept when it hashes back to what was asked for, so a listing
is of the tree it was asked for (`listingOf_parseTree`) and bytes are the
blob's (`blob_parseBlob`). A path that the walk reports as missing
resolves nowhere; one that it reports as found is where the path leads, or
where it was stopped by an entry that is no tree: the walk reports both
alike (`Reported`).
-/

namespace Snowcat

open Bytes

section Objects

variable {world : SurfaceWorld}

/-- **An identity is its bytes'.** -/
theorem ObjectId.bytes_injective : Function.Injective ObjectId.bytes := by
  intro id id' h
  have hdigits : ∀ id : ObjectId, toHex id.bytes = id.1.toList := fun id =>
    toHex_ofHex (length_objectId id) ((Pattern.test_iff _ _).mp id.2).of_times.2
  have htext : id.1.toList = id'.1.toList := by rw [← hdigits id, h, hdigits id']
  exact Subtype.ext (String.toList_inj.mp htext)

theorem bytes_eq_of_toHex {id : ObjectId} {bytes : List UInt8}
    (h : String.ofList (toHex bytes) = id.1) : id.bytes = bytes := by
  rw [ObjectId.bytes, ← h, String.toList_ofList, ofHex_toHex]

/-- The entries of a listing, in Git's order, are the listing's. -/
theorem perm_raw (entries : List RepositorySurfaceTreeEntry) :
    ((entries.insertionSort gitOrder).map RepositorySurfaceTreeEntry.raw).Perm
      (entries.map RepositorySurfaceTreeEntry.raw) :=
  (List.perm_insertionSort gitOrder entries).map _

/-- **A listing is of a tree**: its entries, in some order, are a tree of that
identity, no two of one name. -/
def ListingOf (world : SurfaceWorld) (id : List UInt8)
    (entries : List RepositorySurfaceTreeEntry) : Prop :=
  ∃ es : List Git.TreeEntry, id = world.sha1 (Git.treeText es) ∧
    (es.map Git.TreeEntry.name).Nodup ∧ es.Perm (entries.map RepositorySurfaceTreeEntry.raw)

theorem nodup_names {entries : List RepositorySurfaceTreeEntry}
    (h : (entries.map fun e : RepositorySurfaceTreeEntry => e.path.1).Nodup) :
    ((entries.map RepositorySurfaceTreeEntry.raw).map Git.TreeEntry.name).Nodup := by
  have hnames : (entries.map RepositorySurfaceTreeEntry.raw).map Git.TreeEntry.name =
      (entries.map fun e : RepositorySurfaceTreeEntry => e.path.1).map utf8 := by
    rw [List.map_map, List.map_map]
    rfl
  rw [hnames]
  exact h.map utf8_injective

theorem listingOf_of_objectId {id : ObjectId} {entries : List RepositorySurfaceTreeEntry}
    (hid : repositoryGitTreeObjectId world entries = id.1)
    (hnodup : (entries.map fun e : RepositorySurfaceTreeEntry => e.path.1).Nodup) :
    ListingOf world id.bytes entries := by
  refine ⟨_, bytes_eq_of_toHex hid, ?_, perm_raw entries⟩
  exact (((perm_raw entries).map Git.TreeEntry.name).nodup_iff).mpr (nodup_names hnodup)

/-! ## What the readings of an answer guarantee -/

theorem nodup_parseTreeEntries {raws : List Json} {paths : List String}
    {entries : List RepositorySurfaceTreeEntry} (h : parseTreeEntries raws paths = some entries) :
    (entries.map fun e : RepositorySurfaceTreeEntry => e.path.1).Nodup ∧
      ∀ e ∈ entries, e.path.1 ∉ paths := by
  induction raws generalizing paths entries with
  | nil =>
    cases h
    exact ⟨List.nodup_nil, fun e he => nomatch he⟩
  | cons raw raws ih =>
    simp only [parseTreeEntries, Option.bind_eq_bind, Option.bind_eq_some_iff] at h
    obtain ⟨entry, -, h⟩ := h
    split_ifs at h with hseen
    obtain ⟨rest, hrest, heq⟩ := Option.bind_eq_some_iff.mp h
    obtain rfl : entry :: rest = entries := by simpa using heq
    obtain ⟨hnodup, hfresh⟩ := ih hrest
    refine ⟨List.nodup_cons.mpr ⟨?_, hnodup⟩, ?_⟩
    · intro hmem
      obtain ⟨e, he, hpath⟩ := List.mem_map.mp hmem
      exact hfresh e he (hpath ▸ List.mem_cons_self)
    · intro e he
      rcases List.mem_cons.mp he with rfl | he
      · exact hseen
      · exact fun hmem => hfresh e he (List.mem_cons_of_mem _ hmem)

/-- **A listing that is read is of the tree it was asked for.** -/
theorem listingOf_parseTree {value : Json} {id : ObjectId}
    {entries : List RepositorySurfaceTreeEntry} (h : parseTree world value id = some entries) :
    ListingOf world id.bytes entries ∧
      (entries.map fun e : RepositorySurfaceTreeEntry => e.path.1).Nodup := by
  simp only [parseTree, Option.bind_eq_bind, Option.bind_eq_some_iff] at h
  obtain ⟨sha, -, truncated, -, raws, -, h⟩ := h
  split_ifs at h with hrefused
  obtain ⟨read, hread, h⟩ := Option.bind_eq_some_iff.mp h
  split_ifs at h with hid
  cases h
  have hperm := List.perm_insertionSort (localeOrder world) read
  have hnodup : ((read.insertionSort (localeOrder world)).map
      fun e : RepositorySurfaceTreeEntry => e.path.1).Nodup :=
    (hperm.map _).nodup_iff.mpr (nodup_parseTreeEntries hread).1
  exact ⟨listingOf_of_objectId hid hnodup, hnodup⟩

/-- **The bytes that are read are the blob's they were asked for.** -/
theorem blob_parseBlob {value : Json} {id : ObjectId} {bytes : List UInt8}
    (h : parseBlob world value id = some bytes) :
    id.bytes = world.sha1 (Git.blobText bytes) := by
  simp only [parseBlob, Option.bind_eq_bind, Option.bind_eq_some_iff] at h
  obtain ⟨sha, -, encoding, -, content, -, size?, -, size, -, h⟩ := h
  split_ifs at h with hrefused hid
  cases h
  exact bytes_eq_of_toHex hid

/-! ## What the walk reports -/

/-- A tree's listing was served: some answer, asked for the tree, reads as
it. -/
def Served (world : SurfaceWorld) (id : ObjectId) (entries : List RepositorySurfaceTreeEntry) :
    Prop :=
  ∃ k value, world.answer k (.tree id) = .response 200 value ∧
    parseTree world value id = some entries

/-- What a walk keeps was served, one listing of a tree. -/
structure Walk.Sound (world : SurfaceWorld) (w : Walk) : Prop where
  once : (w.trees.map Prod.fst).Nodup
  served : ∀ p ∈ w.trees, Served world p.1 p.2

theorem Walk.Sound.congr {w w' : Walk} (hw : w.Sound world) (h : w'.trees = w.trees) :
    w'.Sound world :=
  ⟨h ▸ hw.once, h ▸ hw.served⟩

theorem answered_spec {request : SurfaceRequest} {w w' : Walk} {response : Option Json}
    (h : (answered world request).Returns w response w') :
    w'.trees = w.trees ∧
      ∀ value ∈ response, world.answer w.asks request = .response 200 value := by
  simp only [answered, Tx.returns_bind, Tx.returns_read, Tx.returns_update] at h
  obtain ⟨_, w₀, ⟨rfl, rfl⟩, _, _, ⟨-, rfl⟩, h⟩ := h
  cases hanswer : world.answer w₀.asks request with
  | unavailable =>
    rw [hanswer] at h
    obtain ⟨rfl, rfl⟩ := Tx.returns_pure.mp h
    exact ⟨rfl, fun _ hv => by cases hv⟩
  | response status value =>
    rw [hanswer] at h
    by_cases hstatus : status = 200
    · rw [hstatus] at h
      obtain ⟨rfl, rfl⟩ := Tx.returns_pure.mp h
      refine ⟨rfl, ?_⟩
      rintro _ ⟨⟩
      rw [hstatus]
    · simp only [if_neg hstatus] at h
      obtain ⟨rfl, rfl⟩ := Tx.returns_pure.mp h
      exact ⟨rfl, fun _ hv => by cases hv⟩

/-- **A tree that is loaded was served**, and is kept. -/
theorem loadTree_spec {treeId : ObjectId} {w w' : Walk}
    {entries : List RepositorySurfaceTreeEntry} (hw : w.Sound world)
    (h : (loadTree world treeId).Returns w (some entries) w') :
    w'.Sound world ∧ w.trees ⊆ w'.trees ∧ (treeId, entries) ∈ w'.trees := by
  simp only [loadTree, Tx.returns_bind, Tx.returns_read] at h
  obtain ⟨_, w₀, ⟨rfl, rfl⟩, h⟩ := h
  cases hcached : w₀.trees.lookup treeId with
  | some cached =>
    rw [hcached] at h
    obtain ⟨heq, rfl⟩ := Tx.returns_pure.mp h
    cases heq
    exact ⟨hw, List.Subset.refl _, Selection.mem_of_lookup hcached⟩
  | none =>
    rw [hcached] at h
    obtain ⟨response, u, hanswered, h⟩ := Tx.returns_bind.mp h
    obtain ⟨htrees, hvalue⟩ := answered_spec hanswered
    cases hlisting : response.bind (parseTree world · treeId) with
    | none =>
      simp only [hlisting] at h
      cases (Tx.returns_pure.mp h).1
    | some listing =>
      simp only [hlisting, Tx.returns_bind, Tx.returns_update] at h
      obtain ⟨_, _, ⟨-, rfl⟩, h⟩ := h
      obtain ⟨heq, rfl⟩ := Tx.returns_pure.mp h
      cases heq
      obtain ⟨value, hresponse, hparse⟩ := Option.bind_eq_some_iff.mp hlisting
      have hfresh : treeId ∉ u.trees.map Prod.fst := by
        rw [htrees]
        intro hmem
        obtain ⟨p, hp, hid⟩ := List.mem_map.mp hmem
        simpa [hid] using List.lookup_eq_none_iff.mp hcached p hp
      refine ⟨⟨List.nodup_cons.mpr ⟨hfresh, htrees ▸ hw.once⟩, ?_⟩, ?_, List.mem_cons_self⟩
      · intro p hp
        rcases List.mem_cons.mp hp with rfl | hp
        · exact ⟨_, value, hvalue value hresponse, hparse⟩
        · exact hw.served p (htrees ▸ hp)
      · rw [← htrees]
        exact List.subset_cons_self _ _

/-- The components of a path, in bytes. -/
def pathBytes (path : String) : List (List UInt8) := (splitAtSlash path).map utf8

/-- **What a walk reports of what is left of a path**, from a tree. What is
missing resolves nowhere; what is found is where a beginning of the path
leads, the whole path or one that ends at no tree. -/
def Reported (world : SurfaceWorld) (surface : RepositorySurfaceDefinition) (treeId : ObjectId)
    (segments : List String) : RepositorySurfaceProbeEntry → Prop
  | .missing _ _ => ∀ e, ¬ Git.Resolves world.sha1 treeId.bytes (segments.map utf8) e
  | .found reported => ∃ pre post entry, segments = pre ++ post ∧
      Git.Resolves world.sha1 treeId.bytes (pre.map utf8) entry.raw ∧
      reported = found surface entry ∧
      (post = [] ∨ entry.type ≠ .tree ∨ entry.mode ≠ .directory)

theorem mem_raw_of_listingOf {id : List UInt8} {entries : List RepositorySurfaceTreeEntry}
    (h : ListingOf world id entries) :
    ∃ es : List Git.TreeEntry, id = world.sha1 (Git.treeText es) ∧
      (es.map Git.TreeEntry.name).Nodup ∧ ∀ e, e ∈ es ↔ ∃ entry ∈ entries, entry.raw = e := by
  obtain ⟨es, hid, hnodup, hperm⟩ := h
  refine ⟨es, hid, hnodup, fun e => ?_⟩
  rw [hperm.mem_iff, List.mem_map]

/-- **The walk of a path is spoken of by `Reported`.** -/
theorem resolveFrom_spec (hsha : Git.CollisionFree world.sha1)
    {surface : RepositorySurfaceDefinition} {treeId : ObjectId} {segments : List String}
    {w w' : Walk} {entry : RepositorySurfaceProbeEntry} (hw : w.Sound world)
    (h : (resolveFrom world surface treeId segments).Returns w (some entry) w') :
    w'.Sound world ∧ w.trees ⊆ w'.trees ∧ Reported world surface treeId segments entry := by
  induction segments generalizing treeId w with
  | nil => exact nomatch (Tx.returns_pure.mp h).1
  | cons segment segments ih =>
    simp only [resolveFrom] at h
    obtain ⟨loaded, u, hload, h⟩ := Tx.returns_bind.mp h
    cases loaded with
    | none => exact nomatch (Tx.returns_pure.mp h).1
    | some entries =>
      obtain ⟨hu, hgrows, hkept⟩ := loadTree_spec hw hload
      obtain ⟨k, value, -, hparse⟩ := hu.served _ hkept
      obtain ⟨es, hid, hnodup, hmem⟩ := mem_raw_of_listingOf (listingOf_parseTree hparse).1
      cases hfind : entries.find? (·.path.1 = segment) with
      | none =>
        simp only [hfind] at h
        obtain ⟨heq, rfl⟩ := Tx.returns_pure.mp h
        cases heq
        refine ⟨hu, hgrows, fun e hresolves => ?_⟩
        rw [hid] at hresolves
        obtain ⟨-, e', he', hname, -⟩ := hresolves.inv hsha
        obtain ⟨listed, hlisted, rfl⟩ := (hmem e').mp he'
        have hpath : listed.path.1 = segment := utf8_injective hname
        simpa [hpath] using List.find?_eq_none.mp hfind listed hlisted
      | some listed =>
        have hlisted : listed.raw ∈ es := (hmem _).mpr ⟨listed, List.mem_of_find?_eq_some hfind, rfl⟩
        have hpath : listed.path.1 = segment := by
          simpa using List.find?_some hfind
        have hname : listed.raw.name = utf8 segment := congrArg utf8 hpath
        simp only [hfind] at h
        by_cases hend : segments = [] ∨ listed.type ≠ .tree ∨ listed.mode ≠ .directory
        · rw [if_pos hend] at h
          obtain ⟨heq, rfl⟩ := Tx.returns_pure.mp h
          cases heq
          refine ⟨hu, hgrows, [segment], segments, listed, rfl, ?_, rfl, hend⟩
          rw [hid, List.map_cons, ← hname]
          exact .last hnodup hlisted
        · rw [if_neg hend] at h
          obtain ⟨hw', hgrows', hreported⟩ := ih hu h
          have hmode : listed.raw.mode = Git.treeMode := by
            rw [not_or, not_or, not_not, not_not] at hend
            show listed.mode.gitText = _
            rw [hend.2.2]
            rfl
          refine ⟨hw', List.Subset.trans hgrows hgrows', ?_⟩
          cases entry with
          | missing surfaceId path =>
            intro e hresolves
            rw [hid, List.map_cons] at hresolves
            obtain ⟨-, e', he', hname', ⟨hnil, -⟩ | ⟨-, hrest⟩⟩ := hresolves.inv hsha
            · exact hend (Or.inl (List.map_eq_nil_iff.mp hnil))
            · rw [List.inj_on_of_nodup_map hnodup he' hlisted (hname'.trans hname.symm)] at hrest
              exact hreported e hrest
          | found reported =>
            obtain ⟨pre, post, last, rfl, hresolves, hfound, hstop⟩ := hreported
            refine ⟨segment :: pre, post, last, rfl, ?_, hfound, hstop⟩
            rw [hid, List.map_cons, ← hname]
            exact .step hnodup hlisted hmode hresolves

/-- **What a probe reports of a surface**: what its walk reported, with the
object the walk led to. -/
def Probed (world : SurfaceWorld) (rootTreeId : ObjectId) (w : Walk)
    (surface : RepositorySurfaceDefinition) (entry : RepositorySurfaceProbeEntry) : Prop :=
  entry.surfaceId = surface.id ∧ entry.path = surface.path ∧
    match entry with
    | .missing _ _ => ∀ e, ¬ Git.Resolves world.sha1 rootTreeId.bytes (pathBytes surface.path) e
    | .found reported =>
      (∃ pre post, ∃ listed : RepositorySurfaceTreeEntry, splitAtSlash surface.path = pre ++ post ∧
        Git.Resolves world.sha1 rootTreeId.bytes (pre.map utf8) listed.raw ∧
        reported.mode = listed.mode ∧ reported.objectType = listed.type ∧
        reported.objectId = listed.objectId ∧
        (post = [] ∨ listed.type ≠ .tree ∨ listed.mode ≠ .directory)) ∧
      (∀ bytes ∈ reported.bytes, reported.objectId.bytes = world.sha1 (Git.blobText bytes)) ∧
      ∀ entries ∈ reported.treeEntries, (reported.objectId, entries) ∈ w.trees

theorem Probed.mono {rootTreeId : ObjectId} {surface : RepositorySurfaceDefinition}
    {entry : RepositorySurfaceProbeEntry} {w w' : Walk} (h : Probed world rootTreeId w surface entry)
    (hgrows : w.trees ⊆ w'.trees) : Probed world rootTreeId w' surface entry := by
  obtain ⟨hid, hpath, h⟩ := h
  refine ⟨hid, hpath, ?_⟩
  cases entry with
  | missing surfaceId path => exact h
  | found reported => exact ⟨h.1, h.2.1, fun entries hentries => hgrows (h.2.2 entries hentries)⟩

theorem probeSurface_spec (hsha : Git.CollisionFree world.sha1) {rootTreeId : ObjectId}
    {surface : RepositorySurfaceDefinition} {w w' : Walk} {entry : RepositorySurfaceProbeEntry}
    (hw : w.Sound world) (h : (probeSurface world rootTreeId surface).Returns w (some entry) w') :
    w'.Sound world ∧ w.trees ⊆ w'.trees ∧ Probed world rootTreeId w' surface entry := by
  simp only [probeSurface] at h
  obtain ⟨resolved, u, hresolve, h⟩ := Tx.returns_bind.mp h
  cases resolved with
  | none => exact nomatch (Tx.returns_pure.mp h).1
  | some resolved =>
    obtain ⟨hu, hgrows, hreported⟩ := resolveFrom_spec hsha hw hresolve
    cases resolved with
    | missing surfaceId path =>
      obtain ⟨heq, rfl⟩ := Tx.returns_pure.mp h
      cases heq
      exact ⟨hu, hgrows, rfl, rfl, hreported⟩
    | found resolved =>
      obtain ⟨pre, post, listed, hpath, hresolves, rfl, hstop⟩ := hreported
      cases htype : (found surface listed).objectType with
      | blob =>
        simp only [htype] at h
        obtain ⟨response, v, hanswered, h⟩ := Tx.returns_bind.mp h
        obtain ⟨htrees, hvalue⟩ := answered_spec hanswered
        cases hbytes : response.bind (parseBlob world · (found surface listed).objectId) with
        | none =>
          simp only [hbytes] at h
          exact nomatch (Tx.returns_pure.mp h).1
        | some bytes =>
          simp only [hbytes] at h
          obtain ⟨heq, rfl⟩ := Tx.returns_pure.mp h
          cases heq
          obtain ⟨value, -, hparse⟩ := Option.bind_eq_some_iff.mp hbytes
          refine ⟨hu.congr htrees, htrees ▸ hgrows, rfl, rfl,
            ⟨pre, post, listed, hpath, hresolves, rfl, htype.symm, rfl, hstop⟩, ?_,
            fun _ hnone => nomatch hnone⟩
          rintro _ ⟨⟩
          exact blob_parseBlob hparse
      | tree =>
        simp only [htype] at h
        obtain ⟨loaded, v, hload, h⟩ := Tx.returns_bind.mp h
        cases loaded with
        | none => exact nomatch (Tx.returns_pure.mp h).1
        | some entries =>
          obtain ⟨heq, rfl⟩ := Tx.returns_pure.mp h
          cases heq
          obtain ⟨hv, hgrows', hkept⟩ := loadTree_spec hu hload
          refine ⟨hv, List.Subset.trans hgrows hgrows', rfl, rfl,
            ⟨pre, post, listed, hpath, hresolves, rfl, htype.symm, rfl, hstop⟩,
            (fun _ hnone => nomatch hnone), ?_⟩
          rintro _ ⟨⟩
          exact hkept
      | commit =>
        simp only [htype] at h
        obtain ⟨heq, rfl⟩ := Tx.returns_pure.mp h
        cases heq
        exact ⟨hu, hgrows, rfl, rfl, ⟨pre, post, listed, hpath, hresolves, rfl, rfl, rfl, hstop⟩,
          (fun _ hnone => nomatch hnone), fun _ hnone => nomatch hnone⟩

/-- **A resolved probe reports every surface of its contract**, in order. -/
theorem probeSurfaces_spec (hsha : Git.CollisionFree world.sha1) {rootTreeId : ObjectId}
    {surfaces : List RepositorySurfaceDefinition} {w w' : Walk}
    {entries : List RepositorySurfaceProbeEntry} (hw : w.Sound world)
    (h : (probeSurfaces world rootTreeId surfaces).Returns w (some entries) w') :
    w'.Sound world ∧ w.trees ⊆ w'.trees ∧
      List.Forall₂ (Probed world rootTreeId w') surfaces entries := by
  induction surfaces generalizing w entries with
  | nil =>
    obtain ⟨heq, rfl⟩ := Tx.returns_pure.mp h
    cases heq
    exact ⟨hw, List.Subset.refl _, .nil⟩
  | cons surface surfaces ih =>
    simp only [probeSurfaces] at h
    obtain ⟨probed, u, hprobe, h⟩ := Tx.returns_bind.mp h
    cases probed with
    | none => exact nomatch (Tx.returns_pure.mp h).1
    | some entry =>
      obtain ⟨hu, hgrows, hentry⟩ := probeSurface_spec hsha hw hprobe
      obtain ⟨rest, v, hrest, h⟩ := Tx.returns_bind.mp h
      cases rest with
      | none => exact nomatch (Tx.returns_pure.mp h).1
      | some rest =>
        obtain ⟨heq, rfl⟩ := Tx.returns_pure.mp h
        cases heq
        obtain ⟨hw', hgrows', hprobed⟩ := ih hu hrest
        exact ⟨hw', List.Subset.trans hgrows hgrows', .cons (hentry.mono hgrows') hprobed⟩

/-- The tree of the commit GitHub answers for the default branch. -/
def ObservedTree (world : SurfaceWorld) (target : RepositorySurfaceInspectionTarget)
    (treeId : ObjectId) : Prop :=
  ∃ value commitId, world.answer 0 (.commit target.defaultBranch) = .response 200 value ∧
    parseCommit value = some (commitId, treeId)

/-- **What an inspection that resolves reports.** -/
theorem inspectRepositorySurfaces_spec (hsha : Git.CollisionFree world.sha1)
    {target : RepositorySurfaceInspectionTarget} {w' : Walk} {defaultBranch : String}
    {commitId treeId : ObjectId} {entries : List RepositorySurfaceProbeEntry}
    (h : (inspectRepositorySurfaces world target).Returns ⟨0, []⟩
      (.resolved defaultBranch commitId treeId entries) w') :
    ObservedTree world target treeId ∧ w'.Sound world ∧
      List.Forall₂ (Probed world treeId w') target.contract.surfaces entries := by
  simp only [inspectRepositorySurfaces] at h
  obtain ⟨_, _, hassert, h⟩ := Tx.returns_bind.mp h
  obtain ⟨-, rfl⟩ := Tx.returns_ofExcept.mp hassert
  obtain ⟨response, u, hanswered, h⟩ := Tx.returns_bind.mp h
  obtain ⟨htrees, hvalue⟩ := answered_spec hanswered
  have hstart : Walk.Sound world ⟨0, []⟩ := ⟨List.nodup_nil, fun _ hmem => nomatch hmem⟩
  have hsound : u.Sound world := hstart.congr htrees
  cases hcommit : response.bind parseCommit with
  | none =>
    simp only [hcommit] at h
    exact nomatch (Tx.returns_pure.mp h).1
  | some ids =>
    obtain ⟨commit, tree⟩ := ids
    simp only [hcommit] at h
    obtain ⟨probed, v, hprobe, h⟩ := Tx.returns_bind.mp h
    cases probed with
    | none => exact nomatch (Tx.returns_pure.mp h).1
    | some entries =>
      obtain ⟨heq, rfl⟩ := Tx.returns_pure.mp h
      cases heq
      obtain ⟨value, hresponse, hparse⟩ := Option.bind_eq_some_iff.mp hcommit
      obtain ⟨hw', -, hprobed⟩ := probeSurfaces_spec hsha hsound hprobe
      exact ⟨⟨value, commitId, hvalue value hresponse, hparse⟩, hw', hprobed⟩

end Objects

end Snowcat
