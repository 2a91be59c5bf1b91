import Snowcat.Repository.Records

/-!
# The records of an enrollment as JSON

The values that are digested are JSON values (`isJson_contextJson`), and what an
enrollment rests on can be read off them: an inspection (`inspection_of_same`)
and a probe (`probe_of_same`) are told apart by their JSON, and so are two
contexts by their snapshots and the two digests (`same_contextJson`).
-/

namespace Snowcat.Authority

open CodeUnits JsonSyntax JsonValue

variable {N : Type} {F : NumberFormat N} {p : Platform N}

theorem jsText_injective : Function.Injective jsText := fun _ _ h =>
  String.toList_injective (ofChars_injective h)

/-! ## Values of JSON -/

theorem isJson_text (s : String) : IsJson F (text s) := trivial

theorem isJson_orNull {α : Type} {f : α → JsonOf N} {o : Option α}
    (h : ∀ a ∈ o, IsJson F (f a)) : IsJson F (orNull f o) := by
  cases o with
  | none => trivial
  | some a => exact h a rfl

theorem isJson_array {α : Type} {f : α → JsonOf N} {as : List α} (h : ∀ a ∈ as, IsJson F (f a)) :
    IsJson F (.array (as.map f)) :=
  keyed_array.mpr fun v hv => by
    obtain ⟨a, ha, rfl⟩ := List.mem_map.mp hv
    exact h a ha

theorem keys_object (fields : List (String × JsonOf N)) :
    (fields.map fun f => (jsText f.1, f.2)).map Prod.fst = (fields.map Prod.fst).map jsText := by
  rw [List.map_map, List.map_map]
  rfl

/-- An object is a value of JSON when no key is there twice. -/
theorem isJson_object {fields : List (String × JsonOf N)} (hkeys : (fields.map Prod.fst).Nodup)
    (h : ∀ f ∈ fields, IsJson F f.2) : IsJson F (object fields) := by
  refine keyed_object.mpr ⟨?_, fun f hf => ?_⟩
  · rw [keys_object]
    exact hkeys.map jsText_injective
  · obtain ⟨g, hg, rfl⟩ := List.mem_map.mp hf
    exact h g hg

/-- A value with a text has finite numbers only. -/
theorem finite_of_encode {v : JsonOf N} {t : JsText} (h : encode F v = .ok t) :
    v.Every (fun _ => True) fun n => F.finite n = true := by
  induction v using JsonValue.parts_induction generalizing t with
  | null => trivial
  | bool b => trivial
  | number n =>
    by_cases hfinite : F.finite n = true
    · exact hfinite
    · rw [encode, if_neg hfinite] at h
      cases h
  | text s => trivial
  | array vs ih =>
    simp only [encode, except_bind_eq_ok] at h
    obtain ⟨parts, hparts, -⟩ := h
    refine (everyValue_iff _ _).mpr fun v hv => ?_
    have hall : ∀ {vs : List (JsonOf N)} {parts : List JsText},
        encodeValues F vs = .ok parts → ∀ v ∈ vs, ∃ t, encode F v = .ok t := by
      intro vs
      induction vs with
      | nil => exact fun _ => List.forall_mem_nil _
      | cons w ws ihs =>
        intro parts hparts
        simp only [encodeValues, except_bind_eq_ok] at hparts
        obtain ⟨part, hpart, rest, hrest, -⟩ := hparts
        exact List.forall_mem_cons.mpr ⟨⟨part, hpart⟩, ihs hrest⟩
    obtain ⟨t, ht⟩ := hall hparts v hv
    exact ih v hv ht
  | object fs ih =>
    simp only [encode, except_bind_eq_ok] at h
    obtain ⟨parts, hparts, -⟩ := h
    refine ⟨trivial, (everyField_iff _ _).mpr fun f hf => ?_⟩
    have hall : ∀ {fs : List (JsText × JsonOf N)} {parts : List (JsText × JsText)},
        encodeFields F fs = .ok parts → ∀ f ∈ fs, ∃ t, encode F f.2 = .ok t := by
      intro fs
      induction fs with
      | nil => exact fun _ => List.forall_mem_nil _
      | cons g gs ihs =>
        intro parts hparts
        obtain ⟨key, w⟩ := g
        simp only [encodeFields, except_bind_eq_ok] at hparts
        obtain ⟨part, hpart, rest, hrest, -⟩ := hparts
        exact List.forall_mem_cons.mpr ⟨⟨part, hpart⟩, ihs hrest⟩
    obtain ⟨t, ht⟩ := hall hparts f hf
    exact ih f hf ht

/-- A value whose keys are told apart and whose numbers are finite is a value of JSON. -/
theorem isJson_of_finite {v : JsonOf N} (hkeyed : v.Keyed fun _ => True)
    (hfinite : v.Every (fun _ => True) fun n => F.finite n = true) : IsJson F v := by
  induction v using JsonValue.parts_induction with
  | null => trivial
  | bool b => trivial
  | number n => exact hfinite
  | text s => trivial
  | array vs ih =>
    refine keyed_array.mpr fun v hv => ?_
    exact ih v hv (keyed_array.mp hkeyed v hv) ((everyValue_iff _ _).mp hfinite v hv)
  | object fs ih =>
    obtain ⟨hkeys, hvalues⟩ := keyed_object.mp hkeyed
    refine keyed_object.mpr ⟨hkeys, fun f hf => ?_⟩
    exact ih f hf (hvalues f hf) ((everyField_iff _ _).mp hfinite.2 f hf)

/-! ## Reading a value back -/

section Same

variable {unsign : N → N}

/-- What two objects that are the same have under a key is the same. -/
theorem same_object {fields fields' : List (String × JsonOf N)} {v w : JsonOf N}
    (h : Same unsign (object fields) (object fields')) (key : String) (hkeys : (fields'.map Prod.fst).Nodup)
    (hv : (key, v) ∈ fields) (hw : (key, w) ∈ fields') : Same unsign v w := by
  obtain ⟨x, hx, hsame⟩ := (sameFields_iff _).mp h.2 (jsText key, v) (List.mem_map.mpr ⟨_, hv, rfl⟩)
  obtain ⟨⟨key', y⟩, hy, heq⟩ := List.mem_map.mp hx
  obtain ⟨hkey, rfl⟩ := Prod.mk.inj heq
  have hpair : (key', y) = (key, w) :=
    List.inj_on_of_nodup_map hkeys hy hw (jsText_injective hkey)
  rw [← (Prod.mk.inj hpair).2]
  exact hsame

theorem eq_of_same_text {s t : String} (h : Same unsign (text s) (text t : JsonOf N)) : s = t :=
  jsText_injective h

theorem eq_of_same_array {α : Type} {f : α → JsonOf N} {as bs : List α}
    (h : Same unsign (.array (as.map f)) (.array (bs.map f)))
    (hf : ∀ a ∈ as, ∀ b ∈ bs, Same unsign (f a) (f b) → a = b) : as = bs := by
  induction as generalizing bs with
  | nil =>
    cases bs with
    | nil => rfl
    | cons b bs => exact h.elim
  | cons a as ih =>
    cases bs with
    | nil => exact h.elim
    | cons b bs =>
      obtain ⟨hhead, htail⟩ := h
      rw [hf a List.mem_cons_self b List.mem_cons_self hhead,
        ih htail fun a ha b hb => hf a (List.mem_cons_of_mem _ ha) b (List.mem_cons_of_mem _ hb)]

theorem eq_of_same_orNull {α : Type} {f : α → JsonOf N} {o o' : Option α}
    (h : Same unsign (orNull f o) (orNull f o')) (hnull : ∀ a, f a ≠ .null)
    (hf : ∀ a ∈ o, ∀ b ∈ o', Same unsign (f a) (f b) → a = b) : o = o' := by
  have hsame : ∀ v : JsonOf N, Same unsign v .null ∨ Same unsign .null v → v = .null := by
    intro v hv
    cases v with
    | null => rfl
    | _ => exact hv.elim False.elim False.elim
  cases o with
  | none =>
    cases o' with
    | none => rfl
    | some b => exact absurd (hsame _ (Or.inr h)) (hnull b)
  | some a =>
    cases o' with
    | none => exact absurd (hsame _ (Or.inl h)) (hnull a)
    | some b => exact congrArg some (hf a rfl b rfl h)

end Same

/-! ## Inspections -/

theorem isJson_inspectionJson (inspection : RepositoryGitHubInspectionInput) :
    IsJson F (inspectionJson inspection) := by
  cases inspection with
  | missing => exact isJson_object (by simp) (List.forall_mem_singleton.mpr trivial)
  | unavailable => exact isJson_object (by simp) (List.forall_mem_singleton.mpr trivial)
  | found repositoryId owner name archived defaultBranch =>
    refine isJson_object (by simp) ?_
    simp only [List.forall_mem_cons, isJson_text, true_and]
    exact ⟨trivial, List.forall_mem_nil _⟩

/-- **An inspection is told apart by its JSON.** -/
theorem inspection_of_same {unsign : N → N}
    {inspection inspection' : RepositoryGitHubInspectionInput}
    (h : Same unsign (inspectionJson inspection) (inspectionJson inspection')) :
    inspection = inspection' := by
  cases inspection <;> cases inspection'
  case missing.missing => rfl
  case unavailable.unavailable => rfl
  case found.found repositoryId owner name archived defaultBranch repositoryId' owner' name'
      archived' defaultBranch' =>
    have hid : repositoryId = repositoryId' :=
      eq_of_same_text (same_object h "repositoryId" (by simp) (by simp) (by simp))
    have howner : owner = owner' :=
      eq_of_same_text (same_object h "owner" (by simp) (by simp) (by simp))
    have hname : name = name' :=
      eq_of_same_text (same_object h "name" (by simp) (by simp) (by simp))
    have harchived : archived = archived' :=
      same_object h "archived" (v := .bool archived) (w := .bool archived') (by simp) (by simp)
        (by simp)
    have hbranch : defaultBranch = defaultBranch' :=
      eq_of_same_text (same_object h "defaultBranch" (by simp) (by simp) (by simp))
    rw [hid, howner, hname, harchived, hbranch]
  all_goals
    have hkind := eq_of_same_text
      (same_object h "kind" (by simp) List.mem_cons_self List.mem_cons_self)
    exact absurd hkind (by decide)

/-! ## Probes -/

theorem modeText_injective : Function.Injective modeText := by
  intro a b h
  cases a <;> cases b <;> first | rfl | exact absurd h (by decide)

theorem objectTypeText_injective : Function.Injective objectTypeText := by
  intro a b h
  cases a <;> cases b <;> first | rfl | exact absurd h (by decide)

theorem isJson_number (n : ℕ) : IsJson p.format (.number (p.nat n)) := p.finite_nat n

theorem isJson_treeEntryJson (entry : RepositorySurfaceTreeEntry) :
    IsJson p.format (treeEntryJson p entry) := by
  refine isJson_object (by simp) ?_
  simp only [List.forall_mem_cons, isJson_text, true_and]
  exact ⟨isJson_orNull fun _ _ => isJson_number _, List.forall_mem_nil _⟩

theorem isJson_probeEntryJson (entry : RepositorySurfaceProbeEntry) :
    IsJson p.format (probeEntryJson p entry) := by
  cases entry with
  | missing surfaceId path =>
    refine isJson_object (by simp) ?_
    simp only [List.forall_mem_cons, isJson_text, true_and]
    exact List.forall_mem_nil _
  | found surface =>
    refine isJson_object (by simp) ?_
    simp only [List.forall_mem_cons, isJson_text, true_and]
    exact ⟨isJson_orNull fun _ _ => isJson_text _, isJson_orNull fun _ _ =>
      isJson_array fun entry _ => isJson_treeEntryJson entry, List.forall_mem_nil _⟩

theorem isJson_probeJson (probe : RepositorySurfaceProbeInput) :
    IsJson p.format (probeJson p probe) := by
  cases probe with
  | unavailable => exact isJson_object (by simp) (List.forall_mem_singleton.mpr trivial)
  | resolved defaultBranch commitId treeId surfaces =>
    refine isJson_object (by simp) ?_
    simp only [List.forall_mem_cons, isJson_text, true_and]
    exact ⟨isJson_array fun entry _ => isJson_probeEntryJson entry, List.forall_mem_nil _⟩

/-- An entry of a listing whose size is a safe integer is told apart by its JSON. -/
theorem treeEntry_of_same {entry entry' : RepositorySurfaceTreeEntry}
    (hsafe : ∀ n ∈ entry.size, n < 2 ^ 53) (hsafe' : ∀ n ∈ entry'.size, n < 2 ^ 53)
    (h : Same p.format.unsign (treeEntryJson p entry) (treeEntryJson p entry')) :
    entry = entry' := by
  obtain ⟨path, mode, type, objectId, size⟩ := entry
  obtain ⟨path', mode', type', objectId', size'⟩ := entry'
  have hpath : path = path' := Subtype.ext
    (eq_of_same_text (same_object h "path" (by simp) (by simp) (by simp)))
  have hmode : mode = mode' := modeText_injective
    (eq_of_same_text (same_object h "mode" (by simp) (by simp) (by simp)))
  have htype : type = type' := objectTypeText_injective
    (eq_of_same_text (same_object h "type" (by simp) (by simp) (by simp)))
  have hobject : objectId = objectId' := Subtype.ext
    (eq_of_same_text (same_object h "objectId" (by simp) (by simp) (by simp)))
  have hsize : size = size' :=
    eq_of_same_orNull (f := fun n => .number (p.nat n))
      (same_object h "size" (by simp) (by simp) (by simp)) (fun _ h => nomatch h)
      fun m hm n hn hsame => p.nat_inj (hsafe m hm) (hsafe' n hn) hsame
  rw [hpath, hmode, htype, hobject, hsize]

/-- The sizes of an entry's listing are safe integers. -/
def SafeEntry : RepositorySurfaceProbeEntry → Prop
  | .missing _ _ => True
  | .found surface => ∀ entries ∈ surface.treeEntries, ∀ entry ∈ entries,
      ∀ n ∈ entry.size, n < 2 ^ 53

theorem probeEntry_of_same {entry entry' : RepositorySurfaceProbeEntry} (hsafe : SafeEntry entry)
    (hsafe' : SafeEntry entry')
    (h : Same p.format.unsign (probeEntryJson p entry) (probeEntryJson p entry')) :
    entry = entry' := by
  cases entry <;> cases entry'
  case missing.missing surfaceId path surfaceId' path' =>
    have hid : surfaceId = surfaceId' :=
      eq_of_same_text (same_object h "surfaceId" (by simp) (by simp) (by simp))
    have hpath : path = path' :=
      eq_of_same_text (same_object h "path" (by simp) (by simp) (by simp))
    rw [hid, hpath]
  case found.found surface surface' =>
    obtain ⟨surfaceId, path, mode, objectType, objectId, bytes, entries⟩ := surface
    obtain ⟨surfaceId', path', mode', objectType', objectId', bytes', entries'⟩ := surface'
    have hid : surfaceId = surfaceId' :=
      eq_of_same_text (same_object h "surfaceId" (by simp) (by simp) (by simp))
    have hpath : path = path' :=
      eq_of_same_text (same_object h "path" (by simp) (by simp) (by simp))
    have hmode : mode = mode' := modeText_injective
      (eq_of_same_text (same_object h "mode" (by simp) (by simp) (by simp)))
    have htype : objectType = objectType' := objectTypeText_injective
      (eq_of_same_text (same_object h "objectType" (by simp) (by simp) (by simp)))
    have hobject : objectId = objectId' := Subtype.ext
      (eq_of_same_text (same_object h "objectId" (by simp) (by simp) (by simp)))
    have hbytes : bytes = bytes' :=
      eq_of_same_orNull (f := fun bytes => text (String.ofList (Base64.encode bytes)))
        (same_object h "bytesBase64" (by simp) (by simp) (by simp))
        (fun _ h => nomatch (h : JsonValue.text _ = .null)) fun _ _ _ _ hsame =>
          Base64.encode_injective (String.ofList_injective (eq_of_same_text hsame))
    have hentries : entries = entries' :=
      eq_of_same_orNull (f := fun entries => .array (entries.map (treeEntryJson p)))
        (same_object h "treeEntries" (by simp) (by simp) (by simp))
        (fun _ h => nomatch h) fun as has bs hbs hsame =>
          eq_of_same_array hsame fun a ha b hb hentry =>
            treeEntry_of_same (hsafe as has a ha) (hsafe' bs hbs b hb) hentry
    rw [hid, hpath, hmode, htype, hobject, hbytes, hentries]
  all_goals
    have hkind := eq_of_same_text (same_object h "kind" (by simp)
      (List.mem_cons_of_mem _ (List.mem_cons_of_mem _ List.mem_cons_self))
      (List.mem_cons_of_mem _ (List.mem_cons_of_mem _ List.mem_cons_self)))
    exact absurd hkind (by decide)

/-- The sizes of a probe's listings are safe integers. -/
def SafeProbe : RepositorySurfaceProbeInput → Prop
  | .unavailable => True
  | .resolved _ _ _ surfaces => ∀ entry ∈ surfaces, SafeEntry entry

/-- **A probe is told apart by its JSON.** -/
theorem probe_of_same {probe probe' : RepositorySurfaceProbeInput} (hsafe : SafeProbe probe)
    (hsafe' : SafeProbe probe')
    (h : Same p.format.unsign (probeJson p probe) (probeJson p probe')) : probe = probe' := by
  cases probe <;> cases probe'
  case unavailable.unavailable => rfl
  case resolved.resolved branch commitId treeId surfaces branch' commitId' treeId' surfaces' =>
    have hbranch : branch = branch' :=
      eq_of_same_text (same_object h "defaultBranch" (by simp) (by simp) (by simp))
    have hcommit : commitId = commitId' := Subtype.ext
      (eq_of_same_text (same_object h "repositoryCommitId" (by simp) (by simp) (by simp)))
    have htree : treeId = treeId' := Subtype.ext
      (eq_of_same_text (same_object h "repositoryTreeId" (by simp) (by simp) (by simp)))
    have hsurfaces : surfaces = surfaces' :=
      eq_of_same_array (same_object h "surfaces" (by simp) (by simp) (by simp))
        fun a ha b hb hentry => probeEntry_of_same (hsafe a ha) (hsafe' b hb) hentry
    rw [hbranch, hcommit, htree, hsurfaces]
  all_goals
    have hkind := eq_of_same_text
      (same_object h "kind" (by simp) List.mem_cons_self List.mem_cons_self)
    exact absurd hkind (by decide)

/-! ## Contexts -/

theorem isJson_summaryJson (summary : RepositorySurfaceSummary) :
    IsJson p.format (summaryJson p summary) := by
  refine isJson_object (by simp) ?_
  simp only [List.forall_mem_cons, isJson_text, isJson_number, true_and]
  exact List.forall_mem_nil _

theorem isJson_requirementJson (requirement : RepositorySurfaceRequirementResult) :
    IsJson F (requirementJson requirement) := by
  refine isJson_object (by simp) ?_
  simp only [List.forall_mem_cons, isJson_text, true_and]
  exact ⟨isJson_orNull fun _ _ => isJson_text _, List.forall_mem_nil _⟩

theorem isJson_ownerJson (owner : RepositoryAccountableOwner) : IsJson F (ownerJson owner) := by
  cases owner <;>
  · refine isJson_object (by simp) ?_
    simp only [List.forall_mem_cons, isJson_text, true_and]
    exact List.forall_mem_nil _

/-- The policy of a reconciliation that has a text has finite numbers only. -/
theorem isJson_policy {value : RepositorySurfaceReconciliationPayload} {t : JsText}
    (h : canonicalJson p.format (surfaceJson p value) = .ok t) {policy : Json}
    (hpolicy : value.governancePolicy = some policy) : IsJson p.format (p.policy policy).1 := by
  refine isJson_of_finite (p.policy policy).2 ?_
  have hevery := (everyField_iff _ _).mp (finite_of_encode h).2
  refine hevery (jsText "governancePolicy", (p.policy policy).1) (List.mem_map.mpr
    ⟨("governancePolicy", (p.policy policy).1), List.mem_append_right _ ?_, rfl⟩)
  rw [surfaceFields, hpolicy]
  simp [orNull]

theorem isJson_surfaceFields {value : RepositorySurfaceReconciliationPayload} {t : JsText}
    (h : canonicalJson p.format (surfaceJson p value) = .ok t) :
    IsJson p.format (object (surfaceFields p value)) := by
  have htexts : ∀ {α : Type} {f : α → String} {o : Option α},
      IsJson p.format (orNull (fun a => text (f a)) o) :=
    fun {_ _ _} => isJson_orNull fun _ _ => isJson_text _
  refine isJson_object (by simp [surfaceFields]) ?_
  simp only [surfaceFields, List.forall_mem_cons, isJson_text, isJson_number, true_and]
  exact ⟨isJson_orNull fun _ _ => isJson_text _, htexts, htexts,
    isJson_array fun summary _ => isJson_summaryJson summary,
    isJson_orNull fun policy hpolicy => isJson_policy h hpolicy,
    isJson_array fun requirement _ => isJson_requirementJson requirement, trivial,
    List.forall_mem_nil _⟩

/-- **A context is a value of JSON**, when its surfaces have a text. -/
theorem isJson_contextJson {input : RepositoryAuthorityContextInput} {t : JsText}
    (h : canonicalJson p.format (surfaceJson p input.surfaces) = .ok t) :
    IsJson p.format (contextJson p input) := by
  have hlist : ∀ {α : Type} {f : α → String} {as : List α},
      IsJson p.format (.array (as.map fun a => text (f a))) :=
    fun {_ _ _} => isJson_array fun _ _ => isJson_text _
  have htext : ∀ {o : Option String}, IsJson p.format (orNull text o) :=
    fun {_} => isJson_orNull fun _ _ => isJson_text _
  refine isJson_object (by simp) ?_
  simp only [List.forall_mem_cons, isJson_text, isJson_number, true_and]
  refine ⟨isJson_object (by simp) ?_, isJson_object (by simp) ?_, isJson_surfaceFields h,
    isJson_object (by simp) ?_, List.forall_mem_nil _⟩
  · simp only [List.forall_mem_cons, isJson_text, isJson_number, true_and]
    exact ⟨isJson_array fun owner _ => isJson_ownerJson owner, hlist, hlist, List.forall_mem_nil _⟩
  · simp only [List.forall_mem_cons, isJson_text, htext, true_and]
    exact ⟨isJson_orNull fun _ _ => trivial, List.forall_mem_nil _⟩
  · simp only [List.forall_mem_cons, isJson_text, isJson_number, true_and]
    exact ⟨hlist, hlist, List.forall_mem_nil _⟩

/-- **Contexts that are the same** are of one snapshot, one inspection's digest and one probe's
digest. -/
theorem same_contextJson {unsign : N → N} {input input' : RepositoryAuthorityContextInput}
    (h : Same unsign (contextJson p input) (contextJson p input')) :
    input.authority.coreSnapshotId = input'.authority.coreSnapshotId ∧
      input.github.responseDigest = input'.github.responseDigest ∧
      input.surfaces.probeDigest = input'.surfaces.probeDigest := by
  refine ⟨?_, ?_, ?_⟩
  · have hcore := same_object h "core" (by simp)
      (List.mem_cons_of_mem _ (List.mem_cons_of_mem _ List.mem_cons_self))
      (List.mem_cons_of_mem _ (List.mem_cons_of_mem _ List.mem_cons_self))
    exact eq_of_same_text (same_object hcore "snapshotId" (by simp) (by simp) (by simp))
  · have hgithub := same_object h "github" (by simp)
      (List.mem_cons_of_mem _ (List.mem_cons_of_mem _ (List.mem_cons_of_mem _ List.mem_cons_self)))
      (List.mem_cons_of_mem _ (List.mem_cons_of_mem _ (List.mem_cons_of_mem _ List.mem_cons_self)))
    exact eq_of_same_text (same_object hgithub "responseDigest" (by simp) (by simp) (by simp))
  · have hsurfaces := same_object h "surfaces" (by simp)
      (v := object (surfaceFields p input.surfaces))
      (w := object (surfaceFields p input'.surfaces)) (by simp) (by simp)
    exact eq_of_same_text (same_object hsurfaces "probeDigest" (by simp [surfaceFields])
      (by simp [surfaceFields]) (by simp [surfaceFields]))

/-! ## Digests -/

/-- A value of JSON has a digest. -/
theorem exists_digest {v : JsonOf N} (h : IsJson p.format v) : ∃ d, digest p v = .ok d := by
  unfold digest canonicalJson
  rw [encode_eq h]
  exact ⟨_, rfl⟩

/-- **Two values have one digest exactly when they are the same**, where no two texts have one
hash. -/
theorem digest_eq_iff (hhash : Function.Injective p.world.sha256) {v w : JsonOf N}
    (hv : IsJson p.format v) (hw : IsJson p.format w) :
    digest p v = digest p w ↔ Same p.format.unsign v w :=
  (canonicalJson_canonical hhash hv hw).2.2

end Snowcat.Authority
