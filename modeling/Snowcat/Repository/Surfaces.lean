import Mathlib.Data.List.Sort
import Snowcat.Control.Encoding
import Snowcat.Lib.Bytes
import Snowcat.Lib.GitObjects
import Snowcat.Queue.Validation
import Snowcat.Sweep.GitHub

/-!
# The canonical surfaces of a repository

An inspection walks each path of the surface contract from the tree of the
default branch's commit, one tree object per component, and reads the blob
or the tree the path leads to. What GitHub answers is checked against the
object it was asked for: the listing of a tree is hashed back to the
tree's identity and the bytes of a blob to the blob's. The control plane
then evaluates what the walk reports.

The identities GitHub spells in hexadecimal are texts here as in the
source; `rawEntry` is the entry of the Git tree that a listed entry stands
for. The kind and the size GitHub lists beside it are in no Git tree.
-/

namespace Snowcat

open Bytes

/-! ## The listing of a tree -/

/-- The modes an entry of a tree may have. -/
inductive TreeMode where
  | regular | executable | symlink | directory | submodule
  deriving DecidableEq, Repr

/-- The mode GitHub spells. -/
def TreeMode.ofText? (s : String) : Option TreeMode :=
  if s = "100644" then some .regular
  else if s = "100755" then some .executable
  else if s = "120000" then some .symlink
  else if s = "040000" then some .directory
  else if s = "160000" then some .submodule
  else none

/-- The mode as a Git tree spells it. -/
def TreeMode.gitText : TreeMode → List UInt8
  | .regular => [0x31, 0x30, 0x30, 0x36, 0x34, 0x34]
  | .executable => [0x31, 0x30, 0x30, 0x37, 0x35, 0x35]
  | .symlink => [0x31, 0x32, 0x30, 0x30, 0x30, 0x30]
  | .directory => Git.treeMode
  | .submodule => [0x31, 0x36, 0x30, 0x30, 0x30, 0x30]

/-- The kinds of object GitHub lists. -/
inductive ObjectType where
  | blob | tree | commit
  deriving DecidableEq, Repr

/-- The kind GitHub spells. -/
def ObjectType.ofText? (s : String) : Option ObjectType :=
  if s = "blob" then some .blob
  else if s = "tree" then some .tree
  else if s = "commit" then some .commit
  else none

/-- An object's identity: `/^[0-9a-f]{40}$/`. -/
abbrev ObjectId := { s : String // Patterns.commitSha.test s = true }

/-- `isSha1`, with the identity it found. -/
def isSha1 (s : String) : Option ObjectId :=
  if h : Patterns.commitSha.test s = true then some ⟨s, h⟩ else none

/-- The path of an entry: `/^[^/\u0000]{1,255}$/`, in UTF-16 code units. -/
def treeEntryPath (s : String) : Bool :=
  1 ≤ jsLength s && jsLength s ≤ 255 && s.toList.all fun c => c != '/' && c.toNat != 0

/-- `RepositorySurfaceTreeEntry`. -/
structure RepositorySurfaceTreeEntry where
  path : { s : String // treeEntryPath s = true }
  mode : TreeMode
  type : ObjectType
  objectId : ObjectId
  size : Option ℕ
  deriving DecidableEq

/-! ## The surfaces -/

/-- The artifact a surface asks for. -/
inductive ArtifactType where
  | file | directory
  deriving DecidableEq, Repr

/-- `RepositorySurfaceDefinition`, as far as the walk and the evaluation read
it. -/
structure RepositorySurfaceDefinition where
  id : String
  path : String
  artifactType : ArtifactType
  deriving DecidableEq, Repr

/-- `RepositorySurfaceContract`: no two surfaces have one identity, as the
validation of a catalog checks. -/
structure RepositorySurfaceContract where
  version : ℕ
  surfaces : List RepositorySurfaceDefinition
  distinct : (surfaces.map RepositorySurfaceDefinition.id).Nodup

/-- `RepositorySurfaceInspectionTarget`. -/
structure RepositorySurfaceInspectionTarget where
  owner : String
  name : String
  defaultBranch : String
  contract : RepositorySurfaceContract

/-- What the walk found at the end of a path, or before it. -/
structure FoundSurface where
  surfaceId : String
  path : String
  mode : TreeMode
  objectType : ObjectType
  objectId : ObjectId
  bytes : Option (List UInt8)
  treeEntries : Option (List RepositorySurfaceTreeEntry)
  deriving DecidableEq

/-- `RepositorySurfaceProbeEntry`. -/
inductive RepositorySurfaceProbeEntry where
  | missing (surfaceId path : String)
  | found (surface : FoundSurface)
  deriving DecidableEq

/-- `RepositorySurfaceProbeInput`. -/
inductive RepositorySurfaceProbeInput where
  | unavailable
  | resolved (defaultBranch : String) (repositoryCommitId repositoryTreeId : ObjectId)
      (surfaces : List RepositorySurfaceProbeEntry)
  deriving DecidableEq

/-- The identity of the surface an entry is about. -/
def RepositorySurfaceProbeEntry.surfaceId : RepositorySurfaceProbeEntry → String
  | .missing surfaceId _ => surfaceId
  | .found surface => surface.surfaceId

/-- The path of the surface an entry is about. -/
def RepositorySurfaceProbeEntry.path : RepositorySurfaceProbeEntry → String
  | .missing _ path => path
  | .found surface => surface.path

/-- A request of an inspection, below `/repos/<owner>/<name>`. -/
inductive SurfaceRequest where
  /-- `/commits/<defaultBranch>` -/
  | commit (defaultBranch : String)
  /-- `/git/trees/<id>` -/
  | tree (id : ObjectId)
  /-- `/git/blobs/<id>` -/
  | blob (id : ObjectId)
  deriving DecidableEq

/-- **What an inspection meets outside**: what GitHub answers, by the number
of requests so far, and the platform. -/
structure SurfaceWorld where
  /-- What GitHub answers. -/
  answer : ℕ → SurfaceRequest → GitHubJsonResponse
  /-- `createHash("sha1")`. -/
  sha1 : List UInt8 → List UInt8
  /-- `createHash("sha256")`, in hexadecimal behind `sha256:`. -/
  sha256 : List UInt8 → String
  /-- The SHA-256 digest of the JSON of a listing. -/
  listingDigest : List RepositorySurfaceTreeEntry → String
  /-- `localeCompare`, as an order. -/
  localeLe : String → String → Bool
  /-- `Buffer.from(text, "base64")`. -/
  base64 : List Char → List UInt8
  /-- `validateRepositoryGovernanceBytes`, when it does not throw. -/
  governance : List UInt8 → Option Json

/-! ## The objects an answer is checked against -/

theorem length_objectId (id : ObjectId) : id.1.toList.length = 2 * 20 :=
  ((Pattern.test_iff _ _).mp id.2).of_times.1

/-- The bytes of an object's identity. -/
def ObjectId.bytes (id : ObjectId) : List UInt8 := ofHex id.1.toList

/-- The entry of the Git tree that a listed entry stands for. -/
def RepositorySurfaceTreeEntry.raw (e : RepositorySurfaceTreeEntry) : Git.TreeEntry where
  mode := e.mode.gitText
  name := utf8 e.path.1
  object := e.objectId.bytes
  spaceless := by cases e.mode <;> decide
  nulless := by
    refine zero_notMem_utf8 fun c hc hzero => ?_
    have hpath := e.path.2
    simp only [treeEntryPath, Bool.and_eq_true, List.all_eq_true] at hpath
    have := (hpath.2 c hc).2
    simp [hzero] at this
  twenty := length_ofHex (length_objectId e.objectId)

/-- What Git sorts an entry of a tree by: its name, and a slash behind a
tree's. -/
def RepositorySurfaceTreeEntry.sortKey (e : RepositorySurfaceTreeEntry) : List UInt8 :=
  utf8 (e.path.1 ++ if e.type = .tree then "/" else "")

/-- `Buffer.compare`, of what Git sorts by. -/
def gitOrder (e f : RepositorySurfaceTreeEntry) : Prop := ¬ f.sortKey < e.sortKey

instance (e f : RepositorySurfaceTreeEntry) : Decidable (gitOrder e f) :=
  inferInstanceAs (Decidable (¬ _))

section Inspection

variable (world : SurfaceWorld)

/-- `repositoryGitBlobObjectId`. -/
def repositoryGitBlobObjectId (bytes : List UInt8) : String :=
  String.ofList (toHex (world.sha1 (Git.blobText bytes)))

/-- `repositoryGitTreeObjectId`. -/
def repositoryGitTreeObjectId (entries : List RepositorySurfaceTreeEntry) : String :=
  String.ofList (toHex (world.sha1 (Git.treeText
    ((entries.insertionSort gitOrder).map RepositorySurfaceTreeEntry.raw))))

/-- The order of `localeCompare`, of two paths. -/
def localeOrder (e f : RepositorySurfaceTreeEntry) : Prop :=
  world.localeLe e.path.1 f.path.1 = true

instance (e f : RepositorySurfaceTreeEntry) : Decidable (localeOrder world e f) :=
  inferInstanceAs (Decidable (_ = _))

/-- `surfaceTreeDigest`. -/
def surfaceTreeDigest (entries : List RepositorySurfaceTreeEntry) : String :=
  world.listingDigest (entries.insertionSort (localeOrder world))

/-! ## Reading an answer -/

/-- `parseCommit`: the identities of a commit and of its tree. -/
def parseCommit (value : Json) : Option (ObjectId × ObjectId) := do
  let sha ← (value.field "sha").bind Json.text?
  let commitId ← isSha1 sha
  let commit ← value.field "commit"
  let tree ← commit.field "tree"
  let treeSha ← (tree.field "sha").bind Json.text?
  let treeId ← isSha1 treeSha
  pure (commitId, treeId)

/-- The size of a listed entry: absent, or a safe integer that is not
negative. -/
def parseSize (value : Option Json) : Option (Option ℕ) :=
  match value with
  | none => some none
  | some (.number n) =>
    match n with
    | .int k => if n.isSafeInteger = true ∧ 0 ≤ k then some (some k.toNat) else none
    | .notInteger => none
  | some _ => none

/-- One entry of a listed tree. -/
def parseTreeEntry (raw : Json) : Option RepositorySurfaceTreeEntry := do
  let path ← (raw.field "path").bind Json.text?
  let modeText ← (raw.field "mode").bind Json.text?
  let mode ← TreeMode.ofText? modeText
  let typeText ← (raw.field "type").bind Json.text?
  let type ← ObjectType.ofText? typeText
  let sha ← (raw.field "sha").bind Json.text?
  let objectId ← isSha1 sha
  let size ← parseSize (raw.field "size")
  if h : treeEntryPath path = true then some ⟨⟨path, h⟩, mode, type, objectId, size⟩ else none

/-- The entries of a listed tree, no two of one path. -/
def parseTreeEntries : List Json → List String → Option (List RepositorySurfaceTreeEntry)
  | [], _ => some []
  | raw :: raws, paths => do
    let entry ← parseTreeEntry raw
    if entry.path.1 ∈ paths then none
    else do
      let entries ← parseTreeEntries raws (entry.path.1 :: paths)
      pure (entry :: entries)

/-- `parseTree`. -/
def parseTree (value : Json) (expectedTreeId : ObjectId) :
    Option (List RepositorySurfaceTreeEntry) := do
  let sha ← (value.field "sha").bind Json.text?
  let truncated ← value.field "truncated"
  let raws ← (value.field "tree").bind Json.array?
  if sha ≠ expectedTreeId.1 ∨ truncated.isFalse = false ∨ 2000 < raws.length then none
  else do
    let entries ← parseTreeEntries raws []
    let sorted := entries.insertionSort (localeOrder world)
    if repositoryGitTreeObjectId world sorted = expectedTreeId.1 then some sorted else none

/-- A character of base64. -/
def base64Letter (c : Char) : Bool := Patterns.alphanumeric c || c == '+' || c == '/'

/-- `/^(?:[A-Za-z0-9+/]{4})*(?:[A-Za-z0-9+/]{2}==|[A-Za-z0-9+/]{3}=)?$/`, group
by group. -/
def isBase64 : List Char → Bool
  | [] => true
  | [a, b, '=', '='] => base64Letter a && base64Letter b
  | [a, b, c, '='] => base64Letter a && base64Letter b && base64Letter c
  | a :: b :: c :: d :: rest =>
    base64Letter a && base64Letter b && base64Letter c && base64Letter d && isBase64 rest
  | _ => false

/-- `parseBlob`. -/
def parseBlob (value : Json) (expectedObjectId : ObjectId) : Option (List UInt8) := do
  let sha ← (value.field "sha").bind Json.text?
  let encoding ← (value.field "encoding").bind Json.text?
  let content ← (value.field "content").bind Json.text?
  let size ← parseSize (value.field "size")
  let size ← size
  let encoded := content.toList.filter fun c => c != '\r' && c != '\n'
  let bytes := world.base64 encoded
  if sha ≠ expectedObjectId.1 ∨ encoding ≠ "base64" ∨ 1048576 < size ∨
      isBase64 encoded = false ∨ bytes.length ≠ size then none
  else if repositoryGitBlobObjectId world bytes = expectedObjectId.1 then some bytes
  else none

/-! ## The walk -/

/-- What an inspection keeps while it walks: how many requests it has made,
and the trees it has read. -/
structure Walk where
  asks : ℕ
  trees : List (ObjectId × List RepositorySurfaceTreeEntry)
  deriving DecidableEq

/-- A computation of an inspection. -/
abbrev WalkTx : Type → Type := Tx Walk ControlError

/-- `githubApiJson`, and `response.status === 200`. -/
def answered (request : SurfaceRequest) : WalkTx (Option Json) := do
  let asks ← Tx.read Walk.asks
  Tx.update fun w => { w with asks := asks + 1 }
  match world.answer asks request with
  | .unavailable => pure none
  | .response status value => if status = 200 then pure (some value) else pure none

/-- `loadTree`. -/
def loadTree (treeId : ObjectId) : WalkTx (Option (List RepositorySurfaceTreeEntry)) := do
  let trees ← Tx.read Walk.trees
  match trees.lookup treeId with
  | some cached => pure (some cached)
  | none => do
    let response ← answered world (.tree treeId)
    match response.bind (parseTree world · treeId) with
    | none => pure none
    | some listing => do
      Tx.update fun w => { w with trees := (treeId, listing) :: w.trees }
      pure (some listing)

/-- What the walk of a surface found. -/
def found (surface : RepositorySurfaceDefinition) (entry : RepositorySurfaceTreeEntry) :
    FoundSurface :=
  ⟨surface.id, surface.path, entry.mode, entry.type, entry.objectId, none, none⟩

/-- What is left of a path, walked from a tree. -/
def resolveFrom (surface : RepositorySurfaceDefinition) :
    ObjectId → List String → WalkTx (Option RepositorySurfaceProbeEntry)
  | _, [] => pure none
  | treeId, segment :: segments => do
    match ← loadTree world treeId with
    | none => pure none
    | some entries =>
      match entries.find? (·.path.1 = segment) with
      | none => pure (some (.missing surface.id surface.path))
      | some entry =>
        if segments = [] ∨ entry.type ≠ .tree ∨ entry.mode ≠ .directory then
          -- the last component, and any component that is no tree, end the walk alike
          pure (some (.found (found surface entry)))
        else resolveFrom surface entry.objectId segments

/-- `resolveSurface`. -/
def resolveSurface (rootTreeId : ObjectId) (surface : RepositorySurfaceDefinition) :
    WalkTx (Option RepositorySurfaceProbeEntry) :=
  resolveFrom world surface rootTreeId (splitAtSlash surface.path)

/-- A surface is resolved, and the object it leads to is read. -/
def probeSurface (rootTreeId : ObjectId) (surface : RepositorySurfaceDefinition) :
    WalkTx (Option RepositorySurfaceProbeEntry) := do
  match ← resolveSurface world rootTreeId surface with
  | none => pure none
  | some (.missing _ _) => pure (some (.missing surface.id surface.path))
  | some (.found resolved) =>
    match resolved.objectType with
    | .blob => do
      let response ← answered world (.blob resolved.objectId)
      match response.bind (parseBlob world · resolved.objectId) with
      | none => pure none
      | some bytes => pure (some (.found { resolved with bytes := some bytes }))
    | .tree => do
      match ← loadTree world resolved.objectId with
      | none => pure none
      | some entries => pure (some (.found { resolved with treeEntries := some entries }))
    | .commit => pure (some (.found resolved))

/-- The surfaces of a contract, until one is unavailable. -/
def probeSurfaces (rootTreeId : ObjectId) :
    List RepositorySurfaceDefinition → WalkTx (Option (List RepositorySurfaceProbeEntry))
  | [] => pure (some [])
  | surface :: surfaces => do
    match ← probeSurface world rootTreeId surface with
    | none => pure none
    | some entry => do
      match ← probeSurfaces rootTreeId surfaces with
      | none => pure none
      | some entries => pure (some (entry :: entries))

/-- `/^[A-Za-z0-9](?:[A-Za-z0-9-]{0,38})$/`. -/
def Patterns.repositoryOwner : Pattern :=
  .seq (.one Patterns.alphanumeric)
    (.upTo (.one fun c => Patterns.alphanumeric c || c == '-') 38)

/-- `/^[A-Za-z0-9._-]{1,100}$/`. -/
def Patterns.repositoryName : Pattern :=
  let letter : Pattern :=
    .one fun c => Patterns.alphanumeric c || c == '.' || c == '_' || c == '-'
  .seq letter (.upTo letter 99)

/-- `assertTarget`. -/
def assertTarget (target : RepositorySurfaceInspectionTarget) : Except ControlError Unit := do
  refuseIf (Patterns.repositoryOwner.test target.owner = false)
    (.error "invalid repository owner")
  refuseIf (Patterns.repositoryName.test target.name = false) (.error "invalid repository name")
  refuseIf (target.defaultBranch = "" ∨ 255 < jsLength target.defaultBranch)
    (.error "invalid default branch")
  refuseIf (target.contract.version ≠ 1 ∨ target.contract.surfaces.length ≠ 4)
    (.error "unsupported repository surface contract")

/-- **`inspectRepositorySurfaces`.** -/
def inspectRepositorySurfaces (target : RepositorySurfaceInspectionTarget) :
    WalkTx RepositorySurfaceProbeInput := do
  Tx.ofExcept (assertTarget target)
  let response ← answered world (.commit target.defaultBranch)
  match response.bind parseCommit with
  | none => pure .unavailable
  | some (commitId, treeId) => do
    match ← probeSurfaces world treeId target.contract.surfaces with
    | none => pure .unavailable
    | some surfaces => pure (.resolved target.defaultBranch commitId treeId surfaces)

/-! ## The evaluation -/

/-- `isRepositoryBranchName`. -/
def isRepositoryBranchName (value : String) : Bool :=
  let letter : Pattern :=
    .one fun c => Patterns.alphanumeric c || c == '.' || c == '_' || c == '/' || c == '-'
  (Pattern.seq (.one Patterns.alphanumeric) (.upTo letter 254)).test value &&
    !includes value ".." && !includes value "//" && !includes value "@\x7b" &&
    !endsWith value "." && !endsWith value "/" && !endsWith value ".lock"

/-- The refusals of one entry of a probe, with the identities before it. -/
def assertProbeEntry (identities : List String) (entry : RepositorySurfaceProbeEntry) :
    Except ControlError Unit := do
  refuseIf (jsLength entry.path < 1 ∨ 512 < jsLength entry.path ∨ entry.surfaceId ∈ identities)
    (.error "repository surface probe entry identity is invalid")
  match entry with
  | .missing _ _ => pure ()
  | .found surface => do
    refuseIf (∃ bytes ∈ surface.bytes, 1048576 < bytes.length)
      (.error "repository surface found probe is invalid")
    refuseSome (fun entries => do
      refuseIf (2000 < entries.length)
        (.error "repository surface tree listing exceeds the entry bound")
      refuseIf (¬ (entries.map fun e : RepositorySurfaceTreeEntry => e.path.1).Nodup)
        (.error "repository surface tree entry is invalid")) surface.treeEntries

/-- The refusals of the entries of a probe. -/
def assertProbeEntries : List String → List RepositorySurfaceProbeEntry → Except ControlError Unit
  | _, [] => pure ()
  | identities, entry :: entries => do
    assertProbeEntry identities entry
    assertProbeEntries (entry.surfaceId :: identities) entries

/-- An entry with its listing in the order of `localeCompare`. -/
def RepositorySurfaceProbeEntry.normalized :
    RepositorySurfaceProbeEntry → RepositorySurfaceProbeEntry
  | .missing surfaceId path => .missing surfaceId path
  | .found surface => .found { surface with
      treeEntries := surface.treeEntries.map (List.insertionSort (localeOrder world)) }

/-- **`normalizeRepositorySurfaceProbe`.** -/
def normalizeRepositorySurfaceProbe (input : RepositorySurfaceProbeInput) :
    Except ControlError RepositorySurfaceProbeInput :=
  match input with
  | .unavailable => pure .unavailable
  | .resolved defaultBranch commitId treeId surfaces => do
    refuseIf (isRepositoryBranchName defaultBranch = false ∨ 4 < surfaces.length)
      (.error "repository surface resolved probe is invalid")
    assertProbeEntries [] surfaces
    pure (.resolved defaultBranch commitId treeId
      (surfaces.map (RepositorySurfaceProbeEntry.normalized world)))

/-- `RepositorySurfaceSummary`. -/
structure RepositorySurfaceSummary where
  surfaceId : String
  path : String
  artifactType : ArtifactType
  objectId : ObjectId
  contentDigest : String
  size : ℕ
  deriving DecidableEq

/-- What the evaluation makes of a probe. -/
inductive SurfaceResult where
  | unavailable | missing | wrongType | invalid | valid
  deriving DecidableEq, Repr

/-- `EvaluatedRepositorySurfaceProbe`. -/
structure EvaluatedRepositorySurfaceProbe where
  defaultBranch : Option String
  repositoryCommitId : Option ObjectId
  repositoryTreeId : Option ObjectId
  surfaces : List RepositorySurfaceSummary
  governancePolicy : Option Json
  result : SurfaceResult
  failedSurfaceId : Option String

/-- What the evaluation of the surfaces has come to. -/
inductive SurfaceEvaluation where
  /-- Every surface passed. -/
  | passed (summaries : List RepositorySurfaceSummary) (governancePolicy : Option Json)
  /-- A surface failed. -/
  | failed (summaries : List RepositorySurfaceSummary) (result : SurfaceResult)
      (failedSurfaceId : String)

/-- Whether what was found is of the kind a surface asks for. -/
def FoundSurface.ofKind (entry : FoundSurface) : ArtifactType → Bool
  | .file => entry.objectType == .blob && (entry.mode == .regular || entry.mode == .executable) &&
      entry.bytes.isSome && entry.treeEntries.isNone
  | .directory => entry.objectType == .tree && entry.mode == .directory &&
      entry.bytes.isNone && entry.treeEntries.isSome

/-- The summary of a surface, when the object is what it is called. -/
def summarize (expected : RepositorySurfaceDefinition) (entry : FoundSurface) :
    Except ControlError RepositorySurfaceSummary :=
  match expected.artifactType with
  | .file => do
    let bytes := entry.bytes.getD []
    refuseIf (repositoryGitBlobObjectId world bytes ≠ entry.objectId.1)
      (.error s!"repository surface blob identity mismatch: {expected.id}")
    pure ⟨expected.id, expected.path, .file, entry.objectId, world.sha256 bytes, bytes.length⟩
  | .directory => do
    let entries := entry.treeEntries.getD []
    refuseIf (repositoryGitTreeObjectId world entries ≠ entry.objectId.1)
      (.error s!"repository surface tree identity mismatch: {expected.id}")
    pure ⟨expected.id, expected.path, .directory, entry.objectId,
      surfaceTreeDigest world entries, entries.length⟩

/-- The surfaces of a contract against the entries of a probe. -/
def evaluateSurfaces (entries : List RepositorySurfaceProbeEntry) :
    List RepositorySurfaceDefinition → List RepositorySurfaceSummary → Option Json →
      Except ControlError SurfaceEvaluation
  | [], summaries, governancePolicy => pure (.passed summaries governancePolicy)
  | expected :: contract, summaries, governancePolicy =>
    match entries.find? (·.surfaceId = expected.id) with
    | some (.found entry) =>
      if entry.path ≠ expected.path then pure (.failed summaries .missing expected.id)
      else if entry.ofKind expected.artifactType = false then
        pure (.failed summaries .wrongType expected.id)
      else do
        let summary ← summarize world expected entry
        if expected.artifactType = .file ∧ expected.id = "agent-governance" then
          match world.governance (entry.bytes.getD []) with
          | none => pure (.failed (summaries ++ [summary]) .invalid expected.id)
          | some policy => evaluateSurfaces entries contract (summaries ++ [summary]) (some policy)
        else evaluateSurfaces entries contract (summaries ++ [summary]) governancePolicy
    | _ => pure (.failed summaries .missing expected.id)

/-- **`evaluateRepositorySurfaceProbe`.** -/
def evaluateRepositorySurfaceProbe (probe : RepositorySurfaceProbeInput)
    (expectedDefaultBranch : String) (contract : RepositorySurfaceContract) :
    Except ControlError EvaluatedRepositorySurfaceProbe :=
  match probe with
  | .unavailable => pure ⟨none, none, none, [], none, .unavailable, none⟩
  | .resolved defaultBranch commitId treeId surfaces => do
    refuseIf (defaultBranch ≠ expectedDefaultBranch)
      (.error "repository surface probe default branch differs from the matched identity fact")
    match ← evaluateSurfaces world surfaces contract.surfaces [] none with
    | .failed summaries result failedSurfaceId =>
      pure ⟨some defaultBranch, some commitId, some treeId, summaries, none, result,
        some failedSurfaceId⟩
    | .passed summaries governancePolicy => do
      refuseIf (surfaces.length ≠ contract.surfaces.length ∨ governancePolicy.isNone = true)
        (.error "repository surface probe contains unknown or incomplete entries")
      pure ⟨some defaultBranch, some commitId, some treeId, summaries, governancePolicy, .valid,
        none⟩

/-- **An inspection followed by the evaluation of what it reports**, under the
contract it was made for. -/
def inspectAndEvaluate (target : RepositorySurfaceInspectionTarget) :
    WalkTx EvaluatedRepositorySurfaceProbe := do
  let input ← inspectRepositorySurfaces world target
  let probe ← Tx.ofExcept (normalizeRepositorySurfaceProbe world input)
  Tx.ofExcept (evaluateRepositorySurfaceProbe world probe target.defaultBranch target.contract)

end Inspection

end Snowcat
