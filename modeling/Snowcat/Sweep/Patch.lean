import Mathlib.Data.List.Perm.Basic
import Snowcat.Sweep.Health

/-!
# The identity of a patch

`readPatchDigest` digests, for every changed file, its name, status, rename
source and the lines it adds and removes; a file without a text patch is
identified by its blob. Headers of hunks and context lines are left out, so
that a rebase keeps the digest.

A line is taken for an added one when it starts with `+` and not with `+++`,
which a unified diff writes in front of a file's name. GitHub's patches have
no such line, and an added line that itself starts with `++` is dropped from
the digest; so is a removed line that starts with `--`. The digest tells two
lists of files apart exactly when they differ in something else
(`readPatchDigest_exact`).
-/

namespace Snowcat

/-! ## What is digested -/

/-- A field of a JSON object. -/
def jsonField (key : String) (value : List Char) : List Char :=
  JsonText.quote key ++ (':' :: value)

/-- A field that may be left out. -/
def optionalField (key : String) : Option String → List Char
  | none => []
  | some value => ',' :: jsonField key (JsonText.quote value)

/-- A file, as `JSON.stringify` writes it. -/
def writeFile (file : PatchFile) : List Char :=
  '{' :: (jsonField "filename" (JsonText.quote file.filename) ++
    (',' :: (jsonField "status" (JsonText.quote file.status) ++
      (optionalField "previous" file.previous ++
        (',' :: (jsonField "changes" (JsonText.bracket JsonText.quote file.changes) ++
          (optionalField "sha" file.sha ++ ['}'])))))))

/-- **`JSON.stringify(files)`.** -/
def stringify (files : List PatchFile) : String :=
  String.ofList (JsonText.bracket writeFile files)

/-- A field shows its own end when its value does. -/
theorem jsonField_append {key : String} {α : Type} {write : α → List Char} (hwrite : Delimited write)
    {a b : α} {r s : List Char} (h : jsonField key (write a) ++ r = jsonField key (write b) ++ s) :
    a = b ∧ r = s := by
  simp only [jsonField, List.append_assoc, List.cons_append] at h
  exact hwrite (List.cons.inj (List.append_cancel_left h)).2

/-- A field that may be left out, in front of a text that starts in another way. -/
theorem optionalField_append {key : String} {value value' : Option String} {r s : List Char}
    (h : optionalField key value ++ r = optionalField key value' ++ s)
    (hr : ∀ text, r ≠ ',' :: (jsonField key (JsonText.quote text) ++ s))
    (hs : ∀ text, s ≠ ',' :: (jsonField key (JsonText.quote text) ++ r)) :
    value = value' ∧ r = s := by
  cases value with
  | none =>
    cases value' with
    | none => exact ⟨rfl, h⟩
    | some value' => exact absurd h (hr value')
  | some value =>
    cases value' with
    | none => exact absurd h.symm (hs value)
    | some value' =>
      obtain ⟨rfl, hrest⟩ := jsonField_append JsonText.delimited_quote (List.cons.inj h).2
      exact ⟨rfl, hrest⟩

/-- The field of the changes is no field of a rename source. -/
theorem changes_ne_previous (value value' r s : List Char) :
    ',' :: (jsonField "changes" value ++ r) ≠ ',' :: (jsonField "previous" value' ++ s) := by
  intro h
  have hkey := congrArg (fun cs : List Char => cs[2]?) h
  simp [jsonField, JsonText.quote, JsonText.escape] at hkey

theorem delimited_writeFile : Delimited writeFile := by
  rintro ⟨filename, status, previous, changes, sha⟩ ⟨filename', status', previous', changes', sha'⟩
    r s h
  simp only [writeFile, List.append_assoc, List.cons_append, List.cons.injEq, true_and] at h
  obtain ⟨rfl, hstatus⟩ := jsonField_append JsonText.delimited_quote h
  obtain ⟨rfl, hprevious⟩ := jsonField_append JsonText.delimited_quote (List.cons.inj hstatus).2
  obtain ⟨rfl, hchanges⟩ := optionalField_append hprevious
    (fun _ => changes_ne_previous _ _ _ _) fun _ => changes_ne_previous _ _ _ _
  obtain ⟨rfl, hsha⟩ := jsonField_append
    (JsonText.delimited_bracket JsonText.delimited_quote nofun) (List.cons.inj hchanges).2
  obtain ⟨rfl, hend⟩ := optionalField_append hsha nofun nofun
  exact ⟨rfl, (List.cons.inj hend).2⟩

theorem stringify_injective : Function.Injective stringify := fun _ _ h =>
  (JsonText.delimited_bracket delimited_writeFile fun _ _ _ => nofun).injective
    (String.ofList_injective h)

/-! ## The order of the names -/

/-- **`files.sort(…)`.** -/
def sortFiles (files : List PatchFile) : List PatchFile :=
  files.mergeSort fun a b => jsLe a.filename b.filename

theorem perm_sortFiles (files : List PatchFile) : (sortFiles files).Perm files :=
  List.mergeSort_perm _ _

/-- **The order of the list does not show**, where every name is there once. -/
theorem sortFiles_eq {files files' : List PatchFile} (h : files.Perm files')
    (hnames : (files.map PatchFile.filename).Nodup) : sortFiles files = sortFiles files' := by
  have hsorted (files : List PatchFile) :
      (sortFiles files).Pairwise fun a b => jsLe a.filename b.filename = true := by
    refine List.pairwise_mergeSort (fun a b c hab hbc => ?_) (fun a b => ?_) files
    · exact decide_eq_true (not_lt.mpr (le_trans (not_lt.mp (of_decide_eq_true hab))
        (not_lt.mp (of_decide_eq_true hbc))))
    · rw [Bool.or_eq_true, jsLe, jsLe, decide_eq_true_iff, decide_eq_true_iff, not_lt, not_lt]
      exact le_total _ _
  refine List.Perm.eq_of_pairwise (fun a b ha hb hab hba => ?_) (hsorted files) (hsorted files')
    ((perm_sortFiles files).trans (h.trans (perm_sortFiles files').symm))
  have ha : a ∈ files := (perm_sortFiles files).mem_iff.mp ha
  have hb : b ∈ files := h.mem_iff.mpr ((perm_sortFiles files').mem_iff.mp hb)
  exact List.inj_on_of_nodup_map hnames ha hb (jsLe_antisymm hab hba)

/-! ## Patches -/

/-- A line: a text with no line feed in it. -/
abbrev Line := { s : String // '\n' ∉ s.toList }

/-- A line that a pull request adds or removes. -/
inductive Change where
  | added (line : Line)
  | removed (line : Line)
  deriving DecidableEq

/-- A line of a hunk. -/
inductive HunkLine where
  | context (line : Line)
  | changed (change : Change)

/-- A hunk: what its header says behind the `@@`, and its lines. -/
structure Hunk where
  header : Line
  lines : List HunkLine

/-- A change, as a patch has it. -/
def Change.text : Change → String
  | .added line => String.ofList ('+' :: line.1.toList)
  | .removed line => String.ofList ('-' :: line.1.toList)

/-- A line, as a patch has it. -/
def HunkLine.text : HunkLine → String
  | .context line => String.ofList (' ' :: line.1.toList)
  | .changed change => change.text

/-- A change, if the line is one. -/
def HunkLine.change? : HunkLine → Option Change
  | .context _ => none
  | .changed change => some change

/-- The lines of a hunk, as a patch has them. -/
def Hunk.texts (hunk : Hunk) : List String :=
  String.ofList ('@' :: '@' :: hunk.header.1.toList) :: hunk.lines.map HunkLine.text

/-- **A patch**, as GitHub writes it. -/
def patchText (hunks : List Hunk) : String := joinWith "\n" (hunks.flatMap Hunk.texts)

/-- **The lines a patch adds and removes.** -/
def changesOf (hunks : List Hunk) : List Change :=
  hunks.flatMap fun hunk => hunk.lines.filterMap HunkLine.change?

/-- A change that is taken for the name of a file: an added line that starts with
`++`, a removed line that starts with `--`. -/
def Change.hidden : Change → Bool
  | .added line => startsWith line.1 "++"
  | .removed line => startsWith line.1 "--"

/-- The lines of a patch are those of its hunks. -/
theorem splitLines_patchText {hunks : List Hunk} (h : hunks ≠ []) :
    splitLines (patchText hunks) = hunks.flatMap Hunk.texts := by
  have hlines : ∀ text ∈ hunks.flatMap Hunk.texts, '\n' ∉ text.toList := by
    intro text htext
    obtain ⟨hunk, -, htext⟩ := List.mem_flatMap.mp htext
    rcases List.mem_cons.mp htext with rfl | htext
    · rw [String.toList_ofList]
      simp [hunk.header.2]
    · obtain ⟨line, -, rfl⟩ := List.mem_map.mp htext
      cases line with
      | context line => simp [HunkLine.text, line.2]
      | changed change =>
        cases change with
        | added line | removed line => simp [HunkLine.text, Change.text, line.2]
  have hsome : (hunks.flatMap Hunk.texts).map String.toList ≠ [] := by
    obtain ⟨hunk, rest, rfl⟩ := List.exists_cons_of_ne_nil h
    simp [Hunk.texts]
  rw [splitLines, patchText, joinWith, String.toList_intercalate]
  show (List.splitOn '\n' (List.intercalate ['\n'] _)).map _ = _
  rw [List.splitOn_intercalate '\n' (fun l hl => ?_) hsome, List.map_map]
  · exact (List.map_congr_left fun text _ => String.ofList_toList).trans (List.map_id _)
  · obtain ⟨text, htext, rfl⟩ := List.mem_map.mp hl
    exact hlines text htext

/-- Whether `readPatchDigest` keeps a line of a patch. -/
def keepsLine (line : String) : Bool :=
  (startsWith line "+" && !startsWith line "+++") ||
    (startsWith line "-" && !startsWith line "---")

theorem keepsLine_text (change : Change) : keepsLine change.text = !change.hidden := by
  cases change <;>
    simp [keepsLine, Change.text, Change.hidden, startsWith, List.isPrefixOf]

theorem filter_texts (hunk : Hunk) : hunk.texts.filter keepsLine =
    ((hunk.lines.filterMap HunkLine.change?).filter fun change => !change.hidden).map
      Change.text := by
  have hheader : keepsLine (String.ofList ('@' :: '@' :: hunk.header.1.toList)) = false := by
    simp [keepsLine, startsWith, List.isPrefixOf]
  rw [Hunk.texts, List.filter_cons_of_neg (by rw [hheader]; exact Bool.false_ne_true)]
  induction hunk.lines with
  | nil => rfl
  | cons line lines ih =>
    rw [List.map_cons]
    cases line with
    | context line =>
      have hcontext : keepsLine (HunkLine.context line).text = false := by
        simp [HunkLine.text, keepsLine, startsWith, List.isPrefixOf]
      rw [List.filter_cons_of_neg (by rw [hcontext]; exact Bool.false_ne_true), ih]
      rfl
    | changed change =>
      have hsome : (HunkLine.changed change).change? = some change := rfl
      rw [List.filter_cons, List.filterMap_cons_some hsome, List.filter_cons, ih]
      show (if keepsLine change.text = true then _ else _) = _
      rw [keepsLine_text]
      split_ifs <;> rfl

/-- **What is kept of a patch**: its changes, but for the hidden ones. -/
theorem changedLines_patchText (hunks : List Hunk) :
    changedLines (patchText hunks) =
      ((changesOf hunks).filter fun change => !change.hidden).map Change.text := by
  show (splitLines (patchText hunks)).filter keepsLine = _
  by_cases hnone : hunks = []
  · subst hnone
    decide
  · rw [splitLines_patchText hnone]
    induction hunks with
    | nil => exact absurd rfl hnone
    | cons hunk rest ih =>
      rw [List.flatMap_cons, List.filter_append, filter_texts, changesOf, List.flatMap_cons,
        List.filter_append, List.map_append]
      by_cases hrest : rest = []
      · subst hrest
        rfl
      · rw [ih hrest]
        rfl

/-! ## Changed files -/

/-- What a changed file is identified by, next to its name and status. -/
inductive FileContent where
  | patch (hunks : List Hunk)
  /-- No text patch. -/
  | blob (sha : String)

/-- **A changed file.** -/
structure ChangedFile where
  filename : String
  status : String
  previous : Option String
  content : FileContent

namespace ChangedFile

/-- The lines a file's patch adds and removes, or its blob. -/
def changes (file : ChangedFile) : List Change ⊕ String :=
  match file.content with
  | .patch hunks => .inl (changesOf hunks)
  | .blob sha => .inr sha

/-- What is left of them without the hidden lines. -/
def shownChanges (file : ChangedFile) : List Change ⊕ String :=
  match file.content with
  | .patch hunks => .inl ((changesOf hunks).filter fun change => !change.hidden)
  | .blob sha => .inr sha

/-- The file, as it is digested. -/
def entry (file : ChangedFile) : PatchFile :=
  match file.shownChanges with
  | .inl changes => ⟨file.filename, file.status, file.previous, changes.map Change.text, none⟩
  | .inr sha => ⟨file.filename, file.status, file.previous, [], some sha⟩

/-- What GitHub says of a file: an object with its fields. -/
def DescribedBy (out : Outside) (file : ChangedFile) (raw : Json) : Prop :=
  raw.field "filename" = some (.text file.filename) ∧
    raw.field "status" = some (.text file.status) ∧
    (raw.field "previous_filename").bind Json.text? = file.previous ∧
    match file.content with
    | .patch hunks => raw.field "patch" = some (.text (patchText hunks))
    | .blob sha => (raw.field "patch").bind Json.text? = none ∧
        raw.field "sha" = some (.text sha) ∧ numberOrZero out raw "additions" = .int 0 ∧
        numberOrZero out raw "deletions" = .int 0

end ChangedFile

theorem patchFile_eq {out : Outside} {file : ChangedFile} {raw : Json}
    (h : file.DescribedBy out raw) : patchFile out raw = .inr file.entry := by
  obtain ⟨filename, status, previous, content⟩ := file
  obtain ⟨hfilename, hstatus, hprevious, hcontent⟩ := h
  rw [patchFile, hfilename, hstatus]
  cases content with
  | patch hunks =>
    have hpatch : raw.field "patch" = some (.text (patchText hunks)) := hcontent
    simp [hpatch, hprevious, Json.text?, ChangedFile.entry, ChangedFile.shownChanges,
      changedLines_patchText]
  | blob sha =>
    obtain ⟨hpatch, hsha, hadditions, hdeletions⟩ := hcontent
    simp [hpatch, hsha, hprevious, hadditions, hdeletions, Json.text?, ChangedFile.entry,
      ChangedFile.shownChanges]

/-- Every file of a page is read. -/
theorem patchFiles_eq {out : Outside} {files : List ChangedFile} {raws : List Json}
    (h : List.Forall₂ (ChangedFile.DescribedBy out) files raws) :
    patchFiles out raws = .inr (files.map ChangedFile.entry) := by
  induction h with
  | nil => rfl
  | cons hfile _ ih =>
    rw [patchFiles, patchFile_eq hfile, ih]
    rfl

/-! ## Lists of files -/

/-- **The files of a pull request, as GitHub lists them**: at most 299, each under
a name of its own, a hundred to a page. -/
structure FileListing where
  out : Outside
  locator : PullRequestLocator
  files : List ChangedFile
  raws : List Json
  described : List.Forall₂ (ChangedFile.DescribedBy out) files raws
  few : files.length ≤ 299
  distinct : (files.map ChangedFile.filename).Nodup
  served : ∀ asks page, out.answer asks
    (.files locator.owner locator.name locator.number (page + 1)) =
      .response 200 (.array ((raws.drop (100 * page)).take 100))

namespace FileListing

/-- The text that is digested of the files. -/
def material (listing : FileListing) : String :=
  stringify (sortFiles (listing.files.map ChangedFile.entry))

theorem length_raws (listing : FileListing) : listing.raws.length = listing.files.length :=
  listing.described.length_eq.symm

/-- A page that does not end the reading is read on. -/
theorem returns_readOn {env : Env} {reading : List Json → PatchRead ⊕ List PatchFile}
    {values : List Json} {more : List PatchFile} {f : List PatchFile → PassTx env PatchRead}
    {r : PatchRead} {t u : Pass env} (hpage : reading values = .inr more)
    (h : (f more).Returns t r u) :
    (match reading values with
      | .inl ended => pure ended
      | .inr more => f more : PassTx env PatchRead).Returns t r u := by
  rw [hpage]
  exact h

/-- **The loop reads a page at a time**, to the end of the files. -/
theorem returns_readPatchLoop {env : Env} (listing : FileListing) (n k : ℕ)
    (hfull : 100 * k ≤ listing.files.length) (henough : listing.files.length < 100 * (k + n))
    (s : Pass env) : ∃ t,
    (readPatchLoop listing.out listing.locator
      ((listing.files.take (100 * k)).map ChangedFile.entry) (List.range' (k + 1) n)).Returns s
      (.digest (listing.out.digest (sortFiles (listing.files.map ChangedFile.entry)))) t := by
  induction n generalizing k s with
  | zero =>
    rw [Nat.add_zero] at henough
    omega
  | succ n ih =>
    let request : GitHubRequest :=
      .files listing.locator.owner listing.locator.name listing.locator.number (k + 1)
    let values := (listing.raws.drop (100 * k)).take 100
    let t := s.asked (some request) (listing.out.meanwhile s.asks)
    have hask : (githubApiJson listing.out request).Returns s (.response 200 (.array values)) t :=
      (returns_githubApiJson listing.out).mpr ⟨(listing.served s.asks k).symm, rfl⟩
    have hpage : patchFiles listing.out values =
        .inr (((listing.files.drop (100 * k)).take 100).map ChangedFile.entry) :=
      patchFiles_eq (List.forall₂_take _ (List.forall₂_drop _ listing.described))
    have hmore : (listing.files.take (100 * k)).map ChangedFile.entry ++
        ((listing.files.drop (100 * k)).take 100).map ChangedFile.entry =
        (listing.files.take (100 * (k + 1))).map ChangedFile.entry := by
      rw [← List.map_append, Nat.mul_add_one, List.take_add]
    have hlength : values.length = min 100 (listing.files.length - 100 * k) := by
      rw [List.length_take, List.length_drop, listing.length_raws]
    by_cases hshort : values.length < 100
    · have hall : listing.files.take (100 * (k + 1)) = listing.files :=
        List.take_of_length_le (by omega)
      refine ⟨t, Tx.returns_bind.mpr ⟨_, t, hask, ?_⟩⟩
      refine returns_readOn hpage ?_
      show (if values.length < 100 then _ else _ : PassTx env PatchRead).Returns t _ t
      rw [if_pos hshort, hmore, hall]
      exact Tx.returns_pure.mpr ⟨rfl, rfl⟩
    · obtain ⟨u, hu⟩ := ih (k + 1) (by omega) (by omega) t
      refine ⟨u, Tx.returns_bind.mpr ⟨_, t, hask, ?_⟩⟩
      refine returns_readOn hpage ?_
      show (if values.length < 100 then _ else _ : PassTx env PatchRead).Returns t _ u
      rw [if_neg hshort, hmore]
      exact hu

/-- **The digest of a listing** is that of its files, whatever the order. -/
theorem returns_readPatchDigest {env : Env} (listing : FileListing) (s : Pass env) : ∃ t,
    (readPatchDigest listing.out listing.locator).Returns s
      (.digest (listing.out.digest (sortFiles (listing.files.map ChangedFile.entry)))) t :=
  listing.returns_readPatchLoop 3 0 (Nat.zero_le _) (Nat.lt_succ_of_le listing.few) s

end FileListing

/-! ## Lists with the same digest -/

/-- Two lists are one map from names to status, rename source and content. -/
def SameBy (content : ChangedFile → List Change ⊕ String) (files files' : List ChangedFile) : Prop :=
  ∀ name, (files.find? fun f => f.filename = name).map (fun f => (f.status, f.previous, content f)) =
    (files'.find? fun f => f.filename = name).map fun f => (f.status, f.previous, content f)

/-- **Two lists are one patch.** -/
def SamePatch (files files' : List ChangedFile) : Prop := SameBy ChangedFile.changes files files'

/-- Two lists are one patch but for the hidden changes. -/
def SameShown (files files' : List ChangedFile) : Prop :=
  SameBy ChangedFile.shownChanges files files'

/-- A file, by its name and a content. -/
def ChangedFile.key (content : ChangedFile → List Change ⊕ String) (file : ChangedFile) :
    String × String × Option String × (List Change ⊕ String) :=
  (file.filename, file.status, file.previous, content file)

theorem find?_filename {files : List ChangedFile}
    (hnames : (files.map ChangedFile.filename).Nodup) {name : String} {file : ChangedFile} :
    files.find? (fun f => f.filename = name) = some file ↔ file ∈ files ∧ file.filename = name := by
  constructor
  · intro h
    exact ⟨List.mem_of_find?_eq_some h, of_decide_eq_true (List.find?_some h :)⟩
  · rintro ⟨hmem, rfl⟩
    cases hfind : files.find? (fun f => f.filename = file.filename) with
    | none => exact absurd (List.find?_eq_none.mp hfind file hmem) (by simp)
    | some other =>
      have hname : other.filename = file.filename := of_decide_eq_true (List.find?_some hfind :)
      rw [List.inj_on_of_nodup_map hnames (List.mem_of_find?_eq_some hfind) hmem hname]

/-- **As maps they are one exactly when each is the other in another order.** -/
theorem sameBy_iff_perm {content : ChangedFile → List Change ⊕ String}
    {files files' : List ChangedFile} (hnames : (files.map ChangedFile.filename).Nodup)
    (hnames' : (files'.map ChangedFile.filename).Nodup) :
    SameBy content files files' ↔
      (files.map (ChangedFile.key content)).Perm (files'.map (ChangedFile.key content)) := by
  have hkeys {files : List ChangedFile} (h : (files.map ChangedFile.filename).Nodup) :
      (files.map (ChangedFile.key content)).Nodup := by
    refine List.Nodup.of_map Prod.fst ?_
    rw [List.map_map]
    exact h
  have hmem {files : List ChangedFile} (h : (files.map ChangedFile.filename).Nodup)
      (name : String) (rest : String × Option String × (List Change ⊕ String)) :
      (name, rest) ∈ files.map (ChangedFile.key content) ↔
        (files.find? fun f => f.filename = name).map
          (fun f => (f.status, f.previous, content f)) = some rest := by
    rw [List.mem_map, Option.map_eq_some_iff]
    refine exists_congr fun file => ?_
    rw [find?_filename h, and_assoc]
    exact and_congr_right fun _ => Prod.mk.injEq _ _ _ _ ▸ Iff.rfl
  rw [List.perm_ext_iff_of_nodup (hkeys hnames) (hkeys hnames')]
  constructor
  · rintro hsame ⟨name, rest⟩
    rw [hmem hnames, hmem hnames', hsame name]
  · intro hsame name
    refine Option.ext fun rest => ?_
    rw [← hmem hnames, ← hmem hnames']
    exact hsame (name, rest)

theorem Change.text_injective : Function.Injective Change.text := by
  intro c d h
  have hchars : ∀ {a b : Char} {l m : Line},
      String.ofList (a :: l.1.toList) = String.ofList (b :: m.1.toList) → a = b ∧ l = m := by
    intro a b l m h
    obtain ⟨hhead, htail⟩ := List.cons.inj (String.ofList_injective h)
    exact ⟨hhead, Subtype.ext (String.toList_inj.mp htail)⟩
  cases c with
  | added line =>
    cases d with
    | added line' => rw [(hchars h).2]
    | removed line' => exact absurd (hchars h).1 (by decide)
  | removed line =>
    cases d with
    | added line' => exact absurd (hchars h).1 (by decide)
    | removed line' => rw [(hchars h).2]

/-- **What is digested is the shown part of a list**, and no more. -/
theorem sortFiles_entry_iff {files files' : List ChangedFile}
    (hnames : (files.map ChangedFile.filename).Nodup)
    (hnames' : (files'.map ChangedFile.filename).Nodup) :
    sortFiles (files.map ChangedFile.entry) = sortFiles (files'.map ChangedFile.entry) ↔
      SameShown files files' := by
  let write : String × String × Option String × (List Change ⊕ String) → PatchFile
    | (filename, status, previous, .inl changes) =>
      ⟨filename, status, previous, changes.map Change.text, none⟩
    | (filename, status, previous, .inr sha) => ⟨filename, status, previous, [], some sha⟩
  have hwrite : Function.Injective write := by
    rintro ⟨_, _, _, changes | sha⟩ ⟨_, _, _, changes' | sha'⟩ h
    · obtain ⟨rfl, rfl, rfl, hchanges, -⟩ := PatchFile.mk.inj h
      rw [List.map_injective_iff.mpr Change.text_injective hchanges]
    · exact nomatch (PatchFile.mk.inj h).2.2.2.2
    · exact nomatch (PatchFile.mk.inj h).2.2.2.2
    · obtain ⟨rfl, rfl, rfl, -, hsha⟩ := PatchFile.mk.inj h
      rw [Option.some.inj hsha]
  have hentry (files : List ChangedFile) : files.map ChangedFile.entry =
      (files.map (ChangedFile.key ChangedFile.shownChanges)).map write := by
    rw [List.map_map]
    refine List.map_congr_left fun file _ => ?_
    show file.entry = write (file.filename, file.status, file.previous, file.shownChanges)
    unfold ChangedFile.entry
    cases file.shownChanges <;> rfl
  have hentries : ((files.map ChangedFile.entry).map PatchFile.filename).Nodup := by
    have hname : PatchFile.filename ∘ ChangedFile.entry = ChangedFile.filename := by
      funext file
      show file.entry.filename = _
      unfold ChangedFile.entry
      cases file.shownChanges <;> rfl
    rw [List.map_map, hname]
    exact hnames
  rw [SameShown, sameBy_iff_perm hnames hnames', ← List.map_perm_map_iff hwrite, ← hentry, ← hentry]
  constructor
  · intro h
    exact (perm_sortFiles _).symm.trans (h ▸ perm_sortFiles _)
  · intro h
    exact sortFiles_eq h hentries

/-- Lists that are one patch are one but for the hidden changes. -/
theorem SamePatch.shown {files files' : List ChangedFile} (h : SamePatch files files') :
    SameShown files files' := by
  intro name
  let show_ : List Change ⊕ String → List Change ⊕ String :=
    Sum.map (List.filter fun change => !change.hidden) id
  have hshown (file : ChangedFile) : file.shownChanges = show_ file.changes := by
    unfold ChangedFile.shownChanges ChangedFile.changes
    cases file.content <;> rfl
  have hsame := congrArg (Option.map fun x : String × Option String × (List Change ⊕ String) =>
    (x.1, x.2.1, show_ x.2.2)) (h name)
  rw [Option.map_map, Option.map_map] at hsame
  simp only [hshown]
  exact hsame

/-- **The identity of a patch is exact for two lists exactly when** the hidden
changes are not all they differ in. Both lists are read to their digests; no
collision is assumed between the two texts. -/
theorem readPatchDigest_exact {env env' : Env} (sha256 : String → Digest)
    (listing listing' : FileListing)
    (hdigest : listing.out.digest = fun files => sha256 (stringify files))
    (hdigest' : listing'.out.digest = fun files => sha256 (stringify files))
    (hfree : sha256 listing.material = sha256 listing'.material →
      listing.material = listing'.material) (s : Pass env) (s' : Pass env') :
    ∃ digest t digest' t',
      (readPatchDigest listing.out listing.locator).Returns s (.digest digest) t ∧
      (readPatchDigest listing'.out listing'.locator).Returns s' (.digest digest') t' ∧
      ((digest = digest' ↔ SamePatch listing.files listing'.files) ↔
        (SameShown listing.files listing'.files → SamePatch listing.files listing'.files)) := by
  obtain ⟨t, ht⟩ := listing.returns_readPatchDigest s
  obtain ⟨t', ht'⟩ := listing'.returns_readPatchDigest s'
  refine ⟨_, t, _, t', ht, ht', ?_⟩
  have hshown : listing.out.digest (sortFiles (listing.files.map ChangedFile.entry)) =
      listing'.out.digest (sortFiles (listing'.files.map ChangedFile.entry)) ↔
        SameShown listing.files listing'.files := by
    rw [hdigest, hdigest', ← sortFiles_entry_iff listing.distinct listing'.distinct]
    exact ⟨fun h => stringify_injective (hfree h), fun h => congrArg _ (congrArg _ h)⟩
  rw [hshown]
  exact ⟨fun h => h.mp, fun h => ⟨h, SamePatch.shown⟩⟩

/-- Lists without hidden changes are told apart by all they differ in. -/
theorem samePatch_of_shown {files files' : List ChangedFile}
    (h : ∀ file ∈ files ++ files', file.shownChanges = file.changes)
    (hshown : SameShown files files') : SamePatch files files' := by
  intro name
  have hmap {files₁ : List ChangedFile} (hsub : ∀ file ∈ files₁, file ∈ files ++ files') :
      (files₁.find? fun f => f.filename = name).map
          (fun f => (f.status, f.previous, f.shownChanges)) =
        (files₁.find? fun f => f.filename = name).map fun f => (f.status, f.previous, f.changes) := by
    cases hfind : files₁.find? fun f => f.filename = name with
    | none => rfl
    | some file =>
      rw [Option.map_some, Option.map_some, h file (hsub file (List.mem_of_find?_eq_some hfind))]
  rw [← hmap fun _ hfile => List.mem_append_left _ hfile,
    ← hmap fun _ hfile => List.mem_append_right _ hfile]
  exact hshown name

/-! ## A change that does not show -/

/-- GitHub lists the pages of some files, and nobody calls the store. -/
def Outside.listingFiles (sha256 : String → Digest) (raws : List Json) : Outside where
  answer _ request := match request with
    | .files _ _ _ page => .response 200 (.array ((raws.drop (100 * (page - 1))).take 100))
    | _ => .unavailable
  meanwhile _ := []
  policyAuthority _ _ := none
  credentialed := true
  number _ := .int 0
  digest files := sha256 (stringify files)
  time _ := ⟨"2026-01-01T00:00:00.000Z", isBlank_newYear⟩
  handoff _ _ := .valid

/-- A C file to which one line was added. -/
def addedLine (line : Line) : ChangedFile :=
  ⟨"a.c", "modified", none, .patch [⟨⟨" -1 +1,2 @@", by decide⟩, [.changed (.added line)]⟩]⟩

/-- What GitHub says of it. -/
def addedLineJson (line : Line) : Json :=
  .object [("filename", .text "a.c"), ("status", .text "modified"), ("additions", .number (.int 1)),
    ("deletions", .number (.int 0)),
    ("patch", .text (patchText [⟨⟨" -1 +1,2 @@", by decide⟩, [.changed (.added line)]⟩]))]

/-- The pull request that adds the line. -/
def addedLineListing (sha256 : String → Digest) (line : Line) : FileListing where
  out := .listingFiles sha256 [addedLineJson line]
  locator := ⟨"a", "b", 1⟩
  files := [addedLine line]
  raws := [addedLineJson line]
  described := .cons ⟨rfl, rfl, rfl, rfl⟩ .nil
  few := Nat.le_of_ble_eq_true rfl
  distinct := List.nodup_singleton _
  served _ _ := rfl

/-- `++i;` -/
def incrementI : Line := ⟨"++i;", by decide⟩

/-- `++j;` -/
def incrementJ : Line := ⟨"++j;", by decide⟩

/-- Neither line is in what is digested. -/
theorem material_increment (sha256 : String → Digest) :
    (addedLineListing sha256 incrementI).material = (addedLineListing sha256 incrementJ).material := by
  have hentry (line : Line) (hhidden : startsWith line.1 "++" = true) :
      (addedLine line).entry = ⟨"a.c", "modified", none, [], none⟩ := by
    have hshown : (addedLine line).shownChanges = .inl [] := by
      show Sum.inl (List.filter _ [Change.added line]) = _
      rw [List.filter_cons_of_neg (by simp [Change.hidden, hhidden])]
      rfl
    rw [ChangedFile.entry, hshown]
    rfl
  show stringify (sortFiles [(addedLine incrementI).entry]) =
    stringify (sortFiles [(addedLine incrementJ).entry])
  rw [hentry _ (by decide), hentry _ (by decide)]

theorem readPatchDigest_exact_sample : ∃ digest t digest' t',
    (readPatchDigest (addedLineListing (fun _ => Digest.zero) incrementI).out ⟨"a", "b", 1⟩).Returns
      (Pass.start Env.sample) (.digest digest) t ∧
    (readPatchDigest (addedLineListing (fun _ => Digest.zero) incrementJ).out ⟨"a", "b", 1⟩).Returns
      (Pass.start Env.sample) (.digest digest') t' ∧
    ((digest = digest' ↔ SamePatch [addedLine incrementI] [addedLine incrementJ]) ↔
      (SameShown [addedLine incrementI] [addedLine incrementJ] →
        SamePatch [addedLine incrementI] [addedLine incrementJ])) :=
  readPatchDigest_exact (fun _ => Digest.zero) (addedLineListing _ incrementI)
    (addedLineListing _ incrementJ) rfl rfl (fun _ => material_increment _) _ _

/-- **An edited line does not show**: whatever the hash, a pull request that adds
`++i;` and one that adds `++j;` have one digest. -/
theorem sameDigest_increment :
    (∀ (sha256 : String → Digest) (s : Pass Env.sample), ∃ digest t t',
      (readPatchDigest (addedLineListing sha256 incrementI).out ⟨"a", "b", 1⟩).Returns s
        (.digest digest) t ∧
      (readPatchDigest (addedLineListing sha256 incrementJ).out ⟨"a", "b", 1⟩).Returns s
        (.digest digest) t') ∧
    ¬ SamePatch [addedLine incrementI] [addedLine incrementJ] := by
  constructor
  · intro sha256 s
    obtain ⟨t, ht⟩ := (addedLineListing sha256 incrementI).returns_readPatchDigest s
    obtain ⟨t', ht'⟩ := (addedLineListing sha256 incrementJ).returns_readPatchDigest s
    have hsame : sha256 (addedLineListing sha256 incrementI).material =
        sha256 (addedLineListing sha256 incrementJ).material := by rw [material_increment]
    refine ⟨sha256 (addedLineListing sha256 incrementI).material, t, t', ht, ?_⟩
    rw [hsame]
    exact ht'
  · intro h
    have hlines := h "a.c"
    have hfind (line : Line) :
        ([addedLine line].find? fun f => f.filename = "a.c") = some (addedLine line) := rfl
    rw [hfind, hfind, Option.map_some, Option.map_some, Option.some.injEq] at hlines
    exact absurd (congrArg (fun x => x.2.2) hlines) (by decide)

end Snowcat
