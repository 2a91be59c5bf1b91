import Mathlib.Data.List.Nodup
import Mathlib.Data.Set.Function

/-!
# Git objects and what they are named by

Git names an object by the hash of its text: the kind of the object, its
length, a zero byte, and its content. A tree's content is its entries one
after the other, each of them a mode, a space, a name, a zero byte and the
twenty bytes of the object it names.

The texts can be read back (`treeText_injective`, `blobText_injective`,
`treeText_ne_blobText`), so a hash without collisions names one object at
most. `Resolves` is the walk of a path from a tree, one tree an entry;
with such a hash it ends at one entry at most (`Resolves.unique`).
-/

namespace Git

/-- An entry of a tree. -/
@[ext] structure TreeEntry where
  /-- The octal digits of the mode. -/
  mode : List UInt8
  /-- The name. -/
  name : List UInt8
  /-- The hash of the object. -/
  object : List UInt8
  /-- No mode has a space in it. -/
  spaceless : 0x20 ∉ mode
  /-- No name has a zero byte in it. -/
  nulless : 0 ∉ name
  /-- A hash has twenty bytes. -/
  twenty : object.length = 20

/-- The text of one entry. -/
def TreeEntry.text (e : TreeEntry) : List UInt8 := e.mode ++ 0x20 :: (e.name ++ 0 :: e.object)

/-- The content of a tree. -/
def treeContent (es : List TreeEntry) : List UInt8 := es.flatMap TreeEntry.text

/-- The decimal digits of a length. -/
def decimal (n : ℕ) : List UInt8 := (Nat.toDigits 10 n).map fun c => c.toNat.toUInt8

/-- The text of an object: its kind, its length and its content. -/
def objectText (kind content : List UInt8) : List UInt8 :=
  kind ++ 0x20 :: (decimal content.length ++ 0 :: content)

/-- `tree`, in ASCII. -/
def treeKind : List UInt8 := [0x74, 0x72, 0x65, 0x65]

/-- `blob`, in ASCII. -/
def blobKind : List UInt8 := [0x62, 0x6c, 0x6f, 0x62]

/-- The text of a tree. -/
def treeText (es : List TreeEntry) : List UInt8 := objectText treeKind (treeContent es)

/-- The text of a blob. -/
def blobText (content : List UInt8) : List UInt8 := objectText blobKind content

/-! ## Reading a text back -/

/-- A text falls into two at the first occurrence of a separator. -/
theorem append_cons_inj {α : Type} {x : α} {as as' bs bs' : List α} (h : x ∉ as) (h' : x ∉ as')
    (heq : as ++ x :: bs = as' ++ x :: bs') : as = as' ∧ bs = bs' := by
  induction as generalizing as' with
  | nil =>
    cases as' with
    | nil => exact ⟨rfl, List.tail_eq_of_cons_eq heq⟩
    | cons a' as' => exact (h' (List.head_eq_of_cons_eq heq ▸ List.mem_cons_self)).elim
  | cons a as ih =>
    cases as' with
    | nil => exact (h (List.head_eq_of_cons_eq heq ▸ List.mem_cons_self)).elim
    | cons a' as' =>
      obtain ⟨rfl, hrest⟩ := List.cons_eq_cons.mp heq
      obtain ⟨rfl, hbs⟩ := ih (fun hmem => h (List.mem_cons_of_mem _ hmem))
        (fun hmem => h' (List.mem_cons_of_mem _ hmem)) hrest
      exact ⟨rfl, hbs⟩

/-- An entry can be read off the front of a text. -/
theorem TreeEntry.text_append_inj {e e' : TreeEntry} {bs bs' : List UInt8}
    (h : e.text ++ bs = e'.text ++ bs') : e = e' ∧ bs = bs' := by
  simp only [TreeEntry.text, List.append_assoc, List.cons_append] at h
  obtain ⟨hmode, h⟩ := append_cons_inj e.spaceless e'.spaceless h
  obtain ⟨hname, h⟩ := append_cons_inj e.nulless e'.nulless h
  obtain ⟨hobject, hrest⟩ := List.append_inj h (e.twenty.trans e'.twenty.symm)
  exact ⟨TreeEntry.ext hmode hname hobject, hrest⟩

theorem TreeEntry.text_ne_nil (e : TreeEntry) : e.text ≠ [] := by
  unfold TreeEntry.text
  exact List.append_ne_nil_of_right_ne_nil _ (List.cons_ne_nil _ _)

/-- **The entries of a tree can be read back.** -/
theorem treeContent_injective : Function.Injective treeContent := by
  intro es es' h
  induction es generalizing es' with
  | nil =>
    cases es' with
    | nil => rfl
    | cons e' es' =>
      exact (List.append_ne_nil_of_left_ne_nil e'.text_ne_nil _ h.symm).elim
  | cons e es ih =>
    cases es' with
    | nil => exact (List.append_ne_nil_of_left_ne_nil e.text_ne_nil _ h).elim
    | cons e' es' =>
      obtain ⟨rfl, hrest⟩ := TreeEntry.text_append_inj h
      rw [ih hrest]

/-- A decimal digit is not the zero byte. -/
theorem zero_notMem_decimal (n : ℕ) : 0 ∉ decimal n := by
  intro hmem
  obtain ⟨c, hc, hzero⟩ := List.mem_map.mp hmem
  have hdigit : c.isDigit = true := Nat.isDigit_of_mem_toDigits (b := 10) (by decide) (by decide) hc
  have hbounds : 48 ≤ c.toNat ∧ c.toNat ≤ 57 := by
    simp only [Char.isDigit, Bool.and_eq_true, decide_eq_true_eq, ge_iff_le,
      UInt32.le_iff_toNat_le] at hdigit
    exact hdigit
  have hmod : c.toNat % 256 = 0 := by simpa using congrArg UInt8.toNat hzero
  omega

/-- The kind and the content of an object can be read back. -/
theorem objectText_inj {kind kind' content content' : List UInt8} (hkind : 0x20 ∉ kind)
    (hkind' : 0x20 ∉ kind') (h : objectText kind content = objectText kind' content') :
    kind = kind' ∧ content = content' := by
  obtain ⟨hkinds, hrest⟩ := append_cons_inj hkind hkind' h
  exact ⟨hkinds, (append_cons_inj (zero_notMem_decimal _) (zero_notMem_decimal _) hrest).2⟩

theorem treeText_injective : Function.Injective treeText := fun _ _ h =>
  treeContent_injective (objectText_inj (by decide) (by decide) h).2

theorem blobText_injective : Function.Injective blobText := fun _ _ h =>
  (objectText_inj (by decide) (by decide) h).2

/-- No tree is a blob. -/
theorem treeText_ne_blobText (es : List TreeEntry) (content : List UInt8) :
    treeText es ≠ blobText content := fun h =>
  absurd (objectText_inj (by decide) (by decide) h).1 (by decide)

/-- **A hash without collisions on objects.** -/
def CollisionFree (hash : List UInt8 → List UInt8) : Prop :=
  Set.InjOn hash { text | (∃ es, text = treeText es) ∨ ∃ content, text = blobText content }

theorem CollisionFree.tree_inj {hash : List UInt8 → List UInt8} (hhash : CollisionFree hash)
    {es es' : List TreeEntry} (h : hash (treeText es) = hash (treeText es')) : es = es' :=
  treeText_injective (hhash (Or.inl ⟨es, rfl⟩) (Or.inl ⟨es', rfl⟩) h)

/-! ## Paths -/

/-- The mode of a tree: `40000`. -/
def treeMode : List UInt8 := [0x34, 0x30, 0x30, 0x30, 0x30]

/-- **A path resolves**, component by component, from the tree a hash names
to an entry: every component but the last is an entry that is a tree. No
tree on the way has two entries of one name. -/
inductive Resolves (hash : List UInt8 → List UInt8) :
    List UInt8 → List (List UInt8) → TreeEntry → Prop
  | last {es : List TreeEntry} {e : TreeEntry} (hnames : (es.map TreeEntry.name).Nodup)
      (hmem : e ∈ es) : Resolves hash (hash (treeText es)) [e.name] e
  | step {es : List TreeEntry} {e f : TreeEntry} {path : List (List UInt8)}
      (hnames : (es.map TreeEntry.name).Nodup) (hmem : e ∈ es) (hmode : e.mode = treeMode)
      (h : Resolves hash e.object path f) :
      Resolves hash (hash (treeText es)) (e.name :: path) f

variable {hash : List UInt8 → List UInt8}

theorem Resolves.path_ne_nil {id : List UInt8} {path : List (List UInt8)} {f : TreeEntry}
    (h : Resolves hash id path f) : path ≠ [] := by
  cases h <;> exact List.cons_ne_nil _ _

/-- **What a path resolves to from a tree** is resolved from the tree's own
entries, when the hash names one tree at most. -/
theorem Resolves.inv (hhash : CollisionFree hash) {es : List TreeEntry}
    {name : List UInt8} {path : List (List UInt8)} {f : TreeEntry}
    (h : Resolves hash (hash (treeText es)) (name :: path) f) :
    (es.map TreeEntry.name).Nodup ∧ ∃ e ∈ es, e.name = name ∧
      ((path = [] ∧ f = e) ∨ (e.mode = treeMode ∧ Resolves hash e.object path f)) := by
  generalize hid : hash (treeText es) = id at h
  generalize hpath : name :: path = names at h
  cases h with
  | last hnames hmem =>
    obtain ⟨rfl, rfl⟩ := List.cons_eq_cons.mp hpath
    rw [← hhash.tree_inj hid] at hmem hnames
    exact ⟨hnames, _, hmem, rfl, Or.inl ⟨rfl, rfl⟩⟩
  | step hnames hmem hmode h =>
    obtain ⟨rfl, rfl⟩ := List.cons_eq_cons.mp hpath
    rw [← hhash.tree_inj hid] at hmem hnames
    exact ⟨hnames, _, hmem, rfl, Or.inr ⟨hmode, h⟩⟩

/-- **A path resolves to one entry at most.** -/
theorem Resolves.unique (hhash : CollisionFree hash) {id : List UInt8} {path : List (List UInt8)}
    {e f : TreeEntry} (h : Resolves hash id path e) (h' : Resolves hash id path f) : e = f := by
  induction h with
  | last hnames hmem =>
    obtain ⟨-, e', hmem', hname, ⟨-, rfl⟩ | ⟨-, hrest⟩⟩ := h'.inv hhash
    · exact List.inj_on_of_nodup_map hnames hmem hmem' hname.symm
    · exact (hrest.path_ne_nil rfl).elim
  | step hnames hmem hmode hrest ih =>
    obtain ⟨-, e', hmem', hname, ⟨hnil, -⟩ | ⟨-, hrest'⟩⟩ := h'.inv hhash
    · exact (hrest.path_ne_nil hnil).elim
    · rw [List.inj_on_of_nodup_map hnames hmem' hmem hname] at hrest'
      exact ih hrest'

/-- **A path runs through trees only**: what one of its beginnings resolves
to is a tree, when the path resolves beyond it. -/
theorem Resolves.isTree_of_append (hhash : CollisionFree hash) {id : List UInt8}
    {pre post : List (List UInt8)} {e f : TreeEntry} (h : Resolves hash id pre e)
    (hfull : Resolves hash id (pre ++ post) f) (hpost : post ≠ []) : e.mode = treeMode := by
  induction h with
  | last hnames hmem =>
    obtain ⟨-, e', hmem', hname, ⟨hnil, -⟩ | ⟨hmode, -⟩⟩ := hfull.inv hhash
    · exact (hpost hnil).elim
    · rwa [← List.inj_on_of_nodup_map hnames hmem' hmem hname]
  | step hnames hmem hmode h ih =>
    obtain ⟨-, e', hmem', hname, ⟨hnil, -⟩ | ⟨-, hrest⟩⟩ := hfull.inv hhash
    · exact (hpost (List.append_eq_nil_iff.mp hnil).2).elim
    · rw [List.inj_on_of_nodup_map hnames hmem' hmem hname] at hrest
      exact ih hrest

end Git
