import Mathlib.Data.List.Nodup
import Mathlib.Data.List.Perm.Subperm

/-!
# JSON values

A value of JSON over the texts and the numbers it is made of. An object is
the list of its fields, in the order they were set. Two values can be the same
but for that order and for what a number has besides its value, such as the
sign of a zero (`Same`); every value has one representative among those that
are the same as it, with its fields sorted by key (`normalize`), and two values
are the same exactly when they have the same one (`same_iff`).
-/

/-- A JSON value. -/
inductive JsonValue (S N : Type) where
  | null
  | bool (b : Bool)
  | number (n : N)
  | text (s : S)
  | array (values : List (JsonValue S N))
  | object (fields : List (S × JsonValue S N))

namespace JsonValue

variable {S N : Type}

/-- What an object has under a key. -/
def property [DecidableEq S] (fields : List (S × JsonValue S N)) (key : S) :
    Option (JsonValue S N) :=
  (fields.find? fun field => field.1 = key).map Prod.snd

/-- **The induction over a value**: what holds of the parts of a value holds of
it. -/
@[elab_as_elim]
theorem parts_induction {P : JsonValue S N → Prop} (null : P .null) (bool : ∀ b, P (.bool b))
    (number : ∀ n, P (.number n)) (text : ∀ s, P (.text s))
    (array : ∀ values : List (JsonValue S N), (∀ v ∈ values, P v) → P (.array values))
    (object : ∀ fields : List (S × JsonValue S N), (∀ f ∈ fields, P f.2) → P (.object fields))
    (v : JsonValue S N) : P v := by
  refine @JsonValue.rec S N P (fun vs => ∀ v ∈ vs, P v) (fun fs => ∀ f ∈ fs, P f.2)
    (fun f => P f.2) null bool number text array object ?_ ?_ ?_ ?_ ?_ v
  · exact List.forall_mem_nil _
  · exact fun v vs hv hvs => List.forall_mem_cons.mpr ⟨hv, hvs⟩
  · exact List.forall_mem_nil _
  · exact fun f fs hf hfs => List.forall_mem_cons.mpr ⟨hf, hfs⟩
  · exact fun _ _ h => h

/-! ## Properties of every part -/

section Parts

variable (object : List (S × JsonValue S N) → Prop) (number : N → Prop)

mutual

/-- What holds of every object and every number of a value. -/
def Every : JsonValue S N → Prop
  | .number n => number n
  | .array values => EveryValue values
  | .object fields => object fields ∧ EveryField fields
  | _ => True

/-- What holds of every object and every number of some values. -/
def EveryValue : List (JsonValue S N) → Prop
  | [] => True
  | v :: vs => Every v ∧ EveryValue vs

/-- What holds of every object and every number of some fields. -/
def EveryField : List (S × JsonValue S N) → Prop
  | [] => True
  | (_, v) :: fs => Every v ∧ EveryField fs

end

theorem everyValue_iff {values : List (JsonValue S N)} :
    EveryValue object number values ↔ ∀ v ∈ values, Every object number v := by
  induction values with
  | nil => exact iff_of_true trivial (List.forall_mem_nil _)
  | cons v vs ih => rw [EveryValue, ih, List.forall_mem_cons]

theorem everyField_iff {fields : List (S × JsonValue S N)} :
    EveryField object number fields ↔ ∀ f ∈ fields, Every object number f.2 := by
  induction fields with
  | nil => exact iff_of_true trivial (List.forall_mem_nil _)
  | cons f fs ih => rw [EveryField, ih, List.forall_mem_cons]

end Parts

/-- No object of a value has a key twice, and something holds of its
numbers. -/
def Keyed (number : N → Prop) (v : JsonValue S N) : Prop :=
  v.Every (fun fields => (fields.map Prod.fst).Nodup) number

section Keyed

variable {number : N → Prop}

theorem keyed_array {values : List (JsonValue S N)} :
    Keyed number (.array values) ↔ ∀ v ∈ values, v.Keyed number :=
  everyValue_iff _ _

theorem keyed_object {fields : List (S × JsonValue S N)} :
    Keyed number (.object fields) ↔
      (fields.map Prod.fst).Nodup ∧ ∀ f ∈ fields, f.2.Keyed number :=
  and_congr_right fun _ => everyField_iff _ _

end Keyed

/-! ## The same value -/

section Same

variable (unsign : N → N)

mutual

/-- **Two values are the same**, but for the order of the fields of an object
and for what `unsign` takes from a number. -/
def Same : JsonValue S N → JsonValue S N → Prop
  | .null, .null => True
  | .bool a, .bool b => a = b
  | .number n, .number m => unsign n = unsign m
  | .text s, .text t => s = t
  | .array vs, .array ws => SameValues vs ws
  | .object fs, .object gs => fs.length = gs.length ∧ SameFields fs gs
  | _, _ => False

/-- Two lists of values are the same, value by value. -/
def SameValues : List (JsonValue S N) → List (JsonValue S N) → Prop
  | [], [] => True
  | v :: vs, w :: ws => Same v w ∧ SameValues vs ws
  | _, _ => False

/-- Every one of some fields is among others, under its key and with the same
value. -/
def SameFields : List (S × JsonValue S N) → List (S × JsonValue S N) → Prop
  | [], _ => True
  | (k, v) :: fs, gs => (∃ w, (k, w) ∈ gs ∧ Same v w) ∧ SameFields fs gs

end

theorem sameFields_iff {fs gs : List (S × JsonValue S N)} :
    SameFields unsign fs gs ↔ ∀ f ∈ fs, ∃ w, (f.1, w) ∈ gs ∧ Same unsign f.2 w := by
  induction fs with
  | nil => exact iff_of_true trivial (List.forall_mem_nil _)
  | cons f fs ih => rw [SameFields, ih, List.forall_mem_cons]

/-! ## The representative -/

variable (le : S → S → Bool)

mutual

/-- **The representative of a value**: the fields of every object sorted by
key, and every number without what `unsign` takes from it. -/
def normalize : JsonValue S N → JsonValue S N
  | .null => .null
  | .bool b => .bool b
  | .number n => .number (unsign n)
  | .text s => .text s
  | .array values => .array (normalizeValues values)
  | .object fields => .object ((normalizeFields fields).mergeSort fun f g => le f.1 g.1)

/-- The representatives of some values. -/
def normalizeValues : List (JsonValue S N) → List (JsonValue S N)
  | [] => []
  | v :: vs => normalize v :: normalizeValues vs

/-- The representatives of some fields. -/
def normalizeFields : List (S × JsonValue S N) → List (S × JsonValue S N)
  | [] => []
  | (k, v) :: fs => (k, normalize v) :: normalizeFields fs

end

theorem normalizeValues_eq (values : List (JsonValue S N)) :
    normalizeValues unsign le values = values.map (normalize unsign le) := by
  induction values with
  | nil => rfl
  | cons v vs ih => rw [normalizeValues, ih, List.map_cons]

/-- The representative of a field. -/
def normalizeField (f : S × JsonValue S N) : S × JsonValue S N := (f.1, normalize unsign le f.2)

theorem normalizeFields_eq (fields : List (S × JsonValue S N)) :
    normalizeFields unsign le fields = fields.map (normalizeField unsign le) := by
  induction fields with
  | nil => rfl
  | cons f fs ih => rw [normalizeFields, ih, List.map_cons, normalizeField]

theorem keys_normalizeFields (fields : List (S × JsonValue S N)) :
    (normalizeFields unsign le fields).map Prod.fst = fields.map Prod.fst := by
  rw [normalizeFields_eq, List.map_map]
  rfl

/-- The fields of a representative are the representatives of the fields. -/
theorem mem_sorted_iff {fields : List (S × JsonValue S N)} {f : S × JsonValue S N} :
    (f ∈ (normalizeFields unsign le fields).mergeSort fun f g => le f.1 g.1) ↔
      ∃ g ∈ fields, normalizeField unsign le g = f := by
  rw [List.mem_mergeSort, normalizeFields_eq, List.mem_map]

/-- **A value is the same as its representative.** -/
theorem same_normalize (hunsign : ∀ n, unsign (unsign n) = unsign n) (v : JsonValue S N) :
    Same unsign v (normalize unsign le v) := by
  induction v using parts_induction with
  | null => trivial
  | bool => rfl
  | number n => exact (hunsign n).symm
  | text => rfl
  | array vs ih =>
    rw [normalize, normalizeValues_eq, Same]
    induction vs with
    | nil => trivial
    | cons v vs ihvs =>
      rw [List.forall_mem_cons] at ih
      exact ⟨ih.1, ihvs ih.2⟩
  | object fs ih =>
    rw [normalize, Same, List.length_mergeSort, normalizeFields_eq, List.length_map,
      sameFields_iff, ← normalizeFields_eq]
    exact ⟨rfl, fun f hf => ⟨_, (mem_sorted_iff unsign le).mpr ⟨f, hf, rfl⟩, ih f hf⟩⟩

/-- A representative has no key twice, when its value has none. -/
theorem keyed_normalize {number number' : N → Prop}
    (hnumber : ∀ n, number n → number' (unsign n)) {v : JsonValue S N} (h : v.Keyed number) :
    (normalize unsign le v).Keyed number' := by
  induction v using parts_induction with
  | null => trivial
  | bool => trivial
  | number n => exact hnumber n h
  | text => trivial
  | array vs ih =>
    rw [keyed_array] at h
    rw [normalize, normalizeValues_eq, keyed_array]
    intro w hw
    obtain ⟨v, hv, rfl⟩ := List.mem_map.mp hw
    exact ih v hv (h v hv)
  | object fs ih =>
    rw [keyed_object] at h
    rw [normalize, keyed_object]
    constructor
    · rw [((List.mergeSort_perm _ _).map Prod.fst).nodup_iff, keys_normalizeFields]
      exact h.1
    · intro f hf
      obtain ⟨g, hg, rfl⟩ := (mem_sorted_iff unsign le).mp hf
      exact ih g hg (h.2 g hg)

end Same

/-! ## One representative for the same values -/

section Order

variable {unsign : N → N} {le : S → S → Bool}
  (htrans : ∀ a b c, le a b = true → le b c = true → le a c = true)
  (htotal : ∀ a b, (le a b || le b a) = true)
  (hantisymm : ∀ a b, le a b = true → le b a = true → a = b)

include htrans htotal hantisymm

/-- Fields under distinct keys have one order. -/
theorem mergeSort_eq_iff {fs gs : List (S × JsonValue S N)} (hfs : (fs.map Prod.fst).Nodup) :
    (fs.mergeSort fun f g => le f.1 g.1) = (gs.mergeSort fun f g => le f.1 g.1) ↔ fs.Perm gs := by
  have hsorted : ∀ hs : List (S × JsonValue S N),
      (hs.mergeSort fun f g => le f.1 g.1).Pairwise fun f g => le f.1 g.1 = true := by
    intro hs
    exact @List.pairwise_mergeSort _ (fun f g => le f.1 g.1)
      (fun a b c => htrans a.1 b.1 c.1) (fun a b => htotal a.1 b.1) hs
  constructor
  · intro h
    exact (List.mergeSort_perm fs _).symm.trans (h ▸ List.mergeSort_perm gs _)
  · intro h
    have hperm : (fs.mergeSort fun f g => le f.1 g.1).Perm (gs.mergeSort fun f g => le f.1 g.1) :=
      (List.mergeSort_perm fs _).trans (h.trans (List.mergeSort_perm gs _).symm)
    refine hperm.eq_of_pairwise (fun f g hf hg hfg hgf => ?_) (hsorted fs) (hsorted gs)
    have hmemf : f ∈ fs := (List.mergeSort_perm fs _).mem_iff.mp hf
    have hmemg : g ∈ fs := h.mem_iff.mpr ((List.mergeSort_perm gs _).mem_iff.mp hg)
    exact List.inj_on_of_nodup_map hfs hmemf hmemg (hantisymm _ _ hfg hgf)

/-- **Two values are the same exactly when they have the same
representative**, when no object has a key twice. -/
theorem same_iff {number : N → Prop} {v w : JsonValue S N} (hv : v.Keyed number)
    (hw : w.Keyed number) :
    Same unsign v w ↔ normalize unsign le v = normalize unsign le w := by
  induction v using parts_induction generalizing w with
  | null => cases w <;> simp [Same, normalize]
  | bool => cases w <;> simp [Same, normalize]
  | number => cases w <;> simp [Same, normalize]
  | text => cases w <;> simp [Same, normalize]
  | array vs ih =>
    cases w with
    | array ws =>
      rw [keyed_array] at hv hw
      rw [Same, normalize, normalize, normalizeValues_eq, normalizeValues_eq, array.injEq]
      induction vs generalizing ws with
      | nil => cases ws <;> simp [SameValues]
      | cons v vs ihvs =>
        cases ws with
        | nil => simp [SameValues]
        | cons w ws =>
          rw [List.forall_mem_cons] at hv hw ih
          rw [SameValues, List.map_cons, List.map_cons, List.cons.injEq, ih.1 hv.1 hw.1,
            ihvs ih.2 hv.2 ws hw.2]
    | _ => simp [Same, normalize]
  | object fs ih =>
    cases w with
    | object gs =>
      rw [keyed_object] at hv hw
      have hkeys : ((normalizeFields unsign le fs).map Prod.fst).Nodup :=
        (keys_normalizeFields unsign le fs).symm ▸ hv.1
      rw [Same, normalize, normalize, object.injEq,
        mergeSort_eq_iff htrans htotal hantisymm hkeys, sameFields_iff]
      have hfield : ∀ f ∈ fs, (∃ w, (f.1, w) ∈ gs ∧ Same unsign f.2 w) ↔
          normalizeField unsign le f ∈ normalizeFields unsign le gs := by
        intro f hf
        rw [normalizeFields_eq, List.mem_map]
        constructor
        · rintro ⟨w, hmem, hsame⟩
          exact ⟨(f.1, w), hmem,
            Prod.ext rfl ((ih f hf (hv.2 f hf) (hw.2 _ hmem)).mp hsame).symm⟩
        · rintro ⟨⟨k, w⟩, hmem, heq⟩
          obtain ⟨rfl, hvalue⟩ := Prod.mk.inj heq
          exact ⟨w, hmem, (ih f hf (hv.2 f hf) (hw.2 _ hmem)).mpr hvalue.symm⟩
      rw [forall₂_congr hfield]
      constructor
      · rintro ⟨hlength, hsub⟩
        refine (List.subperm_of_subset (List.Nodup.of_map _ hkeys) fun f hf => ?_).perm_of_length_le
          ?_
        · rw [normalizeFields_eq] at hf
          obtain ⟨g, hg, rfl⟩ := List.mem_map.mp hf
          exact hsub g hg
        · rw [normalizeFields_eq, normalizeFields_eq, List.length_map, List.length_map]
          exact Nat.le_of_eq hlength.symm
      · intro hperm
        refine ⟨?_, fun f hf => ?_⟩
        · have := hperm.length_eq
          rwa [normalizeFields_eq, normalizeFields_eq, List.length_map, List.length_map] at this
        · refine hperm.mem_iff.mp ?_
          rw [normalizeFields_eq]
          exact List.mem_map_of_mem hf
    | _ => simp [Same, normalize]

end Order

end JsonValue
