import Mathlib.Data.List.Lex
import Mathlib.Order.Fin.Basic
import Snowcat.Control.Encoding
import Snowcat.Lib.JsonSyntax

/-!
# Canonical JSON

What the control plane digests: a value as JSON text, the fields of every
object sorted by key. The text is the one of the value's representative
(`encode_eq`), and a text is read back as it was written, so that two values
have the same text exactly when they are the same value
(`canonicalJson_canonical`).
-/

namespace Snowcat

open CodeUnits JsonSyntax

variable {N D : Type}

/-- A text of JavaScript. -/
abbrev JsText : Type := List CodeUnit

/-- A `JsonValue` of the source. -/
abbrev JsonOf (N : Type) : Type := JsonValue JsText N

/-- The order of `sort`: by code unit. -/
def keyOrder (a b : JsText) : Bool := decide (a ≤ b)

section Encode

variable (F : NumberFormat N)

mutual

/-- **`encode`**. A key is sorted together with the text of its field, which
is what it is looked up for. -/
def encode : JsonOf N → Except ControlError JsText
  | .null => .ok (units "null")
  | .bool true => .ok (units "true")
  | .bool false => .ok (units "false")
  | .text s => .ok (quote s)
  | .number n =>
    if F.finite n = true then .ok (F.render n)
    else .error (.error "canonical JSON does not permit non-finite numbers")
  | .array values => do
    let parts ← encodeValues values
    pure (unit '[' :: (joinCommas parts ++ [unit ']']))
  | .object fields => do
    let parts ← encodeFields fields
    pure (unit '\x7b' ::
      (joinCommas ((parts.mergeSort fun a b => keyOrder a.1 b.1).map Prod.snd) ++ [unit '\x7d']))

/-- The texts of the values of an array. -/
def encodeValues : List (JsonOf N) → Except ControlError (List JsText)
  | [] => .ok []
  | v :: vs => do
    let part ← encode v
    let parts ← encodeValues vs
    pure (part :: parts)

/-- The texts of the fields of an object, each with its key. -/
def encodeFields : List (JsText × JsonOf N) → Except ControlError (List (JsText × JsText))
  | [] => .ok []
  | (key, v) :: fs => do
    let part ← encode v
    let parts ← encodeFields fs
    pure ((key, quote key ++ (unit ':' :: part)) :: parts)

end

/-- **`canonicalJson`**. -/
def canonicalJson (value : JsonOf N) : Except ControlError JsText := encode F value

end Encode

/-- **`sha256`** of a text, from the hash of its UTF-8. -/
def sha256 (hash : List UInt8 → D) (value : JsText) : D :=
  hash (Bytes.utf8 (String.ofList (decode value)))

/-! ## What is written -/

variable {F : NumberFormat N}

/-- A JSON value: no object has a key twice, and every number is finite. -/
def IsJson (F : NumberFormat N) (v : JsonOf N) : Prop := v.Keyed fun n => F.finite n = true

/-- The representative of a value, fields sorted as `sort` sorts them. -/
def representative (F : NumberFormat N) (v : JsonOf N) : JsonOf N :=
  v.normalize F.unsign keyOrder

theorem representative_readable {v : JsonOf N} (h : IsJson F v) :
    (representative F v).Keyed F.Readable :=
  JsonValue.keyed_normalize _ _ (fun _ hn => F.readable_unsign hn) h

theorem representative_isJson {v : JsonOf N} (h : IsJson F v) : IsJson F (representative F v) :=
  JsonValue.keyed_normalize _ _ (fun n hn => F.finite_unsign n hn) h

theorem encodeValues_eq {vs : List (JsonOf N)} (text : JsonOf N → JsText)
    (h : ∀ v ∈ vs, encode F v = .ok (text v)) : encodeValues F vs = .ok (vs.map text) := by
  induction vs with
  | nil => rfl
  | cons v vs ih =>
    obtain ⟨hv, hvs⟩ := List.forall_mem_cons.mp h
    rw [encodeValues, hv, ih hvs]
    rfl

theorem encodeFields_eq {fs : List (JsText × JsonOf N)} (text : JsonOf N → JsText)
    (h : ∀ f ∈ fs, encode F f.2 = .ok (text f.2)) :
    encodeFields F fs =
      .ok (fs.map fun f => (f.1, quote f.1 ++ (unit ':' :: text f.2))) := by
  induction fs with
  | nil => rfl
  | cons f fs ih =>
    obtain ⟨hf, hfs⟩ := List.forall_mem_cons.mp h
    rw [encodeFields, hf, ih hfs]
    rfl

/-- **The text of a value is the one of its representative.** -/
theorem encode_eq {v : JsonOf N} (h : IsJson F v) :
    encode F v = .ok (write F (representative F v)) := by
  induction v using JsonValue.parts_induction with
  | null => rfl
  | bool b => cases b <;> rfl
  | number n =>
    have hfinite : F.finite n = true := h
    rw [encode, if_pos hfinite]
    exact congrArg Except.ok (F.render_unsign n hfinite).symm
  | text => rfl
  | array vs ih =>
    have hvs := JsonValue.keyed_array.mp h
    rw [encode, encodeValues_eq (fun v => write F (representative F v))
      fun v hv => ih v hv (hvs v hv)]
    show Except.ok _ = Except.ok (write F (.array (JsonValue.normalizeValues F.unsign keyOrder vs)))
    rw [write, writeValues_eq, JsonValue.normalizeValues_eq, List.map_map]
    rfl
  | object fs ih =>
    have hfs := JsonValue.keyed_object.mp h
    rw [encode, encodeFields_eq (fun v => write F (representative F v))
      fun f hf => ih f hf (hfs.2 f hf)]
    show Except.ok _ = Except.ok (write F (.object
      ((JsonValue.normalizeFields F.unsign keyOrder fs).mergeSort fun a b => keyOrder a.1 b.1)))
    -- both sort what they have of a field by its key
    rw [write, writeFields_eq, JsonValue.normalizeFields_eq,
      ← List.map_mergeSort (r := fun a b => keyOrder a.1 b.1) (fun _ _ _ _ => rfl),
      ← List.map_mergeSort (r := fun a b => keyOrder a.1 b.1) (fun _ _ _ _ => rfl), List.map_map,
      List.map_map]
    rfl

theorem keyOrder_trans (a b c : JsText) (hab : keyOrder a b = true) (hbc : keyOrder b c = true) :
    keyOrder a c = true :=
  decide_eq_true ((of_decide_eq_true hab : a ≤ b).trans (of_decide_eq_true hbc : b ≤ c))

theorem keyOrder_total (a b : JsText) : (keyOrder a b || keyOrder b a) = true := by
  rw [Bool.or_eq_true]
  exact (le_total a b).imp decide_eq_true decide_eq_true

theorem keyOrder_antisymm (a b : JsText) (hab : keyOrder a b = true) (hba : keyOrder b a = true) :
    a = b :=
  (of_decide_eq_true hab : a ≤ b).antisymm (of_decide_eq_true hba : b ≤ a)

/-- The same value is one with the same representative. -/
theorem same_iff_representative {v w : JsonOf N} (hv : IsJson F v) (hw : IsJson F w) :
    JsonValue.Same F.unsign v w ↔ representative F v = representative F w :=
  JsonValue.same_iff keyOrder_trans keyOrder_total keyOrder_antisymm hv hw

/-- **A text is the one of a single representative.** -/
theorem write_representative_inj {v w : JsonOf N} (hv : IsJson F v) (hw : IsJson F w)
    (h : write F (representative F v) = write F (representative F w)) :
    representative F v = representative F w := by
  have hread := parse_write (representative_readable hv)
  rw [h, parse_write (representative_readable hw)] at hread
  exact (Option.some.inj hread).symm

/-- Two texts without a surrogate alone have the same digest only when they
are the same. -/
theorem eq_of_sha256 {hash : List UInt8 → D} (hhash : Function.Injective hash) {a b : JsText}
    (ha : WellFormed a) (hb : WellFormed b) (h : sha256 hash a = sha256 hash b) : a = b :=
  decode_injOn ha hb (String.ofList_injective (Bytes.utf8_injective (hhash h)))

/-- **Canonical JSON is canonical.** Two JSON values have the same text exactly
when they are the same, but for the order of the fields of an object and the
sign of a zero; the text of a value is read as such a value, whose text is the
same; and two values have the same digest exactly when they are the same. -/
theorem canonicalJson_canonical {hash : List UInt8 → D} (hhash : Function.Injective hash)
    {v w : JsonOf N} (hv : IsJson F v) (hw : IsJson F w) :
    (canonicalJson F v = canonicalJson F w ↔ JsonValue.Same F.unsign v w) ∧
    (∃ text read, canonicalJson F v = .ok text ∧ parse F text = some read ∧
      JsonValue.Same F.unsign v read ∧ canonicalJson F read = .ok text) ∧
    ((canonicalJson F v).map (sha256 hash) = (canonicalJson F w).map (sha256 hash) ↔
      JsonValue.Same F.unsign v w) := by
  have hrepresentative : representative F (representative F v) = representative F v :=
    ((same_iff_representative hv (representative_isJson hv)).mp
      (JsonValue.same_normalize _ _ F.unsign_unsign v)).symm
  unfold canonicalJson
  rw [encode_eq hv, encode_eq hw, same_iff_representative hv hw]
  refine ⟨⟨fun h => write_representative_inj hv hw (Except.ok.inj h), fun h => by rw [h]⟩,
    ⟨_, representative F v, rfl, parse_write (representative_readable hv), ?_, ?_⟩, ⟨fun h => ?_,
      fun h => by rw [h]⟩⟩
  · exact JsonValue.same_normalize _ _ F.unsign_unsign v
  · rw [encode_eq (representative_isJson hv), hrepresentative]
  · exact write_representative_inj hv hw (eq_of_sha256 hhash
      (wellFormed_write (representative_readable hv))
      (wellFormed_write (representative_readable hw)) (Except.ok.inj h))

/-- The numbers of one digit, the negative zero and an infinity. -/
inductive SampleNumber where
  | digit (d : Fin 10)
  | minusZero
  | infinity
  deriving DecidableEq

/-- What a number of one digit is read from. -/
def readSampleDigit : JsText → Option SampleNumber
  | [u] => if h : 48 ≤ u.val ∧ u.val ≤ 57 then some (.digit ⟨u.val - 48, by omega⟩) else none
  | _ => none

/-- How those numbers are written and read. -/
def sampleNumbers : NumberFormat SampleNumber where
  finite
    | .infinity => false
    | _ => true
  unsign
    | .minusZero => .digit 0
    | n => n
  render
    | .digit d => [hexUnit d]
    | _ => [unit '0']
  read := readSampleDigit
  unsign_unsign n := by cases n <;> rfl
  finite_unsign n h := by
    cases n with
    | infinity => exact h
    | _ => rfl
  render_ne n _ := by cases n <;> exact List.cons_ne_nil _ _
  render_units n _ := by
    have hdigit : ∀ d : Fin 10, isNumberUnit (hexUnit d) = true := by decide
    cases n with
    | digit d => exact List.forall_mem_singleton.mpr (hdigit d)
    | minusZero => exact List.forall_mem_singleton.mpr (hdigit 0)
    | infinity => exact List.forall_mem_singleton.mpr (hdigit 0)
  render_unsign n _ := by cases n <;> rfl
  read_render n h := by
    cases n with
    | digit d =>
      revert d
      decide
    | minusZero => decide
    | infinity => exact nomatch h

/-- An object with a key of the prototype, and the same one written in another
order and with a zero of the other sign. -/
def sampleObject (zero : SampleNumber) (swapped : Bool) : JsonOf SampleNumber :=
  if swapped = true then
    .object [(units "a", .array [.null, .text []]), (units "__proto__", .number zero)]
  else .object [(units "__proto__", .number zero), (units "a", .array [.null, .text []])]

/-- The two have one text, it is read as the same value, and they have one
digest. -/
theorem canonicalJson_canonical_sample :
    canonicalJson sampleNumbers (sampleObject .minusZero true) =
        canonicalJson sampleNumbers (sampleObject (.digit 0) false) ∧
      (∃ text read, canonicalJson sampleNumbers (sampleObject .minusZero true) = .ok text ∧
        parse sampleNumbers text = some read ∧
        JsonValue.Same sampleNumbers.unsign (sampleObject .minusZero true) read ∧
        canonicalJson sampleNumbers read = .ok text) ∧
      (canonicalJson sampleNumbers (sampleObject .minusZero true)).map (sha256 id) =
        (canonicalJson sampleNumbers (sampleObject (.digit 0) false)).map (sha256 id) := by
  have hkeys : units "a" ≠ units "__proto__" := by decide
  have hjson : ∀ zero swapped, sampleNumbers.finite zero = true →
      IsJson sampleNumbers (sampleObject zero swapped) := by
    intro zero swapped hzero
    cases swapped with
    | true =>
      refine JsonValue.keyed_object.mpr ⟨?_, ?_⟩
      · exact List.nodup_cons.mpr ⟨fun h => hkeys (List.mem_singleton.mp h), List.nodup_singleton _⟩
      · exact List.forall_mem_cons.mpr ⟨⟨trivial, trivial, trivial⟩,
          List.forall_mem_singleton.mpr hzero⟩
    | false =>
      refine JsonValue.keyed_object.mpr ⟨?_, ?_⟩
      · exact List.nodup_cons.mpr
          ⟨fun h => hkeys.symm (List.mem_singleton.mp h), List.nodup_singleton _⟩
      · exact List.forall_mem_cons.mpr ⟨hzero,
          List.forall_mem_singleton.mpr ⟨trivial, trivial, trivial⟩⟩
  have hsame : JsonValue.Same sampleNumbers.unsign (sampleObject .minusZero true)
      (sampleObject (.digit 0) false) := by
    refine ⟨rfl, (JsonValue.sameFields_iff _).mpr (List.forall_mem_cons.mpr ⟨?_,
      List.forall_mem_singleton.mpr ?_⟩)⟩
    · exact ⟨_, List.mem_cons_of_mem _ List.mem_cons_self, trivial, rfl, trivial⟩
    · exact ⟨_, List.mem_cons_self, rfl⟩
  obtain ⟨htext, hread, hdigest⟩ := @canonicalJson_canonical _ _ _ id
    Function.injective_id _ _ (hjson .minusZero true rfl) (hjson (.digit 0) false rfl)
  exact ⟨htext.mpr hsame, hread, hdigest.mpr hsame⟩

end Snowcat
