import Snowcat.Sweep.GitHub
import Snowcat.Sweep.Glob

/-!
# The governance policy of a repository, and who reads it

A repository's governance policy is a JSON document. Enrollment checks it
against a schema and records it; the queue asks the control plane for the
authority that follows from it, and the hook that answers reads the recorded
document once more, with a reader of its own.

The schema is here as the validator applies it (`governanceValid`), part by
part in the order of its file. The reader (`parseGovernancePolicy`) asks for
less in some places and for more in one: `governanceReadable` says of a document
what it asks, and `controlPlanePolicyAuthority_reads_iff` when the two agree.
-/

namespace Snowcat

open Patterns Pattern

/-! ## JSON values -/

namespace Json

/-- `Object.entries`: each key of an object once, with the value that counts; the elements of an
array under their indices. -/
def entries : Json → List (String × Json)
  | .object fields =>
    (fields.map Prod.fst).eraseDups.filterMap fun key =>
      (field key (.object fields)).map fun value => (key, value)
  | .array values => values.zipIdx.map fun e => (toString e.2, e.1)
  | _ => []

/-- `typeof value === "object" && value !== null`. -/
def isObjectLike : Json → Bool
  | .object _ => true
  | .array _ => true
  | _ => false

theorem mem_entries {fields : List (String × Json)} {key : String} {value : Json} :
    (key, value) ∈ (Json.object fields).entries ↔ (Json.object fields).field key = some value := by
  rw [entries, List.mem_filterMap]
  constructor
  · rintro ⟨k, -, hk⟩
    obtain ⟨v, hv, heq⟩ := Option.map_eq_some_iff.mp hk
    obtain ⟨rfl, rfl⟩ := Prod.mk.inj heq
    exact hv
  · intro h
    refine ⟨key, ?_, by rw [h]; rfl⟩
    simp only [field, asObject, Option.bind_some] at h
    obtain ⟨e, he, -⟩ := Option.map_eq_some_iff.mp h
    have hkey := List.find?_some he
    replace hkey : e.1 = key := of_decide_eq_true hkey
    rw [List.mem_eraseDups, ← hkey]
    exact List.mem_map_of_mem (List.mem_reverse.mp (List.mem_of_find?_eq_some he))

end Json

/-! ## The schema -/

/-- A rule of a schema. -/
abbrev JsonRule : Type := Json → Bool

/-- `"enum"` and `"const"`, of texts. -/
def textIn (values : List String) : JsonRule
  | .text s => values.contains s
  | _ => false

/-- `"const"`, of a Boolean. -/
def constBool (b : Bool) : JsonRule
  | .bool value => value == b
  | _ => false

/-- `"const"`, of an array of texts. -/
def constTexts (values : List String) : JsonRule
  | .array items => items.map Json.text? == values.map some
  | _ => false

/-- An object with `"additionalProperties": false`. -/
def closedObject (required : List String) (properties : List (String × JsonRule)) : JsonRule
  | .object fields =>
    required.all (fun key => (Json.field key (.object fields)).isSome) &&
      (Json.entries (.object fields)).all fun e =>
        (properties.find? fun p => p.1 = e.1).any fun p => p.2 e.2
  | _ => false

/-- An array with `"items"` and `"maxItems"`. -/
def arrayOf (maxItems : ℕ) (items : JsonRule) : JsonRule
  | .array values => decide (values.length ≤ maxItems) && values.all items
  | _ => false

/-- `"uniqueItems"`, of texts. -/
def uniqueTexts : JsonRule
  | .array values => decide (values.filterMap Json.text?).Nodup
  | _ => false

/-- All of some texts, each once. -/
def eachOnce (values : List String) : JsonRule
  | .array items =>
    decide (items.length = values.length) && items.all (textIn values) &&
      uniqueTexts (.array items) &&
      values.all fun s => items.any fun item => item.text? == some s
  | _ => false

/-- `decision`. -/
def decisionRule : JsonRule := textIn ["allow", "review-required", "deny"]

/-- The actions that the schema knows. -/
def governanceActions : List String :=
  ["read", "write", "run-tests", "open-issue", "open-pr", "create-followup", "approve-pr",
    "merge-pr", "push-protected-branch", "publish-artifact", "publish-release", "deploy",
    "modify-protected-environment", "manage-credentials"]

/-- `actions`. -/
def actionsRule : JsonRule :=
  closedObject [] (governanceActions.map fun action => (action, decisionRule))

/-- The boundaries that the schema knows. -/
def governanceBoundaries : List String :=
  ["authentication", "credentials-and-sensitive-data", "cryptographic-trust", "destructive-data",
    "installation-and-update", "release-and-publication", "deployment-and-infrastructure",
    "workflow-and-permissions", "quality-gates", "supply-chain-provenance", "security-disclosure"]

/-- `^(?!/)(?!.*(?:^|/)\.\.(?:/|$))(?!.*\\).+$`, of 1 through 300 characters: a path of some
segments that does not start at the root and does not climb. -/
def pathRule : JsonRule
  | .text s =>
    decide (1 ≤ s.length ∧ s.length ≤ 300) && !startsWith s "/" &&
      !((s.toList.splitOn '/').contains ['.', '.']) &&
      s.toList.all fun c => c.toNat != 92 && !isLineTerminator c
  | _ => false

/-- An entry of `protected_boundaries`. -/
def boundaryRule : JsonRule :=
  closedObject ["id", "decision", "minimum_risk_tier", "paths", "detectors"]
    [("id", textIn governanceBoundaries), ("decision", textIn ["review-required", "deny"]),
      ("minimum_risk_tier", textIn ["low", "moderate", "high", "critical"]),
      ("paths", fun v => arrayOf 100 pathRule v && uniqueTexts v),
      ("detectors", arrayOf 0 fun _ => true)]

/-- `protected_boundaries`. -/
def boundariesRule : JsonRule := arrayOf 11 boundaryRule

/-- `change_controls`. -/
def changeControlsRule : JsonRule :=
  closedObject
    ["pull_requests_required", "human_review_before_merge", "highest_applicable_risk",
      "validation_evidence_required", "least_privilege", "untrusted_content_is_data",
      "never_relax"]
    [("pull_requests_required", constBool true), ("human_review_before_merge", constBool true),
      ("highest_applicable_risk", constBool true),
      ("validation_evidence_required", constBool true), ("least_privilege", constBool true),
      ("untrusted_content_is_data", constBool true),
      ("never_relax", eachOnce ["required-checks", "security-checks", "review-requirements",
        "coverage-checks", "provenance-verification"])]

/-- `exception_controls`. -/
def exceptionControlsRule : JsonRule :=
  closedObject ["independent_authorized_approver", "self_approval", "required_fields"]
    [("independent_authorized_approver", constBool true), ("self_approval", constBool false),
      ("required_fields", eachOnce ["rationale", "target", "compensating-controls", "expires-at",
        "restoration-or-closure-plan"])]

/-- `risk_classification`. -/
def riskClassificationRule : JsonRule :=
  closedObject ["tiers", "classification_rule", "uncertainty_rule"]
    [("tiers", constTexts ["low", "moderate", "high", "critical"]),
      ("classification_rule", textIn ["highest-applicable"]),
      ("uncertainty_rule", textIn ["higher-plausible"])]

/-- `schema_version`. -/
def schemaVersionRule : JsonRule
  | .number n => n == .int 1
  | _ => false

/-- **`repository-agent-governance`, version 1.** -/
def governanceValid : JsonRule :=
  closedObject
    ["schema_version", "default_decision", "actions", "protected_boundaries", "change_controls",
      "exception_controls", "risk_classification"]
    [("schema_version", schemaVersionRule), ("default_decision", textIn ["deny"]),
      ("actions", actionsRule), ("protected_boundaries", boundariesRule),
      ("change_controls", changeControlsRule), ("exception_controls", exceptionControlsRule),
      ("risk_classification", riskClassificationRule)]

/-- The rules of the schema for the default decision, the actions and the boundaries. -/
def governanceRulesValid (value : Json) : Bool :=
  (value.field "default_decision").any (textIn ["deny"]) &&
    (value.field "actions").any actionsRule &&
    (value.field "protected_boundaries").any boundariesRule

/-! ## The reader -/

/-- `isDecision`. -/
def isDecision : Json → Option PolicyDecision
  | .text "allow" => some .allow
  | .text "review-required" => some .reviewRequired
  | .text "deny" => some .deny
  | _ => none

/-- `isAllowedAction`. -/
def isAllowedAction (name : String) : Option AllowedAction :=
  allowedActions.find? fun action => action.text = name

/-- What the reader takes from a document. -/
structure GovernancePolicy where
  defaultDecision : PolicyDecision
  actionDecisions : AllowedAction → Option PolicyDecision
  protectedBoundaries : List PolicyBoundary

/-- An entry of `actions`. -/
def parseActionDecision (e : String × Json) : Option (AllowedAction × PolicyDecision) :=
  (isAllowedAction e.1).bind fun action => (isDecision e.2).map fun decision => (action, decision)

/-- An entry of `protected_boundaries`. -/
def parseBoundary (entry : Json) : Option PolicyBoundary :=
  ((entry.field "id").bind Json.text?).bind fun id =>
    ((entry.field "decision").bind isDecision).bind fun decision =>
      ((entry.field "paths").bind Json.array?).bind fun paths =>
        (paths.mapM Json.text?).map fun paths =>
          { id
            decision
            minimumRiskTier :=
              ((entry.field "minimum_risk_tier").bind Json.text?).getD "unstated"
            paths }

/-- The entries of `protected_boundaries`, none when it is no array. -/
def boundaryEntries (value : Json) : List Json :=
  ((value.field "protected_boundaries").bind Json.array?).getD []

/-- **`parseGovernancePolicy`.** -/
def parseGovernancePolicy (value : Json) : Option GovernancePolicy :=
  ((value.field "default_decision").bind isDecision).bind fun defaultDecision =>
    ((value.field "actions").filter Json.isObjectLike).bind fun actions =>
      (actions.entries.mapM parseActionDecision).bind fun decided =>
        ((boundaryEntries value).mapM parseBoundary).map fun protectedBoundaries =>
          { defaultDecision
            actionDecisions := fun action =>
              (decided.reverse.find? fun d => d.1 = action).map Prod.snd
            protectedBoundaries }

/-! ## The hook -/

/-- `RepositoryState`. -/
inductive RepositoryState where
  | awaitingAuthority | disabled | paused | operatorHeld | awaitingGithub | githubHeld
  | awaitingSurfaces | surfaceHeld | awaitingEnrollment | enrolled
  deriving DecidableEq, Repr

/-- `RepositoryStatus`, with what the hook reads of it. -/
structure RepositoryStatus where
  owner : String
  name : String
  effectiveState : RepositoryState
  coreSnapshotId : String
  repositoryCommitId : Option String
  actionCeiling : List String
  governancePolicy : Json

/-- The enrolled repository of a name. -/
def enrolledStatus (statuses : List RepositoryStatus) (repository : String) :
    Option RepositoryStatus :=
  statuses.find? fun candidate =>
    toLowerCase (candidate.owner ++ "/" ++ candidate.name) = toLowerCase repository &&
      candidate.effectiveState = .enrolled

/-- **`controlPlanePolicyAuthority`**: what the hook answers, when there is a control plane. -/
def controlPlanePolicyAuthority (controlPlane : Option (List RepositoryStatus))
    (repository : String) : Option PolicyAuthority :=
  (controlPlane.bind fun statuses => enrolledStatus statuses repository).bind fun status =>
    (parseGovernancePolicy status.governancePolicy).map fun policy =>
      { coreSnapshotId := status.coreSnapshotId
        repositoryCommitId := status.repositoryCommitId
        actionCeiling := status.actionCeiling.filterMap isAllowedAction
        defaultDecision := policy.defaultDecision
        actionDecisions := policy.actionDecisions
        protectedBoundaries := policy.protectedBoundaries }

/-! ## What the two say of a document -/

/-- What the reader asks of an entry of `protected_boundaries`. -/
def boundaryReadable (entry : Json) : Bool :=
  ((entry.field "id").bind Json.text?).isSome &&
    ((entry.field "decision").bind isDecision).isSome &&
    ((entry.field "paths").bind Json.array?).any fun paths =>
      paths.all fun path => path.text?.isSome

/-- What the reader asks of `actions`: some object, of the queue's own actions only. -/
def actionsReadable (actions : Json) : Bool :=
  actions.isObjectLike &&
    actions.entries.all fun e => (isAllowedAction e.1).isSome && (isDecision e.2).isSome

/-- **What the reader asks of a document**: any of the three decisions as the default, actions of
the queue's own, and boundaries, if they are an array, whose id is a text, whose decision is one
of the three, and whose paths are texts. -/
def governanceReadable (value : Json) : Bool :=
  ((value.field "default_decision").bind isDecision).isSome &&
    (value.field "actions").any actionsReadable && (boundaryEntries value).all boundaryReadable

/-- An authority has the boundary of an entry. -/
structure PolicyBoundary.Describes (boundary : PolicyBoundary) (entry : Json) : Prop where
  id : entry.field "id" = some (.text boundary.id)
  decision : entry.field "decision" = some (.text boundary.decision.text)
  minimumRiskTier : entry.field "minimum_risk_tier" = some (.text boundary.minimumRiskTier)
  paths : entry.field "paths" = some (.array (boundary.paths.map Json.text))

/-- What a document says of an action: its decision, or the default when it is not listed. -/
def documentDecision (value : Json) (action : AllowedAction) : Option Json :=
  match (value.field "actions").bind (Json.field action.text) with
  | some decision => some decision
  | none => value.field "default_decision"

/-- **An authority is what the document says**: of every action, and of the boundaries. -/
structure PolicyAuthority.Of (authority : PolicyAuthority) (value : Json) : Prop where
  decision : ∀ action,
    documentDecision value action = some (.text (authority.decision action).text)
  boundaries : ∃ entries, value.field "protected_boundaries" = some (.array entries) ∧
    List.Forall₂ PolicyBoundary.Describes authority.protectedBoundaries entries

/-- **What the hook owes a recorded document**: the authority that a valid one says, and nothing
for one that breaks the rules for the default decision, the actions or the boundaries. -/
structure ReadsPolicy (value : Json) (answer : Option PolicyAuthority) : Prop where
  valid : governanceValid value = true → ∃ authority, answer = some authority ∧ authority.Of value
  invalid : governanceRulesValid value = false → answer = none

/-! ## Reading -/

section Reading

variable {α β : Type} {f : α → Option β} {value entry : Json}

theorem mapM_eq_some_iff {l : List α} {r : List β} :
    l.mapM f = some r ↔ List.Forall₂ (fun a b => f a = some b) l r := by
  induction l generalizing r with
  | nil =>
    rw [List.mapM_nil]
    constructor
    · intro h
      rw [← Option.some.inj h]
      exact .nil
    · rintro ⟨⟩
      rfl
  | cons a l ih =>
    rw [List.mapM_cons]
    constructor
    · intro h
      obtain ⟨b, hb, h⟩ := Option.bind_eq_some_iff.mp h
      obtain ⟨bs, hbs, h⟩ := Option.bind_eq_some_iff.mp h
      rw [← Option.some.inj h]
      exact .cons hb (ih.mp hbs)
    · intro h
      cases h with
      | cons hb hbs =>
        rw [hb, ih.mpr hbs]
        rfl

theorem mem_iff_of_mapM {l : List α} {r : List β} (h : l.mapM f = some r) {b : β} :
    b ∈ r ↔ ∃ a ∈ l, f a = some b := by
  have hforall := mapM_eq_some_iff.mp h
  clear h
  induction hforall with
  | nil => exact ⟨fun h => absurd h List.not_mem_nil, fun ⟨_, h, _⟩ => absurd h List.not_mem_nil⟩
  | cons ha _ ih =>
    rw [List.mem_cons, List.exists_mem_cons_iff, ha, Option.some.injEq, eq_comm]
    exact or_congr_right ih

theorem isSome_mapM_iff {l : List α} :
    (l.mapM f).isSome = true ↔ ∀ a ∈ l, (f a).isSome = true := by
  induction l with
  | nil => exact ⟨fun _ _ ha => absurd ha List.not_mem_nil, fun _ => rfl⟩
  | cons a l ih =>
    rw [List.mapM_cons, List.forall_mem_cons, ← ih]
    cases f a with
    | none => exact ⟨nofun, fun h => nomatch h.1⟩
    | some b =>
      cases l.mapM f with
      | none => exact ⟨nofun, fun h => nomatch h.2⟩
      | some bs => exact ⟨fun _ => ⟨rfl, rfl⟩, fun _ => rfl⟩

theorem eq_text_of_isDecision {decision : PolicyDecision} (h : isDecision value = some decision) :
    value = .text decision.text := by
  unfold isDecision at h
  split at h
  · exact (Option.some.inj h) ▸ rfl
  · exact (Option.some.inj h) ▸ rfl
  · exact (Option.some.inj h) ▸ rfl
  · exact nomatch h

theorem text_of_isAllowedAction {name : String} {action : AllowedAction}
    (h : isAllowedAction name = some action) : action.text = name := by
  have hname := List.find?_some h
  exact of_decide_eq_true hname

theorem isAllowedAction_text (action : AllowedAction) :
    isAllowedAction action.text = some action := by
  cases action <;> decide

theorem text?_eq_some {s : String} (h : value.text? = some s) : value = .text s := by
  cases value with
  | text t => exact congrArg Json.text (Option.some.inj h)
  | null => exact nomatch h
  | bool b => exact nomatch h
  | number n => exact nomatch h
  | array values => exact nomatch h
  | object fields => exact nomatch h

theorem array?_eq_some {values : List Json} (h : value.array? = some values) :
    value = .array values := by
  cases value with
  | array values => exact congrArg Json.array (Option.some.inj h)
  | null => exact nomatch h
  | bool b => exact nomatch h
  | number n => exact nomatch h
  | text s => exact nomatch h
  | object fields => exact nomatch h

theorem isSome_parseBoundary : (parseBoundary entry).isSome = boundaryReadable entry := by
  unfold parseBoundary boundaryReadable
  cases (entry.field "id").bind Json.text? with
  | none => rfl
  | some id =>
    cases (entry.field "decision").bind isDecision with
    | none => rfl
    | some decision =>
      cases (entry.field "paths").bind Json.array? with
      | none => rfl
      | some paths =>
        simp only [Option.bind_some, Option.isSome_map, Option.isSome_some, Bool.true_and,
          Option.any_some]
        rw [Bool.eq_iff_iff, isSome_mapM_iff, List.all_eq_true]

theorem isSome_parseActionDecision (e : String × Json) :
    (parseActionDecision e).isSome = ((isAllowedAction e.1).isSome && (isDecision e.2).isSome) := by
  unfold parseActionDecision
  cases isAllowedAction e.1 <;> simp

/-- **The reader reads exactly the readable documents.** -/
theorem isSome_parseGovernancePolicy :
    (parseGovernancePolicy value).isSome = governanceReadable value := by
  unfold parseGovernancePolicy governanceReadable
  cases (value.field "default_decision").bind isDecision with
  | none => rfl
  | some defaultDecision =>
    cases value.field "actions" with
    | none => rfl
    | some actions =>
      have hboundaries : ((boundaryEntries value).mapM parseBoundary).isSome =
          (boundaryEntries value).all boundaryReadable := by
        rw [Bool.eq_iff_iff, isSome_mapM_iff, List.all_eq_true]
        simp only [isSome_parseBoundary]
      have hactions : (actions.entries.mapM parseActionDecision).isSome =
          actions.entries.all fun e => (isAllowedAction e.1).isSome && (isDecision e.2).isSome := by
        rw [Bool.eq_iff_iff, isSome_mapM_iff, List.all_eq_true]
        simp only [isSome_parseActionDecision]
      rw [← hboundaries, Option.any_some, actionsReadable, ← hactions]
      cases hobject : actions.isObjectLike with
      | false => simp [Option.filter, hobject]
      | true =>
        cases hdecided : actions.entries.mapM parseActionDecision <;>
          simp [Option.filter, hobject, hdecided]

end Reading

/-! ## Reading a valid document -/

section Valid

variable {value entry actions : Json} {required : List String}
  {properties : List (String × JsonRule)}

theorem closedObject_iff :
    closedObject required properties value = true ↔
      ∃ fields, value = .object fields ∧ (∀ key ∈ required, (value.field key).isSome = true) ∧
        ∀ key v, value.field key = some v →
          ∃ p, properties.find? (fun p => p.1 = key) = some p ∧ p.2 v = true := by
  cases value with
  | object fields =>
    rw [closedObject, Bool.and_eq_true, List.all_eq_true, List.all_eq_true]
    constructor
    · rintro ⟨hrequired, hentries⟩
      refine ⟨fields, rfl, hrequired, fun key v hv => ?_⟩
      exact (Option.any_eq_true _ _).mp (hentries (key, v) (Json.mem_entries.mpr hv))
    · rintro ⟨_, -, hrequired, hfields⟩
      refine ⟨hrequired, fun e he => ?_⟩
      exact (Option.any_eq_true _ _).mpr (hfields e.1 e.2 (Json.mem_entries.mp he))
  | null => exact ⟨nofun, fun ⟨_, h, _⟩ => nomatch h⟩
  | bool b => exact ⟨nofun, fun ⟨_, h, _⟩ => nomatch h⟩
  | number n => exact ⟨nofun, fun ⟨_, h, _⟩ => nomatch h⟩
  | text t => exact ⟨nofun, fun ⟨_, h, _⟩ => nomatch h⟩
  | array values => exact ⟨nofun, fun ⟨_, h, _⟩ => nomatch h⟩

/-- A required field of a valid object meets its rule. -/
theorem field_of_closedObject (h : closedObject required properties value = true) {key : String}
    {rule : JsonRule} (hkey : key ∈ required)
    (hrule : properties.find? (fun p => p.1 = key) = some (key, rule)) :
    ∃ v, value.field key = some v ∧ rule v = true := by
  obtain ⟨_, -, hrequired, hfields⟩ := closedObject_iff.mp h
  obtain ⟨v, hv⟩ := Option.isSome_iff_exists.mp (hrequired key hkey)
  obtain ⟨p, hp, hvalid⟩ := hfields key v hv
  obtain rfl := Option.some.inj (hrule.symm.trans hp)
  exact ⟨v, hv, hvalid⟩

theorem eq_text_of_textIn {values : List String} (h : textIn values value = true) :
    ∃ s ∈ values, value = .text s := by
  cases value with
  | text s => exact ⟨s, List.contains_iff_mem.mp h, rfl⟩
  | null => exact nomatch h
  | bool b => exact nomatch h
  | number n => exact nomatch h
  | array values => exact nomatch h
  | object fields => exact nomatch h

theorem isDecision_text (decision : PolicyDecision) :
    isDecision (.text decision.text) = some decision := by
  cases decision <;> rfl

/-- A text that is one of the decisions. -/
theorem decision_of_textIn (h : decisionRule value = true) :
    ∃ decision, isDecision value = some decision := by
  obtain ⟨s, hs, rfl⟩ := eq_text_of_textIn h
  rcases List.mem_cons.mp hs with rfl | hs
  · exact ⟨_, isDecision_text .allow⟩
  · rcases List.mem_cons.mp hs with rfl | hs
    · exact ⟨_, isDecision_text .reviewRequired⟩
    · obtain rfl := List.mem_singleton.mp hs
      exact ⟨_, isDecision_text .deny⟩

theorem decisionRule_of_textIn (h : textIn ["review-required", "deny"] value = true) :
    decisionRule value = true := by
  obtain ⟨s, hs, rfl⟩ := eq_text_of_textIn h
  exact List.contains_iff_mem.mpr (List.mem_cons_of_mem _ hs)

theorem eq_array_of_arrayOf {maxItems : ℕ} {items : JsonRule}
    (h : arrayOf maxItems items value = true) :
    ∃ values, value = .array values ∧ ∀ v ∈ values, items v = true := by
  cases value with
  | array values => exact ⟨values, rfl, List.all_eq_true.mp (Bool.and_eq_true_iff.mp h).2⟩
  | null => exact nomatch h
  | bool b => exact nomatch h
  | number n => exact nomatch h
  | text t => exact nomatch h
  | object fields => exact nomatch h

/-- Some valid paths are texts. -/
theorem texts_of_pathRule {values : List Json} (h : ∀ v ∈ values, pathRule v = true) :
    ∃ texts, values = texts.map Json.text ∧ values.mapM Json.text? = some texts := by
  induction values with
  | nil => exact ⟨[], rfl, rfl⟩
  | cons v values ih =>
    obtain ⟨hv, hvalues⟩ := List.forall_mem_cons.mp h
    obtain ⟨texts, rfl, htexts⟩ := ih hvalues
    cases v with
    | text s => exact ⟨s :: texts, rfl, by rw [List.mapM_cons, htexts]; rfl⟩
    | null => exact nomatch hv
    | bool b => exact nomatch hv
    | number n => exact nomatch hv
    | array values => exact nomatch hv
    | object fields => exact nomatch hv

/-- **A valid boundary is read as it stands.** -/
theorem parseBoundary_of_boundaryRule (h : boundaryRule entry = true) :
    ∃ boundary, parseBoundary entry = some boundary ∧ boundary.Describes entry := by
  obtain ⟨idValue, hid, hidRule⟩ :=
    @field_of_closedObject _ _ _ h "id" _ (by decide) rfl
  obtain ⟨decisionValue, hdecision, hdecisionRule⟩ :=
    @field_of_closedObject _ _ _ h "decision" _ (by decide) rfl
  obtain ⟨tierValue, htier, htierRule⟩ :=
    @field_of_closedObject _ _ _ h "minimum_risk_tier" _ (by decide) rfl
  obtain ⟨pathsValue, hpaths, hpathsRule⟩ :=
    @field_of_closedObject _ _ _ h "paths" _ (by decide) rfl
  obtain ⟨id, -, rfl⟩ := eq_text_of_textIn hidRule
  obtain ⟨decision, hread⟩ := decision_of_textIn (decisionRule_of_textIn hdecisionRule)
  obtain rfl := eq_text_of_isDecision hread
  obtain ⟨tier, -, rfl⟩ := eq_text_of_textIn htierRule
  obtain ⟨values, rfl, hvalues⟩ := eq_array_of_arrayOf (Bool.and_eq_true_iff.mp hpathsRule).1
  obtain ⟨paths, rfl, htexts⟩ := texts_of_pathRule hvalues
  refine ⟨⟨id, decision, tier, paths⟩, ?_, ⟨hid, hdecision, htier, hpaths⟩⟩
  unfold parseBoundary
  rw [hid, hdecision, hpaths, htier]
  simp only [Option.bind_some, Json.text?, isDecision_text, Json.array?, htexts, Option.map_some,
    Option.getD_some]

/-- The actions a document lists are the queue's own. -/
def listsOnlyQueueActions (value : Json) : Bool :=
  (value.field "actions").all fun actions =>
    actions.entries.all fun e => (isAllowedAction e.1).isSome

/-- A document's actions, when they are the queue's own, are read as they stand. -/
theorem decided_of_actionsRule (h : actionsRule actions = true)
    (hqueue : ∀ e ∈ actions.entries, (isAllowedAction e.1).isSome = true) :
    ∃ decided, actions.entries.mapM parseActionDecision = some decided ∧
      ∀ action, ((decided.reverse.find? fun d => d.1 = action).map Prod.snd).map
        (fun d => Json.text d.text) = actions.field action.text := by
  obtain ⟨fields, rfl, -, hfields⟩ := closedObject_iff.mp h
  have hread : ∀ e ∈ (Json.object fields).entries, (parseActionDecision e).isSome = true := by
    intro e he
    obtain ⟨p, hp, hrule⟩ := hfields e.1 e.2 (Json.mem_entries.mp he)
    obtain ⟨action, -, rfl⟩ := List.mem_map.mp (List.mem_of_find?_eq_some hp)
    obtain ⟨decision, hdecision⟩ := decision_of_textIn hrule
    rw [isSome_parseActionDecision, hqueue e he, hdecision]
    rfl
  obtain ⟨decided, hdecided⟩ := Option.isSome_iff_exists.mp (isSome_mapM_iff.mpr hread)
  refine ⟨decided, hdecided, fun action => ?_⟩
  have hmem : ∀ decision, (action, decision) ∈ decided ↔
      (Json.object fields).field action.text = some (.text decision.text) := by
    intro decision
    constructor
    · intro hd
      obtain ⟨e, he, hparse⟩ := (mem_iff_of_mapM hdecided).mp hd
      obtain ⟨a, ha, hparse⟩ := Option.bind_eq_some_iff.mp hparse
      obtain ⟨d, hdecision, hparse⟩ := Option.map_eq_some_iff.mp hparse
      obtain ⟨rfl, rfl⟩ := Prod.mk.inj hparse
      rw [text_of_isAllowedAction ha, ← eq_text_of_isDecision hdecision]
      exact Json.mem_entries.mp he
    · intro hfield
      refine (mem_iff_of_mapM hdecided).mpr ⟨_, Json.mem_entries.mpr hfield, ?_⟩
      rw [parseActionDecision, isAllowedAction_text, isDecision_text]
      rfl
  cases hfind : decided.reverse.find? fun d => d.1 = action with
  | some d =>
    have haction := List.find?_some hfind
    obtain rfl : d.1 = action := of_decide_eq_true haction
    exact ((hmem d.2).mp (List.mem_reverse.mp (List.mem_of_find?_eq_some hfind))).symm
  | none =>
    cases hfield : (Json.object fields).field action.text with
    | none => rfl
    | some v =>
      obtain ⟨p, hp, hrule⟩ := hfields action.text v hfield
      obtain ⟨name, -, rfl⟩ := List.mem_map.mp (List.mem_of_find?_eq_some hp)
      obtain ⟨decision, hdecision⟩ := decision_of_textIn hrule
      rw [eq_text_of_isDecision hdecision] at hfield
      have hd := List.mem_reverse.mpr ((hmem decision).mpr hfield)
      exact absurd (decide_eq_true rfl) (List.find?_eq_none.mp hfind _ hd)

/-- The boundaries of a valid document are read as they stand. -/
theorem boundaries_of_boundariesRule {boundaries : Json} (h : boundariesRule boundaries = true) :
    ∃ entries read, boundaries = .array entries ∧ entries.mapM parseBoundary = some read ∧
      List.Forall₂ PolicyBoundary.Describes read entries := by
  obtain ⟨entries, rfl, hentries⟩ := eq_array_of_arrayOf h
  refine ⟨entries, ?_⟩
  have hread : ∃ read, entries.mapM parseBoundary = some read ∧
      List.Forall₂ PolicyBoundary.Describes read entries := by
    clear h
    induction entries with
    | nil => exact ⟨[], rfl, .nil⟩
    | cons entry entries ih =>
      obtain ⟨hentry, hentries⟩ := List.forall_mem_cons.mp hentries
      obtain ⟨boundary, hboundary, hdescribes⟩ := parseBoundary_of_boundaryRule hentry
      obtain ⟨read, hread, hall⟩ := ih hentries
      exact ⟨boundary :: read, by rw [List.mapM_cons, hboundary, hread]; rfl, .cons hdescribes hall⟩
  obtain ⟨read, hread, hall⟩ := hread
  exact ⟨read, rfl, hread, hall⟩

/-- **A valid document of the queue's own actions is read as it stands.** -/
theorem parseGovernancePolicy_of_valid (h : governanceValid value = true)
    (hqueue : listsOnlyQueueActions value = true) :
    ∃ policy boundaries, parseGovernancePolicy value = some policy ∧
      (∀ action, documentDecision value action =
        some (.text ((policy.actionDecisions action).getD policy.defaultDecision).text)) ∧
      value.field "protected_boundaries" = some (.array boundaries) ∧
      List.Forall₂ PolicyBoundary.Describes policy.protectedBoundaries boundaries := by
  obtain ⟨defaultValue, hdefault, hdefaultRule⟩ :=
    @field_of_closedObject _ _ _ h "default_decision" _ (by decide) rfl
  obtain ⟨actions, hactions, hactionsRule⟩ :=
    @field_of_closedObject _ _ _ h "actions" _ (by decide) rfl
  obtain ⟨boundaries, hboundaries, hboundariesRule⟩ :=
    @field_of_closedObject _ _ _ h "protected_boundaries" _ (by decide) rfl
  obtain ⟨text, htext, rfl⟩ := eq_text_of_textIn hdefaultRule
  obtain rfl : text = "deny" := List.mem_singleton.mp htext
  rw [listsOnlyQueueActions, hactions, Option.all_some, List.all_eq_true] at hqueue
  obtain ⟨decided, hdecided, hlookup⟩ := decided_of_actionsRule hactionsRule hqueue
  obtain ⟨entries, read, rfl, hread, hdescribes⟩ := boundaries_of_boundariesRule hboundariesRule
  have hobject : actions.isObjectLike = true := by
    obtain ⟨fields, rfl, -⟩ := closedObject_iff.mp hactionsRule
    rfl
  refine ⟨⟨.deny, fun action => (decided.reverse.find? fun d => d.1 = action).map Prod.snd, read⟩,
    entries, ?_, fun action => ?_, hboundaries, hdescribes⟩
  · unfold parseGovernancePolicy boundaryEntries
    rw [hdefault, hactions, hboundaries]
    simp only [Option.bind_some, isDecision, Option.filter, hobject, if_true, hdecided,
      Json.array?, Option.getD_some, hread, Option.map_some]
  · rw [documentDecision, hactions, Option.bind_some, ← hlookup action]
    show _ = some (Json.text
      (((decided.reverse.find? fun d => d.1 = action).map Prod.snd).getD .deny).text)
    cases (decided.reverse.find? fun d => d.1 = action).map Prod.snd with
    | some decision => rfl
    | none => exact hdefault

end Valid

/-! ## When the hook reads what the schema says -/

section Hook

variable {statuses : List RepositoryStatus} {repository : String} {status : RepositoryStatus}

/-- What the hook answers for an enrolled repository. -/
theorem controlPlanePolicyAuthority_eq (h : enrolledStatus statuses repository = some status) :
    controlPlanePolicyAuthority (some statuses) repository =
      (parseGovernancePolicy status.governancePolicy).map fun policy =>
        { coreSnapshotId := status.coreSnapshotId
          repositoryCommitId := status.repositoryCommitId
          actionCeiling := status.actionCeiling.filterMap isAllowedAction
          defaultDecision := policy.defaultDecision
          actionDecisions := policy.actionDecisions
          protectedBoundaries := policy.protectedBoundaries } := by
  rw [controlPlanePolicyAuthority, Option.bind_some, h, Option.bind_some]

theorem isSome_controlPlanePolicyAuthority (h : enrolledStatus statuses repository = some status) :
    (controlPlanePolicyAuthority (some statuses) repository).isSome =
      governanceReadable status.governancePolicy := by
  rw [controlPlanePolicyAuthority_eq h, Option.isSome_map, isSome_parseGovernancePolicy]

theorem listsOnlyQueueActions_of_readable {value : Json} (h : governanceReadable value = true) :
    listsOnlyQueueActions value = true := by
  unfold governanceReadable at h
  unfold listsOnlyQueueActions
  rw [Bool.and_eq_true, Bool.and_eq_true] at h
  cases hactions : value.field "actions" with
  | none => rfl
  | some actions =>
    rw [hactions, Option.any_some, actionsReadable, Bool.and_eq_true] at h
    rw [Option.all_some, List.all_eq_true]
    exact fun e he => (Bool.and_eq_true_iff.mp (List.all_eq_true.mp h.1.2.2 e he)).1

/-- **When the hook reads what the schema says**, of the document recorded for an enrolled
repository: a valid document lists none of the actions that are not the queue's own, and a
document that breaks the rules is not readable either. -/
theorem controlPlanePolicyAuthority_reads_iff
    (h : enrolledStatus statuses repository = some status) :
    ReadsPolicy status.governancePolicy (controlPlanePolicyAuthority (some statuses) repository) ↔
      (governanceValid status.governancePolicy = true →
        listsOnlyQueueActions status.governancePolicy = true) ∧
      (governanceRulesValid status.governancePolicy = false →
        governanceReadable status.governancePolicy = false) := by
  have hsome := isSome_controlPlanePolicyAuthority h
  constructor
  · intro hreads
    refine ⟨fun hvalid => ?_, fun hinvalid => ?_⟩
    · obtain ⟨authority, hauthority, -⟩ := hreads.valid hvalid
      rw [hauthority] at hsome
      exact listsOnlyQueueActions_of_readable hsome.symm
    · rw [hreads.invalid hinvalid] at hsome
      exact hsome.symm
  · rintro ⟨hqueue, hbroken⟩
    refine ⟨fun hvalid => ?_, fun hinvalid => ?_⟩
    · obtain ⟨policy, boundaries, hparse, hdecisions, hboundaries, hdescribes⟩ :=
        parseGovernancePolicy_of_valid hvalid (hqueue hvalid)
      rw [controlPlanePolicyAuthority_eq h, hparse]
      exact ⟨_, rfl, hdecisions, boundaries, hboundaries, hdescribes⟩
    · rw [hbroken hinvalid] at hsome
      exact Option.isSome_eq_false_iff.mp hsome |> Option.isNone_iff_eq_none.mp

end Hook

/-! ### Sample documents -/

/-- A policy with some actions and no boundary. -/
def sampleGovernance (defaultDecision : String) (actions : List (String × Json)) : Json :=
  .object
    [("schema_version", .number (.int 1)), ("default_decision", .text defaultDecision),
      ("actions", .object actions), ("protected_boundaries", .array []),
      ("change_controls", .object
        [("pull_requests_required", .bool true), ("human_review_before_merge", .bool true),
          ("highest_applicable_risk", .bool true), ("validation_evidence_required", .bool true),
          ("least_privilege", .bool true), ("untrusted_content_is_data", .bool true),
          ("never_relax", .array [.text "required-checks", .text "security-checks",
            .text "review-requirements", .text "coverage-checks",
            .text "provenance-verification"])]),
      ("exception_controls", .object
        [("independent_authorized_approver", .bool true), ("self_approval", .bool false),
          ("required_fields", .array [.text "rationale", .text "target",
            .text "compensating-controls", .text "expires-at",
            .text "restoration-or-closure-plan"])]),
      ("risk_classification", .object
        [("tiers", .array [.text "low", .text "moderate", .text "high", .text "critical"]),
          ("classification_rule", .text "highest-applicable"),
          ("uncertainty_rule", .text "higher-plausible")])]

/-- An enrolled repository with a policy. -/
def sampleStatus (policy : Json) : RepositoryStatus :=
  ⟨"frostyard", "snosi", .enrolled, "snapshot", none, ["read", "write"], policy⟩

/-- The hook's answer for a policy. -/
def sampleAuthority (policy : Json) : Option PolicyAuthority :=
  controlPlanePolicyAuthority (some [sampleStatus policy]) "frostyard/snosi"

theorem controlPlanePolicyAuthority_reads_iff_sample :
    ReadsPolicy (sampleGovernance "deny" [("read", .text "allow")])
        (sampleAuthority (sampleGovernance "deny" [("read", .text "allow")])) ↔
      (governanceValid (sampleGovernance "deny" [("read", .text "allow")]) = true →
        listsOnlyQueueActions (sampleGovernance "deny" [("read", .text "allow")]) = true) ∧
      (governanceRulesValid (sampleGovernance "deny" [("read", .text "allow")]) = false →
        governanceReadable (sampleGovernance "deny" [("read", .text "allow")]) = false) :=
  @controlPlanePolicyAuthority_reads_iff
    [sampleStatus (sampleGovernance "deny" [("read", .text "allow")])] "frostyard/snosi"
    (sampleStatus (sampleGovernance "deny" [("read", .text "allow")])) (by rfl)

/-- A valid policy that decides about approvals is not read at all; one that allows by default is
read as it stands. -/
theorem not_readsPolicy_sample :
    ¬ ReadsPolicy (sampleGovernance "deny" [("read", .text "allow"), ("approve-pr", .text "deny")])
        (sampleAuthority
          (sampleGovernance "deny" [("read", .text "allow"), ("approve-pr", .text "deny")])) ∧
      ¬ ReadsPolicy (sampleGovernance "allow" []) (sampleAuthority (sampleGovernance "allow" [])) := by
  constructor
  · intro hreads
    obtain ⟨authority, hauthority, -⟩ := hreads.valid (by decide +kernel)
    have hnone : (sampleAuthority
        (sampleGovernance "deny" [("read", .text "allow"), ("approve-pr", .text "deny")])).isSome =
          false := by decide +kernel
    rw [hauthority] at hnone
    exact nomatch hnone
  · intro hreads
    have hsome : (sampleAuthority (sampleGovernance "allow" [])).isSome = true := by decide +kernel
    rw [hreads.invalid (by decide +kernel)] at hsome
    exact nomatch hsome

end Snowcat
