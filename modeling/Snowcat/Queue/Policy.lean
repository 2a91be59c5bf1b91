import Snowcat.Queue.Contract

/-!
# Policy evidence

Every definition path binds the item it creates to the policy authority
that is current for its repository, and admission binds it again. What the
binding checks is `PolicyAuthority.Permits`; what it leaves is a
`PolicyRecord` naming the acts the policy wants reviewed and, for admitted
work, the authorization that satisfied them.

The registry of standing authorizations is a plain object of the source,
read with a computed property name. Such a read also answers the names
every object inherits, with a value that has none of the three fields of an
entry; `StandingLookup` keeps that case apart.
-/

namespace Snowcat

/-! ## Standing authorizations -/

/-- **An entry of the registry**: the decision record that pre-authorizes
one mechanical admission path, and the actions it may cover. -/
structure StandingAuthorization where
  id : String
  adr : String
  actions : List AllowedAction
  deriving DecidableEq, Repr

/-- `STANDING_AUTHORIZATIONS`. -/
def standingAuthorizations : List (String × StandingAuthorization) :=
  [("pr-cure", ⟨"pr-cure:v1", "ADR-0061", [.read, .write, .runTests, .openPr, .createFollowup]⟩),
    ("pr-review", ⟨"pr-review:v1", "ADR-0065", [.read, .runTests]⟩),
    ("pr-review-fix", ⟨"pr-review-fix:v1", "ADR-0065", [.read, .write, .runTests, .openPr]⟩)]

/-- The property names an object literal inherits from `Object.prototype`. -/
def inheritedProperties : List String :=
  ["constructor", "__defineGetter__", "__defineSetter__", "hasOwnProperty", "__lookupGetter__",
    "__lookupSetter__", "isPrototypeOf", "propertyIsEnumerable", "toString", "valueOf",
    "__proto__", "toLocaleString"]

/-- What a property read of the registry answers. -/
inductive StandingLookup where
  /-- One of the registry's own entries. -/
  | entry (authorization : StandingAuthorization)
  /-- An inherited value: its `id`, `adr` and `actions` are undefined. -/
  | inherited
  deriving DecidableEq, Repr

namespace StandingLookup

/-- `standing.id`. -/
def id? : StandingLookup → Option String
  | .entry a => some a.id
  | .inherited => none

/-- `standing.adr`. -/
def adr? : StandingLookup → Option String
  | .entry a => some a.adr
  | .inherited => none

/-- `allowedActions.filter((action) => !standing.actions.includes(action))`. The
callback of a filter over no actions is never called. -/
def outside (standing : StandingLookup) (allowed : List AllowedAction) :
    Except QueueError (List AllowedAction) :=
  match standing, allowed with
  | .entry a, allowed => .ok (allowed.filter (fun action => action ∉ a.actions))
  | .inherited, [] => .ok []
  | .inherited, _ :: _ =>
    .error (.error "Cannot read properties of undefined (reading 'includes')")

end StandingLookup

/-- `standingAuthorizationFor`. -/
def standingAuthorizationFor (kind : String) : Option StandingLookup :=
  match standingAuthorizations.find? (fun e => e.1 = kind) with
  | some e => some (.entry e.2)
  | none => if kind ∈ inheritedProperties then some .inherited else none

/-- **A standing authorization covers** a kind and its actions: the registry
has an entry for the kind, and the actions are within it. -/
def StandingCovers (kind : String) (allowed : List AllowedAction) : Prop :=
  ∃ a, (kind, a) ∈ standingAuthorizations ∧ allowed ⊆ a.actions

/-- **What the registry lets through**: the kinds and actions an entry
covers, and the inherited names as long as there is nothing to cover. -/
theorem standing_outside_eq_nil {kind : String} {allowed : List AllowedAction}
    {standing : StandingLookup} (hstanding : standingAuthorizationFor kind = some standing)
    (h : standing.outside allowed = .ok []) :
    StandingCovers kind allowed ∨ (kind ∈ inheritedProperties ∧ allowed = []) := by
  unfold standingAuthorizationFor at hstanding
  split at hstanding
  · next e he =>
    cases hstanding
    have hkind : e.1 = kind := by simpa using List.find?_some he
    refine Or.inl ⟨e.2, hkind ▸ List.mem_of_find?_eq_some he, ?_⟩
    have hnil : allowed.filter (fun action => action ∉ e.2.actions) = [] := Except.ok.inj h
    intro a ha
    simpa using List.filter_eq_nil_iff.mp hnil a ha
  · split at hstanding
    · next hkind =>
      cases hstanding
      refine Or.inr ⟨hkind, ?_⟩
      cases allowed with
      | nil => rfl
      | cons a as => exact absurd h (by simp [StandingLookup.outside])
    · exact absurd hstanding (by simp)

/-! ## Binding -/

/-- What `bindPolicy` is given. -/
structure PolicySubject where
  repository : String
  kind : String
  allowedActions : List AllowedAction
  delegableActions : List AllowedAction
  createdBy : String
  admitted : Bool

namespace PolicyAuthority

/-- The review-required actions among the allowed ones, each once and
sorted. -/
def reviewRequired (authority : PolicyAuthority) (allowed : List AllowedAction) :
    List AllowedAction :=
  (allowed.eraseDups.filter (fun action => authority.decision action = .reviewRequired)).mergeSort
    (fun a b => jsLe a.text b.text)

/-- **The authority permits** an item: each of its allowed and delegable
actions is inside the ceiling, and none is denied. -/
structure Permits (authority : PolicyAuthority) (allowed delegable : List AllowedAction) :
    Prop where
  ceiling : ∀ a ∈ allowed ++ delegable, a ∈ authority.actionCeiling
  granted : ∀ a ∈ allowed ++ delegable, authority.decision a ≠ .deny

theorem mem_reviewRequired {authority : PolicyAuthority} {allowed : List AllowedAction}
    {a : AllowedAction} :
    a ∈ authority.reviewRequired allowed ↔
      a ∈ allowed ∧ authority.decision a = .reviewRequired := by
  rw [reviewRequired, List.mem_mergeSort, List.mem_filter, List.mem_eraseDups]
  simp

end PolicyAuthority

/-- The checks of `bindPolicy`, action by action. -/
def assertPermits (authority : PolicyAuthority) (subject : PolicySubject) :
    Except QueueError Unit :=
  refuseEach (fun action => do
    refuseIf (action ∉ authority.actionCeiling)
      (.error s!"action {action.text} exceeds {subject.repository}'s Core action ceiling (ADR-0074)")
    refuseIf (authority.decision action = .deny)
      (.error s!"action {action.text} is denied by {subject.repository}'s governance policy (ADR-0074)"))
    (subject.allowedActions ++ subject.delegableActions).eraseDups

theorem permits_of_assertPermits {authority : PolicyAuthority} {subject : PolicySubject} {u : Unit}
    (h : assertPermits authority subject = .ok u) :
    authority.Permits subject.allowedActions subject.delegableActions := by
  simp only [assertPermits, refuseEach_eq_ok, except_bind_eq_ok, refuseIf_eq_ok,
    List.mem_eraseDups, not_not] at h
  exact ⟨fun a ha => (h a ha).choose_spec.1, fun a ha => (h a ha).choose_spec.2⟩

section Binding

variable (env : Env)

/-- `admissionAuthorization`. -/
def admissionAuthorization (subject : PolicySubject) (reviewRequired : List AllowedAction) :
    QueueTx PolicyAuthorization := do
  let atTime ← now env
  let creator := toLowerCase subject.createdBy
  if startsWith creator "operator:" = true ∨ startsWith creator "member:" = true then
    pure ⟨.operator, some subject.createdBy, none, none, reviewRequired, atTime⟩
  else do
    let standing ← Tx.ofOption (standingAuthorizationFor subject.kind)
      (.error s!"no standing authorization covers mechanically admitted kind {subject.kind}; it must be proposed for a human to admit (ADR-0074)")
    let outside ← Tx.ofExcept (standing.outside subject.allowedActions)
    let id := standing.id?.getD "undefined"
    let names := joinWith ", " (outside.map AllowedAction.text)
    Tx.failIf (outside ≠ [])
      (.error s!"standing authorization {id} does not cover action(s) {names} for kind {subject.kind} (ADR-0074)")
    pure ⟨.standing, none, standing.id?, standing.adr?, reviewRequired, atTime⟩

/-- **`bindPolicy`**. -/
def bindPolicy (subject : PolicySubject) : QueueTx (Option PolicyRecord) :=
  match env.policyAuthority with
  | none => pure none
  | some hook => do
    let answer ← ask (fun tick => hook tick subject.repository)
    let authority ← Tx.ofOption answer
      (.error s!"the control plane has no policy authority for {subject.repository}; work cannot be defined against it (ADR-0074)")
    Tx.ofExcept (assertPermits authority subject)
    let reviewRequired := authority.reviewRequired subject.allowedActions
    let record : PolicyRecord :=
      ⟨authority.coreSnapshotId, authority.repositoryCommitId, reviewRequired, none⟩
    if subject.admitted = true then do
      let authorization ← admissionAuthorization env subject reviewRequired
      pure (some { record with authorization := some authorization })
    else pure (some record)

end Binding

/-! ### What binding guarantees -/

/-- Whether a creator's own word admits its work. -/
def isAdmittingCreator (createdBy : String) : Bool :=
  startsWith (toLowerCase createdBy) "operator:" || startsWith (toLowerCase createdBy) "member:"

/-- **The defect of the registry, as a predicate on a definition**: an
inherited property name as the kind, nothing allowed, and a creator whose
own word admits nothing. -/
def SlipsThroughRegistry (kind createdBy : String) (allowed : List AllowedAction) : Prop :=
  kind ∈ inheritedProperties ∧ allowed = [] ∧ isAdmittingCreator createdBy = false

instance (kind createdBy : String) (allowed : List AllowedAction) :
    Decidable (SlipsThroughRegistry kind createdBy allowed) :=
  inferInstanceAs (Decidable (_ ∧ _ ∧ _))

/-- **A record binds** an item's actions to what the hook answered at one
tick: the authority permits them, and the record's review-required acts are
the authority's. -/
def PolicyBound (hook : ℕ → String → Option PolicyAuthority) (tick : ℕ) (repository : String)
    (allowed delegable : List AllowedAction) (record : PolicyRecord) : Prop :=
  ∃ authority, hook tick repository = some authority ∧ authority.Permits allowed delegable ∧
    record.reviewRequired = authority.reviewRequired allowed

/-- The review-required acts of a bound record are allowed actions. -/
theorem PolicyBound.subset {hook : ℕ → String → Option PolicyAuthority} {tick : ℕ}
    {repository : String} {allowed delegable : List AllowedAction} {record : PolicyRecord}
    (h : PolicyBound hook tick repository allowed delegable record) :
    record.reviewRequired ⊆ allowed := by
  obtain ⟨authority, -, -, hreview⟩ := h
  intro a ha
  rw [hreview] at ha
  exact (PolicyAuthority.mem_reviewRequired.mp ha).1

/-- **What an admission's authorization says**: it covers the
review-required acts, it is dated, and it is a standing one only where the
registry lets the item through. -/
theorem admissionAuthorization_spec {env : Env} {subject : PolicySubject}
    {reviewRequired : List AllowedAction} {w w' : World} {authorization : PolicyAuthorization}
    (h : (admissionAuthorization env subject reviewRequired).Returns w authorization w') :
    w' = ⟨w.db, w.ticks + 1⟩ ∧ authorization.coveredActions = reviewRequired ∧
      authorization.atTime = env.clock w.ticks ∧
      (authorization.kind = .standing →
        StandingCovers subject.kind subject.allowedActions ∨
          SlipsThroughRegistry subject.kind subject.createdBy subject.allowedActions) := by
  simp only [admissionAuthorization, Tx.returns_bind, returns_now] at h
  obtain ⟨_, _, ⟨rfl, rfl⟩, h⟩ := h
  split at h
  · obtain ⟨rfl, rfl⟩ := Tx.returns_pure.mp h
    exact ⟨rfl, rfl, rfl, fun hkind => absurd hkind (by simp)⟩
  · next hcreator =>
    simp only [Tx.returns_bind, Tx.returns_ofOption, Tx.returns_ofExcept, Tx.returns_failIf,
      Tx.returns_pure, ne_eq, not_not] at h
    obtain ⟨standing, _, ⟨hstanding, rfl⟩, _, _, ⟨houtside, rfl⟩, _, _, ⟨rfl, rfl⟩, rfl, rfl⟩ := h
    refine ⟨rfl, rfl, rfl, fun _ => ?_⟩
    rcases standing_outside_eq_nil hstanding houtside with hcovers | ⟨hkind, hallowed⟩
    · exact Or.inl hcovers
    · refine Or.inr ⟨hkind, hallowed, ?_⟩
      simpa [isAdmittingCreator, not_or] using hcreator

/-- **A record satisfies its own review-required acts**, by an authorization
dated in the window. -/
def Authorized (env : Env) (lo hi : ℕ) (record : PolicyRecord) : Prop :=
  ∃ authorization, record.authorization = some authorization ∧
    authorization.coveredActions = record.reviewRequired ∧ Reading env lo hi authorization.atTime

/-- What `bindPolicy` establishes for the subject it was given, by the
answers it took at the ticks from `lo` up to `hi`. -/
structure BindsPolicy (env : Env) (subject : PolicySubject) (lo hi : ℕ)
    (record? : Option PolicyRecord) : Prop where
  /-- Without a hook nothing is bound. -/
  unbound : env.policyAuthority = none → record? = none
  /-- With one, what is recorded binds the subject's actions. -/
  bound : ∀ hook, env.policyAuthority = some hook → ∃ record k, record? = some record ∧
    lo ≤ k ∧ k < hi ∧ PolicyBound hook k subject.repository subject.allowedActions
      subject.delegableActions record
  /-- Admitted work carries its authorization. -/
  authorized : subject.admitted = true → ∀ record ∈ record?, Authorized env lo hi record
  /-- Work that is not admitted carries none. -/
  proposed : subject.admitted = false → ∀ record ∈ record?, record.authorization = none
  /-- A standing authorization is one the registry lets through. -/
  standing : ∀ record ∈ record?, ∀ authorization ∈ record.authorization,
    authorization.kind = .standing →
      StandingCovers subject.kind subject.allowedActions ∨
        SlipsThroughRegistry subject.kind subject.createdBy subject.allowedActions

theorem BindsPolicy.mono {env : Env} {subject : PolicySubject} {lo lo' hi hi' : ℕ}
    {record? : Option PolicyRecord} (h : BindsPolicy env subject lo hi record?)
    (hlo : lo' ≤ lo) (hhi : hi ≤ hi') : BindsPolicy env subject lo' hi' record? where
  unbound := h.unbound
  bound hook hhook :=
    have ⟨record, k, hrecord, hk, hk', hbound⟩ := h.bound hook hhook
    ⟨record, k, hrecord, le_trans hlo hk, lt_of_lt_of_le hk' hhi, hbound⟩
  authorized hadmitted record hrecord :=
    have ⟨a, ha, hcovered, hreading⟩ := h.authorized hadmitted record hrecord
    ⟨a, ha, hcovered, hreading.mono hlo hhi⟩
  proposed := h.proposed
  standing := h.standing

/-- **The specification of `bindPolicy`.** -/
theorem bindPolicy_spec {env : Env} {subject : PolicySubject} {w w' : World}
    {record? : Option PolicyRecord} (h : (bindPolicy env subject).Returns w record? w') :
    w'.db = w.db ∧ w.ticks ≤ w'.ticks ∧ BindsPolicy env subject w.ticks w'.ticks record? := by
  unfold bindPolicy at h
  split at h
  · next hnone =>
    obtain ⟨rfl, rfl⟩ := Tx.returns_pure.mp h
    refine ⟨rfl, le_rfl, fun _ => rfl, ?_, ?_, ?_, ?_⟩ <;> simp [hnone]
  · next hook hhook =>
    simp only [Tx.returns_bind, returns_ask, Tx.returns_ofOption, Tx.returns_ofExcept] at h
    obtain ⟨_, _, ⟨rfl, rfl⟩, authority, _, ⟨hauthority, rfl⟩, _, _, ⟨hpermits, rfl⟩, h⟩ := h
    have hpermits := permits_of_assertPermits hpermits
    split at h
    · next hadmitted =>
      simp only [Tx.returns_bind, Tx.returns_pure] at h
      obtain ⟨authorization, _, hauthorization, rfl, rfl⟩ := h
      obtain ⟨rfl, hcovered, hdated, hstanding⟩ := admissionAuthorization_spec hauthorization
      refine ⟨rfl, Nat.le_add_right _ 2, fun hn => absurd hn (by simp [hhook]),
        fun hook' hhook' => ?_, fun _ record hr => ?_,
        fun hf => absurd hadmitted (by simp [hf]), fun record hr a ha hk => ?_⟩
      · obtain rfl := Option.some.inj (hhook.symm.trans hhook')
        exact ⟨_, w.ticks, rfl, le_rfl, by show w.ticks < w.ticks + 1 + 1; omega,
          authority, hauthority, hpermits, rfl⟩
      · obtain rfl := Option.some.inj hr
        exact ⟨authorization, rfl, hcovered, w.ticks + 1, Nat.le_succ _, Nat.lt_succ_self _, hdated⟩
      · obtain rfl := Option.some.inj hr
        obtain rfl := Option.some.inj ha
        exact hstanding hk
    · next hadmitted =>
      obtain ⟨rfl, rfl⟩ := Tx.returns_pure.mp h
      refine ⟨rfl, Nat.le_add_right _ 1, fun hn => absurd hn (by simp [hhook]),
        fun hook' hhook' => ?_, fun ht => absurd ht hadmitted, fun _ record hr => ?_,
        fun record hr a ha => ?_⟩
      · obtain rfl := Option.some.inj (hhook.symm.trans hhook')
        exact ⟨_, w.ticks, rfl, le_rfl, Nat.lt_succ_self _, authority, hauthority, hpermits, rfl⟩
      · obtain rfl := Option.some.inj hr
        rfl
      · obtain rfl := Option.some.inj hr
        exact absurd ha (by simp)

end Snowcat
