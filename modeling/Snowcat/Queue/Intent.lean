import Snowcat.Queue.Audit

/-!
# An intent and the contract it stands for

A worker may name the follow-up it proposes by an intent instead of writing
its contract out. `derivedContract` then writes the contract, and `complete`
checks it as it checks any other. The two were written apart, and they agree
in both directions.

What is derived is accepted (`Honors.accepted`): it keeps within the parent's
ceiling, a change may write and publish and says so, and where the parent
delegates `create-followup` a change has the action and something to
delegate. What is refused for lack of authority could not have been written
out either (`GrantedBy.of_checkFollowUp`): an accepted contract with the
intent's target and its actions shows that the parent grants the intent.
-/

namespace Snowcat

variable {delegable : List AllowedAction} {cure : Option PullRequestCure} {intent : FollowUpIntent}
  {derived : DerivedContract} {parent : WorkItem} {worker : String}
  {proposal : FollowUpProposalInput} {child : FollowUpInput}

/-! ## The authority of an intent -/

/-- The actions an intent's child has, whatever else its parent delegates. -/
def FollowUpIntent.requiredActions (intent : FollowUpIntent) : List AllowedAction :=
  if intent.placement.change = true then [.read, .write, .openPr] else [.read]

/-- **The authority an intent needs of a parent**: its actions are delegated,
and a change of an existing pull request has one to be bound to. -/
structure FollowUpIntent.GrantedBy (intent : FollowUpIntent) (delegable : List AllowedAction)
    (cure : Option PullRequestCure) : Prop where
  delegated : intent.requiredActions ⊆ delegable
  bound : intent = .existingPrChange → cure ≠ none

theorem unavailable_eq_nil :
    intent.requiredActions.filter (fun action => action ∉ delegable) = [] ↔
      intent.requiredActions ⊆ delegable := by
  simp only [List.filter_eq_nil_iff, decide_eq_true_eq, not_not]
  rfl

/-- A contract is derived from a parent that grants the intent. -/
theorem FollowUpIntent.GrantedBy.of_derivedContract
    (h : derivedContract delegable cure intent = .ok derived) :
    intent.GrantedBy delegable cure := by
  simp only [derivedContract, except_bind_eq_ok, refuseIf_eq_ok, not_not] at h
  obtain ⟨_, havailable, _, hcure, -⟩ := h
  exact ⟨unavailable_eq_nil.mp havailable, fun hintent hnone => hcure ⟨hintent, hnone⟩⟩

/-- A parent that grants the intent has a contract derived from it. -/
theorem FollowUpIntent.GrantedBy.derivedContract_eq_ok (h : intent.GrantedBy delegable cure) :
    ∃ derived, derivedContract delegable cure intent = .ok derived := by
  have havailable := unavailable_eq_nil.mpr h.delegated
  have hbound : ¬ (intent = .existingPrChange ∧ cure = none) := fun hc => h.bound hc.1 hc.2
  unfold derivedContract
  exact ⟨_, except_bind_eq_ok.mpr ⟨(), refuseIf_eq_ok.mpr (not_not.mpr havailable),
    except_bind_eq_ok.mpr ⟨(), refuseIf_eq_ok.mpr hbound, rfl⟩⟩⟩

/-! ## What is derived -/

/-- **A derived contract honors its intent and its parent's ceiling.** -/
structure DerivedContract.Honors (derived : DerivedContract) (intent : FollowUpIntent)
    (delegable : List AllowedAction) : Prop where
  kind : derived.kind = intent.placement.kind
  artifact : derived.requiredArtifact = intent.placement.requiredArtifact
  target : derived.executionTarget = intent.placement.executionTarget
  allowed : derived.allowedActions ⊆ delegable
  delegates : derived.delegableActions ⊆ delegable
  writes : .write ∈ derived.allowedActions ↔ intent.placement.change = true
  publishes : .openPr ∈ derived.allowedActions ↔ intent.placement.change = true
  proposes : .createFollowup ∈ delegable →
    .createFollowup ∈ derived.allowedActions ∧ .createFollowup ∈ derived.delegableActions

theorem mem_allowedActions (action : AllowedAction) : action ∈ allowedActions := by
  cases action <;> decide

theorem DerivedContract.honors (h : derivedContract delegable cure intent = .ok derived) :
    derived.Honors intent delegable := by
  have hgranted := (FollowUpIntent.GrantedBy.of_derivedContract h).delegated
  simp only [derivedContract, except_bind_eq_ok, refuseIf_eq_ok, except_pure_eq_ok] at h
  obtain ⟨_, -, _, -, rfl⟩ := h
  change _ ⊆ delegable at hgranted
  unfold FollowUpIntent.requiredActions at hgranted
  constructor
  · rfl
  · rfl
  · rfl
  · intro action haction
    have hdirect := (List.mem_filter.mp haction).2
    rw [List.contains_iff_mem, List.mem_append] at hdirect
    rcases hdirect with hrequired | hoptional
    · exact hgranted hrequired
    · have hkept := (List.mem_filter.mp hoptional).2
      rw [Bool.and_eq_true, List.contains_iff_mem] at hkept
      exact hkept.2
  · intro action haction
    have hkept := (List.mem_ite_nil_right.mp haction).2
    exact List.contains_iff_mem.mp (List.mem_filter.mp hkept).2
  · cases intent <;> simp [FollowUpIntent.placement, mem_allowedActions]
  · cases intent <;> simp [FollowUpIntent.placement, mem_allowedActions]
  · intro hfollowUp
    cases intent <;> simp [FollowUpIntent.placement, mem_allowedActions, hfollowUp]

/-! ## What the checks accept -/

/-- A contract that mutates nothing has no problem. -/
theorem contractProblem_readOnly {item : ContractItem} (hwrite : .write ∉ item.allowedActions)
    (hpublish : .openPr ∉ item.allowedActions) (hartifact : item.requiredArtifact = .none)
    (htarget : item.executionTarget = some .readOnly) (hkind : item.kind ≠ some cureChangeKind) :
    contractProblem item = none := by
  simp [contractProblem, hwrite, hpublish, hartifact, htarget, hkind]

/-- **A change that may write and publish, says so, and can propose has no
problem.** -/
theorem contractProblem_change {item : ContractItem} (hwrite : .write ∈ item.allowedActions)
    (hpublish : .openPr ∈ item.allowedActions) (hartifact : item.requiredArtifact = .pullRequest)
    (htarget : item.executionTarget ≠ some .readOnly)
    (hdiscovery : ∀ kind ∈ item.kind, endsWith kind "-discovery" = false)
    (hcure : item.kind = some cureChangeKind → item.executionTarget = some .existingPullRequest)
    (hproposes : ∀ ceiling ∈ item.parentDelegableActions, .createFollowup ∈ ceiling →
      .createFollowup ∈ item.allowedActions ∧ item.delegableActions ≠ some [])
    (hbound : item.executionTarget = some .existingPullRequest →
      hasPullRequestBinding item.sourceRef item.cure item.review = true) :
    contractProblem item = none := by
  simp only [contractProblem, ite_some_eq_none]
  refine ⟨?_, fun hc => hc.2 hpublish, fun hc => hc.2 hpublish, fun hc => hc.2.2 hartifact, ?_,
    fun hc => htarget hc.1, fun hc => htarget hc.1, ?_, fun hc => hc.2 hartifact, ?_, ?_, trivial⟩
  · rintro ⟨⟨kind, hkind, hends⟩, -⟩
    rw [hdiscovery kind hkind] at hends
    cases hends
  · rintro ⟨-, ⟨ceiling, hceiling, hfollowUp⟩, hcannot⟩
    obtain ⟨hmay, hdelegates⟩ := hproposes ceiling hceiling hfollowUp
    exact hcannot.elim (fun hnot => hnot hmay) hdelegates
  · rintro ⟨-, hcannot⟩
    exact hcannot.elim (fun hnot => hnot hwrite) fun hnot => hnot hpublish
  · rintro ⟨hkind, target, htarget', hother⟩
    rw [hcure hkind] at htarget'
    exact hother (Option.some.inj htarget').symm
  · rintro ⟨hexisting, hunbound⟩
    rw [hbound hexisting] at hunbound
    cases hunbound

theorem assertSubset_eq_ok {values ceiling : List AllowedAction} {field : String}
    (h : values ⊆ ceiling) : assertSubset values ceiling field = .ok () := by
  simp only [assertSubset, refuseIf_eq_ok, ne_eq, not_not, List.filter_eq_nil_iff,
    decide_eq_true_eq]
  exact fun value hvalue => h hvalue

/-- **What `complete` checks of a follow-up** once its contract is explicit. -/
structure FollowUpInput.AcceptedUnder (followUp : FollowUpInput) (parent : WorkItem)
    (worker : String) : Prop where
  deliverable : contractProblem (followUpContract parent followUp) = none
  defined : validateWorkDefinition (followUp.definition worker)
    { cure := inheritedCureBinding parent followUp } = .ok ()
  allowed : assertSubset followUp.allowedActions parent.delegableActions
    "follow-up allowedActions" = .ok ()
  delegable : assertSubset followUp.delegableActions parent.delegableActions
    "follow-up delegableActions" = .ok ()

/-- The text fields of a proposal a definition may have. -/
structure FollowUpProposalInput.TextsValid (proposal : FollowUpProposalInput) : Prop where
  objective : isBlank proposal.objective = false
  instructions : isBlank proposal.instructions = false
  criteria : proposal.acceptanceCriteria ≠ []
  criterion : ∀ criterion ∈ proposal.acceptanceCriteria, isBlank criterion = false

/-- A kind that a child's intent does not fix: a work kind, and neither a
discovery's nor a cure change's. -/
structure IsChildKind (kind : String) : Prop where
  valid : Patterns.workKind.test kind = true
  notDiscovery : endsWith kind "-discovery" = false
  notCure : kind ≠ cureChangeKind

/-- The kind of an intent's child: the intent's own, or a child kind. -/
def FollowUpIntent.TakesKind (intent : FollowUpIntent) (kind : String) : Prop :=
  match intent.placement.kind with
  | some own => kind = own
  | none => IsChildKind kind

/-- The explicit contract of a proposal, from the one its intent derives. -/
def DerivedContract.followUp (derived : DerivedContract) (proposal : FollowUpProposalInput)
    (kind : String) : FollowUpInput where
  kind
  objective := proposal.objective
  instructions := proposal.instructions
  acceptanceCriteria := proposal.acceptanceCriteria
  allowedActions := derived.allowedActions
  delegableActions := derived.delegableActions
  requiredArtifact := derived.requiredArtifact
  executionTarget := derived.executionTarget

/-- **What an intent is normalized to.** -/
theorem normalizeFollowUpIntent_spec (hintent : proposal.intent = some intent)
    (h : normalizeFollowUpIntent delegable cure proposal = .ok child) :
    ∃ derived kind, derivedContract delegable cure intent = .ok derived ∧
      intentKind intent derived.kind proposal.kind = .ok kind ∧
      child = derived.followUp proposal kind := by
  simp only [normalizeFollowUpIntent, hintent, except_bind_eq_ok, except_pure_eq_ok] at h
  obtain ⟨derived, hderived, kind, hkind, _, -, _, -, _, -, _, -, _, -, rfl⟩ := h
  exact ⟨derived, kind, hderived, hkind, rfl⟩

theorem FollowUpIntent.takesKind_of_intentKind {kind : String}
    (hsupplied : intent.placement.kind = none → ∀ kind ∈ proposal.kind, IsChildKind kind)
    (h : intentKind intent intent.placement.kind proposal.kind = .ok kind) :
    intent.TakesKind kind := by
  unfold FollowUpIntent.TakesKind
  unfold intentKind at h
  split at h
  · next hown =>
    rw [hown]
    exact (Except.ok.inj h).symm
  · next hown hsame =>
    rw [hown]
    exact hsupplied hown kind (hsame.trans (congrArg some (Except.ok.inj h)))
  · exact nomatch h

/-- A derived contract has no problem under the parent it was derived from. -/
theorem DerivedContract.Honors.deliverable {kind : String}
    (h : derived.Honors intent parent.delegableActions)
    (hgranted : intent.GrantedBy parent.delegableActions parent.cure)
    (hkind : intent.TakesKind kind) :
    contractProblem (followUpContract parent (derived.followUp proposal kind)) = none := by
  have htarget : (followUpContract parent (derived.followUp proposal kind)).executionTarget =
      some intent.placement.executionTarget := congrArg some h.target
  have hproposes : ∀ ceiling ∈ some parent.delegableActions, .createFollowup ∈ ceiling →
      .createFollowup ∈ derived.allowedActions ∧
        some derived.delegableActions ≠ some [] := fun ceiling hceiling hfollowUp => by
    obtain ⟨hmay, hdelegates⟩ := h.proposes (Option.some.inj hceiling ▸ hfollowUp)
    exact ⟨hmay, fun hnil => List.ne_nil_of_mem hdelegates (Option.some.inj hnil)⟩
  cases intent with
  | readOnly =>
    exact contractProblem_readOnly (mt h.writes.mp nofun) (mt h.publishes.mp nofun) h.artifact
      htarget fun hc => hkind.notCure (Option.some.inj hc)
  | newPrChange =>
    refine contractProblem_change (h.writes.mpr rfl) (h.publishes.mpr rfl) h.artifact
      (htarget ▸ nofun) (fun k hk => ?_) (fun hc => absurd (Option.some.inj hc) hkind.notCure)
      hproposes fun hexisting => nomatch htarget.symm.trans hexisting
    exact Option.some.inj hk ▸ hkind.notDiscovery
  | existingPrChange =>
    obtain rfl : kind = cureChangeKind := hkind
    refine contractProblem_change (h.writes.mpr rfl) (h.publishes.mpr rfl) h.artifact
      (htarget ▸ nofun) (fun k hk => ?_) (fun _ => htarget) hproposes fun _ => ?_
    · have hends : endsWith cureChangeKind "-discovery" = false := by decide
      exact Option.some.inj hk ▸ hends
    · obtain ⟨record, hrecord⟩ := Option.ne_none_iff_exists'.mp (hgranted.bound rfl)
      show hasPullRequestBinding none (inheritedCureBinding parent _) none = true
      rw [inheritedCureBinding, if_neg (by simp [DerivedContract.followUp, h.target,
        FollowUpIntent.placement]), hrecord]
      rfl

/-- The contract of a follow-up as a definition asks for no more than the one
its parent's ceiling is part of. -/
theorem definitionContract_le_followUpContract (parent : WorkItem) (worker : String)
    (followUp : FollowUpInput) :
    (definitionContract (followUp.definition worker)
      { cure := inheritedCureBinding parent followUp }).Le (followUpContract parent followUp) :=
  ⟨rfl, rfl, rfl, rfl, nofun, id, Or.inl rfl⟩

/-- **What an intent derives is accepted.** -/
theorem DerivedContract.Honors.accepted {kind : String}
    (h : derived.Honors intent parent.delegableActions)
    (hgranted : intent.GrantedBy parent.delegableActions parent.cure)
    (hkind : intent.TakesKind kind) (htexts : proposal.TextsValid)
    (hworker : isBlank worker = false) :
    (derived.followUp proposal kind).AcceptedUnder parent worker where
  deliverable := h.deliverable hgranted hkind
  defined := by
    have hvalid : Patterns.workKind.test kind = true := by
      cases intent with
      | readOnly => exact hkind.valid
      | newPrChange => exact hkind.valid
      | existingPrChange =>
        obtain rfl : kind = cureChangeKind := hkind
        decide +kernel
    refine validateWorkDefinition_eq_ok hvalid nofun htexts.objective htexts.instructions
      htexts.criteria htexts.criterion hworker (assertDeliverable_eq_ok nofun ?_)
    exact contractProblem_eq_none_of_le (definitionContract_le_followUpContract parent worker _)
      (h.deliverable hgranted hkind)
  allowed := assertSubset_eq_ok h.allowed
  delegable := assertSubset_eq_ok h.delegates

/-! ## What is refused for lack of authority -/

/-- An explicit contract is normalized to itself. -/
theorem normalizeLegacyFollowUp_spec (h : normalizeLegacyFollowUp proposal = .ok child) :
    proposal.allowedActions = some child.allowedActions ∧
      proposal.executionTarget = some child.executionTarget := by
  unfold normalizeLegacyFollowUp at h
  split at h
  · next hallowed _ _ htarget =>
    obtain rfl := Except.ok.inj h
    exact ⟨hallowed, htarget⟩
  · exact nomatch h

/-- An existing pull request a child may change is its parent's. -/
theorem cure_of_existingPullRequest (h : contractProblem (followUpContract parent child) = none)
    (htarget : child.executionTarget = .existingPullRequest) : parent.cure ≠ none := by
  intro hcure
  have hbinding : inheritedCureBinding parent child = none := by
    unfold inheritedCureBinding
    rw [hcure]
    exact ite_self none
  simp only [contractProblem, ite_some_eq_none] at h
  obtain ⟨-, -, -, -, -, -, -, -, -, -, hbound, -⟩ := h
  refine hbound ⟨congrArg some htarget, ?_⟩
  show hasPullRequestBinding none (inheritedCureBinding parent child) none = false
  rw [hbinding]
  rfl

/-- **A parent under which an explicit contract with an intent's target and
actions is accepted grants the intent.** -/
theorem FollowUpIntent.GrantedBy.of_checkFollowUp
    (h : checkFollowUp parent worker proposal = .ok child) (hexplicit : proposal.intent = none)
    (htarget : proposal.executionTarget = some intent.placement.executionTarget)
    (hactions : ∃ actions ∈ proposal.allowedActions, intent.requiredActions ⊆ actions) :
    intent.GrantedBy parent.delegableActions parent.cure := by
  have hproblem := (deliverable_of_checkFollowUp h).1
  simp only [checkFollowUp, normalizeFollowUpIntent, hexplicit, except_bind_eq_ok,
    except_pure_eq_ok] at h
  obtain ⟨_, -, normalized, hnormalized, _, -, _, -, _, hallowed, _, -, rfl⟩ := h
  obtain ⟨hsame, hplaced⟩ := normalizeLegacyFollowUp_spec hnormalized
  obtain ⟨actions, hdeclared, hrequired⟩ := hactions
  rw [hsame] at hdeclared
  obtain rfl := Option.some.inj hdeclared
  refine ⟨fun action haction => subset_of_assertSubset hallowed (hrequired haction), ?_⟩
  rintro rfl
  exact cure_of_existingPullRequest hproblem (Option.some.inj (hplaced.symm.trans htarget))

/-! ## The two together -/

/-- **An intent yields an acceptable child or none could be had.** -/
theorem normalizeFollowUpIntent_acceptable (parent : WorkItem) (worker : String)
    (proposal : FollowUpProposalInput) (intent : FollowUpIntent)
    (hworker : isBlank worker = false) (hintent : proposal.intent = some intent)
    (htexts : proposal.TextsValid)
    (hkind : intent.placement.kind = none → ∀ kind ∈ proposal.kind, IsChildKind kind) :
    (∀ followUp, normalizeFollowUpIntent parent.delegableActions parent.cure proposal =
        .ok followUp →
      followUp.AcceptedUnder parent worker ∧
        (assertProposalFields proposal = .ok () →
          checkFollowUp parent worker proposal = .ok followUp)) ∧
      ∀ e, derivedContract parent.delegableActions parent.cure intent = .error e →
        normalizeFollowUpIntent parent.delegableActions parent.cure proposal = .error e ∧
          ∀ (worker : String) (explicit : FollowUpProposalInput) (followUp : FollowUpInput),
            explicit.intent = none →
            explicit.executionTarget = some intent.placement.executionTarget →
            (∃ actions ∈ explicit.allowedActions, intent.requiredActions ⊆ actions) →
            checkFollowUp parent worker explicit ≠ .ok followUp := by
  constructor
  · intro followUp hnormalized
    obtain ⟨derived, kind, hderived, htaken, rfl⟩ :=
      normalizeFollowUpIntent_spec hintent hnormalized
    have hhonors := DerivedContract.honors hderived
    rw [hhonors.kind] at htaken
    have haccepted := hhonors.accepted (.of_derivedContract hderived)
      (FollowUpIntent.takesKind_of_intentKind hkind htaken) htexts hworker
    refine ⟨haccepted, fun hfields => ?_⟩
    simp only [checkFollowUp, except_bind_eq_ok, refuseSome_eq_ok]
    refine ⟨(), hfields, _, hnormalized, (), fun problem hproblem => ?_, (), haccepted.defined, (),
      haccepted.allowed, (), haccepted.delegable, rfl⟩
    rw [haccepted.deliverable] at hproblem
    cases hproblem
  · intro e hrefused
    refine ⟨?_, fun worker explicit followUp hexplicit htarget hactions haccepted => ?_⟩
    · simp only [normalizeFollowUpIntent, hintent, hrefused]
      rfl
    · have hgranted := FollowUpIntent.GrantedBy.of_checkFollowUp haccepted hexplicit htarget hactions
      obtain ⟨derived, hderived⟩ := hgranted.derivedContract_eq_ok
      rw [hderived] at hrefused
      cases hrefused

/-- A proposal of a change by its intent. -/
def sampleIntent (intent : FollowUpIntent) : FollowUpProposalInput where
  intent := some intent
  kind := some "fix"
  objective := "Fix it"
  instructions := "Fix it"
  acceptanceCriteria := ["It is fixed"]

/-- A parent without a pull request of its own, which delegates a change. -/
def sampleParent : WorkItem :=
  ((RootWork.withId
    { definition := { WorkDefinition.sample with
        delegableActions := [.read, .write, .openPr, .createFollowup] }
      repository := "a/b"
      admitted := true } "root" 0).row none)

theorem sampleIntent_textsValid (intent : FollowUpIntent) : (sampleIntent intent).TextsValid where
  objective := (by decide : isBlank "Fix it" = false)
  instructions := (by decide : isBlank "Fix it" = false)
  criteria := List.cons_ne_nil _ _
  criterion := fun _ hcriterion =>
    List.mem_singleton.mp hcriterion ▸ (by decide : isBlank "It is fixed" = false)

theorem isChildKind_fix : IsChildKind "fix" := ⟨by decide, by decide, by decide⟩

theorem normalizeFollowUpIntent_acceptable_sample :
    (∃ followUp, checkFollowUp sampleParent "worker:a" (sampleIntent .newPrChange) =
        .ok followUp) ∧
      ∀ followUp, checkFollowUp sampleParent "worker:a"
        { sampleIntent .existingPrChange with
          intent := none
          allowedActions := some [.read, .write, .openPr]
          delegableActions := some []
          requiredArtifact := some .pullRequest
          executionTarget := some .existingPullRequest } ≠ .ok followUp := by
  have hkind : ∀ kind ∈ some "fix", IsChildKind kind := fun kind hkind =>
    Option.some.inj hkind ▸ isChildKind_fix
  constructor
  · obtain ⟨haccepted, -⟩ := normalizeFollowUpIntent_acceptable sampleParent "worker:a"
      (sampleIntent .newPrChange) .newPrChange (by decide) rfl (sampleIntent_textsValid _)
      fun _ => hkind
    exact ⟨_, (haccepted _ rfl).2 (by decide)⟩
  · obtain ⟨-, hrefused⟩ := normalizeFollowUpIntent_acceptable sampleParent "worker:a"
      (sampleIntent .existingPrChange) .existingPrChange (by decide) rfl
      (sampleIntent_textsValid _) nofun
    exact fun followUp => (hrefused _ rfl).2 _ _ followUp rfl rfl
      ⟨_, rfl, List.Subset.refl _⟩

end Snowcat
