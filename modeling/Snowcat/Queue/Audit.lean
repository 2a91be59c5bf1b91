import Snowcat.Queue.Evidence
import Snowcat.Queue.Lineage
import Snowcat.Queue.Reads
import Snowcat.Queue.Representation

/-!
# Contracts stay deliverable

`contractProblem` is asked three times about an item: when it is defined,
when it is admitted and when the work in flight is audited. Each time it is
handed something else – a definition without its source reference, a
follow-up with its parent's ceiling, a row with or without that ceiling – and
the answer does not depend on which: a binding that is added, or a ceiling
that is dropped, makes no problem (`contractProblem_eq_none_of_le`), and no
write touches the columns it reads before the item is finished.
-/

namespace Snowcat

variable {env : Env} {op : Op} {lo hi : ℕ} {db db' : Db} {item item' : WorkItem}

/-! ## Contracts without a problem -/

theorem ite_some_eq_none {α : Type} {c : Prop} [Decidable c] {a : α} {rest : Option α} :
    (if c then some a else rest) = none ↔ ¬ c ∧ rest = none := by
  split
  · next h => exact iff_of_false nofun fun hc => hc.1 h
  · next h => exact (and_iff_right h).symm

/-- **A contract asks for no more than another**: it has the same actions,
artifact and target, at least the bindings, and the same ceiling or none. -/
structure ContractItem.Le (a b : ContractItem) : Prop where
  allowed : a.allowedActions = b.allowedActions
  artifact : a.requiredArtifact = b.requiredArtifact
  target : a.executionTarget = b.executionTarget
  kind : a.kind = b.kind
  parent : a.parentId.isSome = true → b.parentId.isSome = true
  bound : hasPullRequestBinding b.sourceRef b.cure b.review = true →
    hasPullRequestBinding a.sourceRef a.cure a.review = true
  ceiling : a.parentDelegableActions = none ∨
    (a.parentDelegableActions = b.parentDelegableActions ∧ a.delegableActions = b.delegableActions)

/-- **What asks for less has no problem either.** -/
theorem contractProblem_eq_none_of_le {a b : ContractItem} (hle : a.Le b)
    (h : contractProblem b = none) : contractProblem a = none := by
  simp only [contractProblem, ite_some_eq_none] at h ⊢
  obtain ⟨hdiscovery, hrequired, hwrite, hchild, hpropose, hreadOnly, hreadOnlyRequired, hmutating,
    hdelivers, hcure, hbinding, -⟩ := h
  rw [hle.allowed, hle.artifact, hle.target, hle.kind]
  refine ⟨hdiscovery, hrequired, hwrite, fun hc => hchild ⟨hle.parent hc.1, hc.2⟩, fun hc => ?_,
    hreadOnly, hreadOnlyRequired, hmutating, hdelivers, hcure, fun hc => ?_, trivial⟩
  · obtain ⟨hmay, ⟨ceiling, hceiling, hfollowup⟩, hcannot⟩ := hc
    rcases hle.ceiling with hnone | ⟨hsame, hdelegable⟩
    · rw [hnone] at hceiling
      exact nomatch hceiling
    · rw [hsame] at hceiling
      rw [hdelegable] at hcannot
      exact hpropose ⟨hmay, ⟨ceiling, hceiling, hfollowup⟩, hcannot⟩
  · refine hbinding ⟨hc.1, Bool.eq_false_iff.mpr fun hbound => ?_⟩
    exact Bool.eq_false_iff.mp hc.2 (hle.bound hbound)

/-- A binding of the stored row is one more than the definition had. -/
theorem hasPullRequestBinding_of_none {sourceRef : Option String} {cure : Option PullRequestCure}
    {review : Option PullRequestReview} (h : hasPullRequestBinding none cure review = true) :
    hasPullRequestBinding sourceRef cure review = true := by
  unfold hasPullRequestBinding at h ⊢
  rw [Bool.or_false] at h
  rw [h, Bool.true_or]

/-- The contract of a stored row asks for no more than the one admission
checks. -/
theorem contract_le_admissionContract (item : WorkItem) (db : Db) :
    item.contract.Le (item.admissionContract db) :=
  ⟨rfl, rfl, rfl, rfl, id, id, Or.inl rfl⟩

/-! ## What a definition is checked under -/

/-- The contract `validateWorkDefinition` hands over. -/
def definitionContract (input : WorkDefinition) (bindings : Bindings) : ContractItem where
  allowedActions := input.allowedActions
  requiredArtifact := input.requiredArtifact.getD .none
  executionTarget := input.executionTarget
  sourceRef := bindings.sourceRef
  cure := bindings.cure
  review := bindings.review
  kind := some input.kind

/-- **The contracts an item was checked under when it was defined**: a root's
as its path hands it over, and a follow-up's with its parent's ceiling and
without. -/
inductive CheckedUnder (op : Op) (item : WorkItem) : List ContractItem → Prop
  | root {root : RootWork} (hasked : op.Asks root) {id : String} {createdAt : Time}
      {policy : Option PolicyRecord}
      (hcontract : item.contract = ((root.withId id createdAt).row policy).contract) :
      CheckedUnder op item [definitionContract root.definition root.checkedBindings]
  | followUp {parent : WorkItem} {followUp : FollowUpInput} {input : CompletionInput}
      {proposal : FollowUpProposalInput} {worker id : String} {createdAt : Time}
      {policy : Option PolicyRecord} (hop : op = .complete input) (hparent : input.id = parent.id)
      (hchecked : checkFollowUp parent worker proposal = .ok followUp)
      (hcontract : item.contract =
        ((followUp.withId parent worker id createdAt).row policy).contract) :
      CheckedUnder op item
        [followUpContract parent followUp,
          definitionContract (followUp.definition worker)
            { cure := inheritedCureBinding parent followUp }]

theorem CheckedUnder.of_contract {checks : List ContractItem} (h : CheckedUnder op item checks)
    (hsame : item'.contract = item.contract) : CheckedUnder op item' checks := by
  cases h with
  | root hasked hcontract => exact .root hasked (hsame.trans hcontract)
  | followUp hop hparent hchecked hcontract =>
    exact .followUp hop hparent hchecked (hsame.trans hcontract)

/-- **What a checked follow-up guarantees**: no problem with its parent's
ceiling, and none without. -/
theorem deliverable_of_checkFollowUp {parent : WorkItem} {worker : String}
    {proposal : FollowUpProposalInput} {followUp : FollowUpInput}
    (h : checkFollowUp parent worker proposal = .ok followUp) :
    contractProblem (followUpContract parent followUp) = none ∧
      contractProblem (definitionContract (followUp.definition worker)
        { cure := inheritedCureBinding parent followUp }) = none := by
  simp only [checkFollowUp, except_bind_eq_ok] at h
  obtain ⟨_, -, normalized, -, _, hproblem, _, hvalid, _, -, _, -, hreturned⟩ := h
  obtain rfl := Except.ok.inj hreturned
  refine ⟨?_, (validateWorkDefinition_spec hvalid).2.2⟩
  cases hfound : contractProblem (followUpContract parent normalized) with
  | none => rfl
  | some problem =>
    rw [hfound] at hproblem
    exact nomatch hproblem

/-- A born row was checked, and every check found nothing. -/
theorem Birth.checkedUnder {row : WorkItem} {p : Posting} (h : Birth env op lo hi db row p) :
    ∃ checks, CheckedUnder op row checks ∧ ∀ c ∈ checks, contractProblem c = none := by
  cases h with
  | root guard =>
    refine ⟨_, .root guard.asked rfl, fun c hc => ?_⟩
    rw [List.mem_singleton.mp hc]
    exact (validateWorkDefinition_spec guard.checked).2.2
  | child guard =>
    obtain ⟨proposal, hchecked⟩ := guard.checked
    obtain ⟨input, hop, hid⟩ := guard.completing
    obtain ⟨hceiling, halone⟩ := deliverable_of_checkFollowUp hchecked
    exact ⟨_, .followUp hop hid hchecked rfl, by simp [hceiling, halone]⟩

/-- **A born row is deliverable** as admission will see it. -/
theorem Birth.deliverable {row : WorkItem} {p : Posting} (h : Birth env op lo hi db row p) :
    contractProblem (row.admissionContract db) = none ∧ row.executionTarget ≠ none := by
  cases h with
  | @root root id createdAt t policy payload guard hpayload =>
    obtain ⟨-, htarget, hproblem⟩ := validateWorkDefinition_spec guard.checked
    refine ⟨@contractProblem_eq_none_of_le _
      (definitionContract root.definition root.checkedBindings)
      ⟨rfl, rfl, rfl, rfl, nofun, fun hbound => ?_, Or.inl rfl⟩ hproblem, htarget⟩
    change hasPullRequestBinding (if root.admitted = true then root.sourceRef else none) root.cure
      root.review = true at hbound
    split at hbound
    · exact hbound
    · exact hasPullRequestBinding_of_none hbound
  | @child parent followUp worker id createdAt t policy guard =>
    obtain ⟨proposal, hchecked⟩ := guard.checked
    refine ⟨contractProblem_eq_none_of_le ?_ (deliverable_of_checkFollowUp hchecked).1,
      Option.some_ne_none _⟩
    refine ⟨rfl, rfl, rfl, rfl, fun h => h, fun h => h, Or.inr ⟨?_, rfl⟩⟩
    show (db.items.find? parent.id).map WorkItem.delegableActions = some parent.delegableActions
    rw [guard.stored, Option.map_some]

/-! ## What moves keep -/

/-- **A write keeps the contract of its row**, or finishes it: only a
completion writes the review of its row. -/
theorem RowMove.contract {ps : List Posting} (hm : RowMove env op lo hi item item' ps) :
    item'.contract = item.contract ∨ item'.rowStatus.isTerminal = true := by
  cases hm with
  | complete => exact Or.inr rfl
  | _ => exact Or.inl rfl

theorem contract_renamed (source target : String) (item : WorkItem) :
    (item.renamed source target).contract = item.contract := by
  unfold WorkItem.renamed
  split <;> rfl

/-- **The ceiling over a row is the same after a move.** -/
theorem Lineage.delegableActionsOf_move (h : Lineage db) (hm : Move env op lo hi db db')
    (hitem : item ∈ db.items.rows) :
    delegableActionsOf db' item.parentId = delegableActionsOf db item.parentId := by
  cases hparent : item.parentId with
  | none => rfl
  | some p =>
    obtain ⟨parent, hfind, -⟩ := h.parent item hitem p hparent
    obtain ⟨parent', ρ, hfind', hplace, -⟩ := hm.samePlace hfind
    show (db'.items.find? p).map _ = (db.items.find? p).map _
    rw [hfind, hfind', Option.map_some, Option.map_some, hplace.delegable]

/-- **Every item in flight is deliverable**: its contract has no problem
under its parent's ceiling, and it says where it executes. -/
def Deliverable (db : Db) : Prop :=
  ∀ item ∈ db.items.rows, item.rowStatus.isTerminal = false →
    contractProblem (item.admissionContract db) = none ∧ item.executionTarget ≠ none

/-- A row whose contract and ceiling were kept is as deliverable as before. -/
theorem Deliverable.of_contract (h : Deliverable db) (hitem : item ∈ db.items.rows)
    (hactive : item.rowStatus.isTerminal = false) (hcontract : item'.contract = item.contract)
    (hceiling : delegableActionsOf db' item.parentId = delegableActionsOf db item.parentId) :
    contractProblem (item'.admissionContract db') = none ∧ item'.executionTarget ≠ none := by
  have hparent : item'.parentId = item.parentId := congrArg ContractItem.parentId hcontract
  have hsame : item'.admissionContract db' = item.admissionContract db := by
    unfold WorkItem.admissionContract
    rw [hcontract, hparent, hceiling]
  have htarget : item'.executionTarget = item.executionTarget :=
    congrArg ContractItem.executionTarget hcontract
  rw [hsame, htarget]
  exact h item hitem hactive

theorem Deliverable.move (h : Deliverable db) (hlineage : Lineage db)
    (hm : Move env op lo hi db db') : Deliverable db' := by
  intro item' hitem' hactive
  have hfind' := Table.find?_key hitem'
  cases hm.rowStep item'.id with
  | stays hrow _ =>
    have hitem := Table.mem_of_find? (hrow.symm.trans hfind')
    exact h.of_contract hitem hactive rfl (hlineage.delegableActionsOf_move hm hitem)
  | @written item _ _ hitem hwritten hmove _ =>
    obtain rfl := Option.some.inj (hwritten.symm.trans hfind')
    have hitem := Table.mem_of_find? hitem
    rcases hmove.contract with hcontract | hfinished
    · exact h.of_contract hitem (hmove.active hactive) hcontract (hlineage.delegableActionsOf_move hm hitem)
    · exact nomatch hfinished.symm.trans hactive
  | @born row _ hfresh hrow hbirth _ =>
    obtain rfl := Option.some.inj (hrow.symm.trans hfind')
    have hborn := hbirth.deliverable
    refine ⟨?_, hborn.2⟩
    suffices delegableActionsOf db' row.parentId = delegableActionsOf db row.parentId by
      unfold WorkItem.admissionContract
      rw [this]
      exact hborn.1
    -- the parent of a child is there already, and a root has none
    cases hbirth with
    | root => rfl
    | child guard =>
      obtain ⟨parent', ρ, hparent', hplace, -⟩ := hm.samePlace guard.stored
      show (db'.items.find? _).map _ = (db.items.find? _).map _
      rw [guard.stored, hparent', Option.map_some, Option.map_some, hplace.delegable]
  | @renamed source target actor _ hrow _ =>
    rw [hfind'] at hrow
    obtain ⟨item, hitem, rfl⟩ := Option.map_eq_some_iff.mp hrow.symm
    have hitem := Table.mem_of_find? hitem
    rw [rowStatus_renamed] at hactive
    exact h.of_contract hitem hactive (contract_renamed source target item)
      (hlineage.delegableActionsOf_move hm hitem)

/-- **In every reachable state the work in flight is deliverable.** -/
theorem deliverable_exec (ops : List Op) : Deliverable (exec env ops).db :=
  (exec_invariant (P := fun db => Lineage db ∧ Deliverable db)
    ⟨lineage_empty, fun _ h => nomatch h⟩
    (fun h hm => ⟨h.1.move hm, h.2.move h.1 hm⟩) ops).2

/-- The checks of an item's definition, kept while it is in flight: it was
one of the calls of the run that had them pass. -/
theorem checkedUnder_exec (ops : List Op) :
    EveryRow (fun item _ => item.rowStatus.isTerminal = false → ∃ op ∈ ops, ∃ checks,
      CheckedUnder op item checks ∧ ∀ c ∈ checks, contractProblem c = none) (exec env ops).db := by
  refine row_invariant_on (C := fun op => op ∈ ops) (fun hop hbirth _ => ?_) (fun _ h hm hactive => ?_)
    (fun h hactive => ?_) fun _ hop => hop
  · exact ⟨_, hop, hbirth.checkedUnder⟩
  · obtain ⟨op, hop, checks, hchecks, hnone⟩ := h (hm.active hactive)
    rcases hm.contract with hsame | hfinished
    · exact ⟨op, hop, checks, hchecks.of_contract hsame, hnone⟩
    · exact nomatch hfinished.symm.trans hactive
  · rw [rowStatus_renamed] at hactive
    obtain ⟨op, hop, checks, hchecks, hnone⟩ := h hactive
    exact ⟨op, hop, checks, hchecks.of_contract (contract_renamed _ _ _), hnone⟩

/-! ## The audit and the admission -/

/-- **The audit of a state whose work in flight is deliverable and bound
finds nothing.** -/
theorem auditContracts_eq (hdeliverable : Deliverable db)
    (hbound : env.policyAuthority.isSome = true → ∀ item ∈ db.items.rows, item.policy ≠ none)
    (repository : Option String) :
    auditContracts env db repository =
      (refuseSome validateRepository repository).map fun _ => [] := by
  unfold auditContracts
  cases refuseSome validateRepository repository with
  | error e => rfl
  | ok u =>
    refine congrArg Except.ok (List.filterMap_eq_nil_iff.mpr fun item hitem => ?_)
    rw [List.mem_mergeSort, List.mem_filter, Bool.and_eq_true, Bool.not_eq_true'] at hitem
    obtain ⟨hitem, hactive, -⟩ := hitem
    obtain ⟨hproblem, htarget⟩ := hdeliverable item hitem hactive
    have hcontract := contractProblem_eq_none_of_le (contract_le_admissionContract item db) hproblem
    have hunbound : ¬ (env.policyAuthority.isSome = true ∧ item.policy = none) :=
      fun h => hbound h.1 item hitem h.2
    unfold auditProblem
    rw [hcontract, if_neg htarget, if_neg hunbound]
    rfl

/-- What an admission may refuse a proposed item for, when its contract has
no problem: the actor, what the caller observed, or the policy authority. -/
theorem throws_approve {w : World} {actor : String} {precondition : Option MutationPrecondition}
    {e : QueueError} (hitem : w.db.items.find? item.id = some item)
    (hproposed : item.status = .proposed)
    (hcontract : contractProblem (item.admissionContract w.db) = none)
    (h : (approve env item.id actor precondition).Throws w e) :
    validateOperatorActor actor "approval" = .error e ∨
      assertPrecondition item precondition = .error e ∨
      (bindPolicy env item.policySubject).Throws { w with ticks := w.ticks + 1 } e := by
  simp only [approve, throws_checked, Tx.throws_bind, Tx.throws_ofExcept, throws_getRequired,
    returns_getRequired, Tx.returns_ofExcept, Tx.throws_failIf, Tx.returns_failIf, Tx.throws_read,
    Tx.returns_read, throws_now, returns_now, throws_updateItem, returns_updateItem, throws_addEvent,
    returns_addEvent, false_or] at h
  rcases h with h | ⟨_, -, ⟨hmissing, -⟩ | ⟨_, _, ⟨hfound, rfl⟩, h⟩⟩
  · exact Or.inl h
  · cases hitem.symm.trans hmissing
  obtain rfl := Option.some.inj (hfound.symm.trans hitem)
  rcases h with h | ⟨_, _, ⟨-, rfl⟩, ⟨hnot, -⟩ | ⟨_, _, ⟨-, rfl⟩, _, _, ⟨rfl, rfl⟩, h⟩⟩
  · exact Or.inr (Or.inl h)
  · exact absurd hproposed hnot
  rw [hcontract] at h
  rcases h with h | ⟨_, _, ⟨-, rfl⟩, _, _, ⟨rfl, rfl⟩, h | ⟨_, _, hpolicy, _, _, rfl, _, _, rfl, hmissing, -⟩⟩
  · cases h
  · exact Or.inr (Or.inr h)
  · obtain ⟨hdb, -, -⟩ := bindPolicy_spec hpolicy
    dsimp only at hmissing
    rw [hdb, Table.find?_modify_self hitem] at hmissing
    cases hmissing

/-- **Delivery contracts stay deliverable.** In every state of every run, an
item in flight has no contract problem, with its parent's ceiling or without,
and says where it executes; the audit of any repository finds nothing; an
approval of a proposed item is never refused for its contract; and whatever
contracts the item was checked under when it was defined, admission gets the
same answer. -/
theorem contracts_deliverable (env : Env) (ops : List Op) :
    (∀ item ∈ (exec env ops).db.items.rows, item.rowStatus.isTerminal = false →
      contractProblem item.contract = none ∧
      contractProblem (item.admissionContract (exec env ops).db) = none ∧
      item.executionTarget ≠ none ∧
      ∃ op ∈ ops, ∃ checks, CheckedUnder op item checks ∧ ∀ c ∈ checks,
        contractProblem c = contractProblem (item.admissionContract (exec env ops).db)) ∧
    (∀ repository, auditContracts env (exec env ops).db repository =
      (refuseSome validateRepository repository).map fun _ => []) ∧
    ∀ item ∈ (exec env ops).db.items.rows, item.status = .proposed →
      ∀ actor precondition e, (approve env item.id actor precondition).Throws (exec env ops) e →
        validateOperatorActor actor "approval" = .error e ∨
        assertPrecondition item precondition = .error e ∨
        (bindPolicy env item.policySubject).Throws
          { (exec env ops) with ticks := (exec env ops).ticks + 1 } e := by
  have hdeliverable : Deliverable (exec env ops).db := deliverable_exec ops
  refine ⟨fun item hitem hactive => ?_, auditContracts_eq hdeliverable fun hhook item hitem => ?_,
    fun item hitem hproposed actor precondition e h => ?_⟩
  · obtain ⟨hproblem, htarget⟩ := hdeliverable item hitem hactive
    obtain ⟨op, hop, checks, hchecks, hnone⟩ := checkedUnder_exec ops item hitem hactive
    refine ⟨contractProblem_eq_none_of_le (contract_le_admissionContract item _) hproblem, hproblem,
      htarget, op, hop, checks, hchecks, fun c hc => ?_⟩
    rw [hnone c hc, hproblem]
  · obtain ⟨hook, hhook⟩ := Option.isSome_iff_exists.mp hhook
    exact recorded_exec hhook ops item hitem
  · have hactive : item.rowStatus.isTerminal = false := by
      rw [(WorkItem.status_eq_proposed.mp hproposed).1]
      rfl
    exact throws_approve (Table.find?_key hitem) hproposed (hdeliverable item hitem hactive).1 h

/-- In the small run the audit finds nothing, and an item is in flight. -/
theorem contracts_deliverable_sample :
    auditContracts Env.sample (exec Env.sample sampleRun).db none = .ok [] ∧
      ∃ item ∈ (exec Env.sample sampleRun).db.items.rows, contractProblem item.contract = none := by
  obtain ⟨hcontracts, haudit, -⟩ := contracts_deliverable Env.sample sampleRun
  obtain ⟨item, hitem, hactive⟩ : ∃ item ∈ (exec Env.sample sampleRun).db.items.rows,
      item.rowStatus.isTerminal = false := by
    decide +kernel
  exact ⟨haudit none, item, hitem, (hcontracts item hitem hactive).1⟩

end Snowcat
