import Mathlib
import Snowcat.Access.Gateway
import Snowcat.Queue.Choice

/-!
# What a credential is worth

A token is worth the record it was minted with from the answer that minted it until
somebody revokes it, and nothing else is worth anything (`token_until_revoked`). What
is done under a token is bounded by it: every call of the store that a request makes
is of a tool the token was minted for and acts as its principal
(`http_call_authorized`), and a lease a member holds was handed to such a token, of
its own, for an item of a kind the token may claim (`member_lease_authorized`).

The tables alone do not say this, since a record could have been written by anything.
The invariant is therefore about the tokens and the run that left them
(`TokensTell`).
-/

namespace Snowcat

variable {env : Env} {sha256Hex : String → String} {schema : McpToolCall → Bool}

/-! ## The tokens of a run -/

/-- A step of the run revoked the token of an id. -/
def RevokedIn (trace : List (Machine.Entry Gateway GatewayInput GatewayReply)) (id : String) :
    Prop :=
  ∃ e ∈ trace, ∃ record, e.output = .revoked record ∧ record.id = id

/-- **What the tokens say of a run.** Each record is one that was minted, with what it was minted
with, and no other was; and it is revoked when somebody revoked it. -/
structure TokensTell (sha256Hex : String → String)
    (trace : List (Machine.Entry Gateway GatewayInput GatewayReply)) (tokens : McpTokens) :
    Prop where
  minted : ∀ record ∈ tokens.rows, ∃ e ∈ trace, ∃ token, e.output = .minted token record.unused
  kept : ∀ e ∈ trace, ∀ token record, e.output = .minted token record →
    WellMinted sha256Hex token record ∧ ∃ kept ∈ tokens.rows, kept.unused = record
  known : ∀ id, RevokedIn trace id → ∃ record ∈ tokens.rows, record.id = id
  revoked : ∀ record ∈ tokens.rows, record.revokedAt ≠ none ↔ RevokedIn trace record.id

section Step

variable {trace : List (Machine.Entry Gateway GatewayInput GatewayReply)}
  {e : Machine.Entry Gateway GatewayInput GatewayReply} {tokens tokens' : McpTokens}

theorem revokedIn_concat {id : String} : RevokedIn (trace ++ [e]) id ↔
    RevokedIn trace id ∨ ∃ record, e.output = .revoked record ∧ record.id = id := by
  unfold RevokedIn
  constructor
  · rintro ⟨f, hf, hrevoked⟩
    rcases List.mem_append.mp hf with hf | hf
    · exact Or.inl ⟨f, hf, hrevoked⟩
    · rw [List.mem_singleton.mp hf] at hrevoked
      exact Or.inr hrevoked
  · rintro (⟨f, hf, hrevoked⟩ | hrevoked)
    · exact ⟨f, List.mem_append_left _ hf, hrevoked⟩
    · exact ⟨e, List.mem_append_right _ (List.mem_singleton_self e), hrevoked⟩

/-- Records that are rewritten by a step that answers so. -/
theorem TokensTell.rewritten {revokes : String → Prop} (h : TokensTell sha256Hex trace tokens)
    (hrewritten : Rewritten tokens tokens' revokes)
    (hminted : ∀ token record, e.output ≠ .minted token record)
    (hrevokes : ∀ id, revokes id ↔ ∃ record, e.output = .revoked record ∧ record.id = id)
    (hknown : ∀ id, revokes id → ∃ record ∈ tokens.rows, record.id = id) :
    TokensTell sha256Hex (trace ++ [e]) tokens' where
  minted record' h' := by
    obtain ⟨record, hrecord, hunused, -⟩ := hrewritten.back record' h'
    obtain ⟨f, hf, hmint⟩ := h.minted record hrecord
    rw [hunused]
    exact ⟨f, List.mem_append_left _ hf, hmint⟩
  kept f hf token record hmint := by
    rcases List.mem_append.mp hf with hf | hf
    · obtain ⟨hwell, kept, hkept, rfl⟩ := h.kept f hf token record hmint
      obtain ⟨kept', hkept', hunused⟩ := hrewritten.kept kept hkept
      exact ⟨hwell, kept', hkept', hunused⟩
    · rw [List.mem_singleton.mp hf] at hmint
      exact absurd hmint (hminted token record)
  known id hid := by
    obtain ⟨record, hrecord, rfl⟩ : ∃ record ∈ tokens.rows, record.id = id := by
      rcases revokedIn_concat.mp hid with hid | hid
      · exact h.known id hid
      · exact hknown id ((hrevokes id).mpr hid)
    obtain ⟨record', hrecord', hunused⟩ := hrewritten.kept record hrecord
    exact ⟨record', hrecord', id_eq_of_unused hunused⟩
  revoked record' h' := by
    obtain ⟨record, hrecord, hunused, hrevoked⟩ := hrewritten.back record' h'
    rw [hrevoked, h.revoked record hrecord, id_eq_of_unused hunused, revokedIn_concat, hrevokes]

/-- A record that is added by a step that answers with it. -/
theorem TokensTell.inserted {token : String} {record : McpTokenRecord}
    (h : TokensTell sha256Hex trace tokens) (hfresh : tokens.find? record.id = none)
    (hminted : WellMinted sha256Hex token record) (hout : e.output = .minted token record) :
    TokensTell sha256Hex (trace ++ [e]) (tokens.insert record hfresh) where
  minted record' h' := by
    rcases (Table.mem_insert hfresh).mp h' with h' | rfl
    · obtain ⟨f, hf, hmint⟩ := h.minted record' h'
      exact ⟨f, List.mem_append_left _ hf, hmint⟩
    · rw [hminted.unused]
      exact ⟨e, List.mem_append_right _ (List.mem_singleton_self e), token, hout⟩
  kept f hf token' record' hmint := by
    rcases List.mem_append.mp hf with hf | hf
    · obtain ⟨hwell, kept, hkept, hunused⟩ := h.kept f hf token' record' hmint
      exact ⟨hwell, kept, (Table.mem_insert hfresh).mpr (Or.inl hkept), hunused⟩
    · rw [List.mem_singleton.mp hf, hout] at hmint
      obtain ⟨rfl, rfl⟩ := GatewayReply.minted.inj hmint
      exact ⟨hminted, record, (Table.mem_insert hfresh).mpr (Or.inr rfl), hminted.unused⟩
  known id hid := by
    rcases revokedIn_concat.mp hid with hid | ⟨revoked, hrevoked, -⟩
    · obtain ⟨found, hfound, hid⟩ := h.known id hid
      exact ⟨found, (Table.mem_insert hfresh).mpr (Or.inl hfound), hid⟩
    · rw [hout] at hrevoked
      cases hrevoked
  revoked record' h' := by
    have hquiet : ¬ ∃ revoked, e.output = .revoked revoked ∧ revoked.id = record'.id := by
      rintro ⟨revoked, hrevoked, -⟩
      rw [hout] at hrevoked
      cases hrevoked
    rw [revokedIn_concat, or_iff_left hquiet]
    rcases (Table.mem_insert hfresh).mp h' with h' | rfl
    · exact h.revoked record' h'
    · refine iff_of_false (fun hrevoked => hrevoked ?_) fun hid => ?_
      · rw [← hminted.unused]
        rfl
      · obtain ⟨found, hfound, hid⟩ := h.known _ hid
        rw [← hid, Table.find?_key hfound] at hfresh
        cases hfresh

end Step

theorem tokensTell_run (env : Env) (sha256Hex : String → String) (schema : McpToolCall → Bool)
    (inputs : List GatewayInput) :
    TokensTell sha256Hex ((gateway env sha256Hex schema).trace inputs)
      ((gateway env sha256Hex schema).run inputs).tokens := by
  refine (gateway env sha256Hex schema).history
    (P := fun trace g => TokensTell sha256Hex trace g.tokens) ?_ (fun inputs i h => ?_) inputs
  · refine ⟨List.forall_mem_nil _, List.forall_mem_nil _, ?_, List.forall_mem_nil _⟩
    rintro id ⟨e, he, -⟩
    exact absurd he List.not_mem_nil
  · have hstep := @gatewayStep_cases env sha256Hex schema
      ((gateway env sha256Hex schema).run inputs) i
    have hout : ((gateway env sha256Hex schema).entry ((gateway env sha256Hex schema).run inputs)
        i).output = (gatewayStep env sha256Hex schema ((gateway env sha256Hex schema).run inputs)
          i).1 := rfl
    change TokensTell sha256Hex _ (gatewayStep env sha256Hex schema
      ((gateway env sha256Hex schema).run inputs) i).2.tokens
    generalize (gateway env sha256Hex schema).entry ((gateway env sha256Hex schema).run inputs) i =
      e at hout ⊢
    generalize (gatewayStep env sha256Hex schema ((gateway env sha256Hex schema).run inputs) i).1 =
      reply at hstep hout
    generalize (gatewayStep env sha256Hex schema ((gateway env sha256Hex schema).run inputs) i).2 =
      g' at hstep ⊢
    have hquiet : (∀ record, reply ≠ .revoked record) → ∀ id, False ↔
        ∃ record, e.output = .revoked record ∧ record.id = id := by
      rintro hnone id
      refine iff_of_false not_false ?_
      rintro ⟨record, hrevoked, -⟩
      exact hnone record (hout.symm.trans hrevoked)
    cases hstep with
    | minted hfresh hminted => exact h.inserted hfresh hminted hout
    | @revoked _ _ _ record tokens hknown hrewritten =>
      refine h.rewritten hrewritten (fun token minted hmint => ?_) (fun id => ?_) ?_
      · cases hout.symm.trans hmint
      · rw [hout]
        refine ⟨fun hid => ⟨record, rfl, hid.symm⟩, ?_⟩
        rintro ⟨revoked, hrevoked, rfl⟩
        obtain rfl := GatewayReply.revoked.inj hrevoked
        rfl
      · rintro id rfl
        exact hknown
    | served hcaused hrewritten =>
      refine h.rewritten hrewritten (fun token minted hmint => ?_) (hquiet fun record hrevoked => ?_)
        fun id hid => hid.elim
      · cases hout.symm.trans hmint
      · cases hrevoked
    | idle hidle hrewritten =>
      refine h.rewritten hrewritten (fun token minted hmint => ?_) (hquiet fun record hrevoked => ?_)
        fun id hid => hid.elim
      · rw [hout.symm.trans hmint] at hidle
        cases hidle
      · rw [hrevoked] at hidle
        cases hidle

/-! ## The life of a token -/

/-- **A header presents the token of a record**: it names the record, and its secret has the
digest. -/
def Presents (sha256Hex : String → String) (record : McpTokenRecord) (authorization : String) :
    Prop :=
  ∃ presented secret, bearer authorization = some presented ∧
    parseToken presented = some (record.id, secret) ∧ sha256Hex secret = record.tokenHash

theorem authenticated_eq_some {authorization : String} {tokens : McpTokens}
    {record : McpTokenRecord} :
    authenticated sha256Hex authorization tokens = some record ↔
      Presents sha256Hex record authorization ∧ record ∈ tokens.rows ∧ record.revokedAt = none := by
  unfold authenticated presentedRecord Presents
  simp only [Option.bind_eq_some_iff, Option.filter_eq_some_iff, Bool.and_eq_true,
    decide_eq_true_eq]
  constructor
  · rintro ⟨presented, hbearer, ⟨id, secret⟩, hparse, hfound, hrevoked, hhash⟩
    obtain rfl : record.id = id := Table.key_of_find? hfound
    exact ⟨⟨presented, secret, hbearer, hparse, hhash⟩, Table.mem_of_find? hfound, hrevoked⟩
  · rintro ⟨⟨presented, secret, hbearer, hparse, hhash⟩, hrecord, hrevoked⟩
    exact ⟨presented, hbearer, (record.id, secret), hparse, Table.find?_key hrecord, hrevoked, hhash⟩

/-- A text without white space is what its header presents. -/
theorem bearer_eq {token : String} (hne : token ≠ "")
    (hspaceless : ∀ c ∈ token.toList, isSpace c = false) :
    bearer ("Bearer " ++ token) = some token := by
  have hlist : ("Bearer " ++ token).toList = "Bearer".toList ++ (' ' :: token.toList) := by
    rw [String.toList_append]
    rfl
  have hlen : "Bearer".toList.length = 6 := rfl
  have hdrop : (' ' :: token.toList).dropWhile isSpace = token.toList := by
    rw [List.dropWhile_cons_of_pos (show isSpace ' ' = true from rfl)]
    exact List.dropWhile_eq_self_iff.mpr fun hpos => by
      rw [hspaceless _ (List.getElem_mem hpos)]
      exact Bool.false_ne_true
  unfold bearer
  rw [hlist, List.drop_left' hlen, List.take_left' hlen]
  dsimp only
  rw [hdrop, if_pos, String.ofList_toList]
  refine ⟨by decide, rfl, List.cons_ne_nil _ _, ?_, List.all_eq_true.mpr fun c hc => ?_⟩
  · rwa [Ne, String.toList_eq_nil_iff]
  · rw [hspaceless c hc]
    rfl

/-- The answer that minted a token holds its text. -/
theorem presents_of_wellMinted {token : String} {record : McpTokenRecord}
    (h : WellMinted sha256Hex token record) : Presents sha256Hex record ("Bearer " ++ token) := by
  obtain ⟨secret, hparse, hhash⟩ := h.text
  exact ⟨token, secret, bearer_eq h.spaceless.1 h.spaceless.2, hparse, hhash⟩

/-- **A token works from its minting to its revocation**, whatever the run does in between: a header
authenticates as its record exactly when it presents it and nobody revoked it, and the text that was
handed out presents it. -/
theorem token_until_revoked (env : Env) (sha256Hex : String → String)
    (schema : McpToolCall → Bool) (inputs : List GatewayInput)
    {e : Machine.Entry Gateway GatewayInput GatewayReply}
    (he : e ∈ (gateway env sha256Hex schema).trace inputs) {token : String}
    {record : McpTokenRecord} (hminted : e.output = .minted token record) :
    Presents sha256Hex record ("Bearer " ++ token) ∧ ∀ authorization : String,
      (∃ kept, authenticated sha256Hex authorization
          ((gateway env sha256Hex schema).run inputs).tokens = some kept ∧ kept.unused = record) ↔
        Presents sha256Hex record authorization ∧
          ¬ RevokedIn ((gateway env sha256Hex schema).trace inputs) record.id := by
  have htell := tokensTell_run env sha256Hex schema inputs
  obtain ⟨hwell, kept, hkept, rfl⟩ := htell.kept e he token record hminted
  refine ⟨presents_of_wellMinted hwell, fun authorization => ⟨?_, ?_⟩⟩
  · rintro ⟨other, hother, hunused⟩
    obtain ⟨hpresents, hrow, hunrevoked⟩ := authenticated_eq_some.mp hother
    rw [← hunused]
    exact ⟨hpresents, fun hrevoked => (htell.revoked other hrow).mpr hrevoked hunrevoked⟩
  · rintro ⟨hpresents, hunrevoked⟩
    refine ⟨kept, authenticated_eq_some.mpr ⟨hpresents, hkept, ?_⟩, rfl⟩
    by_contra hrevoked
    exact hunrevoked ((htell.revoked kept hkept).mp hrevoked)

/-! ## What is done under a token -/

/-- A call under a lease that an identity with a principal makes is the principal's. -/
theorem worker_of_op {identity : McpIdentity} {principal : String} {call : McpToolCall} {op : Op}
    {artifacts : List WorkArtifact} {id leaseToken worker : String}
    (hprincipal : identity.principal = some principal)
    (hop : identity.op artifacts call = some op)
    (hcall : op.leaseCall = some (id, leaseToken, worker)) : worker = principal := by
  have hactor : ∀ declared, identity.actor declared = principal := by
    intro declared
    rw [McpIdentity.actor, hprincipal]
    rfl
  cases call with
  | listWork | getWork => cases hop
  | claimWork =>
    obtain rfl := Option.some.inj hop
    cases hcall
  | heartbeatWork | completeWork | blockWork | releaseWork =>
    obtain rfl := Option.some.inj hop
    obtain ⟨-, -, rfl⟩ : _ = id ∧ _ = leaseToken ∧ _ = worker := by
      simpa [Op.leaseCall] using hcall
    exact hactor _

/-- **A request can do what its token was minted for, and no more.** Wherever a run has come to, a
call of the store that a request makes is made under a token that was minted and that nobody revoked:
the request presents it, the tool is one the token was granted, the call is the one its identity
makes, and under a lease it returns only if the principal of the token holds the lease. -/
theorem http_call_authorized (env : Env) (sha256Hex : String → String)
    (schema : McpToolCall → Bool) (inputs : List GatewayInput) {authorization : String} {now : Time}
    {call : McpToolCall} {checks : Except QueueError (List WorkArtifact)} {op : Op}
    {outcome : Outcome}
    (hserved : (gatewayStep env sha256Hex schema ((gateway env sha256Hex schema).run inputs)
      (.http authorization now call checks)).1 = .served op outcome) :
    ∃ e ∈ (gateway env sha256Hex schema).trace inputs, ∃ token record,
      e.output = .minted token record ∧ Presents sha256Hex record authorization ∧
        ¬ RevokedIn ((gateway env sha256Hex schema).trace inputs) record.id ∧
        ServesCall record.identity call op ∧
        ∀ id leaseToken worker reply, op.leaseCall = some (id, leaseToken, worker) →
          outcome = .ok reply → worker = record.principal ∧
            ∃ item, HoldsLease ((gateway env sha256Hex schema).run inputs).world.db item id leaseToken
              record.principal (env.clock ((gateway env sha256Hex schema).run inputs).world.ticks) := by
  have htell := tokensTell_run env sha256Hex schema inputs
  have hstep := @gatewayStep_cases env sha256Hex schema
    ((gateway env sha256Hex schema).run inputs) (.http authorization now call checks)
  rw [hserved] at hstep
  generalize (gateway env sha256Hex schema).run inputs = g at htell hstep ⊢
  generalize (gatewayStep env sha256Hex schema g (.http authorization now call checks)).2 = g' at hstep
  cases hstep with
  | idle hidle => cases hidle
  | served hcaused =>
    cases hcaused with
    | @http _ _ _ _ record _ hrecord hserves =>
      obtain ⟨hpresents, hrow, hunrevoked⟩ := authenticated_eq_some.mp hrecord
      obtain ⟨e, he, token, hminted⟩ := htell.minted record hrow
      refine ⟨e, he, token, record.unused, hminted, hpresents,
        fun hrevoked => (htell.revoked record hrow).mpr hrevoked hunrevoked, hserves, ?_⟩
      intro id leaseToken worker reply hcall hreply
      obtain ⟨artifacts, hop⟩ := hserves.asked
      have hworker : worker = record.principal := worker_of_op rfl hop hcall
      subst hworker
      exact ⟨rfl, holdsLease_of_returns (Prod.ext hreply rfl) hcall⟩

/-! ## Leases of members -/

/-- A write keeps the kind of its row. -/
theorem RowMove.kind_eq {op : Op} {lo hi : ℕ} {item item' : WorkItem} {postings : List Posting}
    (h : RowMove env op lo hi item item' postings) : item'.kind = item.kind := by
  cases h <;> rfl

/-- **The kind of an item is for good.** -/
theorem kind_stable {id kind : String} (ops more : List Op)
    (h : ∃ item, (exec env ops).db.items.find? id = some item ∧ item.kind = kind) :
    ∃ item, (exec env (ops ++ more)).db.items.find? id = some item ∧ item.kind = kind := by
  refine (queue env).stable (Q := fun _ => True)
    (P := fun w => ∃ item, w.db.items.find? id = some item ∧ item.kind = kind)
    (fun _ => trivial) (fun w op _ hw => ?_) ops more h
  refine (step_moves op w).keeps
    (P := fun db => ∃ item, db.items.find? id = some item ∧ item.kind = kind)
    (fun {db db'} hdb hmove => ?_) hw
  obtain ⟨item, hitem, hkind⟩ := hdb
  cases hmove.rowStep id with
  | stays hrow => exact ⟨item, hrow.trans hitem, hkind⟩
  | @written old new _ hold hnew hwrite =>
    obtain rfl := Option.some.inj (hitem.symm.trans hold)
    exact ⟨new, hnew, hwrite.kind_eq.trans hkind⟩
  | born hfresh => exact absurd (hitem.symm.trans hfresh) (Option.some_ne_none item)
  | renamed _ hrow =>
    rw [hitem] at hrow
    refine ⟨_, hrow, ?_⟩
    unfold WorkItem.renamed
    split <;> exact hkind

/-- **What a claim leased** is its worker's, and of a kind its credential allows. -/
theorem allowed_of_leased {pre post : List Op} {input : ClaimInput} {leased : WorkItem}
    (h : ((Op.claim input).run env (exec env pre)).1 = .ok (.found (some leased))) :
    leased.leaseOwner = some (trim input.worker) ∧
      ∀ item, (exec env (pre ++ .claim input :: post)).db.items.find? leased.id = some item →
        ∀ allowed ∈ input.allowedKinds, item.kind ∈ allowed.map trim := by
  have hreturns : ((Op.claim input).run env).Returns (exec env pre) (.found (some leased))
      ((Op.claim input).run env (exec env pre)).2 := Prod.ext h rfl
  obtain ⟨reply, hclaim, hreply⟩ := returns_reply.mp hreturns
  obtain rfl : reply = some leased := Reply.found.inj hreply.symm
  obtain ⟨request, hrequest, ⟨-, hnone, -⟩ | ⟨hlooks, -, ⟨-, hnone, -⟩ | ⟨row, leased', hselect,
    hsome, hrow, hleased⟩⟩⟩ := claim_spec hclaim
  · cases hnone
  · cases hnone
  obtain rfl := Option.some.inj hsome
  obtain ⟨token, expiresAt, t₁, t₂, -, rfl, hdb⟩ := hleased.written
  refine ⟨?_, fun item hitem => ?_⟩
  · simp only [claimRequest, validateWorkerPrincipal, except_bind_eq_ok, refuseIf_eq_ok,
      except_pure_eq_ok] at hrequest
    obtain ⟨_, ⟨_, -, _, -, rfl⟩, _, -, _, -, _, -, _, -, _, -, rfl⟩ := hrequest
    rfl
  · have hstored : (exec env (pre ++ [.claim input])).db.items.find? row.id = some
        { row with
          rowStatus := .claimed
          leaseOwner := some request.worker
          leaseToken := some token
          leaseExpiresAt := some expiresAt
          updatedAt := env.clock (exec env pre).ticks } := by
      rw [exec_concat, hdb]
      exact (@Db.find?_write _ row { row with
          rowStatus := .claimed
          leaseOwner := some request.worker
          leaseToken := some token
          leaseExpiresAt := some expiresAt
          updatedAt := env.clock (exec env pre).ticks } _ hrow row.id).trans (if_pos rfl)
    obtain ⟨kept, hkept, hkind⟩ := kind_stable (pre ++ [.claim input]) post ⟨_, hstored, rfl⟩
    rw [List.append_assoc, List.singleton_append] at hkept
    obtain rfl := Option.some.inj (hitem.symm.trans hkept)
    rw [hkind]
    rw [claimSelection_eq] at hselect
    have hcandidate := (isCandidate_repositories.mp (candidate_of_selectCandidate hselect).2).1
    have hworkKind := @workKind_exec env pre row (Table.mem_of_find? hrow)
    exact ((isCandidate_iff hrequest hworkKind).mp ⟨hcandidate, hlooks⟩).2.2.2.2.2

/-- The claim an identity makes. -/
theorem claim_of_op {identity : McpIdentity} {call : McpToolCall} {input : ClaimInput}
    {artifacts : List WorkArtifact} (hop : identity.op artifacts call = some (.claim input)) :
    call.tool = "claim_work" ∧ ∃ worker ∈ call.worker?, input.worker = identity.actor worker ∧
      input.allowedKinds = identity.kinds := by
  cases call with
  | listWork | getWork => cases hop
  | claimWork worker =>
    obtain rfl := Op.claim.inj (Option.some.inj hop)
    exact ⟨rfl, worker, rfl, rfl, rfl⟩
  | heartbeatWork | completeWork | blockWork | releaseWork => cases Option.some.inj hop

/-- A worker that names itself is no member. -/
theorem not_isMember_of_workerSchema {worker : String} (h : workerSchema worker = true) :
    isMember (trim worker) = false := by
  unfold workerSchema at h
  cases hvalid : validateWorkerIdentity worker with
  | error e =>
    rw [hvalid, Bool.and_eq_true] at h
    cases h.2
  | ok identity =>
    simp only [validateWorkerIdentity, except_bind_eq_ok, refuseIf_eq_ok] at hvalid
    obtain ⟨_, -, _, hreserved, -⟩ := hvalid
    rw [isMember, Bool.eq_false_iff]
    exact fun hmember => hreserved (Or.inr (Or.inr (Or.inr (Or.inr hmember))))

/-- **Who leased an item**: a member's lease was handed to a claim that a request made under a token
whose principal the member is, and the item is of a kind the token may claim. -/
theorem member_lease_authorized (env : Env) (sha256Hex : String → String)
    (schema : McpToolCall → Bool) (inputs : List GatewayInput) {item : WorkItem} {member : String}
    (hitem : item ∈ ((gateway env sha256Hex schema).run inputs).world.db.items.rows)
    (hclaimed : item.rowStatus = .claimed) (howner : item.leaseOwner = some member)
    (hmember : isMember member = true) :
    ∃ before authorization now call checks after,
      inputs = before ++ .http authorization now call checks :: after ∧ call.tool = "claim_work" ∧
      ∃ e ∈ (gateway env sha256Hex schema).trace before, ∃ token record,
        e.output = .minted token record ∧ Presents sha256Hex record authorization ∧
        ¬ RevokedIn ((gateway env sha256Hex schema).trace before) record.id ∧
        trim record.principal = member ∧
        (∀ tools ∈ record.tools, "claim_work" ∈ tools.map trim) ∧
        ∀ kinds ∈ record.kinds, item.kind ∈ kinds := by
  obtain ⟨ops, hworld, hsteps⟩ := steps_gateway env sha256Hex schema inputs
  rw [← hworld] at hitem
  have hstored := Table.find?_key hitem
  have hholder := Db.holder_of_claimed hstored hclaimed
  rw [howner] at hholder
  obtain ⟨f, hf, worker, tok, claimed, hworker, -, hissued, -⟩ :=
    (leaseHistory_exec ops).issued item.id _ _ hholder
  obtain rfl := Option.some.inj hworker
  obtain ⟨input, hinput⟩ := hissued.asked
  obtain ⟨leased, hout, hid, -, hleasedOwner⟩ := hissued.answered
  -- the call that leased it, in the run of the queue
  obtain ⟨pre, post, hops, hentry⟩ := mem_steps hf
  rw [hinput] at hops hentry
  have hcall : ((Op.claim input).run env (exec env pre)).1 = .ok (.found (some leased)) := by
    rw [← hout, hentry]
    rfl
  obtain ⟨hclaimer, hallowed⟩ := @allowed_of_leased env pre post _ _ hcall
  rw [← hops, hid] at hallowed
  obtain rfl : trim input.worker = member := Option.some.inj (hclaimer.symm.trans hleasedOwner)
  -- and the step of the gateway that made it
  rw [hsteps] at hf
  obtain ⟨e, he, hqueue⟩ := List.mem_filterMap.mp hf
  obtain ⟨hserved, -⟩ := queueEntry_eq_some hqueue
  obtain ⟨before, after, hinputs, hstep⟩ := (gateway env sha256Hex schema).mem_trace he
  have hcases := @gatewayStep_cases env sha256Hex schema
    ((gateway env sha256Hex schema).run before) e.input
  have hreply : (gatewayStep env sha256Hex schema ((gateway env sha256Hex schema).run before)
      e.input).1 = .served (.claim input) f.output := by
    rw [← hinput, ← hserved, hstep]
    rfl
  have htell := tokensTell_run env sha256Hex schema before
  rw [hreply] at hcases
  generalize (gatewayStep env sha256Hex schema ((gateway env sha256Hex schema).run before)
    e.input).2 = g' at hcases
  generalize e.input = i at hinputs hcases
  generalize (gateway env sha256Hex schema).run before = g at hcases htell
  generalize f.output = outcome at hcases
  cases hcases with
  | idle hidle => cases hidle
  | served hcaused =>
    generalize hasked : Op.claim input = op at hcaused
    cases hcaused with
    | @http authorization now call checks record _ hrecord hserves =>
      obtain ⟨artifacts, hop⟩ := hserves.asked
      rw [← hasked] at hop
      obtain ⟨htool, named, -, hactor, hkinds⟩ := claim_of_op hop
      obtain ⟨hpresents, hrow, hunrevoked⟩ := authenticated_eq_some.mp hrecord
      obtain ⟨m, hm, token, hminted⟩ := htell.minted record hrow
      have hwell := (htell.kept m hm token _ hminted).1
      refine ⟨before, authorization, now, call, checks, after, hinputs, htool, m, hm, token,
        record.unused, hminted, hpresents,
        fun hrevoked => (htell.revoked record hrow).mpr hrevoked hunrevoked, ?_, ?_, ?_⟩
      · rw [hactor]
        rfl
      · rw [← htool]
        exact hserves.granted
      · intro kinds hrecordKinds
        obtain ⟨kind, hkind, htrim⟩ := List.mem_map.mp
          (hallowed item hstored kinds (hkinds.trans hrecordKinds))
        rw [Patterns.trim_workKind (hwell.kinds kinds hrecordKinds kind hkind)] at htrim
        rwa [← htrim]
    | @stdio kinds tools kinds' tools' call checks op hserves =>
      obtain ⟨artifacts, hop⟩ := hserves.asked
      rw [← hasked] at hop
      obtain ⟨-, named, hnamed, hactor, -⟩ := claim_of_op hop
      have hactor' : input.worker = named := hactor
      rw [hactor', not_isMember_of_workerSchema (hserves.named named hnamed)] at hmember
      cases hmember
    | @store op =>
      have hother := op.2
      rw [← hasked] at hother
      cases hother

end Snowcat
