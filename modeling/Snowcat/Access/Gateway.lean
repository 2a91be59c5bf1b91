import Mathlib
import Snowcat.Access.Tokens
import Snowcat.Queue.Lease
import Snowcat.Queue.Listing
import Snowcat.Queue.Reads

/-!
# Who works on the queue

Workers reach the queue through one server. Over HTTP a request carries a minted
token, and every tool acts as the principal of the token, whatever worker the
request names; over stdio there is no token, and a worker may not name itself into
a reserved namespace. A server is built for each request, with the tools its
credential may call and no others, and claims are narrowed to the kinds it may
claim.

The gateway is the queue and the tokens as one machine. Its runs interleave
requests with minting, with revocations and with everything else that is done to
the queue. What the queue does in such a run is a run of the queue
(`steps_gateway`), so what holds of the queue's runs holds behind the gateway.
-/

namespace Snowcat

/-! ## Tools -/

/-- **`McpIdentity`.** -/
structure McpIdentity where
  principal : Option String
  kinds : Option (List String)
  tools : Option (List String)
  deriving DecidableEq, Repr

/-- A call of a tool, as it arrives. -/
inductive McpToolCall where
  | listWork (options : ListOptions)
  | getWork (id : String)
  | claimWork (worker : String) (repository : Option String) (kinds : Option (List String))
      (leaseSeconds : Option JsNumber)
  | heartbeatWork (id leaseToken worker : String) (leaseSeconds : Option JsNumber)
  | completeWork (input : CompletionInput)
  | blockWork (id leaseToken worker reason : String)
  | releaseWork (id leaseToken worker reason : String)
  deriving DecidableEq, Repr

namespace McpToolCall

/-- The name of the tool. -/
def tool : McpToolCall → String
  | listWork .. => "list_work"
  | getWork .. => "get_work"
  | claimWork .. => "claim_work"
  | heartbeatWork .. => "heartbeat_work"
  | completeWork .. => "complete_work"
  | blockWork .. => "block_work"
  | releaseWork .. => "release_work"

/-- The worker the call names. -/
def worker? : McpToolCall → Option String
  | listWork .. | getWork .. => none
  | claimWork worker .. => some worker
  | heartbeatWork _ _ worker _ => some worker
  | completeWork input => some input.worker
  | blockWork _ _ worker _ => some worker
  | releaseWork _ _ worker _ => some worker

end McpToolCall

/-- `validateWorkerIdentity`. -/
def validateWorkerIdentity (worker : String) : Except QueueError String := do
  let identity := trim worker
  refuseIf (identity = "") (.error "worker is required")
  let lowered := toLowerCase identity
  refuseIf (lowered = "system" ∨ startsWith lowered "operator:" ∨ startsWith lowered "policy:" ∨
      startsWith lowered "system:" ∨ startsWith lowered "member:") (.error
    (s!"worker identity \"{identity}\" uses a reserved principal namespace " ++
      "(operator:, policy:, system:, member:, system)"))
  pure identity

/-- `workerSchema`. -/
def workerSchema (worker : String) : Bool :=
  decide (1 ≤ jsLength worker) && decide (jsLength worker ≤ maxClaimLabelLength) &&
    (validateWorkerIdentity worker).toBool

/-- A setting of the environment that lists something. -/
def listSetting (raw : String) : List String :=
  (((trim raw).toList.splitOn ',').map fun part => trim (String.ofList part)).filter fun part =>
    part ≠ ""

/-- What a setting of the environment comes to, when it is set. -/
def settingFromEnvironment (validate : List String → Except QueueError (List String))
    (raw : Option String) : Except QueueError (Option (List String)) :=
  checkSome (fun raw => validate (listSetting raw)) (raw.filter fun raw => isBlank raw = false)

/-- `mcpKindsFromEnvironment`. -/
def mcpKindsFromEnvironment : Option String → Except QueueError (Option (List String)) :=
  settingFromEnvironment (validateWorkKinds · "SNOWCAT_MCP_KINDS")

/-- `mcpToolsFromEnvironment`. -/
def mcpToolsFromEnvironment : Option String → Except QueueError (Option (List String)) :=
  settingFromEnvironment (validateMcpTools · "SNOWCAT_MCP_TOOLS")

namespace McpIdentity

/-- `actor`. -/
def actor (identity : McpIdentity) (declared : String) : String :=
  identity.principal.getD declared

/-- The call of the store that a call of a tool makes, with the artifacts of a completion as they
were verified. -/
def op (identity : McpIdentity) (artifacts : List WorkArtifact) : McpToolCall → Option Op
  | .listWork .. | .getWork .. => none
  | .claimWork worker repository kinds leaseSeconds =>
    some (.claim
      { worker := identity.actor worker
        repository
        kinds
        allowedKinds := identity.kinds
        allowedTools := identity.tools
        leaseSeconds
        label := identity.principal.map fun _ => worker })
  | .heartbeatWork id leaseToken worker leaseSeconds =>
    some (.heartbeat id leaseToken (identity.actor worker) leaseSeconds)
  | .completeWork input =>
    some (.complete
      { input with
        worker := identity.actor input.worker
        result := { input.result with artifacts } })
  | .blockWork id leaseToken worker reason =>
    some (.block id leaseToken (identity.actor worker) reason)
  | .releaseWork id leaseToken worker reason =>
    some (.release id leaseToken (identity.actor worker) reason)

end McpIdentity

/-! ## The gateway -/

/-- Whether a call of the store is a worker's. -/
def Op.isWorkerCall : Op → Bool
  | .claim _ | .heartbeat .. | .complete _ | .block .. | .release .. => true
  | _ => false

/-- **What reaches the gateway.** A call of a tool comes with what the checks before a completion
answer: the artifacts as GitHub has them, or why they are refused. -/
inductive GatewayInput where
  | mint (draw : TokenDraw) (now : Time) (input : MintInput)
  | revoke (id actor : String) (now : Time)
  | http (authorization : String) (now : Time) (call : McpToolCall)
      (checks : Except QueueError (List WorkArtifact))
  | stdio (kinds tools : Option String) (call : McpToolCall)
      (checks : Except QueueError (List WorkArtifact))
  | store (op : { op : Op // op.isWorkerCall = false })

/-- What it answers, with the call of the store that was made. -/
inductive GatewayReply where
  | minted (token : String) (record : McpTokenRecord)
  | revoked (record : McpTokenRecord)
  | refused (e : QueueError)
  | unauthorized
  | unknownTool (tool : String)
  | invalidInput
  | observed (items : List (WorkItem × List WorkAttempt))
  | served (op : Op) (outcome : Outcome)

/-- Whether an answer says that nothing was written, neither to the queue nor to the tokens. -/
def GatewayReply.isIdle : GatewayReply → Bool
  | .minted .. | .revoked _ | .served .. => false
  | _ => true

/-- The queue and its tokens. -/
structure Gateway where
  world : World
  tokens : McpTokens

/-- `/^Bearer\s+(\S+)$/i`, and what it captures. -/
def bearer (authorization : String) : Option String :=
  let rest := authorization.toList.drop 6
  let presented := rest.dropWhile isSpace
  if toLowerCase (String.ofList (authorization.toList.take 6)) = "bearer" ∧
      (rest.take 1).all isSpace = true ∧ rest ≠ [] ∧ presented ≠ [] ∧
      presented.all (fun c => !isSpace c) = true then
    some (String.ofList presented)
  else none

/-- The identity of the requests that present a token. -/
def McpTokenRecord.identity (record : McpTokenRecord) : McpIdentity where
  principal := some record.principal
  kinds := record.kinds
  tools := record.tools

section Run

variable (env : Env) (sha256Hex : String → String)
  -- what the schema of a tool accepts besides the worker
  (schema : McpToolCall → Bool)

/-- The answer of a read, and the attempts beside each item. A read takes its time from the clock
and writes nothing. -/
def observe (w : World) (item : WorkItem) : WorkItem × List WorkAttempt :=
  ({ item with leaseToken := none },
    match (attempts env item.id (.int maxItemAttempts) w).1 with
    | .ok attempts => attempts
    | .error _ => [])

/-- A tool of a server that was built for an identity. -/
def callTool (identity : McpIdentity) (call : McpToolCall)
    (checks : Except QueueError (List WorkArtifact)) (w : World) : GatewayReply × World :=
  match checkSome (validateMcpTools · "MCP identity tools") identity.tools with
  | .error e => (.refused e, w)
  | .ok grant =>
    if (grant.all fun grant => grant.contains call.tool) = false then (.unknownTool call.tool, w)
    else if call.worker?.all workerSchema = false ∨ schema call = false then (.invalidInput, w)
    else
      match call, checks with
      | .listWork options, _ =>
        match list w.db options with
        | .error e => (.refused e, w)
        | .ok items => (.observed (items.map (observe env w)), w)
      | .getWork id, _ => (.observed ((w.db.items.find? id).toList.map (observe env w)), w)
      | .completeWork _, .error e => (.refused e, w)
      | call, checks =>
        match identity.op (checks.toOption.getD []) call with
        | none => (.invalidInput, w)
        | some op => (.served op (op.run env w).1, (op.run env w).2)

/-- **The record a request is worth**, by its header. -/
def authenticated (authorization : String) (tokens : McpTokens) : Option McpTokenRecord :=
  (bearer authorization).bind fun presented => presentedRecord sha256Hex presented tokens

/-- What a request leaves of the tokens. -/
def tokensAfter (authorization : String) (now : Time) (tokens : McpTokens) : McpTokens :=
  match bearer authorization with
  | none => tokens
  | some presented => (verifyMcpToken sha256Hex presented now tokens).2

/-- One step. -/
def gatewayStep (g : Gateway) : GatewayInput → GatewayReply × Gateway
  | .mint draw now input =>
    match mintMcpToken sha256Hex draw now input g.tokens with
    | .error e => (.refused e, g)
    | .ok ((token, record), tokens) => (.minted token record, { g with tokens })
  | .revoke id actor now =>
    match revokeMcpToken id actor now g.tokens with
    | .error e => (.refused e, g)
    | .ok (record, tokens) => (.revoked record, { g with tokens })
  | .http authorization now call checks =>
    let tokens := tokensAfter sha256Hex authorization now g.tokens
    match authenticated sha256Hex authorization g.tokens with
    | none => (.unauthorized, { g with tokens })
    | some record =>
      let (reply, world) := callTool env schema record.identity call checks g.world
      (reply, ⟨world, tokens⟩)
  | .stdio kinds tools call checks =>
    match mcpKindsFromEnvironment kinds, mcpToolsFromEnvironment tools with
    | .ok kinds, .ok tools =>
      let (reply, world) := callTool env schema ⟨none, kinds, tools⟩ call checks g.world
      (reply, { g with world })
    | .error e, _ | _, .error e => (.refused e, g)
  | .store op => (.served op.1 (op.1.run env g.world).1, { g with world := (op.1.run env g.world).2 })

/-- **The gateway**: it starts with an empty queue and no token. -/
def gateway : Machine Gateway GatewayInput GatewayReply where
  start := ⟨World.empty, Table.empty⟩
  step := gatewayStep env sha256Hex schema

end Run

/-! ## What a step does -/

section Steps

variable {env : Env} {sha256Hex : String → String} {schema : McpToolCall → Bool}

/-- **What a served call has passed**: its tool is granted, the worker it names is not reserved, and
the call of the store is the one its identity makes. -/
structure ServesCall (identity : McpIdentity) (call : McpToolCall) (op : Op) : Prop where
  granted : ∀ tools ∈ identity.tools, call.tool ∈ tools.map trim
  named : ∀ worker ∈ call.worker?, workerSchema worker = true
  asked : ∃ artifacts, identity.op artifacts call = some op

/-- **A call of a tool** makes one call of the store, or leaves the queue alone. -/
theorem callTool_cases (identity : McpIdentity) (call : McpToolCall)
    (checks : Except QueueError (List WorkArtifact)) (w : World) :
    (∃ op, ServesCall identity call op ∧ callTool env schema identity call checks w =
        (.served op (op.run env w).1, (op.run env w).2)) ∨
      (callTool env schema identity call checks w).1.isIdle = true ∧
        (callTool env schema identity call checks w).2 = w := by
  unfold callTool
  cases hgrant : checkSome (validateMcpTools · "MCP identity tools") identity.tools with
  | error e => exact Or.inr ⟨rfl, rfl⟩
  | ok grant =>
    dsimp only
    by_cases htool : (grant.all fun grant => grant.contains call.tool) = false
    · rw [if_pos htool]
      exact Or.inr ⟨rfl, rfl⟩
    rw [if_neg htool]
    by_cases hinput : call.worker?.all workerSchema = false ∨ schema call = false
    · rw [if_pos hinput]
      exact Or.inr ⟨rfl, rfl⟩
    rw [if_neg hinput]
    have hserves : ∀ {op artifacts}, identity.op artifacts call = some op →
        ServesCall identity call op := by
      intro op artifacts hop
      obtain ⟨hworker, -⟩ := not_or.mp hinput
      refine ⟨fun tools htools => ?_, fun worker h => ?_, artifacts, hop⟩
      · obtain ⟨hnone, -⟩ | ⟨_, unique, htools', hunique, rfl⟩ := checkSome_eq_ok.mp hgrant
        · rw [hnone] at htools
          cases htools
        · obtain rfl := Option.some.inj (htools'.symm.trans htools)
          rw [Bool.not_eq_false, Option.all_some, List.contains_iff_mem] at htool
          exact ((mem_of_validateMcpTools hunique).1 _).mp htool
      · rw [Bool.not_eq_false] at hworker
        rw [Option.mem_def.mp h] at hworker
        exact hworker
    cases call with
    | listWork options =>
      dsimp only
      cases list w.db options <;> exact Or.inr ⟨rfl, rfl⟩
    | getWork id => exact Or.inr ⟨rfl, rfl⟩
    | completeWork input =>
      cases checks with
      | error e => exact Or.inr ⟨rfl, rfl⟩
      | ok artifacts => exact Or.inl ⟨_, @hserves _ artifacts rfl, rfl⟩
    | claimWork | heartbeatWork | blockWork | releaseWork =>
      cases checks <;> exact Or.inl ⟨_, @hserves _ [] rfl, rfl⟩

/-- **Why the store was called**: a token allows it, or a local worker asked, or it is no call of a
worker. -/
inductive Caused (sha256Hex : String → String) (g : Gateway) : GatewayInput → Op → Prop
  | http {authorization : String} {now : Time} {call : McpToolCall}
      {checks : Except QueueError (List WorkArtifact)} {record : McpTokenRecord} {op : Op}
      (hrecord : authenticated sha256Hex authorization g.tokens = some record)
      (hserves : ServesCall record.identity call op) :
      Caused sha256Hex g (.http authorization now call checks) op
  | stdio {kinds tools : Option String} {kinds' tools' : Option (List String)}
      {call : McpToolCall} {checks : Except QueueError (List WorkArtifact)} {op : Op}
      (hserves : ServesCall ⟨none, kinds', tools'⟩ call op) :
      Caused sha256Hex g (.stdio kinds tools call checks) op
  | store {op : { op : Op // op.isWorkerCall = false }} : Caused sha256Hex g (.store op) op.1

/-- **What a step does**: it adds a record, or revokes one, or calls the store once, or nothing that
counts happens. -/
inductive GatewayStep (env : Env) (sha256Hex : String → String) (g : Gateway) :
    GatewayInput → GatewayReply → Gateway → Prop
  | minted {draw : TokenDraw} {now : Time} {input : MintInput} {token : String}
      {record : McpTokenRecord} (hfresh : g.tokens.find? record.id = none)
      (hminted : WellMinted sha256Hex token record) :
      GatewayStep env sha256Hex g (.mint draw now input) (.minted token record)
        ⟨g.world, g.tokens.insert record hfresh⟩
  | revoked {id actor : String} {now : Time} {record : McpTokenRecord} {tokens : McpTokens}
      (hknown : ∃ found ∈ g.tokens.rows, found.id = record.id)
      (hrewritten : Rewritten g.tokens tokens (· = record.id)) :
      GatewayStep env sha256Hex g (.revoke id actor now) (.revoked record) ⟨g.world, tokens⟩
  | served {i : GatewayInput} {op : Op} {tokens : McpTokens} (hcaused : Caused sha256Hex g i op)
      (hrewritten : Rewritten g.tokens tokens fun _ => False) :
      GatewayStep env sha256Hex g i (.served op (op.run env g.world).1)
        ⟨(op.run env g.world).2, tokens⟩
  | idle {i : GatewayInput} {reply : GatewayReply} {tokens : McpTokens}
      (hidle : reply.isIdle = true) (hrewritten : Rewritten g.tokens tokens fun _ => False) :
      GatewayStep env sha256Hex g i reply ⟨g.world, tokens⟩

theorem tokensAfter_spec (authorization : String) (now : Time) (tokens : McpTokens) :
    Rewritten tokens (tokensAfter sha256Hex authorization now tokens) fun _ => False := by
  unfold tokensAfter
  cases bearer authorization with
  | none => exact Rewritten.refl
  | some presented => exact verifyMcpToken_spec presented

/-- **Every step is one of these.** -/
theorem gatewayStep_cases (g : Gateway) (i : GatewayInput) :
    GatewayStep env sha256Hex g i (gatewayStep env sha256Hex schema g i).1
      (gatewayStep env sha256Hex schema g i).2 := by
  unfold gatewayStep
  cases i with
  | mint draw now input =>
    dsimp only
    cases hmint : mintMcpToken sha256Hex draw now input g.tokens with
    | error e => exact .idle rfl Rewritten.refl
    | ok minted =>
      rcases minted with ⟨⟨token, record⟩, tokens⟩
      obtain ⟨hfresh, htokens, hminted⟩ := mintMcpToken_spec hmint
      dsimp only
      rw [htokens]
      exact .minted hfresh hminted
  | revoke id actor now =>
    dsimp only
    cases hrevoke : revokeMcpToken id actor now g.tokens with
    | error e => exact .idle rfl Rewritten.refl
    | ok revoked =>
      rcases revoked with ⟨record, tokens⟩
      obtain ⟨hknown, hrewritten⟩ := revokeMcpToken_spec hrevoke
      exact .revoked hknown hrewritten
  | http authorization now call checks =>
    have htokens := @tokensAfter_spec sha256Hex authorization now g.tokens
    dsimp only
    cases hrecord : authenticated sha256Hex authorization g.tokens with
    | none => exact .idle rfl htokens
    | some record =>
      rcases @callTool_cases env schema record.identity call checks g.world with
        ⟨op, hserves, hcall⟩ | ⟨hidle, hworld⟩
      · dsimp only
        rw [hcall]
        exact .served (.http hrecord hserves) htokens
      · dsimp only
        rw [hworld]
        exact .idle hidle htokens
  | stdio kinds tools call checks =>
    dsimp only
    cases mcpKindsFromEnvironment kinds with
    | error e => exact .idle rfl Rewritten.refl
    | ok kinds' =>
      cases mcpToolsFromEnvironment tools with
      | error e => exact .idle rfl Rewritten.refl
      | ok tools' =>
        rcases @callTool_cases env schema ⟨none, kinds', tools'⟩ call checks g.world with
          ⟨op, hserves, hcall⟩ | ⟨hidle, hworld⟩
        · dsimp only
          rw [hcall]
          exact .served (.stdio hserves) Rewritten.refl
        · dsimp only
          rw [hworld]
          exact .idle hidle Rewritten.refl
  | store op => exact .served .store Rewritten.refl

/-! ## The queue behind the gateway -/

/-- The step of the queue that a step of the gateway took. -/
def queueEntry (e : Machine.Entry Gateway GatewayInput GatewayReply) :
    Option (Machine.Entry World Op Outcome) :=
  match e.output with
  | .served op outcome => some ⟨e.before.world, op, outcome, e.next.world⟩
  | _ => none

theorem queueEntry_served {e : Machine.Entry Gateway GatewayInput GatewayReply} {op : Op}
    {outcome : Outcome} (h : e.output = .served op outcome) :
    queueEntry e = some ⟨e.before.world, op, outcome, e.next.world⟩ := by
  unfold queueEntry
  rw [h]

theorem queueEntry_eq_some {e : Machine.Entry Gateway GatewayInput GatewayReply}
    {f : Machine.Entry World Op Outcome} (h : queueEntry e = some f) :
    e.output = .served f.input f.output ∧ e.before.world = f.before := by
  unfold queueEntry at h
  cases ho : e.output with
  | served op outcome =>
    rw [ho] at h
    obtain rfl := Option.some.inj h
    exact ⟨rfl, rfl⟩
  | _ =>
    rw [ho] at h
    cases h

/-- **A step as the queue sees it**: a call, or nothing. -/
theorem queueEntry_cases (g : Gateway) (i : GatewayInput) :
    (∃ op, queueEntry ((gateway env sha256Hex schema).entry g i) =
        some ((queue env).entry g.world op) ∧
        (gatewayStep env sha256Hex schema g i).2.world = (op.run env g.world).2) ∨
      queueEntry ((gateway env sha256Hex schema).entry g i) = none ∧
        (gatewayStep env sha256Hex schema g i).2.world = g.world := by
  have hstep := @gatewayStep_cases env sha256Hex schema g i
  unfold Machine.entry queueEntry
  change GatewayStep env sha256Hex g i ((gateway env sha256Hex schema).step g i).1
    ((gateway env sha256Hex schema).step g i).2 at hstep
  change (∃ op, _ ∧ ((gateway env sha256Hex schema).step g i).2.world = _) ∨
    _ ∧ ((gateway env sha256Hex schema).step g i).2.world = _
  generalize ((gateway env sha256Hex schema).step g i).1 = reply at hstep ⊢
  generalize ((gateway env sha256Hex schema).step g i).2 = g' at hstep ⊢
  cases hstep with
  | minted | revoked => exact Or.inr ⟨rfl, rfl⟩
  | @served _ op => exact Or.inl ⟨op, rfl, rfl⟩
  | idle hidle =>
    refine Or.inr ⟨?_, rfl⟩
    cases reply with
    | minted | revoked | served => cases hidle
    | _ => rfl

/-- **What the queue does in a run of the gateway is a run of the queue.** -/
theorem steps_gateway (env : Env) (sha256Hex : String → String) (schema : McpToolCall → Bool)
    (inputs : List GatewayInput) :
    ∃ ops, exec env ops = ((gateway env sha256Hex schema).run inputs).world ∧
      steps env ops = ((gateway env sha256Hex schema).trace inputs).filterMap queueEntry := by
  refine (gateway env sha256Hex schema).history
    (P := fun trace g => ∃ ops, exec env ops = g.world ∧ steps env ops = trace.filterMap queueEntry)
    ⟨[], rfl, rfl⟩ (fun inputs i => ?_) inputs
  rintro ⟨ops, hworld, hsteps⟩
  generalize (gateway env sha256Hex schema).run inputs = g at hworld ⊢
  rw [List.filterMap_append, ← hsteps]
  rcases @queueEntry_cases env sha256Hex schema g i with ⟨op, hentry, hnext⟩ | ⟨hentry, hnext⟩
  · refine ⟨ops ++ [op], ?_, ?_⟩
    · rw [exec, Machine.run_concat]
      show (op.run env (exec env ops)).2 = _
      rw [hworld]
      exact hnext.symm
    · rw [List.filterMap_cons, hentry, steps, Machine.trace_concat]
      show _ ++ [(queue env).entry (exec env ops) op] = _
      rw [hworld]
      rfl
  · refine ⟨ops, hworld.trans hnext.symm, ?_⟩
    rw [List.filterMap_cons, hentry, List.filterMap_nil, List.append_nil]

end Steps

end Snowcat
