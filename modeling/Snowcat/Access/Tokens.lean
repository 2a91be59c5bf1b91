import Mathlib
import Snowcat.Queue.Validation

/-!
# Minted tokens

A member mints a token for a client, and the client presents it with every
request. The plaintext leaves once, in the answer that minted it; the table keeps
a digest of its secret (`mintMcpToken`). A presented text is worth the record it
names when its secret has the digest and nobody revoked it (`presentedRecord`);
and what it is worth – who minted it, for whom, what it may claim and call – is
what it was minted with, whatever happens to the record since (`unused`).
-/

namespace Snowcat

/-! ## Records -/

/-- **`McpTokenRecord`.** -/
structure McpTokenRecord where
  id : String
  owner : String
  client : String
  tokenHash : String
  createdAt : Time
  kinds : Option (List String)
  tools : Option (List String)
  lastUsedAt : Option Time
  revokedAt : Option Time
  revokedBy : Option String
  deriving DecidableEq, Repr

/-- The tokens, by id. -/
abbrev McpTokens : Type := Table McpTokenRecord.id

namespace McpTokenRecord

/-- What a token was minted with. -/
def unused (r : McpTokenRecord) : McpTokenRecord :=
  { r with lastUsedAt := none, revokedAt := none, revokedBy := none }

/-- The principal its requests act as. -/
def principal (r : McpTokenRecord) : String := r.owner ++ "/" ++ r.client

end McpTokenRecord

/-- Whether an actor is a member. -/
def isMember (actor : String) : Bool := startsWith (toLowerCase actor) "member:"

/-- `validateMemberPrincipal`: `/^member:[^\s:]{1,254}$/i`. -/
def validateMemberPrincipal (principal purpose : String) : Except QueueError String := do
  let identity := trim principal
  let name := identity.toList.drop 7
  refuseIf (isMember identity = false ∨ name = [] ∨ 254 < jsLength (String.ofList name) ∨
      ∃ c ∈ name, isSpace c = true ∨ c = ':')
    (.error s!"{purpose} must be a member: principal")
  pure identity

/-- The name of a client: a letter or a digit, and then those, spaces and some punctuation. -/
def tokenClient : Pattern :=
  .seq (.one Patterns.alphanumeric)
    (.star (.one fun c => Patterns.alphanumeric c || c ∈ [' ', '.', '_', ':', '@', '/', '-']))

/-- What is asked for with a token. -/
structure MintInput where
  owner : String
  client : String
  kinds : Option (List String) := none
  tools : Option (List String) := none
  deriving DecidableEq, Repr

/-- `[A-Za-z0-9_-]`. -/
def isBase64Url (c : Char) : Bool := Patterns.alphanumeric c || c == '_' || c == '-'

/-- What is drawn for a token: eight bytes in hexadecimal digits, and twenty-four in
the letters of `base64url`. -/
structure TokenDraw where
  id : String
  secret : String
  id_hex : id.toList.length = 16 ∧ id.toList.all Patterns.hexDigit = true
  secret_base64url : 20 ≤ secret.toList.length ∧ secret.toList.all isBase64Url = true

/-- The text of a token. -/
def tokenText (id secret : String) : String := "snowcat_" ++ id ++ "_" ++ secret

/-- `/^snowcat_([0-9a-f]{16})_([A-Za-z0-9_-]{20,})$/`, and what it captures. -/
def parseToken (presented : String) : Option (String × String) :=
  let text := (trim presented).toList
  let id := (text.drop 8).take 16
  let secret := text.drop 25
  if text.take 8 = "snowcat_".toList ∧ id.length = 16 ∧ id.all Patterns.hexDigit = true ∧
      (text.drop 24).take 1 = ['_'] ∧ 20 ≤ secret.length ∧ secret.all isBase64Url = true then
    some (String.ofList id, String.ofList secret)
  else none

section Operations

variable (sha256Hex : String → String)

/-- What `mintMcpToken` stores. -/
def mintedRecord (draw : TokenDraw) (now : Time) (owner client : String)
    (kinds tools : Option (List String)) : McpTokenRecord where
  id := draw.id
  owner
  client
  tokenHash := sha256Hex draw.secret
  createdAt := now
  kinds
  tools
  lastUsedAt := none
  revokedAt := none
  revokedBy := none

/-- **`mintMcpToken`**: the plaintext and the record, and the table. -/
def mintMcpToken (draw : TokenDraw) (now : Time) (input : MintInput) (tokens : McpTokens) :
    Except QueueError ((String × McpTokenRecord) × McpTokens) := do
  let owner ← validateMemberPrincipal input.owner "token owner"
  let client := trim input.client
  refuseIf (client = "" ∨ 100 < jsLength client ∨ tokenClient.test client = false) (.error
    ("token client must be a short human-readable name " ++
      "(letters, digits, space, . _ : @ / -)"))
  let kinds ← checkSome (validateWorkKinds · "token kinds") input.kinds
  let tools ← checkSome (validateMcpTools · "token tools") input.tools
  let record := mintedRecord sha256Hex draw now owner client kinds tools
  if h : tokens.find? record.id = none then
    pure ((tokenText draw.id draw.secret, record), tokens.insert record h)
  else .error (.error "UNIQUE constraint failed: mcp_tokens.id")

/-- How long a use goes unrecorded after another, in milliseconds. -/
def lastUsedResolution : Time := 60000

/-- Record a use, once a minute at most. -/
def touch (now : Time) (record : McpTokenRecord) : McpTokenRecord :=
  if record.lastUsedAt.all fun lastUsedAt => lastUsedResolution < now - lastUsedAt then
    { record with lastUsedAt := some now }
  else record

theorem id_touch (now : Time) (record : McpTokenRecord) : (touch now record).id = record.id := by
  unfold touch
  split <;> rfl

/-- The record a presented text is worth. -/
def presentedRecord (presented : String) (tokens : McpTokens) : Option McpTokenRecord :=
  (parseToken presented).bind fun captured =>
    (tokens.find? captured.1).filter fun record =>
      record.revokedAt = none && sha256Hex captured.2 = record.tokenHash

/-- **`verifyMcpToken`.** -/
def verifyMcpToken (presented : String) (now : Time) (tokens : McpTokens) :
    Option McpTokenRecord × McpTokens :=
  match presentedRecord sha256Hex presented tokens with
  | none => (none, tokens)
  | some record =>
    (some (touch now record), tokens.modify record.id (touch now) (id_touch now))

end Operations

/-- A record that is revoked. -/
def McpTokenRecord.revoked (now : Time) (principal : String) (record : McpTokenRecord) :
    McpTokenRecord :=
  { record with revokedAt := some now, revokedBy := some principal }

theorem id_revoked (now : Time) (principal : String) (record : McpTokenRecord) :
    (record.revoked now principal).id = record.id := rfl

/-- **`revokeMcpToken`.** -/
def revokeMcpToken (id actor : String) (now : Time) (tokens : McpTokens) :
    Except QueueError (McpTokenRecord × McpTokens) := do
  let principal ← validateOperatorActor actor "token revocation"
  match tokens.find? id with
  | none => .error (.error s!"token not found: {id}")
  | some record =>
    if isMember principal = true ∧ toLowerCase principal ≠ toLowerCase record.owner then
      .error (.error s!"token {id} belongs to {record.owner}")
    else if record.revokedAt ≠ none then pure (record, tokens)
    else pure (record.revoked now principal,
      tokens.modify id (McpTokenRecord.revoked now principal) (id_revoked now principal))

/-- `listMcpTokens`: newest first, with no digest. -/
def listMcpTokens (owner : Option String) (tokens : McpTokens) : List McpTokenRecord :=
  ((tokens.rows.filter fun record =>
    (owner.filter fun owner => owner ≠ "").all fun owner => record.owner = owner).mergeSort
    fun a b => decide (b.createdAt ≤ a.createdAt)).map fun record => { record with tokenHash := "" }

/-! ## Texts of tokens -/

/-- The characters between the space and the Latin-1 letters are no white space. -/
theorem not_space_of_lt {c : Char} (hlow : 0x20 < c.val.toNat) (hhigh : c.val.toNat < 0xA0) :
    isSpace c = false := by
  have hne : ∀ v : UInt32, v.toNat ≤ 0x20 ∨ 0xA0 ≤ v.toNat → c.val ≠ v := by
    rintro v hv rfl
    omega
  simp only [isSpace, List.mem_cons, List.not_mem_nil, or_false, Bool.or_eq_false_iff,
    decide_eq_false_iff_not, Bool.and_eq_false_iff, not_or, UInt32.le_iff_toNat_le]
  refine ⟨?_, Or.inl ?_⟩
  · refine ⟨?_, ?_, ?_, ?_, ?_, ?_, ?_, ?_, ?_, ?_, ?_, ?_, ?_, ?_⟩ <;>
      exact hne _ (by decide)
  · rw [not_le]
    exact lt_of_lt_of_le hhigh (by decide)

theorem not_space_of_base64Url {c : Char} (h : isBase64Url c = true) : isSpace c = false := by
  have hrange : ∀ a b : Char, 0x20 < a.val.toNat → b.val.toNat < 0xA0 → a ≤ c → c ≤ b →
      isSpace c = false := by
    intro a b ha hb hac hcb
    rw [Char.le_def, UInt32.le_iff_toNat_le] at hac hcb
    exact not_space_of_lt (lt_of_lt_of_le ha hac) (lt_of_le_of_lt hcb hb)
  unfold isBase64Url Patterns.alphanumeric Patterns.lowerLetter Patterns.digit at h
  simp only [Bool.or_eq_true, Bool.and_eq_true, decide_eq_true_eq, beq_iff_eq] at h
  rcases h with (((⟨ha, hb⟩ | ⟨ha, hb⟩) | ⟨ha, hb⟩) | rfl) | rfl
  · exact hrange 'a' 'z' (by decide) (by decide) ha hb
  · exact hrange 'A' 'Z' (by decide) (by decide) ha hb
  · exact hrange '0' '9' (by decide) (by decide) ha hb
  · rfl
  · rfl

theorem base64Url_of_hexDigit {c : Char} (h : Patterns.hexDigit c = true) :
    isBase64Url c = true := by
  unfold Patterns.hexDigit at h
  unfold isBase64Url Patterns.alphanumeric Patterns.lowerLetter
  rcases Bool.or_eq_true _ _ ▸ h with hdigit | hletter
  · rw [hdigit]
    simp
  · simp only [Bool.and_eq_true, decide_eq_true_eq] at hletter
    have hz : c ≤ 'z' := hletter.2.trans (by decide)
    simp [hletter.1, hz]

theorem toList_tokenText (id secret : String) : (tokenText id secret).toList =
    "snowcat_".toList ++ (id.toList ++ ('_' :: secret.toList)) := by
  unfold tokenText
  simp [String.toList_append]

theorem spaceless_tokenText (draw : TokenDraw) :
    ∀ c ∈ (tokenText draw.id draw.secret).toList, isSpace c = false := by
  intro c hc
  rw [toList_tokenText, List.mem_append, List.mem_append, List.mem_cons] at hc
  rcases hc with hc | hc | rfl | hc
  · have hprefix : "snowcat_".toList.all (fun c => !isSpace c) = true := by decide
    simpa using List.all_eq_true.mp hprefix c hc
  · exact not_space_of_base64Url (base64Url_of_hexDigit (List.all_eq_true.mp draw.id_hex.2 c hc))
  · rfl
  · exact not_space_of_base64Url (List.all_eq_true.mp draw.secret_base64url.2 c hc)

/-- **What is minted can be read.** -/
theorem parseToken_tokenText (draw : TokenDraw) :
    parseToken (tokenText draw.id draw.secret) = some (draw.id, draw.secret) := by
  obtain ⟨hlength, hhex⟩ := draw.id_hex
  obtain ⟨hlong, hurl⟩ := draw.secret_base64url
  have hlen : "snowcat_".toList.length = 8 := by decide
  unfold parseToken
  rw [trim_eq_self (spaceless_tokenText draw), toList_tokenText]
  have hid : ((("snowcat_".toList ++ (draw.id.toList ++ ('_' :: draw.secret.toList))).drop 8).take
      16) = draw.id.toList := by
    rw [List.drop_left' hlen, List.take_left' hlength]
  have hmark : (("snowcat_".toList ++ (draw.id.toList ++ ('_' :: draw.secret.toList))).drop 24) =
      '_' :: draw.secret.toList := by
    rw [← List.append_assoc, List.drop_left' (by rw [List.length_append, hlen, hlength])]
  have hsecret : (("snowcat_".toList ++ (draw.id.toList ++ ('_' :: draw.secret.toList))).drop 25) =
      draw.secret.toList := by
    rw [show 25 = 24 + 1 from rfl, ← List.drop_drop, hmark]
    rfl
  dsimp only
  rw [hid, hmark, hsecret, if_pos ⟨List.take_left' hlen, hlength, hhex, rfl, hlong, hurl⟩,
    String.ofList_toList, String.ofList_toList]

/-! ## What is done to the tokens -/

section Specs

variable {sha256Hex : String → String} {tokens tokens' : McpTokens} {now : Time}

/-- **What a minting established.** -/
structure WellMinted (sha256Hex : String → String) (token : String) (record : McpTokenRecord) :
    Prop where
  text : ∃ secret, parseToken token = some (record.id, secret) ∧
    sha256Hex secret = record.tokenHash
  spaceless : token ≠ "" ∧ ∀ c ∈ token.toList, isSpace c = false
  owner : isMember record.owner = true
  kinds : ∀ kinds ∈ record.kinds, ∀ kind ∈ kinds, Patterns.workKind.test kind = true
  tools : ∀ tools ∈ record.tools, ∀ tool ∈ tools, tool ∈ mcpToolNames
  unused : record.unused = record

theorem mem_of_validateMcpTools {tools unique : List String} {purpose : String}
    (h : validateMcpTools tools purpose = .ok unique) :
    (∀ t, t ∈ unique ↔ t ∈ tools.map trim) ∧ ∀ t ∈ unique, t ∈ mcpToolNames := by
  simp only [validateMcpTools, except_bind_eq_ok, refuseEach_eq_ok, refuseIf_eq_ok,
    except_pure_eq_ok] at h
  obtain ⟨_, hname, _, -, rfl⟩ := h
  exact ⟨fun t => mem_sortedUnique, fun t ht => not_not.mp (hname t (mem_sortedUnique.mp ht))⟩

/-- **A minting** adds a record under an id no record had. -/
theorem mintMcpToken_spec {draw : TokenDraw} {input : MintInput} {token : String}
    {record : McpTokenRecord}
    (h : mintMcpToken sha256Hex draw now input tokens = .ok ((token, record), tokens')) :
    ∃ hfresh : tokens.find? record.id = none,
      tokens' = tokens.insert record hfresh ∧ WellMinted sha256Hex token record := by
  simp only [mintMcpToken, except_bind_eq_ok, refuseIf_eq_ok] at h
  obtain ⟨owner, howner, _, -, kinds, hkinds, tools, htools, h⟩ := h
  by_cases hfresh : tokens.find? (mintedRecord sha256Hex draw now owner (trim input.client) kinds
      tools).id = none
  · rw [dif_pos hfresh, except_pure_eq_ok] at h
    obtain ⟨hpair, rfl⟩ := Prod.mk.inj h
    obtain ⟨rfl, rfl⟩ := Prod.mk.inj hpair
    refine ⟨hfresh, rfl, ⟨draw.secret, parseToken_tokenText draw, rfl⟩, ?_, ?_, ?_, ?_, rfl⟩
    · refine ⟨fun h => ?_, spaceless_tokenText draw⟩
      have hnil := congrArg String.toList h
      rw [toList_tokenText] at hnil
      cases hnil
    · simp only [validateMemberPrincipal, except_bind_eq_ok, refuseIf_eq_ok,
        except_pure_eq_ok] at howner
      obtain ⟨_, hmember, rfl⟩ := howner
      exact Bool.not_eq_false _ |>.mp fun h => hmember (Or.inl h)
    · intro kinds' hkinds' kind hkind
      obtain ⟨-, hnone⟩ | ⟨_, unique, -, hunique, rfl⟩ := checkSome_eq_ok.mp hkinds
      · rw [hnone] at hkinds'
        cases hkinds'
      · obtain rfl := Option.some.inj hkinds'
        exact (validateWorkKinds_spec hunique).2.1 kind hkind
    · intro tools' htools' tool htool
      obtain ⟨-, hnone⟩ | ⟨_, unique, -, hunique, rfl⟩ := checkSome_eq_ok.mp htools
      · rw [hnone] at htools'
        cases htools'
      · obtain rfl := Option.some.inj htools'
        exact (mem_of_validateMcpTools hunique).2 tool htool
  · rw [dif_neg hfresh] at h
    cases h

/-- **Records that are rewritten** stay what they were minted with, and those of some ids are revoked
besides those that were. -/
structure Rewritten (tokens tokens' : McpTokens) (revokes : String → Prop) : Prop where
  back : ∀ record' ∈ tokens'.rows, ∃ record ∈ tokens.rows, record'.unused = record.unused ∧
    (record'.revokedAt ≠ none ↔ record.revokedAt ≠ none ∨ revokes record.id)
  kept : ∀ record ∈ tokens.rows, ∃ record' ∈ tokens'.rows, record'.unused = record.unused

theorem Rewritten.refl : Rewritten tokens tokens fun _ => False where
  back record h := ⟨record, h, rfl, (or_iff_left not_false).symm⟩
  kept record h := ⟨record, h, rfl⟩

theorem id_eq_of_unused {record record' : McpTokenRecord} (h : record.unused = record'.unused) :
    record.id = record'.id := by
  have hid := congrArg McpTokenRecord.id h
  exact hid

/-- Rewriting the record of an id. -/
theorem Rewritten.modify {id : String} {f : McpTokenRecord → McpTokenRecord}
    {hf : ∀ record, (f record).id = record.id} {revokes : String → Prop}
    (hunused : ∀ record, (f record).unused = record.unused)
    (hrevoked : ∀ record ∈ tokens.rows, record.id = id → ((f record).revokedAt ≠ none ↔
      record.revokedAt ≠ none ∨ revokes record.id))
    (honly : ∀ other, revokes other → other = id) :
    Rewritten tokens (tokens.modify id f hf) revokes where
  back record' h := by
    obtain ⟨record, hrecord, rfl⟩ := List.mem_map.mp h
    refine ⟨record, hrecord, ?_⟩
    by_cases hid : record.id = id
    · rw [if_pos hid]
      exact ⟨hunused record, hrevoked record hrecord hid⟩
    · rw [if_neg hid]
      exact ⟨rfl, (or_iff_left fun h => hid (honly _ h)).symm⟩
  kept record h := by
    refine ⟨_, List.mem_map_of_mem h, ?_⟩
    by_cases hid : record.id = id
    · rw [if_pos hid]
      exact hunused record
    · rw [if_neg hid]

/-- A use changes nothing that counts. -/
theorem verifyMcpToken_spec (presented : String) :
    Rewritten tokens (verifyMcpToken sha256Hex presented now tokens).2 fun _ => False := by
  have htouch : ∀ record, (touch now record).unused = record.unused ∧
      (touch now record).revokedAt = record.revokedAt := by
    intro record
    unfold touch
    split <;> exact ⟨rfl, rfl⟩
  unfold verifyMcpToken
  cases presentedRecord sha256Hex presented tokens with
  | none => exact Rewritten.refl
  | some record =>
    refine @Rewritten.modify _ _ _ (id_touch now) _ (fun record => (htouch record).1)
      (fun record _ _ => ?_) fun _ h => h.elim
    rw [(htouch record).2]
    exact (or_iff_left not_false).symm

/-- **A revocation** revokes the record of its id, and no other. -/
theorem revokeMcpToken_spec {id actor : String} {record : McpTokenRecord}
    (h : revokeMcpToken id actor now tokens = .ok (record, tokens')) :
    (∃ found ∈ tokens.rows, found.id = record.id) ∧ Rewritten tokens tokens' (· = record.id) := by
  simp only [revokeMcpToken, except_bind_eq_ok] at h
  obtain ⟨principal, -, h⟩ := h
  cases hfound : tokens.find? id with
  | none =>
    rw [hfound] at h
    cases h
  | some found =>
    have hmem : found ∈ tokens.rows := Table.mem_of_find? hfound
    obtain rfl : found.id = id := Table.key_of_find? hfound
    rw [hfound] at h
    dsimp only at h
    by_cases hforeign : isMember principal = true ∧ toLowerCase principal ≠ toLowerCase found.owner
    · rw [if_pos hforeign] at h
      cases h
    rw [if_neg hforeign] at h
    by_cases hrevoked : found.revokedAt ≠ none
    · rw [if_pos hrevoked, except_pure_eq_ok] at h
      obtain ⟨rfl, rfl⟩ := Prod.mk.inj h
      refine ⟨⟨found, hmem, rfl⟩, fun record' h => ⟨record', h, rfl, ?_⟩,
        fun record h => ⟨record, h, rfl⟩⟩
      refine (or_iff_left_of_imp fun hid => ?_).symm
      obtain rfl := Option.some.inj (hfound.symm.trans (hid ▸ Table.find?_key h))
      exact hrevoked
    · rw [if_neg hrevoked, except_pure_eq_ok] at h
      obtain ⟨rfl, rfl⟩ := Prod.mk.inj h
      refine ⟨⟨found, hmem, rfl⟩,
        @Rewritten.modify _ _ _ (id_revoked now principal) _ (fun _ => rfl) (fun record _ hid => ?_)
          fun _ h => h⟩
      exact iff_of_true (Option.some_ne_none now) (Or.inr hid)

end Specs

end Snowcat
