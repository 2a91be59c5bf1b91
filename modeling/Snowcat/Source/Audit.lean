import Mathlib
import Snowcat.Source.Delivery
import Snowcat.Sweep.Review

/-!
# Auditing the deliveries of an App

`auditGitHubAppDeliveries` reads the list of the deliveries GitHub has made
to an App, page after page, each page from the link the page before it names.
A page is asked for with the App's authorization and may be answered by one
redirect; its items are checked, its deliveries are kept, and it is an end
when it names no next link. Whatever else an answer is, the audit ends as an
incomplete one.

What `new URL`, `JSON.parse` and `new Date` make of a text is the platform's,
as are the digests. GitHub answers each request as it likes, by the number of
requests before it.
-/

namespace Snowcat

open Patterns Pattern
open Calendar (Instant)

/-! ## What is outside -/

/-- What the stream of a body hands over: the chunks that are read, and
whether the read behind them fails. -/
structure ResponseBody where
  chunks : List (List UInt8)
  fails : Bool

/-- A `Response`: its status, what `headers.get` answers to the name of a
header, and its body. -/
structure HttpResponse where
  status : ℕ
  header : String → Option String
  body : Option ResponseBody

/-- A `URL`, with its text, its origin and the list of its `searchParams`. -/
structure ParsedUrl extends Url where
  href : String
  origin : String
  searchParams : List (String × String)

/-- `PageProof`. -/
structure PageProof where
  requestUrl : String
  responseDigest : String
  itemCount : ℕ
  nextUrl : Option String
  deriving DecidableEq, Repr

/-- **What an audit meets outside.** What answers by `ℕ` answers by the number
of requests sent so far. -/
structure AuditPlatform where
  /-- What `getAppJwt` answers, when it does so in time. -/
  getAppJwt : ℕ → Option String
  /-- What `fetcher` answers to a request for a URL, when it does so in time. -/
  fetch : ℕ → String → Option HttpResponse
  /-- `new URL(value, base)`. -/
  url : String → String → Option ParsedUrl
  /-- `JSON.parse` of the UTF-8 text some bytes are. -/
  json : List UInt8 → Option Json
  /-- `new Date(value)`. -/
  date : String → Option Instant
  /-- The SHA-256 of some bytes, in hexadecimal. -/
  sha256 : List UInt8 → String
  /-- `sha256(canonicalJson(pageProofs))`. -/
  proofDigest : List PageProof → String

/-! ## The results -/

/-- `GitHubPullRequestDeliverySummary`, but for its `event`, which is
`pull_request`. -/
structure GitHubPullRequestDeliverySummary where
  deliveryId : String
  deliveryGuid : String
  deliveredAt : Instant
  redelivery : Bool
  statusCode : ℤ
  action : String
  actionSupported : Bool
  installationId : String
  repositoryId : String
  deriving DecidableEq

/-- The causes of an incomplete audit. -/
inductive AuditCause where
  | sourceUnavailable
  | paginationIncomplete
  | requestBudgetExhausted
  | normalizationFailed
  deriving DecidableEq, Repr

/-- The diagnostics of an incomplete audit. -/
inductive AuditDiagnostic where
  | authorizationUnavailable
  | requestFailed
  | responseStatus
  | rateLimited
  | responseTooLarge
  | invalidJson
  | invalidPage
  | invalidPagination
  | pageLimit
  deriving DecidableEq, Repr

/-- `AuditFailure`. -/
structure AuditFailure where
  cause : AuditCause
  diagnostic : AuditDiagnostic
  retryAt : Option Instant
  deriving DecidableEq

namespace AuditFailure

/-- What is made of a throw that is no `AuditFailure`. -/
def requestFailed : AuditFailure := ⟨.sourceUnavailable, .requestFailed, none⟩

/-- A link the audit does not follow. -/
def invalidPagination : AuditFailure := ⟨.paginationIncomplete, .invalidPagination, none⟩

/-- A page that is not what a page is. -/
def invalidPage : AuditFailure := ⟨.normalizationFailed, .invalidPage, none⟩

/-- A page too many. -/
def pageLimit : AuditFailure := ⟨.requestBudgetExhausted, .pageLimit, none⟩

/-- A body that is too long. -/
def tooLarge : AuditFailure := ⟨.requestBudgetExhausted, .responseTooLarge, none⟩

end AuditFailure

/-- `GitHubDeliveryAuditResult`. -/
inductive GitHubDeliveryAuditResult where
  | complete (appId : String) (coveredThrough : Instant) (pageCount deliveryCount : ℕ)
      (pageProofDigest : String) (deliveries : List GitHubPullRequestDeliverySummary)
  | incomplete (appId : String) (attemptedAt : Instant) (cause : AuditCause)
      (pageCount deliveryCount : ℕ) (retryAt : Option Instant) (diagnostic : AuditDiagnostic)
  deriving DecidableEq

/-- What an audit has read so far, and the URLs it has requested. -/
structure AuditRun where
  requested : List String
  visitedUrls : List String
  deliveryIds : List String
  deliveries : List GitHubPullRequestDeliverySummary
  pageProofs : List PageProof
  deriving DecidableEq

/-- A computation of an audit. -/
abbrev AuditTx : Type → Type := Tx AuditRun AuditFailure

/-! ## The times of `Date` -/

/-- `Date.prototype.getTime`. -/
def getTime (i : Instant) : ℤ :=
  -- years are counted from March, so that the leap day is the last one
  let year : ℤ := if i.month ≤ 2 then i.year - 1 else i.year
  let dayOfYear : ℤ := (153 * ((i.month + 9) % 12) + 2) / 5 + i.day - 1
  let days : ℤ := 365 * year + year / 4 - year / 100 + year / 400 + dayOfYear - 719468
  ((((days * 24 + i.hour) * 60 + i.minute) * 60 + i.second) * 1000 + i.milli)

/-- `new Date(time)`, when it is a valid one. -/
def dateOfTime? (time : ℤ) : Option Instant :=
  let days := time / 86400000 + 719468
  let era := days / 146097
  let dayOfEra := days % 146097
  let yearOfEra := (dayOfEra - dayOfEra / 1460 + dayOfEra / 36524 - dayOfEra / 146096) / 365
  let dayOfYear := dayOfEra - (365 * yearOfEra + yearOfEra / 4 - yearOfEra / 100)
  let month := (5 * dayOfYear + 2) / 153
  let year := yearOfEra + era * 400
  let milli := (time % 86400000).toNat
  Instant.ofFields? (if month < 10 then year else year + 1)
    (if month < 10 then month + 3 else month - 9).toNat
    (dayOfYear - (153 * month + 2) / 5 + 1).toNat (milli / 3600000) (milli / 60000 % 60)
    (milli / 1000 % 60) (milli % 1000)

/-! ## The addresses -/

/-- `GITHUB_API_ORIGIN`. -/
def githubApiOrigin : String := "https://api.github.com"

/-- `DELIVERY_PATH`. -/
def deliveryPath : String := "/app/hook/deliveries"

/-- The URL an audit starts from. -/
def firstDeliveryUrl : String := githubApiOrigin ++ deliveryPath ++ "?per_page=100"

/-- `GITHUB_DELIVERY_AUDIT_MAXIMUM_PAGES`. -/
def maximumAuditPages : ℕ := 100

/-- `GITHUB_DELIVERY_AUDIT_MAXIMUM_DELIVERIES`. -/
def maximumAuditDeliveries : ℕ := 10000

/-- `GITHUB_DELIVERY_AUDIT_MAXIMUM_PAGE_BYTES`. -/
def maximumAuditPageBytes : ℕ := 1048576

/-- `validCursor`. -/
def validCursor (value : String) : Bool :=
  1 ≤ jsLength value && jsLength value ≤ 2048 &&
    value.toList.all fun c => !(c.toNat ≤ 0x20 || c.toNat = 0x7f)

/-- `url.searchParams.getAll(name)`. -/
def ParsedUrl.getAll (url : ParsedUrl) (name : String) : List String :=
  (url.searchParams.filter fun param => param.1 = name).map Prod.snd

/-- Whether a URL is one of the list of deliveries. -/
def ParsedUrl.isDeliveryList (url : ParsedUrl) : Bool :=
  url.origin == githubApiOrigin && url.pathname == deliveryPath && url.username == "" &&
    url.password == "" && url.hash == "" &&
    (url.searchParams.all fun param => param.1 == "cursor" || param.1 == "per_page") &&
    (url.getAll "per_page").length == 1 && (url.getAll "cursor").length ≤ 1 &&
    (url.getAll "per_page").head? == some "100" &&
    (url.getAll "cursor").head?.all validCursor

/-- `validatedDeliveryUrl`. -/
def validatedDeliveryUrl (p : AuditPlatform) (value : Option String) (base : String) :
    Except AuditFailure String :=
  match value with
  | none => .error .invalidPagination
  | some value =>
    if 4096 < jsLength value then .error .invalidPagination
    else
      match p.url value base with
      | none => .error .invalidPagination
      | some url => if url.isDeliveryList then .ok url.href else .error .invalidPagination

/-! ## The link to the next page -/

/-- The rounds of `splitLinkHeader`, on the characters that are left; the
characters of a part are collected from its end. -/
def splitLinkFrom (insideUrl insideQuote : Bool) (part : List Char) :
    List Char → Except AuditFailure (List (List Char))
  | [] => if insideUrl || insideQuote then .error .invalidPagination else .ok [part.reverse]
  | c :: cs =>
    if c = '<' ∧ insideQuote = false then splitLinkFrom true insideQuote (c :: part) cs
    else if c = '>' ∧ insideQuote = false then splitLinkFrom false insideQuote (c :: part) cs
    else if c = '"' ∧ insideUrl = false then splitLinkFrom insideUrl (!insideQuote) (c :: part) cs
    else if c = ',' ∧ insideUrl = false ∧ insideQuote = false then
      (splitLinkFrom insideUrl insideQuote [] cs).map (part.reverse :: ·)
    else splitLinkFrom insideUrl insideQuote (c :: part) cs

/-- `splitLinkHeader`. -/
def splitLinkHeader (value : String) : Except AuditFailure (List (List Char)) :=
  splitLinkFrom false false [] value.toList

/-- What follows a text in front of some characters, the case of its letters
aside. -/
def behindText : List Char → List Char → Option (List Char)
  | [], cs => some cs
  | _ :: _, [] => none
  | t :: ts, c :: cs => if c.toLower = t then behindText ts cs else none

/-- `/^<([^>]+)>\s*;\s*rel="([^"]+)"(?:\s*;.*)?$/i.exec(part)`: the address and
the relations of a link. -/
def execLink (part : List Char) : Option (List Char × List Char) := do
  let cs ← behindText ['<'] part
  let address := cs.takeWhile (· != '>')
  let cs ← behindText ['>'] (cs.dropWhile (· != '>'))
  let cs ← behindText [';'] (cs.dropWhile isSpace)
  let cs ← behindText "rel=\"".toList (cs.dropWhile isSpace)
  let relations := cs.takeWhile (· != '"')
  let cs ← behindText ['"'] (cs.dropWhile (· != '"'))
  -- no character ends a line behind the semicolon
  let ends := cs = [] ∨ (∃ rest ∈ behindText [';'] (cs.dropWhile isSpace),
    ∀ c ∈ rest, c ∉ ['\n', '\r', '\u2028', '\u2029'])
  if address ≠ [] ∧ relations ≠ [] ∧ ends then some (address, relations) else none

/-- Whether the relations of a link are those of a next link. -/
def isNextLink (relations : List Char) : Bool :=
  ((relations.map Char.toLower).splitOnP isSpace).contains "next".toList

/-- The round of `nextDeliveryLink` for a part. -/
def nextOfPart (p : AuditPlatform) (nextUrl : Option String) (part : List Char) :
    Except AuditFailure (Option String) :=
  match execLink (trim (String.ofList part)).toList with
  | none => .error .invalidPagination
  | some (address, relations) =>
    if isNextLink relations = false then .ok nextUrl
    else if nextUrl ≠ none then .error .invalidPagination
    else
      (validatedDeliveryUrl p (some (String.ofList address)) (githubApiOrigin ++ deliveryPath)).map
        some

/-- `nextDeliveryLink`. -/
def nextDeliveryLink (p : AuditPlatform) (value : Option String) :
    Except AuditFailure (Option String) :=
  match value with
  | none => .ok none
  | some value => do
    let parts ← splitLinkHeader value
    parts.foldlM (nextOfPart p) none

/-! ## The items of a page -/

/-- `githubId`. -/
def githubId (value : Option Json) : Except AuditFailure String :=
  match value with
  | some (.number n) =>
    if n.isSafeInteger = true ∧ 1 ≤ n.toInt then .ok n.text else .error .invalidPage
  | _ => .error .invalidPage

/-- The text of a value, when it is one and a condition accepts it. -/
def textField (accepts : String → Bool) (value : Option Json) : Except AuditFailure String :=
  match value with
  | some (.text s) => if accepts s then .ok s else .error .invalidPage
  | _ => .error .invalidPage

/-- `deliveryGuid`. -/
def deliveryGuid (value : Option Json) : Except AuditFailure String :=
  (textField (fun s => Patterns.deliveryGuid.test (toLowerCase s)) value).map toLowerCase

/-- `/(?:Z|[+-][0-9]{2}:[0-9]{2})$/`. -/
def endsInZone (s : String) : Bool :=
  let two : Pattern := times (.one digit) 2
  endsWith s "Z" ||
    (all [.one fun c => c == '+' || c == '-', two, lit ":", two]).matcher
      (s.toList.drop (s.toList.length - 6))

/-- `sourceInstant`. -/
def sourceInstant (p : AuditPlatform) (value : Option Json) : Except AuditFailure Instant := do
  let text ← textField endsInZone value
  (p.date text).elim (.error .invalidPage) .ok

/-- `booleanValue`. -/
def booleanValue (value : Option Json) : Except AuditFailure Bool :=
  match value with
  | some (.bool b) => .ok b
  | _ => .error .invalidPage

/-- `statusCode`. -/
def statusCode (value : Option Json) : Except AuditFailure ℤ :=
  match value with
  | some (.number n) =>
    if n.isSafeInteger = true ∧ 0 ≤ n.toInt ∧ n.toInt ≤ 599 then .ok n.toInt
    else .error .invalidPage
  | _ => .error .invalidPage

/-- `boundedAction`. -/
def boundedAction (value : Option Json) : Except AuditFailure String :=
  textField
    (Pattern.seq (.one lowerLetter)
      (upTo (.one fun c => lowerLetter c || digit c || c == '_') 99)).test value

/-- `githubPullRequestActions`. -/
def githubPullRequestActions : List String :=
  ["opened", "reopened", "synchronize", "edited", "ready_for_review", "converted_to_draft",
    "closed"]

/-- An item of a page: the delivery's ID, and the delivery when it is one of a
pull request. -/
structure DeliverySummary where
  deliveryId : String
  pullRequest : Option GitHubPullRequestDeliverySummary
  deriving DecidableEq

/-- The delivery of a pull request that an item describes. -/
def pullRequestSummary (p : AuditPlatform) (item : Json) (deliveryId : String) :
    Except AuditFailure GitHubPullRequestDeliverySummary := do
  let action ← boundedAction (item.field "action")
  let guid ← deliveryGuid (item.field "guid")
  let deliveredAt ← sourceInstant p (item.field "delivered_at")
  let redelivery ← booleanValue (item.field "redelivery")
  let code ← statusCode (item.field "status_code")
  let installationId ← githubId (item.field "installation_id")
  let repositoryId ← githubId (item.field "repository_id")
  pure
    { deliveryId, deliveryGuid := guid, deliveredAt, redelivery, statusCode := code, action
      actionSupported := githubPullRequestActions.contains action
      installationId := s!"github.com:installation:{installationId}"
      repositoryId := s!"github.com:{repositoryId}" }

/-- `normalizeDeliverySummary`. -/
def normalizeDeliverySummary (p : AuditPlatform) (item : Json) :
    Except AuditFailure DeliverySummary := do
  let event ← textField (fun s => 1 ≤ jsLength s && jsLength s ≤ 100) (item.field "event")
  let deliveryId ← githubId (item.field "id")
  if event ≠ "pull_request" then pure ⟨deliveryId, none⟩
  else
    let summary ← pullRequestSummary p item deliveryId
    pure ⟨deliveryId, some summary⟩

/-! ## Reading a page -/

/-- `isAppJwt`. -/
def isAppJwt (value : String) : Bool :=
  let part : Pattern := plus (.one fun c => alphanumeric c || c == '_' || c == '-')
  32 ≤ jsLength value && jsLength value ≤ 4096 &&
    (all [part, lit ".", part, lit ".", part]).test value

/-- `isRedirect`. -/
def isRedirect (status : ℕ) : Bool := [301, 302, 303, 307, 308].contains status

/-- The number that some digits are, at least one of them and at most so many. -/
def digitsUpTo (count : ℕ) (value : Option String) : Option ℕ :=
  value.bind fun text =>
    if (Pattern.seq (.one digit) (upTo (.one digit) (count - 1))).test text then
      Instant.number? text.toList
    else none

/-- The times at which a response allows another request, in milliseconds. -/
def retryCandidates (response : HttpResponse) (attemptedAt : Instant) : List ℤ :=
  ((digitsUpTo 8 (response.header "retry-after")).map fun seconds =>
      getTime attemptedAt + seconds * 1000).toList ++
    if response.header "x-ratelimit-remaining" = some "0" then
      ((digitsUpTo 12 (response.header "x-ratelimit-reset")).map fun seconds =>
        (seconds * 1000 : ℤ)).toList
    else []

/-- `safeRetryAt`. `toISOString` throws at a time that no `Date` has. -/
def safeRetryAt (response : HttpResponse) (attemptedAt : Instant) :
    Except AuditFailure (Option Instant) :=
  match (retryCandidates response attemptedAt).max? with
  | none => .ok none
  | some time => (dateOfTime? time).elim (.error .requestFailed) (.ok ∘ some)

/-- `validDeclaredLength`. -/
def validDeclaredLength (value : String) : Bool :=
  (Pattern.alt (lit "0") (.seq (.one nonzeroDigit) (upTo (.one digit) 9))).test value &&
    (Instant.number? value.toList).all (· ≤ maximumAuditPageBytes)

/-- The chunks that are left of a body, behind so many bytes. -/
def readChunks (fails : Bool) (total : ℕ) :
    List (List UInt8) → Except AuditFailure (List (List UInt8))
  | [] => if fails then .error .requestFailed else .ok []
  | chunk :: chunks =>
    if maximumAuditPageBytes < total + chunk.length then .error .tooLarge
    else (readChunks fails (total + chunk.length) chunks).map (chunk :: ·)

/-- `readBoundedResponse`. -/
def readBoundedResponse (response : HttpResponse) : Except AuditFailure (List UInt8) :=
  match response.body with
  | none => .ok []
  | some body => (readChunks body.fails 0 body.chunks).map List.flatten

/-- `PageResult`. -/
structure PageResult where
  response : HttpResponse
  bytes : List UInt8

/-- What `fetchPage` makes of a response that is no redirect. -/
def pageResult (response : HttpResponse) : Except AuditFailure PageResult :=
  if response.status ≠ 200 then .ok ⟨response, []⟩
  else if (response.header "content-length").any fun length => !validDeclaredLength length then
    .error .tooLarge
  else (readBoundedResponse response).map fun bytes => ⟨response, bytes⟩

/-- The request for a URL, once the App is authorized. -/
def requestUrl (p : AuditPlatform) (url : String) : AuditTx HttpResponse := do
  let count ← Tx.read fun run => run.requested.length
  match p.getAppJwt count with
  | none => Tx.fail ⟨.sourceUnavailable, .authorizationUnavailable, none⟩
  | some jwt =>
    if isAppJwt jwt = false then
      Tx.fail ⟨.sourceUnavailable, .authorizationUnavailable, none⟩
    else do
      Tx.update fun run => { run with requested := run.requested ++ [url] }
      Tx.ofOption (p.fetch count url) .requestFailed

/-- The rounds of `fetchPage`, with so many redirects left to follow. -/
def fetchFrom (p : AuditPlatform) (attemptedAt : Instant) : ℕ → String → AuditTx PageResult
  | redirects, currentUrl => do
    let response ← requestUrl p currentUrl
    if isRedirect response.status then
      match redirects with
      | 0 => do
        let retryAt ← Tx.ofExcept (safeRetryAt response attemptedAt)
        Tx.fail ⟨.sourceUnavailable, .responseStatus, retryAt⟩
      | redirects + 1 => do
        let target ← Tx.ofExcept (validatedDeliveryUrl p (response.header "location") currentUrl)
        fetchFrom p attemptedAt redirects target
    else Tx.ofExcept (pageResult response)

/-- **`fetchPage`**, which follows one redirect. -/
def fetchPage (p : AuditPlatform) (attemptedAt : Instant) (url : String) : AuditTx PageResult :=
  fetchFrom p attemptedAt 1 url

/-- What the audit makes of a page, before its items: the values it lists. -/
def pageValues (p : AuditPlatform) (attemptedAt : Instant) (page : PageResult) :
    Except AuditFailure (List Json) :=
  if page.response.status ≠ 200 then
    (safeRetryAt page.response attemptedAt).bind fun retryAt =>
      .error ⟨.sourceUnavailable, if retryAt = none then .responseStatus else .rateLimited, retryAt⟩
  else
    match p.json page.bytes with
    | none => .error ⟨.normalizationFailed, .invalidJson, none⟩
    | some value =>
      match value.array? with
      | none => .error .invalidPage
      | some values => if 100 < values.length then .error .invalidPage else .ok values

/-- The round of an item. -/
def auditItem (p : AuditPlatform) (raw : Json) : AuditTx Unit := do
  let normalized ← Tx.ofExcept (normalizeDeliverySummary p raw)
  let deliveryIds ← Tx.read AuditRun.deliveryIds
  Tx.failIf (normalized.deliveryId ∈ deliveryIds) .invalidPagination
  Tx.update fun run =>
    { run with
      deliveryIds := run.deliveryIds ++ [normalized.deliveryId]
      deliveries := run.deliveries ++ normalized.pullRequest.toList }

/-- **The round of a page**, which returns the link to the next one. -/
def auditPage (p : AuditPlatform) (attemptedAt : Instant) (nextUrl : String) :
    AuditTx (Option String) := do
  let pageCount ← Tx.read fun run => run.pageProofs.length
  Tx.failIf (maximumAuditPages ≤ pageCount) .pageLimit
  let visitedUrls ← Tx.read AuditRun.visitedUrls
  Tx.failIf (nextUrl ∈ visitedUrls) .invalidPagination
  Tx.update fun run => { run with visitedUrls := run.visitedUrls ++ [nextUrl] }
  let page ← fetchPage p attemptedAt nextUrl
  let values ← Tx.ofExcept (pageValues p attemptedAt page)
  Tx.failIf (maximumAuditDeliveries < pageCount * 100 + values.length) .pageLimit
  let _ ← Tx.each (auditItem p) values
  let parsedNextUrl ← Tx.ofExcept (nextDeliveryLink p (page.response.header "link"))
  Tx.update fun run =>
    { run with
      pageProofs := run.pageProofs ++
        [⟨nextUrl, "sha256:" ++ p.sha256 page.bytes, values.length, parsedNextUrl⟩] }
  pure parsedNextUrl

/-- The loop over the pages, for so many rounds: the round behind
`maximumAuditPages` pages refuses (`auditPages_eq_of_le`), so that the rounds
never run out before it. -/
def auditPages (p : AuditPlatform) (attemptedAt : Instant) : ℕ → String → AuditTx Unit
  | 0, _ => Tx.fail .pageLimit
  | rounds + 1, nextUrl => do
    let parsedNextUrl ← auditPage p attemptedAt nextUrl
    match parsedNextUrl with
    | none => pure ()
    | some url => auditPages p attemptedAt rounds url

/-- Nothing has been read. -/
def AuditRun.start : AuditRun := ⟨[], [], [], [], []⟩

/-- What an audit reports of a run that has ended. -/
def reportAudit (p : AuditPlatform) (appId : String) (attemptedAt : Instant) :
    Except AuditFailure Unit × AuditRun → GitHubDeliveryAuditResult
  | (.ok (), run) =>
    .complete appId attemptedAt run.pageProofs.length run.deliveryIds.length
      (p.proofDigest run.pageProofs) run.deliveries
  | (.error failure, run) =>
    .incomplete appId attemptedAt failure.cause run.pageProofs.length run.deliveryIds.length
      failure.retryAt failure.diagnostic

/-- What `auditGitHubAppDeliveries` throws. -/
inductive AuditError where
  | invalidConfiguration
  | invalidClock
  deriving DecidableEq, Repr

/-- **`auditGitHubAppDeliveries`**: what it reports, and what it has read when
it does. -/
def auditGitHubAppDeliveries (p : AuditPlatform) (appId : String) (now : Option Instant) :
    Except AuditError (GitHubDeliveryAuditResult × AuditRun) := do
  refuseIf (Patterns.appId.test appId = false) .invalidConfiguration
  let attemptedAt ← now.elim (.error .invalidClock) .ok
  let ending := auditPages p attemptedAt (maximumAuditPages + 1) firstDeliveryUrl .start
  pure (reportAudit p appId attemptedAt ending, ending.2)

end Snowcat
