import Snowcat.Source.Audit

/-!
# A complete audit

An audit is complete when it has read an unbroken chain of pages: the first
page from the URL an audit starts from, each other one from the link of the
page before it, and the last one without a link. What a page is read from is
an answer to a request for its URL, or for the one URL this is redirected to
(`Fetched`). The relations here say what a chain is in terms of the answers
only (`Unbroken`); the loop of the audit returns exactly along the chains of
at most a hundred pages that repeat no URL and no delivery
(`auditPages_returns`).
-/

namespace Snowcat

open Calendar (Instant)

/-! ## What has not been seen before -/

section Fresh

variable {α : Type} {old new more : List α} {a : α}

/-- None of some new things repeats another one, or one of the old. -/
def Fresh (old new : List α) : Prop := new.Nodup ∧ ∀ a ∈ new, a ∉ old

theorem fresh_nil : Fresh old [] := ⟨List.nodup_nil, List.forall_mem_nil _⟩

theorem fresh_singleton : Fresh old [a] ↔ a ∉ old :=
  ⟨fun h => h.2 a (List.mem_singleton_self a),
    fun h => ⟨List.nodup_singleton a, List.forall_mem_singleton.mpr h⟩⟩

theorem nil_fresh : Fresh [] new ↔ new.Nodup :=
  and_iff_left fun _ _ => List.not_mem_nil

/-- New things come one part after the other. -/
theorem fresh_append : Fresh old (new ++ more) ↔ Fresh old new ∧ Fresh (old ++ new) more := by
  unfold Fresh
  rw [List.nodup_append]
  constructor
  · rintro ⟨⟨hnew, hmore, hapart⟩, hold⟩
    refine ⟨⟨hnew, fun a ha => hold a (List.mem_append_left _ ha)⟩, hmore, fun a ha hmem => ?_⟩
    rcases List.mem_append.mp hmem with hmem | hmem
    · exact hold a (List.mem_append_right _ ha) hmem
    · exact hapart a hmem a ha rfl
  · rintro ⟨⟨hnew, hold⟩, hmore, hapart⟩
    refine ⟨⟨hnew, hmore, fun a ha b hb heq => ?_⟩, fun a ha => ?_⟩
    · exact hapart b hb (List.mem_append_right _ (heq ▸ ha))
    · rcases List.mem_append.mp ha with ha | ha
      · exact hold a ha
      · exact fun hmem => hapart a ha (List.mem_append_left _ hmem)

theorem fresh_cons : Fresh old (a :: new) ↔ a ∉ old ∧ Fresh (old ++ [a]) new := by
  rw [← List.singleton_append, fresh_append, fresh_singleton]

end Fresh

/-! ## Chains of pages -/

section Chains

variable (p : AuditPlatform) (attemptedAt : Instant)

/-- A request behind so many others is authorized, and answered. -/
def Answers (count : ℕ) (url : String) (response : HttpResponse) : Prop :=
  (∃ jwt, p.getAppJwt count = some jwt ∧ isAppJwt jwt = true) ∧ p.fetch count url = some response

/-- **What reading a URL comes to**, with so many redirects left: the URLs that
are requested, and the page that answers the last of them. -/
inductive Fetched : ℕ → ℕ → String → List String → PageResult → Prop
  | direct {redirects count url response result} :
      Answers p count url response → isRedirect response.status = false →
      pageResult response = .ok result → Fetched redirects count url [url] result
  | redirected {redirects count url response target requested result} :
      Answers p count url response → isRedirect response.status = true →
      validatedDeliveryUrl p (response.header "location") url = .ok target →
      Fetched redirects (count + 1) target requested result →
      Fetched (redirects + 1) count url (url :: requested) result

/-- A page as it was read: the URL its reading started from, the URLs that were
requested for it, what it lists, and the link it names. -/
structure ReadPage where
  url : String
  requested : List String
  result : PageResult
  values : List Json
  summaries : List DeliverySummary
  next : Option String

/-- The IDs of the deliveries of a page. -/
def ReadPage.deliveryIds (page : ReadPage) : List String :=
  page.summaries.map DeliverySummary.deliveryId

/-- The deliveries of a page that are of a pull request. -/
def ReadPage.deliveries (page : ReadPage) : List GitHubPullRequestDeliverySummary :=
  page.summaries.filterMap DeliverySummary.pullRequest

/-- **A page is read**, behind so many requests. -/
structure IsRead (count : ℕ) (page : ReadPage) : Prop where
  fetched : Fetched p 1 count page.url page.requested page.result
  values : pageValues p attemptedAt page.result = .ok page.values
  summaries : List.Forall₂ (fun value summary => normalizeDeliverySummary p value = .ok summary)
    page.values page.summaries
  next : nextDeliveryLink p (page.result.response.header "link") = .ok page.next

/-- **An unbroken chain of pages**: each page but the last names the URL of the
next one, and the last one names none. -/
inductive Unbroken : ℕ → String → List ReadPage → Prop
  | last {count page} : IsRead p attemptedAt count page → page.next = none →
      Unbroken count page.url [page]
  | more {count page url pages} : IsRead p attemptedAt count page → page.next = some url →
      Unbroken (count + page.requested.length) url pages → Unbroken count page.url (page :: pages)

/-- **The pages of a complete audit.** -/
structure DeliveryPages (pages : List ReadPage) : Prop where
  unbroken : Unbroken p attemptedAt 0 firstDeliveryUrl pages
  within : pages.length ≤ maximumAuditPages
  urls : (pages.map ReadPage.url).Nodup
  ids : (pages.flatMap ReadPage.deliveryIds).Nodup

end Chains

variable {p : AuditPlatform} {attemptedAt : Instant}

theorem Fetched.length_le {redirects count : ℕ} {url : String} {requested : List String}
    {result : PageResult} (h : Fetched p redirects count url requested result) :
    requested.length ≤ redirects + 1 := by
  induction h with
  | direct => exact Nat.le_add_left _ _
  | redirected _ _ _ _ ih => exact Nat.succ_le_succ ih

/-! ## The items -/

/-- Whether an item is a delivery of a pull request. -/
def isPullRequest (item : Json) : Bool :=
  ((item.field "event").bind Json.text?) = some "pull_request"

theorem textField_eq_ok {accepts : String → Bool} {value : Option Json} {s : String} :
    textField accepts value = .ok s ↔ value = some (.text s) ∧ accepts s = true := by
  unfold textField
  split
  · next t =>
    by_cases haccepts : accepts t = true
    · rw [if_pos haccepts]
      constructor
      · intro h
        cases h
        exact ⟨rfl, haccepts⟩
      · rintro ⟨h, -⟩
        cases h
        rfl
    · rw [if_neg haccepts]
      refine iff_of_false (fun h => nomatch h) ?_
      rintro ⟨h, ht⟩
      cases h
      exact haccepts ht
  · next hne => exact iff_of_false (fun h => nomatch h) fun h => hne s h.1

/-- **An item is a delivery of a pull request when its event says so**, and
then it is the delivery its fields describe. -/
theorem pullRequest_of_normalize {item : Json} {summary : DeliverySummary}
    (h : normalizeDeliverySummary p item = .ok summary) :
    if isPullRequest item then
      ∃ delivery, summary.pullRequest = some delivery ∧
        pullRequestSummary p item summary.deliveryId = .ok delivery
    else summary.pullRequest = none := by
  unfold normalizeDeliverySummary at h
  rw [except_bind_eq_ok] at h
  obtain ⟨event, hevent, h⟩ := h
  rw [except_bind_eq_ok] at h
  obtain ⟨deliveryId, -, h⟩ := h
  have hfield := (textField_eq_ok.mp hevent).1
  have hpull : isPullRequest item = decide (event = "pull_request") := by
    unfold isPullRequest
    rw [hfield]
    exact decide_eq_decide.mpr Option.some_inj
  rw [hpull]
  by_cases hother : event ≠ "pull_request"
  · rw [if_pos hother] at h
    rw [if_neg (by rw [decide_eq_true_eq]; exact hother)]
    cases h
    rfl
  · rw [if_neg hother, except_bind_eq_ok] at h
    rw [if_pos (decide_eq_true (not_not.mp hother))]
    obtain ⟨delivery, hdelivery, h⟩ := h
    cases h
    exact ⟨delivery, rfl, hdelivery⟩

/-- The deliveries a page gives are those of its pull-request items, in their
order. -/
theorem forall₂_deliveries {values : List Json} {summaries : List DeliverySummary}
    (h : List.Forall₂ (fun value summary => normalizeDeliverySummary p value = .ok summary)
      values summaries) :
    List.Forall₂ (fun item delivery => pullRequestSummary p item delivery.deliveryId = .ok delivery)
      (values.filter isPullRequest) (summaries.filterMap DeliverySummary.pullRequest) := by
  induction h with
  | nil => exact .nil
  | @cons value summary values summaries hsummary _ ih =>
    have hpull := pullRequest_of_normalize hsummary
    by_cases hitem : isPullRequest value = true
    · rw [if_pos hitem] at hpull
      obtain ⟨delivery, hdelivery, hfields⟩ := hpull
      rw [List.filter_cons_of_pos hitem, List.filterMap_cons_some hdelivery]
      refine .cons ?_ ih
      have hid : delivery.deliveryId = summary.deliveryId := by
        unfold pullRequestSummary at hfields
        simp only [except_bind_eq_ok] at hfields
        obtain ⟨_, _, _, _, _, _, _, _, _, _, _, _, _, _, hfields⟩ := hfields
        cases hfields
        rfl
      rw [hid]
      exact hfields
    · rw [if_neg hitem] at hpull
      rw [List.filter_cons_of_neg hitem, List.filterMap_cons_none hpull]
      exact ih

/-! ## What the audit reads -/

namespace AuditRun

/-- The run once some more URLs have been requested. -/
def sent (run : AuditRun) (urls : List String) : AuditRun :=
  { run with requested := run.requested ++ urls }

theorem length_sent (run : AuditRun) (urls : List String) :
    (run.sent urls).requested.length = run.requested.length + urls.length :=
  List.length_append

theorem sent_sent (run : AuditRun) (urls more : List String) :
    (run.sent urls).sent more = run.sent (urls ++ more) := by
  unfold sent
  rw [List.append_assoc]

/-- The run once some items have been audited. -/
def audited (run : AuditRun) (summaries : List DeliverySummary) : AuditRun :=
  { run with
    deliveryIds := run.deliveryIds ++ summaries.map DeliverySummary.deliveryId
    deliveries := run.deliveries ++ summaries.filterMap DeliverySummary.pullRequest }

theorem audited_cons (run : AuditRun) (summary : DeliverySummary)
    (summaries : List DeliverySummary) :
    ({ run with
        deliveryIds := run.deliveryIds ++ [summary.deliveryId]
        deliveries := run.deliveries ++ summary.pullRequest.toList } : AuditRun).audited summaries =
      run.audited (summary :: summaries) := by
  cases hpull : summary.pullRequest with
  | none => simp [audited, List.filterMap_cons_none hpull]
  | some delivery => simp [audited, List.filterMap_cons_some hpull]

/-- The proof that a page has been read. -/
def proofOf (p : AuditPlatform) (page : ReadPage) : PageProof :=
  ⟨page.url, "sha256:" ++ p.sha256 page.result.bytes, page.values.length, page.next⟩

/-- **The run once a page has been read.** -/
def after (p : AuditPlatform) (run : AuditRun) (page : ReadPage) : AuditRun where
  requested := run.requested ++ page.requested
  visitedUrls := run.visitedUrls ++ [page.url]
  deliveryIds := run.deliveryIds ++ page.deliveryIds
  deliveries := run.deliveries ++ page.deliveries
  pageProofs := run.pageProofs ++ [proofOf p page]

theorem requested_after (run : AuditRun) (page : ReadPage) :
    (run.after p page).requested.length = run.requested.length + page.requested.length :=
  List.length_append

theorem pageProofs_after (run : AuditRun) (page : ReadPage) :
    (run.after p page).pageProofs.length = run.pageProofs.length + 1 := List.length_append

/-- The run once some pages have been read. -/
theorem foldl_after (run : AuditRun) (pages : List ReadPage) :
    pages.foldl (after p) run =
      { requested := run.requested ++ pages.flatMap ReadPage.requested
        visitedUrls := run.visitedUrls ++ pages.map ReadPage.url
        deliveryIds := run.deliveryIds ++ pages.flatMap ReadPage.deliveryIds
        deliveries := run.deliveries ++ pages.flatMap ReadPage.deliveries
        pageProofs := run.pageProofs ++ pages.map (proofOf p) } := by
  induction pages generalizing run with
  | nil => simp
  | cons page pages ih =>
    rw [List.foldl_cons, ih]
    simp [after]

end AuditRun

theorem requestUrl_returns {url : String} {response : HttpResponse} {s t : AuditRun} :
    (requestUrl p url).Returns s response t ↔
      Answers p s.requested.length url response ∧ t = s.sent [url] := by
  unfold requestUrl
  simp only [Tx.returns_bind, Tx.returns_read]
  constructor
  · rintro ⟨_, _, ⟨rfl, rfl⟩, h⟩
    split at h
    · exact absurd h Tx.returns_fail.mp
    · next jwt hjwt =>
      split at h
      · exact absurd h Tx.returns_fail.mp
      · next hvalid =>
        simp only [Tx.returns_bind, Tx.returns_update, Tx.returns_ofOption] at h
        obtain ⟨_, _, rfl, hfetch, rfl⟩ := h
        exact ⟨⟨⟨jwt, hjwt, eq_true_of_ne_false hvalid⟩, hfetch⟩, rfl⟩
  · rintro ⟨⟨⟨jwt, hjwt, hvalid⟩, hfetch⟩, rfl⟩
    refine ⟨_, s, ⟨rfl, rfl⟩, ?_⟩
    rw [hjwt]
    dsimp only
    rw [if_neg (by rw [hvalid]; exact Bool.noConfusion)]
    simp only [Tx.returns_bind, Tx.returns_update, Tx.returns_ofOption]
    exact ⟨(), _, rfl, hfetch, rfl⟩

/-- **Reading a URL returns what its answers come to.** -/
theorem fetchFrom_returns {redirects : ℕ} {url : String} {result : PageResult} {s t : AuditRun} :
    (fetchFrom p attemptedAt redirects url).Returns s result t ↔
      ∃ requested, Fetched p redirects s.requested.length url requested result ∧
        t = s.sent requested := by
  induction redirects generalizing url s with
  | zero =>
    rw [fetchFrom, Tx.returns_bind]
    simp only [requestUrl_returns]
    constructor
    · rintro ⟨response, _, ⟨hanswers, rfl⟩, h⟩
      split at h
      · simp only [Tx.returns_bind, Tx.returns_fail, and_false, exists_false] at h
      · next hdirect =>
        obtain ⟨hresult, rfl⟩ := Tx.returns_ofExcept.mp h
        exact ⟨[url], .direct hanswers (eq_false_of_ne_true hdirect) hresult, rfl⟩
    · rintro ⟨_, ⟨hanswers, hdirect, hresult⟩, rfl⟩
      refine ⟨_, _, ⟨hanswers, rfl⟩, ?_⟩
      rw [if_neg (by rw [hdirect]; exact Bool.false_ne_true)]
      exact Tx.returns_ofExcept.mpr ⟨hresult, rfl⟩
  | succ redirects ih =>
    rw [fetchFrom, Tx.returns_bind]
    simp only [requestUrl_returns]
    constructor
    · rintro ⟨response, _, ⟨hanswers, rfl⟩, h⟩
      split at h
      · next hredirect =>
        simp only [Tx.returns_bind, Tx.returns_ofExcept, ih] at h
        obtain ⟨target, _, ⟨htarget, rfl⟩, requested, hfetched, rfl⟩ := h
        refine ⟨url :: requested, .redirected hanswers hredirect htarget ?_, ?_⟩
        · rw [AuditRun.length_sent] at hfetched
          exact hfetched
        · exact AuditRun.sent_sent s [url] requested
      · next hdirect =>
        obtain ⟨hresult, rfl⟩ := Tx.returns_ofExcept.mp h
        exact ⟨[url], .direct hanswers (eq_false_of_ne_true hdirect) hresult, rfl⟩
    · rintro ⟨_, hfetched, rfl⟩
      cases hfetched with
      | direct hanswers hdirect hresult =>
        refine ⟨_, _, ⟨hanswers, rfl⟩, ?_⟩
        rw [if_neg (by rw [hdirect]; exact Bool.false_ne_true)]
        exact Tx.returns_ofExcept.mpr ⟨hresult, rfl⟩
      | redirected hanswers hredirect htarget hfetched =>
        refine ⟨_, _, ⟨hanswers, rfl⟩, ?_⟩
        rw [if_pos hredirect]
        simp only [Tx.returns_bind, Tx.returns_ofExcept, ih]
        refine ⟨_, _, ⟨htarget, rfl⟩, _, ?_, (AuditRun.sent_sent s [url] _).symm⟩
        rw [AuditRun.length_sent]
        exact hfetched

/-- **The items of a page are audited** when each of them is checked, and none
of them has the ID of another one or of one before the page. -/
theorem each_auditItem_returns {values : List Json} {s t : AuditRun} {us : List Unit} :
    (Tx.each (auditItem p) values).Returns s us t ↔
      us = values.map (fun _ => ()) ∧ ∃ summaries,
        List.Forall₂ (fun value summary => normalizeDeliverySummary p value = .ok summary) values
          summaries ∧
        Fresh s.deliveryIds (summaries.map DeliverySummary.deliveryId) ∧
        t = s.audited summaries := by
  induction values generalizing s us with
  | nil =>
    rw [Tx.returns_each_nil]
    simp [AuditRun.audited, fresh_nil]
  | cons value values ih =>
    rw [Tx.returns_each_cons]
    simp only [auditItem, Tx.returns_bind, Tx.returns_ofExcept, Tx.returns_read, Tx.returns_failIf,
      Tx.returns_update, ih]
    constructor
    · rintro ⟨_, _, ⟨summary, _, ⟨hsummary, rfl⟩, _, _, ⟨rfl, rfl⟩, _, _, ⟨hfresh, rfl⟩, rfl⟩, _,
        ⟨rfl, summaries, hsummaries, hothers, rfl⟩, rfl⟩
      exact ⟨rfl, summary :: summaries, .cons hsummary hsummaries,
        fresh_cons.mpr ⟨hfresh, hothers⟩, AuditRun.audited_cons _ _ _⟩
    · rintro ⟨rfl, summaries, hsummaries, hfresh, rfl⟩
      cases hsummaries with
      | @cons _ summary _ summaries hsummary hsummaries =>
        obtain ⟨hnew, hothers⟩ := fresh_cons.mp hfresh
        exact ⟨(), _, ⟨summary, s, ⟨hsummary, rfl⟩, _, s, ⟨rfl, rfl⟩, (), s, ⟨hnew, rfl⟩, rfl⟩, _,
          ⟨rfl, summaries, hsummaries, hothers, (AuditRun.audited_cons _ _ _).symm⟩, rfl⟩

/-- A page lists at most a hundred values, and was served. -/
theorem pageValues_eq_ok {page : PageResult} {values : List Json}
    (h : pageValues p attemptedAt page = .ok values) :
    page.response.status = 200 ∧ values.length ≤ 100 := by
  unfold pageValues at h
  split at h
  · exact absurd h fun h => by
      obtain ⟨retryAt, -, h⟩ := except_bind_eq_ok.mp h
      cases h
  · next hstatus =>
    refine ⟨not_not.mp hstatus, ?_⟩
    split at h
    · cases h
    · split at h
      · cases h
      · split at h
        · cases h
        · next hlength =>
          cases h
          exact not_lt.mp hlength

/-- **The round of a page returns** when it reads a page, of a URL and of
deliveries that it has not read before. -/
theorem auditPage_returns {url : String} {next : Option String} {s t : AuditRun} :
    (auditPage p attemptedAt url).Returns s next t ↔
      ∃ page, IsRead p attemptedAt s.requested.length page ∧ page.url = url ∧ page.next = next ∧
        s.pageProofs.length < maximumAuditPages ∧ url ∉ s.visitedUrls ∧
        Fresh s.deliveryIds page.deliveryIds ∧ t = s.after p page := by
  unfold auditPage fetchPage
  simp only [Tx.returns_bind, Tx.returns_read, Tx.returns_failIf, Tx.returns_update,
    Tx.returns_ofExcept, Tx.returns_pure, fetchFrom_returns, each_auditItem_returns]
  constructor
  · rintro ⟨_, _, ⟨rfl, rfl⟩, _, _, ⟨hroom, rfl⟩, _, _, ⟨rfl, rfl⟩, _, _, ⟨hnew, rfl⟩, _, _, rfl, result, _,
      ⟨requested, hfetched, rfl⟩, values, _, ⟨hvalues, rfl⟩, _, _, ⟨-, rfl⟩, _, _,
      ⟨-, summaries, hsummaries, hfresh, rfl⟩, _, _, ⟨hnext, rfl⟩, _, _, rfl, rfl, rfl⟩
    exact ⟨⟨url, requested, result, values, summaries, next⟩,
      ⟨hfetched, hvalues, hsummaries, hnext⟩, rfl, rfl, not_le.mp hroom, hnew, hfresh, rfl⟩
  · rintro ⟨page, ⟨hfetched, hvalues, hsummaries, hnext⟩, rfl, rfl, hroom, hnew, hfresh, rfl⟩
    have hlength := (pageValues_eq_ok hvalues).2
    have hbudget : ¬ maximumAuditDeliveries < s.pageProofs.length * 100 + page.values.length := by
      unfold maximumAuditDeliveries maximumAuditPages at *
      omega
    exact ⟨_, s, ⟨rfl, rfl⟩, (), s, ⟨not_le.mpr hroom, rfl⟩, _, s, ⟨rfl, rfl⟩, (), s, ⟨hnew, rfl⟩,
      (), _, rfl,
      page.result, _, ⟨page.requested, hfetched, rfl⟩, page.values, _, ⟨hvalues, rfl⟩, (), _,
      ⟨hbudget, rfl⟩, _, _, ⟨rfl, page.summaries, hsummaries, hfresh, rfl⟩, page.next, _,
      ⟨hnext, rfl⟩, (), _, rfl, rfl, rfl⟩

/-- **The loop returns along the unbroken chains** that are short enough and
repeat no URL and no delivery. -/
theorem auditPages_returns {rounds : ℕ} {url : String} {u : Unit} {s t : AuditRun} :
    (auditPages p attemptedAt rounds url).Returns s u t ↔
      ∃ pages, Unbroken p attemptedAt s.requested.length url pages ∧ pages.length ≤ rounds ∧
        s.pageProofs.length + pages.length ≤ maximumAuditPages ∧
        Fresh s.visitedUrls (pages.map ReadPage.url) ∧
        Fresh s.deliveryIds (pages.flatMap ReadPage.deliveryIds) ∧
        t = pages.foldl (AuditRun.after p) s := by
  induction rounds generalizing url s with
  | zero =>
    refine iff_of_false Tx.returns_fail.mp ?_
    rintro ⟨pages, hunbroken, hlength, -⟩
    cases hunbroken <;> exact absurd hlength (Nat.not_succ_le_zero _)
  | succ rounds ih =>
    rw [auditPages, Tx.returns_bind]
    simp only [auditPage_returns]
    constructor
    · rintro ⟨next, _, ⟨page, hread, rfl, rfl, hroom, hnew, hfresh, rfl⟩, h⟩
      cases hnext : page.next with
      | none =>
        rw [hnext] at h
        obtain ⟨-, rfl⟩ := Tx.returns_pure.mp h
        refine ⟨[page], .last hread hnext, Nat.le_add_left _ _, hroom, fresh_singleton.mpr hnew, ?_,
          rfl⟩
        rwa [List.flatMap_singleton]
      | some url =>
        rw [hnext] at h
        obtain ⟨pages, hunbroken, hlength, hwithin, hurls, hids, rfl⟩ := ih.mp h
        rw [AuditRun.requested_after] at hunbroken
        rw [AuditRun.pageProofs_after] at hwithin
        refine ⟨page :: pages, .more hread hnext hunbroken, Nat.succ_le_succ hlength, ?_,
          fresh_cons.mpr ⟨hnew, hurls⟩, ?_, rfl⟩
        · rw [List.length_cons]
          omega
        · rw [List.flatMap_cons]
          exact fresh_append.mpr ⟨hfresh, hids⟩
    · rintro ⟨pages, hunbroken, hlength, hwithin, hurls, hids, rfl⟩
      cases hunbroken with
      | @last _ page hread hnext =>
        rw [List.flatMap_singleton] at hids
        refine ⟨page.next, _, ⟨page, hread, rfl, rfl, hwithin, fresh_singleton.mp hurls, hids, rfl⟩,
          ?_⟩
        rw [hnext]
        exact Tx.returns_pure.mpr ⟨rfl, rfl⟩
      | @more _ page url pages hread hnext hunbroken =>
        obtain ⟨hnew, hurls⟩ := fresh_cons.mp hurls
        rw [List.flatMap_cons] at hids
        obtain ⟨hfresh, hids⟩ := fresh_append.mp hids
        rw [List.length_cons] at hlength hwithin
        refine ⟨page.next, _, ⟨page, hread, rfl, rfl, by omega, hnew, hfresh, rfl⟩, ?_⟩
        rw [hnext]
        refine ih.mpr ⟨pages, ?_, Nat.le_of_succ_le_succ hlength, ?_, hurls, hids, rfl⟩
        · rw [AuditRun.requested_after]
          exact hunbroken
        · rw [AuditRun.pageProofs_after]
          omega

/-! ## How long an audit can get -/

section

variable {m : AuditRun → ℕ} {n k : ℕ}

/-- A request spends what its record does. -/
theorem spends_requestUrl {url : String}
    (hm : ∀ run : AuditRun, m { run with requested := run.requested ++ [url] } ≤ m run + n) :
    Tx.Spends m n (requestUrl p url) := by
  refine Tx.spends_bind_of_still (Tx.still_read _) fun count => ?_
  split
  · exact Tx.spends_of_still (Tx.still_fail _)
  · split
    · exact Tx.spends_of_still (Tx.still_fail _)
    · refine Tx.spends_bind (k := 0) (Tx.spends_update hm) fun _ => ?_
      cases p.fetch count url with
      | none => exact Tx.spends_of_still (Tx.still_fail _)
      | some response => exact Tx.spends_of_still (Tx.still_pure _)

/-- Each redirect that is followed costs one request more. -/
theorem spends_fetchFrom
    (hm : ∀ (run : AuditRun) url, m { run with requested := run.requested ++ [url] } ≤ m run + n)
    (redirects : ℕ) (url : String) :
    Tx.Spends m ((redirects + 1) * n) (fetchFrom p attemptedAt redirects url) := by
  induction redirects generalizing url with
  | zero =>
    rw [Nat.zero_add, Nat.one_mul]
    refine Tx.spends_bind (k := 0) (spends_requestUrl fun run => hm run url) fun response => ?_
    split
    · exact Tx.spends_of_still (Tx.still_bind (Tx.still_ofExcept _) fun _ => Tx.still_fail _)
    · exact Tx.spends_of_still (Tx.still_ofExcept _)
  | succ redirects ih =>
    rw [Nat.add_mul, Nat.one_mul, Nat.add_comm]
    refine Tx.spends_bind (spends_requestUrl fun run => hm run url) fun response => ?_
    split
    · exact Tx.spends_bind_of_still (Tx.still_ofExcept _) fun target => ih target
    · exact Tx.spends_of_still (Tx.still_ofExcept _)

/-- The items of a page request nothing and prove no page. -/
theorem spends_auditItems
    (hm : ∀ (run : AuditRun) (summary : DeliverySummary), m { run with
      deliveryIds := run.deliveryIds ++ [summary.deliveryId]
      deliveries := run.deliveries ++ summary.pullRequest.toList } = m run)
    (values : List Json) : Tx.Spends m 0 (Tx.each (auditItem p) values) := by
  have hitem : ∀ raw, Tx.Spends m 0 (auditItem p raw) := fun raw =>
    Tx.spends_bind_of_still (Tx.still_ofExcept _) fun normalized =>
      Tx.spends_bind_of_still (Tx.still_read _) fun _ =>
        Tx.spends_bind_of_still (Tx.still_failIf _ _) fun _ =>
          Tx.spends_update fun run => (hm run normalized).le
  induction values with
  | nil => exact Tx.spends_of_still (Tx.still_pure _)
  | cons value values ih =>
    exact Tx.spends_bind (hitem value) fun _ =>
      Tx.spends_bind (k := 0) ih fun _ => Tx.spends_of_still (Tx.still_pure _)

/-- What a round spends is what its reading spends, and what its last step
does. -/
theorem spends_auditPage (url : String)
    (hrequested : ∀ (run : AuditRun) url,
      m { run with requested := run.requested ++ [url] } ≤ m run + n)
    (hvisited : ∀ run : AuditRun, m { run with visitedUrls := run.visitedUrls ++ [url] } = m run)
    (haudited : ∀ (run : AuditRun) (summary : DeliverySummary), m { run with
      deliveryIds := run.deliveryIds ++ [summary.deliveryId]
      deliveries := run.deliveries ++ summary.pullRequest.toList } = m run)
    (hproved : ∀ (run : AuditRun) proof,
      m { run with pageProofs := run.pageProofs ++ [proof] } ≤ m run + k) :
    Tx.Spends m (2 * n + k) (auditPage p attemptedAt url) := by
  refine Tx.spends_bind_of_still (Tx.still_read _) fun pageCount => ?_
  refine Tx.spends_bind_of_still (Tx.still_failIf _ _) fun _ => ?_
  refine Tx.spends_bind_of_still (Tx.still_read _) fun visitedUrls => ?_
  refine Tx.spends_bind_of_still (Tx.still_failIf _ _) fun _ => ?_
  refine Tx.spends_bind_of_free (Tx.spends_update fun run => (hvisited run).le) fun _ => ?_
  refine Tx.spends_bind (spends_fetchFrom hrequested 1 url) fun page => ?_
  refine Tx.spends_bind_of_still (Tx.still_ofExcept _) fun values => ?_
  refine Tx.spends_bind_of_still (Tx.still_failIf _ _) fun _ => ?_
  refine Tx.spends_bind_of_free (spends_auditItems haudited values) fun _ => ?_
  refine Tx.spends_bind_of_still (Tx.still_ofExcept _) fun next => ?_
  exact Tx.spends_bind (k := 0) (Tx.spends_update fun run => hproved run _) fun _ =>
    Tx.spends_of_still (Tx.still_pure _)

end

/-- **The round of a page sends at most two requests**, and proves at most one
page. -/
theorem auditPage_le (url : String) (s : AuditRun) :
    (auditPage p attemptedAt url s).2.requested.length ≤ s.requested.length + 2 ∧
      (auditPage p attemptedAt url s).2.pageProofs.length ≤ s.pageProofs.length + 1 := by
  constructor
  · exact @spends_auditPage p attemptedAt (fun run => run.requested.length) 1 0 url
      (fun _ _ => List.length_append.le) (fun _ => rfl) (fun _ _ => rfl) (fun _ _ => le_rfl) s
  · exact @spends_auditPage p attemptedAt (fun run => run.pageProofs.length) 0 1 url
      (fun _ _ => le_rfl) (fun _ => rfl) (fun _ _ => rfl) (fun _ _ => List.length_append.le) s

/-- Behind the last page that is allowed, the next round refuses. -/
theorem auditPage_of_full {url : String} {s : AuditRun}
    (h : maximumAuditPages ≤ s.pageProofs.length) :
    auditPage p attemptedAt url s = (.error .pageLimit, s) := by
  unfold auditPage
  rw [Tx.bind_of_returns (Tx.returns_read.mpr ⟨rfl, rfl⟩),
    Tx.bind_of_throws (Tx.throws_failIf.mpr ⟨h, rfl⟩)]
  exact congrArg _ (Tx.still_failIf _ _ s)

/-- **An audit stops**: it proves at most as many pages as it may, and sends at
most two requests for each. -/
theorem auditPages_le (rounds : ℕ) (url : String) {s : AuditRun}
    (hwithin : s.pageProofs.length ≤ maximumAuditPages)
    (hrequested : s.requested.length ≤ 2 * s.pageProofs.length) :
    (auditPages p attemptedAt rounds url s).2.pageProofs.length ≤ maximumAuditPages ∧
      (auditPages p attemptedAt rounds url s).2.requested.length ≤ 2 * maximumAuditPages := by
  induction rounds generalizing url s with
  | zero => exact ⟨hwithin, hrequested.trans (Nat.mul_le_mul_left 2 hwithin)⟩
  | succ rounds ih =>
    rw [auditPages]
    rcases Tx.returns_or_throws (auditPage p attemptedAt url) s with ⟨next, t, ht⟩ | ⟨e, he⟩
    · rw [Tx.bind_of_returns ht]
      obtain ⟨page, hread, -, -, hroom, -, -, rfl⟩ := auditPage_returns.mp ht
      have hsent := hread.fetched.length_le
      have hproofs := @AuditRun.pageProofs_after p s page
      have hcount := @AuditRun.requested_after p s page
      cases next with
      | none =>
        show (s.after p page).pageProofs.length ≤ _ ∧ (s.after p page).requested.length ≤ _
        omega
      | some url => exact ih url (by omega) (by omega)
    · rw [Tx.bind_of_throws he]
      dsimp only
      by_cases hfull : maximumAuditPages ≤ s.pageProofs.length
      · rw [auditPage_of_full hfull]
        exact ⟨hwithin, hrequested.trans (Nat.mul_le_mul_left 2 hwithin)⟩
      · have hround := @auditPage_le p attemptedAt url s
        omega

/-- **The rounds of the loop never run out**: with one more than the pages it
may read, as many again change nothing. -/
theorem auditPages_eq_of_le {rounds more : ℕ} (hmore : rounds ≤ more) (url : String)
    {s : AuditRun} (h : maximumAuditPages < rounds + s.pageProofs.length) :
    auditPages p attemptedAt more url s = auditPages p attemptedAt rounds url s := by
  induction rounds generalizing more url s with
  | zero =>
    rw [Nat.zero_add] at h
    cases more with
    | zero => rfl
    | succ more =>
      have hfull := @auditPage_of_full p attemptedAt url s h.le
      have hnone : auditPages p attemptedAt 0 url s = (.error .pageLimit, s) := rfl
      rw [hnone, auditPages, Tx.bind_of_throws (congrArg Prod.fst hfull), hfull]
  | succ rounds ih =>
    obtain ⟨more, rfl⟩ := Nat.exists_eq_add_of_le' (Nat.one_le_of_lt hmore)
    rw [auditPages, auditPages]
    rcases Tx.returns_or_throws (auditPage p attemptedAt url) s with ⟨next, t, ht⟩ | ⟨e, he⟩
    · rw [Tx.bind_of_returns ht, Tx.bind_of_returns ht]
      cases next with
      | none => rfl
      | some url =>
        obtain ⟨page, -, -, -, -, -, -, rfl⟩ := auditPage_returns.mp ht
        refine ih (Nat.le_of_succ_le_succ hmore) url ?_
        rw [AuditRun.pageProofs_after]
        omega
    · rw [Tx.bind_of_throws he, Tx.bind_of_throws he]

/-! ## A complete audit -/

theorem Unbroken.forall₂_deliveries {count : ℕ} {url : String} {pages : List ReadPage}
    (h : Unbroken p attemptedAt count url pages) :
    List.Forall₂ (fun item delivery => pullRequestSummary p item delivery.deliveryId = .ok delivery)
      ((pages.flatMap ReadPage.values).filter isPullRequest)
      (pages.flatMap ReadPage.deliveries) := by
  induction h with
  | last hread _ =>
    rw [List.flatMap_singleton, List.flatMap_singleton]
    exact Snowcat.forall₂_deliveries hread.summaries
  | more hread _ _ ih =>
    rw [List.flatMap_cons, List.flatMap_cons, List.filter_append]
    exact List.rel_append (Snowcat.forall₂_deliveries hread.summaries) ih

/-- The loop of an audit returns along the pages of a complete one. -/
theorem audit_returns {u : Unit} {run : AuditRun} :
    (auditPages p attemptedAt (maximumAuditPages + 1) firstDeliveryUrl).Returns .start u run ↔
      ∃ pages, DeliveryPages p attemptedAt pages ∧ run = pages.foldl (AuditRun.after p) .start := by
  rw [auditPages_returns]
  constructor
  · rintro ⟨pages, hunbroken, -, hwithin, hurls, hids, hrun⟩
    rw [show AuditRun.start.pageProofs.length = 0 from rfl, Nat.zero_add] at hwithin
    exact ⟨pages, ⟨hunbroken, hwithin, nil_fresh.mp hurls, nil_fresh.mp hids⟩, hrun⟩
  · rintro ⟨pages, ⟨hunbroken, hwithin, hurls, hids⟩, hrun⟩
    refine ⟨pages, hunbroken, Nat.le_succ_of_le hwithin, ?_, nil_fresh.mpr hurls,
      nil_fresh.mpr hids, hrun⟩
    rw [show AuditRun.start.pageProofs.length = 0 from rfl, Nat.zero_add]
    exact hwithin

/-- **A complete audit is complete**: an audit stops within its budget; it is
complete exactly when the answers have an unbroken chain of pages, from the
first URL to a page without a next link, that repeats no URL and no delivery,
and then it has requested what these pages were read from, each of them at once
or through one redirect, and it reports their pull-request items in order; else
it is incomplete. -/
theorem auditGitHubAppDeliveries_complete (p : AuditPlatform) {appId : String}
    (happId : Patterns.appId.test appId = true) (attemptedAt : Instant) :
    ∃ result run, auditGitHubAppDeliveries p appId (some attemptedAt) = .ok (result, run) ∧
      run.pageProofs.length ≤ maximumAuditPages ∧
      run.requested.length ≤ 2 * maximumAuditPages ∧
      ((∃ pages, DeliveryPages p attemptedAt pages ∧
          run.requested = pages.flatMap ReadPage.requested ∧
          result = .complete appId attemptedAt pages.length
            (pages.flatMap ReadPage.deliveryIds).length
            (p.proofDigest (pages.map (AuditRun.proofOf p))) (pages.flatMap ReadPage.deliveries) ∧
          List.Forall₂
            (fun item delivery => pullRequestSummary p item delivery.deliveryId = .ok delivery)
            ((pages.flatMap ReadPage.values).filter isPullRequest)
            (pages.flatMap ReadPage.deliveries)) ∨
        (¬ ∃ pages, DeliveryPages p attemptedAt pages) ∧ ∃ cause retryAt diagnostic,
          result = .incomplete appId attemptedAt cause run.pageProofs.length
            run.deliveryIds.length retryAt diagnostic) := by
  have hstops := @auditPages_le p attemptedAt (maximumAuditPages + 1) firstDeliveryUrl .start
    (Nat.zero_le _) (Nat.zero_le _)
  generalize hending :
    auditPages p attemptedAt (maximumAuditPages + 1) firstDeliveryUrl .start = ending at hstops
  refine ⟨reportAudit p appId attemptedAt ending, ending.2, ?_, hstops.1, hstops.2, ?_⟩
  · unfold auditGitHubAppDeliveries
    rw [happId]
    show Except.ok (reportAudit p appId attemptedAt
      (auditPages p attemptedAt (maximumAuditPages + 1) firstDeliveryUrl .start), _) = _
    rw [hending]
  · obtain ⟨outcome, run⟩ := ending
    cases outcome with
    | ok u =>
      obtain ⟨pages, hpages, rfl⟩ := audit_returns.mp hending
      refine Or.inl ⟨pages, hpages, ?_, ?_, hpages.unbroken.forall₂_deliveries⟩
      · rw [AuditRun.foldl_after]
        rfl
      · show GitHubDeliveryAuditResult.complete _ _ _ _ _ _ = _
        rw [AuditRun.foldl_after]
        show GitHubDeliveryAuditResult.complete appId attemptedAt
          (pages.map (AuditRun.proofOf p)).length _ _ _ = _
        rw [List.length_map]
        rfl
    | error failure =>
      refine Or.inr ⟨?_, failure.cause, failure.retryAt, failure.diagnostic, rfl⟩
      rintro ⟨pages, hpages⟩
      have hreturns : (auditPages p attemptedAt (maximumAuditPages + 1) firstDeliveryUrl).Returns
          .start () (pages.foldl (AuditRun.after p) .start) := audit_returns.mpr ⟨pages, hpages, rfl⟩
      exact nomatch congrArg Prod.fst (hending.symm.trans hreturns)

/-! ## A redirect on the way -/

/-- The URL that the first one is redirected to. -/
def redirectedUrl : String := firstDeliveryUrl ++ "&cursor=redirected"

/-- GitHub redirects the first request to another page of the list, and serves
an empty page without a link there. -/
def AuditPlatform.redirecting : AuditPlatform where
  getAppJwt _ := some "header00000.payload0000.signature00"
  fetch count _ :=
    if count = 0 then
      some ⟨301, fun name => if name = "location" then
        some "/app/hook/deliveries?per_page=100&cursor=redirected" else none, none⟩
    else some ⟨200, fun _ => none, some ⟨[[0x5B, 0x5D]], false⟩⟩
  url _ _ := some
    { href := redirectedUrl, origin := githubApiOrigin, protocol := "https:", username := ""
      password := "", hostname := "api.github.com", port := "", pathname := deliveryPath
      search := "?per_page=100&cursor=redirected", hash := ""
      searchParams := [("per_page", "100"), ("cursor", "redirected")] }
  json bytes := if bytes = [0x5B, 0x5D] then some (.array []) else none
  date _ := none
  sha256 _ := ""
  proofDigest _ := ""

/-- The page that is served there. -/
def redirectedPage : ReadPage where
  url := firstDeliveryUrl
  requested := [firstDeliveryUrl, redirectedUrl]
  result := ⟨⟨200, fun _ => none, some ⟨[[0x5B, 0x5D]], false⟩⟩, [0x5B, 0x5D]⟩
  values := []
  summaries := []
  next := none

theorem answers_redirecting {count : ℕ} {url : String} {response : HttpResponse}
    (h : AuditPlatform.redirecting.fetch count url = some response) :
    Answers .redirecting count url response :=
  ⟨⟨_, rfl, by decide +kernel⟩, h⟩

theorem deliveryPages_redirecting :
    DeliveryPages .redirecting Instant.greatest [redirectedPage] where
  unbroken := by
    have hread : IsRead .redirecting Instant.greatest 0 redirectedPage :=
      { fetched := by
          refine @Fetched.redirected _ _ _ _ _ redirectedUrl _ _ (answers_redirecting rfl) rfl ?_
            (.direct (answers_redirecting rfl) rfl rfl)
          decide +kernel
        values := rfl
        summaries := .nil
        next := rfl }
    exact .last hread rfl
  within := by decide
  urls := List.nodup_singleton _
  ids := List.nodup_nil

theorem Fetched.link_redirecting {url : String} {requested : List String} {result : PageResult}
    (h : Fetched .redirecting 1 0 url requested result) : result.response.header "link" = none := by
  cases h with
  | direct hanswers hdirect _ =>
    cases hanswers.2
    exact absurd hdirect (by decide)
  | redirected _ _ _ hfetched =>
    cases hfetched with
    | direct hanswers _ hresult =>
      cases hanswers.2
      cases hresult
      rfl

/-- **A page that was redirected** is read from a URL that no page names: the
audit is complete, and it has not requested the URLs of a chain of pages. -/
theorem auditGitHubAppDeliveries_redirected : ∃ run,
    auditGitHubAppDeliveries .redirecting "1" (some Instant.greatest) =
        .ok (.complete "1" Instant.greatest 1 0 "" [], run) ∧
      run.requested = [firstDeliveryUrl, redirectedUrl] ∧
      ¬ ∃ pages, Unbroken .redirecting Instant.greatest 0 firstDeliveryUrl pages ∧
        run.requested = pages.map ReadPage.url := by
  have hrun : (auditPages .redirecting Instant.greatest (maximumAuditPages + 1)
      firstDeliveryUrl).Returns .start () (AuditRun.after .redirecting .start redirectedPage) :=
    audit_returns.mpr ⟨_, deliveryPages_redirecting, rfl⟩
  refine ⟨AuditRun.after .redirecting .start redirectedPage, ?_, rfl, ?_⟩
  · unfold auditGitHubAppDeliveries
    rw [show Patterns.appId.test "1" = true by decide +kernel]
    show Except.ok (reportAudit .redirecting "1" Instant.greatest (auditPages .redirecting
      Instant.greatest (maximumAuditPages + 1) firstDeliveryUrl .start), _) = _
    rw [show auditPages .redirecting Instant.greatest (maximumAuditPages + 1) firstDeliveryUrl
      .start = _ from hrun]
    rfl
  · rintro ⟨pages, hunbroken, hrequested⟩
    -- the one page of a chain names no link, and one URL is not two
    have hlink : ∀ {page}, IsRead .redirecting Instant.greatest 0 page → page.next = none := by
      intro page hread
      have hnext := hread.next
      rw [hread.fetched.link_redirecting] at hnext
      exact (Except.ok.inj hnext).symm
    generalize firstDeliveryUrl = url at hunbroken
    cases hunbroken with
    | last hread _ => exact nomatch (List.cons.inj hrequested).2
    | more hread hnext _ => exact nomatch (hlink hread).symm.trans hnext

/-- The audit with a redirect is complete, and has requested what its page was
read from. -/
theorem auditGitHubAppDeliveries_complete_redirecting : ∃ result run pages,
    auditGitHubAppDeliveries .redirecting "1" (some Instant.greatest) = .ok (result, run) ∧
      run.requested.length ≤ 2 * maximumAuditPages ∧
      DeliveryPages .redirecting Instant.greatest pages ∧
      run.requested = pages.flatMap ReadPage.requested := by
  obtain ⟨result, run, hresult, -, hrequested, hends⟩ :=
    auditGitHubAppDeliveries_complete .redirecting (show Patterns.appId.test "1" = true by
      decide +kernel) Instant.greatest
  rcases hends with ⟨pages, hpages, hread, -, -⟩ | ⟨hnone, -⟩
  · exact ⟨result, run, pages, hresult, hrequested, hpages, hread⟩
  · exact absurd ⟨_, deliveryPages_redirecting⟩ hnone

end Snowcat
