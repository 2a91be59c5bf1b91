import Mathlib.Data.List.Chain

/-!
# Sessions read off a log

A log in which events *open* and *close* sessions, one at a time. Two ways
of reading it: the declarative one, in which every opening event makes a
session that the next closing event behind it ends (`Reader.sessions`), and
the one code uses, which walks the log once and keeps the sessions so far
(`Reader.record`). On a log in which the two kinds of events alternate they
agree (`Reader.foldl_record`), from wherever the reading starts: a reading of the
newest part of the log gives the newest sessions, and the newest `2n + 1`
events are enough for the newest `n` of them
(`Reader.newest_sessions_newest`).
-/

namespace Sessions

variable {α β : Type}

/-- The newest entries of a list, in the order they have there. -/
def newest (count : ℕ) (values : List α) : List α := values.drop (values.length - count)

theorem newest_nil (count : ℕ) : newest count ([] : List α) = [] := List.drop_nil

theorem newest_of_length_le {count : ℕ} {values : List α} (h : values.length ≤ count) :
    newest count values = values := by
  rw [newest, Nat.sub_eq_zero_of_le h, List.drop_zero]

/-- The newest entries do not depend on what stands in front of enough of
them. -/
theorem newest_append_of_le_length {count : ℕ} (front : List α) {back : List α}
    (h : count ≤ back.length) : newest count (front ++ back) = newest count back := by
  have hlength : (front ++ back).length - count = front.length + (back.length - count) := by
    rw [List.length_append]
    omega
  rw [newest, newest, hlength, List.drop_append]
  simp

/-- The newest entries are the back of the list. -/
theorem exists_append_newest (count : ℕ) (values : List α) :
    ∃ front, values = front ++ newest count values :=
  ⟨_, (List.take_append_drop _ _).symm⟩

theorem map_newest (f : α → β) (count : ℕ) (values : List α) :
    (newest count values).map f = newest count (values.map f) := by
  rw [newest, newest, List.map_drop, List.length_map]

theorem getLast?_newest {count : ℕ} (hcount : 0 < count) (values : List α) :
    (newest count values).getLast? = values.getLast? := by
  rw [newest, List.getLast?_drop]
  split
  · next h =>
    have hnil : values = [] := List.eq_nil_of_length_eq_zero (by omega)
    rw [hnil]
    rfl
  · rfl

theorem length_newest (count : ℕ) (values : List α) :
    (newest count values).length = min count values.length := by
  rw [newest, List.length_drop]
  omega

/-- **The last entry a test accepts** is one with only refused entries
behind it. -/
theorem getLast?_filter_eq_some {p : α → Bool} {values : List α} {a : α} :
    (values.filter p).getLast? = some a ↔
      p a = true ∧ ∃ front back, values = front ++ a :: back ∧ ∀ b ∈ back, p b = false := by
  rw [List.getLast?_filter, List.find?_eq_some_iff_append]
  refine and_congr_right fun _ => ⟨?_, ?_⟩
  · rintro ⟨back, front, hreverse, hback⟩
    refine ⟨front.reverse, back.reverse, ?_, fun b hb => ?_⟩
    · rw [← List.reverse_reverse values, hreverse]
      simp
    · simpa using hback b (List.mem_reverse.mp hb)
  · rintro ⟨front, back, rfl, hback⟩
    refine ⟨back.reverse, front.reverse, by simp, fun b hb => ?_⟩
    simpa using hback b (List.mem_reverse.mp hb)

/-! ## Alternating logs -/

section Alternating

variable (opens : α → Bool)

/-- Of two neighbours one opens and the other closes. -/
def Turns (log : List α) : Prop := log.IsChain (fun a b => opens b = !opens a)

/-- **An alternating log**: the first event opens, and the events take
turns. -/
def Alternating (log : List α) : Prop := (∀ a ∈ log.head?, opens a = true) ∧ Turns opens log

variable {opens}

theorem alternating_nil : Alternating opens [] := ⟨fun _ h => (nomatch h), List.isChain_nil⟩

/-- Whether a session is open behind a log: its last event opened one. -/
def endsOpen (opens : α → Bool) (log : List α) : Bool := log.getLast?.any opens

/-- **One more event** keeps a log alternating when it opens after a closed
log and closes after an open one. -/
theorem alternating_concat {log : List α} {a : α} (h : Alternating opens log)
    (ha : opens a = !endsOpen opens log) : Alternating opens (log ++ [a]) := by
  obtain ⟨hhead, hturns⟩ := h
  rcases List.eq_nil_or_concat log with rfl | ⟨front, b, rfl⟩
  · refine ⟨fun a' ha' => ?_, List.isChain_singleton _⟩
    obtain rfl : a = a' := Option.some.inj ha'
    exact ha
  · have hb : opens a = !opens b := by simpa [endsOpen] using ha
    refine ⟨fun a' ha' => hhead a' ?_, ?_⟩
    · cases front with
      | nil => exact ha'
      | cons c front => exact ha'
    · unfold Turns at hturns ⊢
      rw [List.concat_eq_append] at hturns ⊢
      rw [List.append_assoc, List.singleton_append, List.isChain_append_cons_cons]
      exact ⟨hturns, hb, List.isChain_singleton _⟩

theorem endsOpen_concat (log : List α) (a : α) : endsOpen opens (log ++ [a]) = opens a := by
  simp [endsOpen]

/-- **What opened a closed log is in what was added to it**, whatever else of
the two is irrelevant. -/
theorem exists_opens_of_append {relevant : α → Bool} {front back : List α}
    (hclosed : ¬ endsOpen opens (front.filter relevant) = true)
    (hopen : endsOpen opens ((front ++ back).filter relevant) = true) :
    ∃ a ∈ back, relevant a = true ∧ opens a = true := by
  rw [List.filter_append] at hopen
  rcases List.eq_nil_or_concat (back.filter relevant) with hnil | ⟨before, a, hback⟩
  · rw [hnil, List.append_nil] at hopen
    exact absurd hopen hclosed
  · rw [hback, List.concat_eq_append, ← List.append_assoc, endsOpen_concat] at hopen
    have ha : a ∈ back.filter relevant := by
      rw [hback, List.concat_eq_append]
      exact List.mem_append_right _ (List.mem_singleton_self a)
    exact ⟨a, (List.mem_filter.mp ha).1, (List.mem_filter.mp ha).2, hopen⟩

theorem alternating_map {γ : Type} {f : γ → α} {log : List γ} :
    Alternating opens (log.map f) ↔ Alternating (fun c => opens (f c)) log := by
  unfold Alternating Turns
  rw [List.isChain_map]
  cases log <;> simp

/-- Events that take turns open about half of the time. -/
theorem Turns.length_le {log : List α} (h : Turns opens log) :
    log.length ≤ 2 * (log.filter opens).length + 1 := by
  match log, h with
  | [], _ => simp
  | [_], _ => simp
  | a :: b :: rest, h =>
    obtain ⟨hab, hrest⟩ := List.isChain_cons_cons.mp h
    have ih : rest.length ≤ 2 * (rest.filter opens).length + 1 := Turns.length_le hrest.tail
    have hcount : ((a :: b :: rest).filter opens).length = (rest.filter opens).length + 1 := by
      rw [List.filter_cons, List.filter_cons, hab]
      cases opens a <;> simp
    rw [hcount, List.length_cons, List.length_cons]
    omega

end Alternating

/-! ## Reading a log -/

/-- **A reader**: which events open and close a session, what they make of
it, and when a session counts as closed. -/
structure Reader (α β : Type) where
  /-- The events that open a session. -/
  opens : α → Bool
  /-- The events that close one. -/
  closes : α → Bool
  /-- The session an event opens. -/
  start : α → β
  /-- The session an event closes. -/
  finish : β → α → β
  /-- Whether a session is closed. -/
  closed : β → Bool
  closed_start : ∀ a, closed (start a) = false
  closed_finish : ∀ b a, closes a = true → closed (finish b a) = true

namespace Reader

variable (r : Reader α β)

/-- The session an opening event makes, given what is behind it. -/
def session (a : α) (behind : List α) : β :=
  match behind.find? r.closes with
  | some b => r.finish (r.start a) b
  | none => r.start a

/-- **The sessions of a log**: one for each opening event, ended by the next
closing one. -/
def sessions : List α → List β
  | [] => []
  | a :: rest => if r.opens a = true then r.session a rest :: sessions rest else sessions rest

/-- One event of the walk, with the sessions so far. A closing event behind
no open session is dropped. -/
def record (soFar : List β) (a : α) : List β :=
  if r.opens a = true then soFar ++ [r.start a]
  else
    match soFar.getLast? with
    | none => soFar
    | some last =>
      if r.closed last = true then soFar else soFar.dropLast ++ [r.finish last a]

/-- A log that holds nothing but opening and closing events. -/
def Sorted (log : List α) : Prop := ∀ a ∈ log, r.closes a = !r.opens a

variable {r}

theorem Sorted.tail {a : α} {log : List α} (h : r.Sorted (a :: log)) : r.Sorted log :=
  fun b hb => h b (List.mem_cons_of_mem a hb)

theorem sessions_cons_of_opens {a : α} (ha : r.opens a = true) (rest : List α) :
    r.sessions (a :: rest) = r.session a rest :: r.sessions rest := if_pos ha

theorem sessions_cons_of_not_opens {a : α} (ha : r.opens a = false) (rest : List α) :
    r.sessions (a :: rest) = r.sessions rest :=
  if_neg (by rw [ha]; exact Bool.false_ne_true)

theorem length_sessions (log : List α) :
    (r.sessions log).length = (log.filter r.opens).length := by
  induction log with
  | nil => rfl
  | cons a rest ih =>
    cases ha : r.opens a with
    | true =>
      rw [sessions_cons_of_opens ha, List.filter_cons_of_pos ha, List.length_cons, List.length_cons,
        ih]
    | false =>
      rw [sessions_cons_of_not_opens ha,
        List.filter_cons_of_neg (by rw [ha]; exact Bool.false_ne_true), ih]

/-- The sessions of the back of a log are the newest sessions of the log. -/
theorem exists_sessions_append (front back : List α) :
    ∃ older, r.sessions (front ++ back) = older ++ r.sessions back := by
  induction front with
  | nil => exact ⟨[], rfl⟩
  | cons a front ih =>
    obtain ⟨older, h⟩ := ih
    rw [List.cons_append]
    cases ha : r.opens a with
    | true => exact ⟨_ :: older, by rw [sessions_cons_of_opens ha, h]; rfl⟩
    | false => exact ⟨older, by rw [sessions_cons_of_not_opens ha, h]⟩

/-- **Events that neither open nor close** are not in the way. -/
theorem sessions_filter {relevant : α → Bool}
    (hrelevant : ∀ a, r.opens a = true ∨ r.closes a = true → relevant a = true) (log : List α) :
    r.sessions (log.filter relevant) = r.sessions log := by
  have hfind : ∀ l : List α, (l.filter relevant).find? r.closes = l.find? r.closes := by
    intro l
    rw [List.find?_filter]
    refine congrArg (fun p => l.find? p) (funext fun a => ?_)
    cases hc : r.closes a with
    | false => simp
    | true => simp [hrelevant a (Or.inr hc)]
  induction log with
  | nil => rfl
  | cons a log ih =>
    by_cases ha : relevant a = true
    · rw [List.filter_cons_of_pos ha, sessions, sessions, ih]
      unfold session
      rw [hfind]
    · have hopens : r.opens a = false := by
        by_contra ho
        exact ha (hrelevant a (Or.inl (by simpa using ho)))
      rw [List.filter_cons_of_neg ha, ih, sessions_cons_of_not_opens hopens]

/-- **The walk reads the sessions**, behind any closed sessions it has
already, on a log whose events take turns. -/
theorem foldl_record {log : List α} (hsorted : r.Sorted log) (hturns : Turns r.opens log)
    {soFar : List β} (hclosed : ∀ b ∈ soFar.getLast?, r.closed b = true) :
    log.foldl r.record soFar = soFar ++ r.sessions log := by
  match log, hturns with
  | [], _ => rw [List.foldl_nil, sessions, List.append_nil]
  | a :: rest, hturns =>
    rw [List.foldl_cons]
    cases ha : r.opens a with
    | false =>
      -- the session this event closes is none of ours
      have hrecord : r.record soFar a = soFar := by
        unfold record
        rw [if_neg (by rw [ha]; exact Bool.false_ne_true)]
        split
        · rfl
        · next last hlast => rw [if_pos (hclosed last hlast)]
      rw [hrecord, foldl_record hsorted.tail hturns.tail hclosed, sessions_cons_of_not_opens ha]
    | true =>
      have hrecord : r.record soFar a = soFar ++ [r.start a] := if_pos ha
      rw [hrecord, sessions_cons_of_opens ha]
      match rest, hturns, hsorted with
      | [], _, _ => rfl
      | b :: rest, hturns, hsorted =>
        obtain ⟨hab, hrest⟩ := List.isChain_cons_cons.mp hturns
        have hb : r.opens b = false := by
          rw [hab, ha]
          rfl
        have hcloses : r.closes b = true := by
          rw [hsorted.tail b List.mem_cons_self, hb]
          rfl
        have hnext : r.record (soFar ++ [r.start a]) b = soFar ++ [r.finish (r.start a) b] := by
          unfold record
          rw [if_neg (by rw [hb]; exact Bool.false_ne_true), List.getLast?_concat]
          show (if r.closed (r.start a) = true then _ else _) = _
          rw [if_neg (by rw [r.closed_start]; exact Bool.false_ne_true), List.dropLast_concat]
        have hlast : ∀ c ∈ (soFar ++ [r.finish (r.start a) b]).getLast?, r.closed c = true := by
          intro c hc
          rw [List.getLast?_concat] at hc
          rw [← Option.some.inj hc]
          exact r.closed_finish _ b hcloses
        rw [List.foldl_cons, hnext, foldl_record hsorted.tail.tail hrest.tail hlast,
          sessions_cons_of_not_opens hb, session, List.find?_cons, hcloses, List.append_assoc]
        rfl
termination_by log.length

/-- **Only the newest session may be open**, and it is when the log ends
with the event that opened it. -/
theorem sessions_eq_of_turns {log : List α} (hsorted : r.Sorted log) (hturns : Turns r.opens log) :
    ∃ ended : List β, (∀ b ∈ ended, r.closed b = true) ∧
      r.sessions log = ended ++ ((log.getLast?.filter r.opens).map r.start).toList := by
  match log, hturns with
  | [], _ => exact ⟨[], fun b hb => (nomatch hb), rfl⟩
  | [a], _ =>
    refine ⟨[], fun b hb => (nomatch hb), ?_⟩
    cases ha : r.opens a <;> simp [sessions, session, Option.filter, ha]
  | a :: b :: rest, hturns =>
    obtain ⟨hab, hrest⟩ := List.isChain_cons_cons.mp hturns
    obtain ⟨ended, hended, hsessions⟩ := sessions_eq_of_turns hsorted.tail hrest
    rw [List.getLast?_cons_cons]
    cases ha : r.opens a with
    | false => exact ⟨ended, hended, by rw [sessions_cons_of_not_opens ha, hsessions]⟩
    | true =>
      have hcloses : r.closes b = true := by
        rw [hsorted.tail b List.mem_cons_self, hab, ha]
        rfl
      refine ⟨r.finish (r.start a) b :: ended, fun c hc => ?_, ?_⟩
      · rcases List.mem_cons.mp hc with rfl | hc
        · exact r.closed_finish _ b hcloses
        · exact hended c hc
      · rw [sessions_cons_of_opens ha, hsessions, session, List.find?_cons, hcloses]
        rfl
termination_by log.length

/-- **The newest `2n + 1` events hold the newest `n` sessions.** -/
theorem newest_sessions_newest {log : List α} (h : Turns r.opens log) (n : ℕ) :
    newest n (r.sessions (newest (2 * n + 1) log)) = newest n (r.sessions log) := by
  by_cases hle : log.length ≤ 2 * n + 1
  · rw [newest_of_length_le hle]
  · have hturns : Turns r.opens (newest (2 * n + 1) log) := List.IsChain.drop h _
    have hlength : n ≤ ((newest (2 * n + 1) log).filter r.opens).length := by
      have := hturns.length_le
      rw [length_newest] at this
      omega
    obtain ⟨front, hfront⟩ := exists_append_newest (2 * n + 1) log
    obtain ⟨older, holder⟩ := exists_sessions_append (r := r) front (newest (2 * n + 1) log)
    rw [← hfront] at holder
    rw [holder, newest_append_of_le_length older (by rwa [length_sessions])]

end Reader

end Sessions
