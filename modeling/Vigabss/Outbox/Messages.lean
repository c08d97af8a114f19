import Mathlib.Data.List.Count
import Vigabss.Lib.Threads

/-!
# Vigabss.Outbox.Messages — one SMS or WhatsApp message of the outbox

`messageOutbox` on one row: workers that claim and deliver it, sweeps over stale rows, and the staff
actions `retry` and `cancel`, one SQL statement or one step of the provider call at a turn.  Times
are in seconds.
-/

namespace Vigabss.Outbox

open Vigabss.Lib

/-! ### The row -/

inductive MessageStatus where
  | queued | claimed | sending | sent | skipped | failed | outcome_unknown | cancelled
  deriving DecidableEq, Repr

structure Message where
  status : MessageStatus
  attempts : ℕ
  max_attempts : ℕ
  next_attempt_at : ℤ
  claimed_at : Option ℤ
  is_sensitive : Bool
  deriving DecidableEq, Repr

/-- What happened to the message: a worker went on to the provider call, from where on a crash may
have sent it; it found that its call sent nothing; staff retried the message with
`confirmPossibleDuplicate`; or it was cancelled from a status. -/
inductive Event where
  | called
  | notSent
  | confirmed
  | cancelled (was : MessageStatus)
  deriving DecidableEq, Repr

/-- The row, with its history, the newest first. -/
structure Queued where
  row : Message
  history : List Event
  deriving DecidableEq, Repr

def BACKOFF_MINUTES : List ℕ := [1, 5, 15, 60, 240]

def CLAIM_STALE_MINUTES : ℤ := 5

def SENDING_STALE_MINUTES : ℤ := 15

def RETRYABLE_FROM : List MessageStatus := [.failed, .outcome_unknown, .cancelled]

def CANCELLABLE_FROM : List MessageStatus := [.queued, .failed, .outcome_unknown]

/-- The row that `enqueue` inserts. -/
def enqueue (now : ℤ) (maxAttempts : ℕ) (sensitive : Bool) : Queued :=
  ⟨⟨.queued, 0, if maxAttempts = 0 then BACKOFF_MINUTES.length else maxAttempts, now, none,
    sensitive⟩, []⟩

/-! ### The environment -/

/-- How a statement ends: it takes effect, it fails without one, or it takes effect and fails all
the same. -/
inductive SqlEnd where
  | ok | failed | lost
  deriving DecidableEq, Repr

/-- What the transport makes of the provider's answer; `unsent` is a failure that proves that the
provider never accepted the message, anything else than a success is `unclear`. -/
inductive SmsResult where
  | success
  | unsent (permanent : Bool)
  | unclear
  deriving DecidableEq, Repr

/-- What a turn meets: the end of its statement, the clock, whether the budget of the minute is used
up, whether the organization still stands as it was at enqueue, whether the client's preferences
block the message, and the provider's answer. -/
structure Answer where
  sql : SqlEnd
  now : ℤ
  limited : Bool
  authorized : Bool
  blocked : Bool
  result : SmsResult
  deriving DecidableEq, Repr

/-! ### The statements -/

inductive Outcome where
  | sent | skipped | retry | failed | unknown
  deriving DecidableEq, Repr

/-- `ADAPTERS.sms`: the outcome of a call. -/
def sms : SmsResult → Outcome
  | .success => .sent
  | .unsent permanent => if permanent then .failed else .retry
  | .unclear => .unknown

/-- `backoffMinutes(attempts)`. -/
def backoffMinutes (attempts : ℕ) : ℕ :=
  BACKOFF_MINUTES.getD (min (max attempts 1) BACKOFF_MINUTES.length - 1) 0

/-- The status that `finish` writes. -/
def finalStatus (row : Message) : Outcome → MessageStatus
  | .sent => .sent
  | .skipped => .skipped
  | .unknown => .outcome_unknown
  | .retry => if row.attempts < row.max_attempts then .queued else .failed
  | .failed => .failed

namespace Queued

def log (e : Event) (s : Queued) : Queued := { s with history := e :: s.history }

/-- An update with its `WHERE status = …`. -/
def update (status : MessageStatus) (f : Message → Message) (s : Queued) : Queued :=
  if s.row.status = status then { s with row := f s.row } else s

/-- `SET status = 'claimed', claimed_at = NOW(), attempts = attempts + 1`. -/
def claim (now : ℤ) : Queued → Queued :=
  update .queued fun m =>
    { m with status := .claimed, claimed_at := some now, attempts := m.attempts + 1 }

/-- `SET status = 'sending'`. -/
def enter : Queued → Queued := update .claimed fun m => { m with status := .sending }

/-- The update of `finish`. -/
def finish (row : Message) (outcome : Outcome) (now : ℤ) : Queued → Queued :=
  update .sending fun m =>
    { m with
      status := finalStatus row outcome
      next_attempt_at := if finalStatus row outcome = .queued then
        now + backoffMinutes row.attempts * 60 else m.next_attempt_at
      claimed_at := none }

/-- `claimed_at < NOW() - INTERVAL … MINUTE`. -/
def stale (s : Queued) (now minutes : ℤ) : Bool :=
  s.row.claimed_at.any fun t => t < now - minutes * 60

/-- The two updates of `recoverStale`. -/
def requeueStale (now : ℤ) (s : Queued) : Queued :=
  if s.stale now CLAIM_STALE_MINUTES then
    s.update .claimed fun m => { m with status := .queued, claimed_at := none }
  else s

@[inherit_doc requeueStale]
def abandonStale (now : ℤ) (s : Queued) : Queued :=
  if s.stale now SENDING_STALE_MINUTES then
    s.update .sending fun m => { m with status := .outcome_unknown }
  else s

/-- The update of `retry`, for the status that was read. -/
def requeue (seen : MessageStatus) (confirm : Bool) (now : ℤ) (s : Queued) : Queued :=
  if s.row.status = seen then
    let s' := s.update seen fun m =>
      { m with status := .queued, attempts := 0, next_attempt_at := now, claimed_at := none }
    if confirm then s'.log .confirmed else s'
  else s

/-- The update of `cancel`, for the status that was read. -/
def cancel (seen : MessageStatus) (s : Queued) : Queued :=
  if s.row.status = seen then
    (s.update seen fun m => { m with status := .cancelled, claimed_at := none }).log
      (.cancelled seen)
  else s

/-- The rate limit puts the message off to the next minute. -/
def defer (now : ℤ) : Queued → Queued :=
  update .queued fun m => { m with next_attempt_at := now + 60 }

end Queued

/-- The effect of a statement, unless it failed without one. -/
def effect (e : SqlEnd) (f : Queued → Queued) (s : Queued) : Queued :=
  if e = .failed then s else f s

/-! ### The calls -/

/-- A pass over the queue, the delivery of the row alone (at once, or when it is due), or a staff
action. -/
inductive Call where
  | processQueue
  | deliverNow
  | sendNow
  | retry (confirmPossibleDuplicate : Bool)
  | cancel
  | cancelQueuedBySource
  deriving DecidableEq, Repr

/-- The statement a call stands before; a worker has the row it selected. -/
inductive Stage where
  | requeuing
  | abandoning
  | selecting (atOnce budgeted : Bool)
  | deferring
  | claiming (row : Message)
  | checking (row : Message)
  | blocking (row : Message)
  | entering (row : Message)
  | dispatching (row : Message)
  | awaiting (row : Message)
  | finishing (row : Message) (outcome : Outcome)
  | retrying (confirm : Bool)
  | requeueing (seen : MessageStatus) (confirm : Bool)
  | cancelling (from_ : List MessageStatus)
  | striking (seen : MessageStatus)
  | done
  deriving DecidableEq, Repr

def start : Call → Stage
  | .processQueue => .requeuing
  | .deliverNow => .selecting false false
  | .sendNow => .selecting true false
  | .retry confirm => .retrying confirm
  | .cancel => .cancelling CANCELLABLE_FROM
  | .cancelQueuedBySource => .cancelling [.queued]

/-- The worker's copy of the row, with the attempt it claimed. -/
def Message.claimedCopy (row : Message) : Message := { row with attempts := row.attempts + 1 }

/-- The next statement of a call. -/
def next (s : Queued) (t : Stage) (a : Answer) : Queued × Stage :=
  match t with
  | .requeuing =>
    (effect a.sql (Queued.requeueStale a.now) s, if a.sql = .ok then .abandoning else .done)
  | .abandoning =>
    (effect a.sql (Queued.abandonStale a.now) s,
      if a.sql = .ok then .selecting false true else .done)
  | .selecting atOnce budgeted =>
    (s, if a.sql = .ok ∧ s.row.status = .queued ∧
        (atOnce = true ∨ s.row.next_attempt_at ≤ a.now) then
      if budgeted = true ∧ a.limited = true then .deferring else .claiming s.row
      else .done)
  | .deferring => (effect a.sql (Queued.defer a.now) s, .done)
  | .claiming row =>
    (effect a.sql (Queued.claim a.now) s,
      if a.sql = .ok ∧ s.row.status = .queued then .checking row.claimedCopy else .done)
  | .checking row =>
    (s, if a.sql ≠ .ok then .done else if a.authorized then .entering row else .blocking row)
  | .blocking row =>
    (effect a.sql Queued.enter s, if a.sql = .ok then .finishing row .skipped else .done)
  | .entering row =>
    if a.sql = .ok ∧ s.row.status = .claimed then (s.enter.log .called, .dispatching row)
    else (effect a.sql Queued.enter s, .done)
  | .dispatching row =>
    if a.blocked then (s.log .notSent, .finishing row .skipped) else (s, .awaiting row)
  | .awaiting row =>
    (s, .finishing row (if a.sql = .ok then sms a.result else .unknown))
  | .finishing row outcome =>
    let s' := if outcome = .retry ∨ outcome = .failed then s.log .notSent else s
    (effect a.sql (Queued.finish row outcome a.now) s', .done)
  | .retrying confirm =>
    (s, if a.sql = .ok ∧ s.row.status ∈ RETRYABLE_FROM ∧ s.row.is_sensitive = false ∧
        (s.row.status = .outcome_unknown → confirm = true) then
      .requeueing s.row.status confirm else .done)
  | .requeueing seen confirm => (effect a.sql (Queued.requeue seen confirm a.now) s, .done)
  | .cancelling from_ =>
    (s, if a.sql = .ok ∧ s.row.status ∈ from_ then .striking s.row.status else .done)
  | .striking seen => (effect a.sql (Queued.cancel seen) s, .done)
  | .done => (s, .done)

/-- The system of a message and everyone who works on it. -/
abbrev step : Threads Queued Stage → Turn Call Answer → Threads Queued Stage :=
  Threads.step start next

/-! ### The law -/

/-- The provider calls that may have delivered the message: those not found to have sent
nothing. -/
def mayHaveDelivered (history : List Event) : ℤ :=
  (history.count .called : ℤ) - history.count .notSent

/-- At most one call, and one more for each confirmed retry, may have delivered. -/
def AtMostOnce (s : Queued) : Prop :=
  mayHaveDelivered s.history ≤ 1 + s.history.count .confirmed

instance (s : Queued) : Decidable (AtMostOnce s) :=
  inferInstanceAs (Decidable (mayHaveDelivered s.history ≤ 1 + s.history.count .confirmed))

/-- The status the message was last cancelled from. -/
def cancelledFrom : List Event → Option MessageStatus
  | [] => none
  | .cancelled was :: _ => some was
  | _ :: older => cancelledFrom older

/-- What the code would have to make sure of: a message that was cancelled while its outcome was
unknown is retried with the confirmation only. -/
def Covered (s : Queued) (t : Stage) (_ : Answer) : Prop :=
  match t with
  | .requeueing seen confirm =>
    seen = .cancelled → cancelledFrom s.history = some .outcome_unknown → confirm = true
  | _ => True

instance (s : Queued) (t : Stage) (a : Answer) : Decidable (Covered s t a) :=
  match t with
  | .requeueing seen confirm => inferInstanceAs (Decidable
      (seen = .cancelled → cancelledFrom s.history = some .outcome_unknown → confirm = true))
  | .requeuing | .abandoning | .selecting _ _ | .deferring | .claiming _ | .checking _
  | .blocking _ | .entering _ | .dispatching _ | .awaiting _ | .finishing _ _ | .retrying _
  | .cancelling _ | .striking _ | .done => .isTrue trivial

end Vigabss.Outbox

/-!
## A message is sent once, or as often as staff confirm

A message that waits to be sent has one send left.  Going on to the provider uses it up, a call that
sent nothing gives it back, and a confirmed retry adds one.  A cancellation forgets that the outcome
was unknown, which is where an unconfirmed retry may send once more.
-/

namespace Vigabss.Outbox

open Vigabss.Lib

/-! ### Sends left -/

/-- Whether a status lets the message be sent without a confirmation. -/
def sendLeft (history : List Event) : MessageStatus → ℤ
  | .queued | .claimed | .failed => 1
  | .cancelled => if cancelledFrom history = some .outcome_unknown then 0 else 1
  | .sending | .sent | .skipped | .outcome_unknown => 0

/-- What staff allowed beyond the calls that may have delivered. -/
def allowance (history : List Event) : ℤ :=
  1 + history.count .confirmed - mayHaveDelivered history

/-- The send that is left is allowed. -/
def Within (s : Queued) : Prop := sendLeft s.history s.row.status ≤ allowance s.history

/-- What a call relies on: the status that a staff action read is one it may act on. -/
def Relies (_ : Queued) : Stage → Prop
  | .requeueing seen confirm =>
    seen ∈ RETRYABLE_FROM ∧ (seen = .outcome_unknown → confirm = true)
  | .cancelling from_ => ∀ seen ∈ from_, seen ∈ CANCELLABLE_FROM
  | .striking seen => seen ∈ CANCELLABLE_FROM
  | _ => True

theorem sendLeft_bounds (history : List Event) (status : MessageStatus) :
    0 ≤ sendLeft history status ∧ sendLeft history status ≤ 1 := by
  cases status with
  | cancelled =>
    simp only [sendLeft]
    split_ifs <;> decide
  | _ => simp [sendLeft]

theorem Within.nonneg {s : Queued} (h : Within s) : 0 ≤ allowance s.history :=
  (sendLeft_bounds s.history s.row.status).1.trans h

theorem Within.atMostOnce {s : Queued} (h : Within s) : AtMostOnce s := by
  have hnonneg := h.nonneg
  unfold allowance at hnonneg
  unfold AtMostOnce
  omega

theorem within_of_one {s : Queued} (h : 1 ≤ allowance s.history) : Within s :=
  (sendLeft_bounds s.history s.row.status).2.trans h

/-! ### The history -/

theorem allowance_called (history : List Event) :
    allowance (.called :: history) = allowance history - 1 := by
  simp [allowance, mayHaveDelivered]
  omega

theorem allowance_notSent (history : List Event) :
    allowance (.notSent :: history) = allowance history + 1 := by
  simp [allowance, mayHaveDelivered]
  omega

theorem allowance_confirmed (history : List Event) :
    allowance (.confirmed :: history) = allowance history + 1 := by
  simp [allowance, mayHaveDelivered]
  omega

theorem allowance_cancelled (history : List Event) (was : MessageStatus) :
    allowance (.cancelled was :: history) = allowance history := by
  simp [allowance, mayHaveDelivered]

/-! ### The statements -/

theorem effect_cases (P : Queued → Prop) (e : SqlEnd) {f : Queued → Queued} {s : Queued}
    (hs : P s) (hf : P (f s)) : P (effect e f s) := by
  unfold effect
  split_ifs
  · exact hs
  · exact hf

theorem Within.update {s : Queued} (h : Within s) {status : MessageStatus} {f : Message → Message}
    (hf : s.row.status = status →
      sendLeft s.history (f s.row).status ≤ sendLeft s.history status) :
    Within (s.update status f) := by
  unfold Queued.update
  split_ifs with hstatus
  · have hle := hf hstatus
    rw [← hstatus] at hle
    exact hle.trans h
  · exact h

theorem Within.claim {s : Queued} (h : Within s) (now : ℤ) : Within (s.claim now) :=
  h.update fun _ => le_rfl

theorem Within.enter {s : Queued} (h : Within s) : Within s.enter :=
  h.update fun _ => by simp [sendLeft]

theorem Within.defer {s : Queued} (h : Within s) (now : ℤ) : Within (s.defer now) :=
  h.update fun hstatus => by
    show sendLeft s.history s.row.status ≤ sendLeft s.history .queued
    rw [hstatus]

theorem Within.requeueStale {s : Queued} (h : Within s) (now : ℤ) :
    Within (s.requeueStale now) := by
  unfold Queued.requeueStale
  split_ifs
  · exact h.update fun _ => le_rfl
  · exact h

theorem Within.abandonStale {s : Queued} (h : Within s) (now : ℤ) :
    Within (s.abandonStale now) := by
  unfold Queued.abandonStale
  split_ifs
  · exact h.update fun _ => le_rfl
  · exact h

theorem Within.called {s : Queued} (h : Within s) (hstatus : s.row.status = .claimed) :
    Within (s.enter.log .called) := by
  have henter : s.enter = { s with row := { s.row with status := .sending } } := by
    simp [Queued.enter, Queued.update, hstatus]
  rw [henter]
  unfold Within at h ⊢
  rw [hstatus] at h
  show 0 ≤ allowance (.called :: s.history)
  rw [allowance_called]
  have hone : (1 : ℤ) ≤ allowance s.history := h
  omega

theorem Within.notSent {s : Queued} (h : Within s) : 1 ≤ allowance (s.log .notSent).history := by
  have hnonneg := h.nonneg
  show 1 ≤ allowance (.notSent :: s.history)
  rw [allowance_notSent]
  omega

@[simp] theorem history_update (status : MessageStatus) (f : Message → Message) (s : Queued) :
    (s.update status f).history = s.history := by
  unfold Queued.update
  split_ifs <;> rfl

theorem Within.finish {s : Queued} (h : Within s) (row : Message) (outcome : Outcome) (now : ℤ) :
    Within (Queued.finish row outcome now
      (if outcome = .retry ∨ outcome = .failed then s.log .notSent else s)) := by
  by_cases hunsent : outcome = .retry ∨ outcome = .failed
  · rw [if_pos hunsent]
    refine within_of_one ?_
    rw [Queued.finish, history_update]
    exact h.notSent
  · rw [if_neg hunsent]
    refine h.update fun _ => ?_
    cases outcome <;> simp_all [finalStatus, sendLeft]

theorem Within.requeue {s : Queued} (h : Within s) {seen : MessageStatus} {confirm : Bool}
    (hseen : seen ∈ RETRYABLE_FROM) (hunknown : seen = .outcome_unknown → confirm = true)
    (hcancelled : seen = .cancelled → cancelledFrom s.history = some .outcome_unknown →
      confirm = true) (now : ℤ) : Within (s.requeue seen confirm now) := by
  unfold Queued.requeue
  by_cases hstatus : s.row.status = seen
  · rw [if_pos hstatus]
    by_cases hconfirm : confirm = true
    · simp only [if_pos hconfirm]
      refine within_of_one ?_
      have hnonneg := h.nonneg
      show 1 ≤ allowance (.confirmed :: (s.update seen _).history)
      rw [history_update, allowance_confirmed]
      omega
    · simp only [if_neg hconfirm]
      refine h.update fun _ => ?_
      simp only [RETRYABLE_FROM, List.mem_cons, List.not_mem_nil, or_false] at hseen
      rcases hseen with rfl | rfl | rfl
      · exact le_rfl
      · exact absurd (hunknown rfl) hconfirm
      · have hleft : ¬ cancelledFrom s.history = some .outcome_unknown :=
          fun hfrom => hconfirm (hcancelled rfl hfrom)
        simp [sendLeft, hleft]
  · rw [if_neg hstatus]
    exact h

theorem Within.cancel {s : Queued} (h : Within s) {seen : MessageStatus}
    (hseen : seen ∈ CANCELLABLE_FROM) : Within (s.cancel seen) := by
  unfold Queued.cancel
  by_cases hstatus : s.row.status = seen
  · rw [if_pos hstatus]
    unfold Within at h ⊢
    rw [hstatus] at h
    have hrow : ((s.update seen fun m =>
        { m with status := .cancelled, claimed_at := none }).log (.cancelled seen)).row.status =
        .cancelled := by
      simp [Queued.update, Queued.log, hstatus]
    have hhistory : ((s.update seen fun m =>
        { m with status := .cancelled, claimed_at := none }).log (.cancelled seen)).history =
        .cancelled seen :: s.history := by
      simp [Queued.log]
    rw [hrow, hhistory, allowance_cancelled]
    refine le_trans ?_ h
    simp only [CANCELLABLE_FROM, List.mem_cons, List.not_mem_nil, or_false] at hseen
    rcases hseen with rfl | rfl | rfl <;> simp [sendLeft, cancelledFrom]
  · rw [if_neg hstatus]
    exact h

/-! ### The turns -/

/-- **One statement**, of a worker, a sweep or staff, keeps what is left to send within what is
allowed. -/
theorem turn_keeps (s : Queued) (t : Stage) (a : Answer) (hs : Within s) (ht : Relies s t)
    (hgood : Covered s t a) : Within (next s t a).1 ∧ Relies s (next s t a).2 := by
  cases t with
  | requeuing =>
    refine ⟨effect_cases Within a.sql hs (hs.requeueStale a.now), ?_⟩
    simp only [next]
    split_ifs <;> trivial
  | abandoning =>
    refine ⟨effect_cases Within a.sql hs (hs.abandonStale a.now), ?_⟩
    simp only [next]
    split_ifs <;> trivial
  | selecting atOnce budgeted =>
    refine ⟨hs, ?_⟩
    simp only [next]
    split_ifs <;> trivial
  | deferring => exact ⟨effect_cases Within a.sql hs (hs.defer a.now), trivial⟩
  | claiming row =>
    refine ⟨effect_cases Within a.sql hs (hs.claim a.now), ?_⟩
    simp only [next]
    split_ifs <;> trivial
  | checking row =>
    refine ⟨hs, ?_⟩
    simp only [next]
    split_ifs <;> trivial
  | blocking row =>
    refine ⟨effect_cases Within a.sql hs hs.enter, ?_⟩
    simp only [next]
    split_ifs <;> trivial
  | entering row =>
    simp only [next]
    split_ifs with hclaimed
    · exact ⟨hs.called hclaimed.2, trivial⟩
    · exact ⟨effect_cases Within a.sql hs hs.enter, trivial⟩
  | dispatching row =>
    simp only [next]
    split_ifs
    · exact ⟨within_of_one hs.notSent, trivial⟩
    · exact ⟨hs, trivial⟩
  | awaiting row => exact ⟨hs, trivial⟩
  | finishing row outcome =>
    refine ⟨?_, trivial⟩
    show Within (effect a.sql (Queued.finish row outcome a.now)
      (if outcome = .retry ∨ outcome = .failed then s.log .notSent else s))
    refine effect_cases Within a.sql ?_ (hs.finish row outcome a.now)
    split_ifs
    · exact within_of_one hs.notSent
    · exact hs
  | retrying confirm =>
    refine ⟨hs, ?_⟩
    simp only [next]
    split_ifs with hread
    · exact ⟨hread.2.1, hread.2.2.2⟩
    · trivial
  | requeueing seen confirm =>
    refine ⟨effect_cases Within a.sql hs (hs.requeue ht.1 ht.2 hgood a.now), trivial⟩
  | cancelling from_ =>
    refine ⟨hs, ?_⟩
    simp only [next]
    split_ifs with hread
    · exact ht _ hread.2
    · trivial
  | striking seen => exact ⟨effect_cases Within a.sql hs (hs.cancel ht), trivial⟩
  | done => exact ⟨hs, trivial⟩

/-! ### The law -/

theorem relies_start (s : Queued) (c : Call) : Relies s (start c) := by
  cases c with
  | cancel => exact fun _ h => h
  | cancelQueuedBySource =>
    intro seen h
    rw [List.mem_singleton.1 h]
    decide
  | _ => trivial

theorem within_enqueued (now : ℤ) (maxAttempts : ℕ) (sensitive : Bool) :
    Within (enqueue now maxAttempts sensitive) := le_rfl

/-- **At most once**: in every run whose retries are covered, the calls that may have delivered the
message are at most one more than the confirmed retries. -/
theorem sent_at_most_once (now : ℤ) (maxAttempts : ℕ) (sensitive : Bool)
    (is : List (Turn Call Answer))
    (h : StepsMeet step (Threads.Meets Covered)
      (Threads.idle (enqueue now maxAttempts sensitive)) is) :
    Always step (fun s => AtMostOnce s.shared)
      (Threads.idle (enqueue now maxAttempts sensitive)) is := by
  have hkept := @Threads.always_exclusive _ _ _ _ start next Within Relies Covered (fun _ => false)
    (fun s c => ⟨relies_start s c, rfl⟩)
    (fun s t a hs ht hgood =>
      ⟨(turn_keeps s t a hs ht hgood).1, (turn_keeps s t a hs ht hgood).2, fun _ hu _ => hu, nofun⟩)
    _ (within_enqueued now maxAttempts sensitive) is h
  exact hkept.mono fun s hs => hs.atMostOnce

/-- The statement takes effect and the provider takes the message. -/
def goesWell : Answer := ⟨.ok, 0, false, true, false, .success⟩

/-- A worker sends the message and dies before it can say so. -/
def diesSending : List (Turn Call Answer) :=
  [.call .deliverNow, .turn 0 goesWell, .turn 0 goesWell, .turn 0 goesWell, .turn 0 goesWell,
    .turn 0 goesWell]

/-- The sweep of a later pass, and a confirmed retry that is delivered. -/
def confirmedResend : List (Turn Call Answer) :=
  let later := { goesWell with now := 1000 }
  diesSending ++ [.call .processQueue, .turn 1 later, .turn 1 later, .call (.retry true),
    .turn 2 later, .turn 2 later, .call .deliverNow, .turn 3 later, .turn 3 later, .turn 3 later,
    .turn 3 later, .turn 3 later, .turn 3 later, .turn 3 later]

theorem sent_at_most_once_confirmed :
    StepsMeet step (Threads.Meets Covered) (Threads.idle (enqueue 0 0 false)) confirmedResend ∧
      Always step (fun s => AtMostOnce s.shared) (Threads.idle (enqueue 0 0 false))
        confirmedResend := by
  have hgood : StepsMeet step (Threads.Meets Covered) (Threads.idle (enqueue 0 0 false))
      confirmedResend := by decide
  exact ⟨hgood, sent_at_most_once 0 0 false confirmedResend hgood⟩

/-- A message whose outcome is unknown is cancelled, and retried without the confirmation. -/
def cancelledThenRetried : List (Turn Call Answer) :=
  let later := { goesWell with now := 1000 }
  diesSending ++ [.call .processQueue, .turn 1 later, .turn 1 later, .call .cancel,
    .turn 2 later, .turn 2 later, .call (.retry false), .turn 3 later, .turn 3 later,
    .call .deliverNow, .turn 4 later, .turn 4 later, .turn 4 later, .turn 4 later, .turn 4 later]

theorem cancelled_unknown_sent_twice :
    ¬ Always step (fun s => AtMostOnce s.shared) (Threads.idle (enqueue 0 0 false))
      cancelledThenRetried := by
  intro h
  have hlast := h.last
  revert hlast
  decide

end Vigabss.Outbox
