import Mathlib.Data.Finset.Card
import Vigabss.Lib.Threads

/-!
# Vigabss.Retries.Schedule — one schedule of payment retries

`paymentRetryService` on one row of `payment_retries`: the runners of a batch, each of which read
the row at some time and executes it later, and the calls of `cancelRetries`.  A runner goes one
SQL statement, or one call of the gateway, at a turn.
-/

namespace Vigabss.Retries

open Vigabss.Lib

/-! ### The row -/

inductive RetryStatus where
  | pending | processing | succeeded | exhausted | cancelled
  deriving DecidableEq, Repr

/-- The row of `payment_retries`; times in milliseconds. -/
structure PaymentRetry where
  attempt_number : ℕ
  max_attempts : ℕ
  status : RetryStatus
  next_retry_at : Option ℤ
  created_at : ℤ
  deriving DecidableEq, Repr

/-- What came of a charge: succeeded or pending at the gateway, or failed. -/
inductive ChargeResult where
  | charged | failed
  deriving DecidableEq, Repr

/-- A charge that went out, under the key of its attempt, and a status that ends the schedule. -/
inductive Event where
  | sent (attempt : ℕ) (result : ChargeResult)
  | ended (status : RetryStatus)
  deriving DecidableEq, Repr

/-- The row, the rows of `idempotency_keys` and what the gateway did under each key, by the attempt,
and the history, the newest first. -/
structure Schedule where
  row : PaymentRetry
  keys : List (ℕ × ChargeResult)
  gateway : List (ℕ × ChargeResult)
  history : List Event
  deriving DecidableEq, Repr

/-- `RETRY_DELAYS_MS`: 4, 24 and 72 hours. -/
def RETRY_DELAYS_MS : List ℤ := [4 * 60 * 60 * 1000, 24 * 60 * 60 * 1000, 72 * 60 * 60 * 1000]

def MAX_ATTEMPTS : ℕ := 3

/-- One hour. -/
def FALLBACK_RETRY_DELAY_MS : ℤ := 60 * 60 * 1000

/-- The row that `scheduleRetry` inserts. -/
def scheduleRetry (now : ℤ) : Schedule :=
  ⟨⟨0, MAX_ATTEMPTS, .pending, some (now + RETRY_DELAYS_MS.headD 0), now⟩, [], [], []⟩

/-- The time of the next retry after a failed attempt. -/
def nextRetryAt (created_at now : ℤ) (attemptNumber : ℕ) : ℤ :=
  let next := created_at + RETRY_DELAYS_MS.getD attemptNumber (RETRY_DELAYS_MS.getLastD 0)
  if next ≤ now then now + FALLBACK_RETRY_DELAY_MS else next

/-! ### The environment -/

/-- How a statement ends: it takes effect, it fails without one, or it takes effect and fails all
the same. -/
inductive SqlEnd where
  | ok | failed | lost
  deriving DecidableEq, Repr

/-- What the gateway makes of a key it has not seen; `unsent` when no request reached it. -/
inductive Reply where
  | charged | declined | unsent
  deriving DecidableEq, Repr

/-- What a turn meets: the end of its statement, the clock, whether the stored card and its gateway
are active, the invoice payable and the idempotency key not expired, and the gateway with whether
its answer is heard. -/
structure Answer where
  sql : SqlEnd
  now : ℤ
  live : Bool
  payable : Bool
  fresh : Bool
  reply : Reply
  heard : Bool
  deriving DecidableEq, Repr

/-! ### The statements -/

namespace Schedule

/-- Another status, which may end the schedule. -/
def setStatus (status : RetryStatus) (s : Schedule) : Schedule :=
  { s with
    row := { s.row with status := status }
    history := if status = .pending ∨ status = .processing then s.history
      else .ended status :: s.history }

/-- The update of `cancelRetry` and `cancelRetries`. -/
def cancel (s : Schedule) : Schedule :=
  if s.row.status = .pending ∨ s.row.status = .processing then
    { s.setStatus .cancelled with row := { s.row with status := .cancelled, next_retry_at := none } }
  else s

/-- `SET status = 'succeeded', attempt_number = ?`. -/
def succeed (attemptNumber : ℕ) (s : Schedule) : Schedule :=
  let s' := s.setStatus .succeeded
  { s' with row := { s'.row with attempt_number := attemptNumber } }

/-- `handleRetryFailure` of the row that was read. -/
def fail (retry : PaymentRetry) (attemptNumber : ℕ) (now : ℤ) (s : Schedule) : Schedule :=
  if retry.max_attempts ≤ attemptNumber then
    let s' := s.setStatus .exhausted
    { s' with row := { s'.row with attempt_number := attemptNumber, next_retry_at := none } }
  else
    let s' := s.setStatus .pending
    { s' with row := { s'.row with
      attempt_number := attemptNumber
      next_retry_at := some (nextRetryAt retry.created_at now attemptNumber) } }

end Schedule

/-- The effect of a statement, unless it failed without one. -/
def effect (e : SqlEnd) (f : Schedule → Schedule) (s : Schedule) : Schedule :=
  if e = .failed then s else f s

/-- What is recorded under a key. -/
def lookup (entries : List (ℕ × ChargeResult)) (attempt : ℕ) : Option ChargeResult :=
  (entries.find? fun x => x.1 = attempt).map Prod.snd

/-- The gateway gets a charge: under a key it knows, the outcome is the old one. -/
def Schedule.send (attempt : ℕ) (charges : ChargeResult) (s : Schedule) : Schedule :=
  let result := (lookup s.gateway attempt).getD charges
  { s with
    gateway := if (lookup s.gateway attempt).isSome then s.gateway
      else (attempt, result) :: s.gateway
    history := .sent attempt result :: s.history }

def Schedule.storeKey (attempt : ℕ) (result : ChargeResult) (s : Schedule) : Schedule :=
  { s with keys := (attempt, result) :: s.keys }

/-! ### The runners -/

/-- A batch comes to the schedule, or it is cancelled from elsewhere. -/
inductive Call where
  | processPendingRetries
  | cancelRetries
  deriving DecidableEq, Repr

/-- Where a runner stands, with the row it read: before the batch query, before it executes the row,
before the update to `processing`, before the idempotency check, before the request, with its
result, or before one of the updates that end the attempt. -/
inductive Stage where
  | reading
  | executing (retry : PaymentRetry)
  | cancelling
  | marking (retry : PaymentRetry)
  | checking (retry : PaymentRetry)
  | sending (retry : PaymentRetry)
  | recording (retry : PaymentRetry) (result : ChargeResult)
  | settling (retry : PaymentRetry)
  | failing (retry : PaymentRetry)
  | done
  deriving DecidableEq, Repr

def start : Call → Stage
  | .processPendingRetries => .reading
  | .cancelRetries => .cancelling

/-- Where the result of `charge` leads. -/
def afterCharge (retry : PaymentRetry) : ChargeResult → Stage
  | .charged => .settling retry
  | .failed => .failing retry

/-- The request to the gateway. -/
def sendCharge (s : Schedule) (retry : PaymentRetry) (a : Answer) : Schedule × Stage :=
  let attempt := retry.attempt_number + 1
  match a.reply with
  | .unsent => (s, .recording retry .failed)
  | .charged | .declined =>
    let s' := s.send attempt (if a.reply = .charged then .charged else .failed)
    (s', .recording retry (if a.heard then (lookup s'.gateway attempt).getD .failed else .failed))

/-- The next statement of a runner. -/
def next (s : Schedule) (t : Stage) (a : Answer) : Schedule × Stage :=
  match t with
  | .reading =>
    (s, if a.sql = .ok ∧ s.row.status = .pending ∧ (∃ t ∈ s.row.next_retry_at, t ≤ a.now) then
      .executing s.row else .done)
  | .executing retry =>
    (s, if a.live = false then .cancelling
      else if a.sql ≠ .ok then .done
      else if a.payable = false then .cancelling
      else .marking retry)
  | .cancelling => (effect a.sql Schedule.cancel s, .done)
  | .marking retry =>
    (effect a.sql (Schedule.setStatus .processing) s, if a.sql = .ok then .checking retry else .done)
  | .checking retry =>
    (s, if a.sql ≠ .ok then .failing retry
      else match lookup s.keys (retry.attempt_number + 1) with
        | some result => if a.fresh then afterCharge retry result else .sending retry
        | none => .sending retry)
  | .sending retry => sendCharge s retry a
  | .recording retry result =>
    if a.sql = .ok then
      (s.storeKey (retry.attempt_number + 1) result, afterCharge retry result)
    else
      (effect a.sql (Schedule.storeKey (retry.attempt_number + 1) .failed) s, .failing retry)
  | .settling retry =>
    (effect a.sql (Schedule.succeed (retry.attempt_number + 1)) s,
      if a.sql = .ok then .done else .failing retry)
  | .failing retry => (effect a.sql (Schedule.fail retry (retry.attempt_number + 1) a.now) s, .done)
  | .done => (s, .done)

/-- The system of a schedule, its runners and its cancellations. -/
abbrev step : Threads Schedule Stage → Turn Call Answer → Threads Schedule Stage :=
  Threads.step start next

/-! ### The law -/

def Event.sentAttempt : Event → Option ℕ
  | .sent attempt _ => some attempt
  | .ended _ => none

def Event.chargedAttempt : Event → Option ℕ
  | .sent attempt .charged => some attempt
  | .sent _ .failed => none
  | .ended _ => none

def Event.isEnd : Event → Bool
  | .sent _ _ => false
  | .ended _ => true

/-- At most `max_attempts` charges with different keys, at most one of them succeeds, and none goes
out after the schedule ended. -/
structure Lawful (s : Schedule) : Prop where
  few : (s.history.filterMap Event.sentAttempt).toFinset.card ≤ s.row.max_attempts
  once : (s.history.filterMap Event.chargedAttempt).toFinset.card ≤ 1
  inTime : ∀ attempt result older, (Event.sent attempt result :: older).IsSuffix s.history →
    ∀ e ∈ older, e.isEnd = false

/-- What the code would have to make sure of: a runner marks the row only as it read it, nothing is
cancelled during a charge, and a charge that succeeds is heard, recorded and settled. -/
def Covered (s : Schedule) (t : Stage) (a : Answer) : Prop :=
  match t with
  | .marking retry => s.row.status = .pending ∧ s.row.attempt_number = retry.attempt_number
  | .cancelling => s.row.status ≠ .processing
  | .sending _ => a.reply = .charged → a.heard = true
  | .recording _ result => result = .charged → a.sql = .ok
  | .settling _ => a.sql = .ok
  | .reading | .executing _ | .checking _ | .failing _ | .done => True

instance (s : Schedule) (t : Stage) (a : Answer) : Decidable (Covered s t a) :=
  match t with
  | .marking retry => inferInstanceAs
      (Decidable (s.row.status = .pending ∧ s.row.attempt_number = retry.attempt_number))
  | .cancelling => inferInstanceAs (Decidable (s.row.status ≠ .processing))
  | .sending _ => inferInstanceAs (Decidable (a.reply = .charged → a.heard = true))
  | .recording _ result => inferInstanceAs (Decidable (result = .charged → a.sql = .ok))
  | .settling _ => inferInstanceAs (Decidable (a.sql = .ok))
  | .reading | .executing _ | .checking _ | .failing _ | .done => .isTrue trivial

end Vigabss.Retries
