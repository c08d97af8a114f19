import Mathlib.Data.List.Nodup
import Vigabss.Lib.Threads

/-!
# Vigabss.Webhooks.Deliveries — one durable webhook delivery

`webhookService` on one row of `webhook_deliveries`: workers that claim it by a conditional update
and make the request, the sweep of `processRetries`, and the changes of the registration and of the
organization with their triggers, one SQL statement or one step of the request at a turn.  Times are
in seconds; a token is a number that no claim had before.
-/

namespace Vigabss.Webhooks

open Vigabss.Lib

/-! ### The rows -/

inductive DeliveryStatus where
  | pending | processing | success | failed | retrying | dead_letter
  deriving DecidableEq, Repr

structure Delivery where
  status : DeliveryStatus
  attempt_number : ℕ
  recovery_count : ℕ
  next_retry_at : Option ℤ
  locked_at : Option ℤ
  claim_token : Option ℕ
  revoked_at : Option ℤ
  organization_epoch : ℕ
  target_url : Option String
  event_name : String
  deriving DecidableEq, Repr

/-- The registration. -/
structure Webhook where
  url : String
  is_active : Bool
  deleted : Bool
  max_retries : ℕ
  deriving DecidableEq, Repr

/-- The owner; an isolated one keeps its deliveries in a database of its own. -/
structure Organization where
  active : Bool
  outbound_delivery_epoch : ℕ
  isolated : Bool
  deriving DecidableEq, Repr

/-- What happened to the delivery: a claim, an external request, an outcome that a worker recorded,
or the end that a sweep, a trigger or a refused worker set. -/
inductive Event where
  | claimed (token : ℕ)
  | requested (token : ℕ)
  | recorded (token : ℕ) (status : DeliveryStatus)
  | deadLettered
  deriving DecidableEq, Repr

/-- The rows, the clock, the tokens drawn, the largest `max_retries` in force so far, and the
history, the newest first. -/
structure Outbound where
  row : Delivery
  webhook : Webhook
  organization : Organization
  now : ℤ
  issued : ℕ
  largest : ℕ
  history : List Event
  deriving DecidableEq, Repr

def WEBHOOK_PROCESSING_STALE_MINUTES : ℤ := 5

def RESERVED_TRAP_EVENTS : List String := ["device.trap", "snmp.trap"]

/-- The row that `dispatch` inserts. -/
def dispatch (webhook : Webhook) (organization : Organization) (now : ℤ) (event : String) :
    Outbound where
  row := ⟨.pending, 0, 0, some now, none, none, none, organization.outbound_delivery_epoch,
    some webhook.url, event⟩
  webhook := webhook
  organization := organization
  now := now
  issued := 0
  largest := webhook.max_retries
  history := []

/-! ### The environment -/

/-- How a statement ends: it takes effect, it fails without one, or it takes effect and fails all
the same. -/
inductive SqlEnd where
  | ok | failed | lost
  deriving DecidableEq, Repr

/-- The end of a request; an address that is not safe is refused before one is made. -/
inductive Reply where
  | response (statusCode : ℕ)
  | failed
  | unsafeUrl
  deriving DecidableEq, Repr

/-- What a turn meets: the end of its statement, the reply, and the random number of the backoff. -/
structure Answer where
  sql : SqlEnd
  reply : Reply
  random : ℕ
  deriving DecidableEq, Repr

/-! ### The statements -/

/-- `COALESCE(w.max_retries, 5) + 1`. -/
def Webhook.maxAttempts (w : Webhook) : ℕ := w.max_retries + 1

/-- The full jitter of `backoffMs`, in seconds. -/
def backoffSeconds (attemptNumber random : ℕ) : ℕ :=
  random % min 3600 (10 * 2 ^ (attemptNumber - 1)) + 1

namespace Outbound

def log (e : Event) (s : Outbound) : Outbound := { s with history := e :: s.history }

/-- `locked_at < DATE_SUB(NOW(), INTERVAL … MINUTE)`. -/
def stale (s : Outbound) : Bool :=
  s.row.locked_at.any fun t => t < s.now - WEBHOOK_PROCESSING_STALE_MINUTES * 60

/-- `next_retry_at IS NULL OR next_retry_at <= NOW()`. -/
def due (s : Outbound) : Bool := s.row.next_retry_at.all fun t => t ≤ s.now

/-- `status IN ('pending','retrying')`. -/
def unclaimed (s : Outbound) : Bool := s.row.status = .pending ∨ s.row.status = .retrying

/-- `status = 'processing'`, with a claim that is stale. -/
def abandoned (s : Outbound) : Bool := s.row.status = .processing ∧ s.stale = true

/-- The address the delivery was queued for is the registered one. -/
def sameUrl (s : Outbound) : Bool := s.row.target_url = some s.webhook.url

/-- The `WHERE` of the claim. -/
def claimable (epoch : ℕ) (s : Outbound) : Bool :=
  s.webhook.is_active ∧ ¬ s.webhook.deleted ∧ s.row.organization_epoch = epoch ∧ s.sameUrl ∧
    s.row.revoked_at = none ∧
    (s.row.status = .pending ∨ (s.row.status = .retrying ∧ s.due) ∨
      (s.abandoned ∧
        (s.row.attempt_number < s.webhook.maxAttempts ∨ s.row.recovery_count < 1)))

/-- The row as the claim leaves it. -/
def claimedRow (s : Outbound) : Delivery :=
  { s.row with
    claim_token := some s.issued
    locked_at := some s.now
    recovery_count := s.row.recovery_count +
      if s.row.status = .processing ∧ s.webhook.maxAttempts ≤ s.row.attempt_number then 1 else 0
    status := .processing
    attempt_number := s.row.attempt_number +
      if s.row.attempt_number < s.webhook.maxAttempts then 1 else 0
    next_retry_at := none }

/-- The update of `claimDurableWebhookDelivery`. -/
def claim (epoch : ℕ) (s : Outbound) : Outbound :=
  if s.claimable epoch then
    { s with
      row := s.claimedRow
      issued := s.issued + 1
      history := .claimed s.issued :: s.history }
  else s

/-- `SET status = 'dead_letter'`, with the claim and the next retry cleared. -/
def deadLetter (s : Outbound) : Outbound :=
  { s with
    row := { s.row with
      status := .dead_letter
      next_retry_at := none
      locked_at := none
      claim_token := none }
    history := .deadLettered :: s.history }

/-- `deadLetter` with the `WHERE` of its statement. -/
def deadLetterWhere (condition : Outbound → Bool) (s : Outbound) : Outbound :=
  if condition s then s.deadLetter else s

/-- The update of `terminalizeInactiveOrganizationDelivery`. -/
def terminalize : Outbound → Outbound := deadLetterWhere fun s => s.unclaimed || s.abandoned

/-- The update after a claim that found no row. -/
def fence (epoch : ℕ) : Outbound → Outbound :=
  deadLetterWhere fun s => s.row.organization_epoch ≠ epoch && (s.unclaimed || s.abandoned)

/-- The three updates of the sweep: the revoked, the exhausted and the moved. -/
def sweepRevoked : Outbound → Outbound :=
  deadLetterWhere fun s =>
    (s.row.revoked_at.isSome && s.unclaimed) ||
      (s.abandoned && (s.row.revoked_at.isSome || !s.webhook.is_active || s.webhook.deleted ||
        !s.sameUrl))

@[inherit_doc sweepRevoked]
def sweepExhausted : Outbound → Outbound :=
  deadLetterWhere fun s => s.abandoned && s.webhook.maxAttempts ≤ s.row.attempt_number &&
    1 ≤ s.row.recovery_count

@[inherit_doc sweepRevoked]
def sweepMoved : Outbound → Outbound := deadLetterWhere fun s => s.unclaimed && !s.sameUrl

/-- The sweep selects the row. -/
def recoverable (s : Outbound) : Bool :=
  s.webhook.is_active && !s.webhook.deleted && s.sameUrl && s.row.revoked_at.isNone &&
    ((s.unclaimed && s.due) || s.abandoned)

/-- `setDurableWebhookOutcome`. -/
def setOutcome (token : ℕ) (status : DeliveryStatus) (nextRetry : Option ℤ) (s : Outbound) :
    Outbound :=
  if s.row.status = .processing ∧ s.row.claim_token = some token then
    { s with
      row := { s.row with
        status := status
        next_retry_at := nextRetry
        locked_at := none
        claim_token := none }
      history := .recorded token status :: s.history }
  else s

/-- A live claim is revoked, so that it may finish but not be recovered. -/
def revoke (s : Outbound) : Outbound :=
  if s.row.status = .processing then
    { s with row := { s.row with revoked_at := some (s.row.revoked_at.getD s.now) } }
  else s

/-- An update of the registration, with its trigger. -/
def configure (w : Webhook) (s : Outbound) : Outbound :=
  let s' := { s with webhook := w, largest := max s.largest w.max_retries }
  if w.url = s.webhook.url ∧ w.is_active = s.webhook.is_active ∧ w.deleted = s.webhook.deleted then
    s'
  else (s'.deadLetterWhere unclaimed).revoke

/-- The organization with its epoch raised, as a change of its status leaves it. -/
def withStatus (active : Bool) (s : Outbound) : Outbound :=
  { s with organization :=
      { s.organization with
        active := active
        outbound_delivery_epoch := s.organization.outbound_delivery_epoch + 1 } }

/-- A change of the organization's status or deletion, with its triggers. -/
def setStatus (active : Bool) (s : Outbound) : Outbound :=
  (s.withStatus active).deadLetterWhere fun s =>
    !s.organization.isolated && s.row.organization_epoch ≠ s.organization.outbound_delivery_epoch &&
      s.unclaimed

/-- Time goes by. -/
def wait (seconds : ℕ) (s : Outbound) : Outbound := { s with now := s.now + seconds }

end Outbound

/-- The effect of a statement, unless it failed without one. -/
def effect (e : SqlEnd) (f : Outbound → Outbound) (s : Outbound) : Outbound :=
  if e = .failed then s else f s

/-! ### The calls -/

/-- A worker, the sweep, or a change of the surroundings. -/
inductive Call where
  | deliverDurableWebhook
  | processRetries
  | configure (w : Webhook)
  | setStatus (active : Bool)
  | wait (seconds : ℕ)
  deriving DecidableEq, Repr

/-- What a worker read back of its claim. -/
structure Copy where
  claim_token : ℕ
  attempt_number : ℕ
  max_retries : ℕ
  organization_epoch : ℕ
  event_name : String
  deriving DecidableEq, Repr

/-- The statement a call stands before. -/
inductive Stage where
  | owner
  | terminalizing
  | claiming (epoch : ℕ)
  | fencing (epoch : ℕ)
  | reading (token : ℕ)
  | ownerAgain (copy : Copy)
  | requesting (copy : Copy)
  | awaiting (copy : Copy)
  | recording (copy : Copy) (status : DeliveryStatus) (nextRetry : Option ℤ)
  | sweepingRevoked
  | sweepingExhausted
  | sweepingMoved
  | selecting
  | selectedOwner
  | configuring (w : Webhook)
  | changing (active : Bool)
  | waiting (seconds : ℕ)
  | done
  deriving DecidableEq, Repr

def start : Call → Stage
  | .deliverDurableWebhook => .owner
  | .processRetries => .sweepingRevoked
  | .configure w => .configuring w
  | .setStatus active => .changing active
  | .wait seconds => .waiting seconds

/-- The row and the registration as the worker's `SELECT` finds them. -/
def Outbound.copy (token : ℕ) (s : Outbound) : Copy :=
  ⟨token, s.row.attempt_number, s.webhook.max_retries, s.row.organization_epoch, s.row.event_name⟩

/-- What the worker makes of the reply. -/
def Copy.outcome (copy : Copy) : Reply → DeliveryStatus
  | .response statusCode =>
    if 200 ≤ statusCode ∧ statusCode < 300 then .success
    else if (statusCode < 500 ∧ statusCode ∉ [408, 425, 429]) ∨
        copy.max_retries + 1 ≤ copy.attempt_number then .dead_letter
    else .retrying
  | .failed => if copy.max_retries + 1 ≤ copy.attempt_number then .dead_letter else .retrying
  | .unsafeUrl => .dead_letter

/-- The outcome to record, and the time of the next retry. -/
def Copy.record (copy : Copy) (s : Outbound) (a : Answer) : Stage :=
  .recording copy (copy.outcome a.reply) <|
    if copy.outcome a.reply = .retrying then
      some (s.now + backoffSeconds copy.attempt_number a.random) else none

/-- The next statement of a call. -/
def next (s : Outbound) (t : Stage) (a : Answer) : Outbound × Stage :=
  match t with
  | .owner =>
    (s, if a.sql ≠ .ok then .done else if s.organization.active then
      .claiming s.organization.outbound_delivery_epoch else .terminalizing)
  | .terminalizing => (effect a.sql Outbound.terminalize s, .done)
  | .claiming epoch =>
    (effect a.sql (Outbound.claim epoch) s,
      if a.sql ≠ .ok then .done else if s.claimable epoch then .reading s.issued
      else .fencing epoch)
  | .fencing epoch => (effect a.sql (Outbound.fence epoch) s, .done)
  | .reading token =>
    (s, if a.sql = .ok ∧ s.row.status = .processing ∧ s.row.claim_token = some token then
      .ownerAgain (s.copy token) else .done)
  | .ownerAgain copy =>
    (s, if a.sql ≠ .ok then .done
      else if s.organization.active = false ∨
          copy.organization_epoch ≠ s.organization.outbound_delivery_epoch ∨
          copy.event_name ∈ RESERVED_TRAP_EVENTS then .recording copy .dead_letter none
      else .requesting copy)
  | .requesting copy =>
    if a.reply = .unsafeUrl then (s, copy.record s a)
    else (s.log (.requested copy.claim_token), .awaiting copy)
  | .awaiting copy => (s, copy.record s a)
  | .recording copy status nextRetry =>
    (effect a.sql (Outbound.setOutcome copy.claim_token status nextRetry) s, .done)
  | .sweepingRevoked =>
    (effect a.sql Outbound.sweepRevoked s, if a.sql = .ok then .sweepingExhausted else .done)
  | .sweepingExhausted =>
    (effect a.sql Outbound.sweepExhausted s, if a.sql = .ok then .sweepingMoved else .done)
  | .sweepingMoved =>
    (effect a.sql Outbound.sweepMoved s, if a.sql = .ok then .selecting else .done)
  | .selecting => (s, if a.sql = .ok ∧ s.recoverable then .selectedOwner else .done)
  | .selectedOwner =>
    (s, if a.sql ≠ .ok ∨ (s.organization.active = true ∧
        s.row.organization_epoch = s.organization.outbound_delivery_epoch) then .done
      else .terminalizing)
  | .configuring w => (effect a.sql (Outbound.configure w) s, .done)
  | .changing active => (effect a.sql (Outbound.setStatus active) s, .done)
  | .waiting seconds => (s.wait seconds, .done)
  | .done => (s, .done)

/-- The system of a delivery and everyone who works on it. -/
abbrev step : Threads Outbound Stage → Turn Call Answer → Threads Outbound Stage :=
  Threads.step start next

/-! ### The law -/

def Event.claim? : Event → Option ℕ
  | .claimed token => some token
  | .requested _ | .recorded _ _ | .deadLettered => none

def Event.request? : Event → Option ℕ
  | .requested token => some token
  | .claimed _ | .recorded _ _ | .deadLettered => none

/-- A success was recorded, or the delivery was dead-lettered without its worker. -/
def Event.ends : Event → Bool
  | .recorded _ status => status = .success
  | .deadLettered => true
  | .claimed _ | .requested _ => false

/-- The tokens of the claims, the newest first. -/
def claims (history : List Event) : List ℕ := history.filterMap Event.claim?

/-- The tokens with which external requests were made. -/
def requests (history : List Event) : List ℕ := history.filterMap Event.request?

/-- No request comes after the end. -/
def InTime (history : List Event) : Prop :=
  ∀ token older, .requested token :: older <:+ history → ∀ e ∈ older, e.ends = false

/-- Every outcome is of the holder of the newest claim. -/
def ByHolder (history : List Event) : Prop :=
  ∀ token status older, .recorded token status :: older <:+ history →
    (claims older).head? = some token

/-- At most `max_retries + 2` requests, none after the end, and every outcome by the holder of the
current claim. -/
structure Lawful (s : Outbound) : Prop where
  bounded : (requests s.history).length ≤ s.largest + 2
  inTime : InTime s.history
  byHolder : ByHolder s.history

/-- What the code would have to make sure of: a delivery that waits for its retry has an attempt
left when it is claimed, and a worker begins its request while the claim is still its own. -/
def Covered (s : Outbound) (t : Stage) (_ : Answer) : Prop :=
  match t with
  | .claiming _ => s.row.status = .retrying → s.row.attempt_number < s.webhook.maxAttempts
  | .requesting copy => s.row.claim_token = some copy.claim_token
  | _ => True

instance (s : Outbound) (t : Stage) (a : Answer) : Decidable (Covered s t a) :=
  match t with
  | .claiming _ => inferInstanceAs (Decidable
      (s.row.status = .retrying → s.row.attempt_number < s.webhook.maxAttempts))
  | .requesting copy => inferInstanceAs (Decidable (s.row.claim_token = some copy.claim_token))
  | .owner | .terminalizing | .fencing _ | .reading _ | .ownerAgain _ | .awaiting _
  | .recording _ _ _ | .sweepingRevoked | .sweepingExhausted | .sweepingMoved | .selecting
  | .selectedOwner | .configuring _ | .changing _ | .waiting _ | .done => .isTrue trivial

end Vigabss.Webhooks
