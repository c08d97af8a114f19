import Vigabss.Gateway.Payments
import Vigabss.Lib.Threads

/-!
# Vigabss.Gateway.Webhooks — webhook deliveries, refunds and the sweep, statement by statement

`processWebhookEvent` records the event of a provider, finds its transaction, writes the new status,
and posts or takes back its payment.  `refund` asks the provider for the money of a transaction
back, and the sweep posts captures that are not posted yet.  A `Task` is a call and the statement it
comes to; `next` runs that statement.
-/

namespace Vigabss.Gateway

open Vigabss.Lib Vigabss.Billing

/-! ### Events of the providers -/

inductive Provider where
  | stripe | conekta | manual | other
  deriving DecidableEq, Repr

/-- What is read of `payload.data.object`. -/
structure EventObject where
  id : Option String := none
  mode : Option String := none
  paymentStatus : Option String := none
  paymentIntent : Option String := none
  charge : Option String := none
  orderId : Option String := none
  status : Option String := none
  reason : Option String := none
  refunded : Bool := false
  amount : Option ℚ := none
  amountRefunded : Option ℚ := none
  metadataTransactionId : Option ℕ := none
  deriving DecidableEq, Repr

/-- An event as it is handed to `processWebhookEvent`. -/
structure Incoming where
  provider : Provider
  providerEventId : String
  eventType : String
  object : EventObject
  organizationId : Option ℕ
  deriving DecidableEq, Repr

inductive DisputeOutcome where
  | received | lost | won
  deriving DecidableEq, Repr

structure Dispute where
  id : Option String
  outcome : DisputeOutcome
  reason : Option String
  deriving DecidableEq, Repr

/-- What `mapProviderEvent` makes of an event. -/
structure Mapped where
  gatewayRef : Option String
  newStatus : Option GatewayStatus
  dispute : Option Dispute := none
  deriving DecidableEq, Repr

/-- A text that counts as true: one that is there and not empty. -/
def truthy (text : Option String) : Option String := text.filter (· ≠ "")

/-- `charge.refunded` reports a refund in full. -/
def EventObject.fully (obj : EventObject) : Bool :=
  obj.refunded ∨ ∃ back ∈ obj.amountRefunded, ∃ whole ∈ obj.amount, whole ≤ back

/-- The outcome of a dispute event, if it has one. -/
def disputeOutcome (eventType : String) (status : Option String) : Option DisputeOutcome :=
  if eventType = "charge.dispute.created" then some .received
  else if status = some "lost" then some .lost
  else if status = some "won" then some .won
  else none

/-- `mapProviderEvent` on an event of Stripe. -/
def mapStripeEvent (eventType : String) (obj : EventObject) : Mapped :=
  if eventType = "checkout.session.completed" then
    ⟨truthy obj.id, if obj.paymentStatus = some "paid" then some .succeeded else none, none⟩
  else if eventType = "checkout.session.async_payment_succeeded" then
    ⟨truthy obj.id, some .succeeded, none⟩
  else if eventType = "checkout.session.async_payment_failed" ∨
      eventType = "checkout.session.expired" then
    ⟨truthy obj.id, some .failed, none⟩
  else if eventType = "charge.refunded" then
    ⟨(truthy obj.paymentIntent).or obj.id, if obj.fully then some .refunded else none, none⟩
  else if eventType = "charge.dispute.created" ∨ eventType = "charge.dispute.closed" then
    match disputeOutcome eventType obj.status with
    | none => ⟨none, none, none⟩
    | some outcome =>
      ⟨(truthy obj.paymentIntent).or (truthy obj.charge),
        some (if outcome = .lost then .refunded else .disputed),
        some ⟨truthy obj.id, outcome, truthy obj.reason⟩⟩
  else
    ⟨if eventType.startsWith "charge." then (truthy obj.paymentIntent).or obj.id
      else truthy obj.id,
      if eventType = "payment_intent.succeeded" then some .succeeded
      else if eventType = "payment_intent.payment_failed" then some .failed
      else none, none⟩

/-- `mapProviderEvent` on an event of Conekta. -/
def mapConektaEvent (eventType : String) (obj : EventObject) : Mapped :=
  ⟨(if eventType.startsWith "charge." then truthy obj.orderId else none).or (truthy obj.id),
    if eventType = "order.paid" then some .succeeded
    else if eventType = "order.payment_failed" then some .failed
    else if eventType = "charge.refunded" then some .refunded
    else if eventType = "charge.chargeback.created" then some .disputed
    else none, none⟩

/-- `mapProviderEvent`: the reference of the transaction that an event is about, and the status
that it reports. -/
def mapProviderEvent : Provider → String → EventObject → Mapped
  | .stripe, eventType, obj => mapStripeEvent eventType obj
  | .conekta, eventType, obj => mapConektaEvent eventType obj
  | _, _, _ => ⟨none, none, none⟩

/-- `GATEWAY_TRANSITIONS`: the statuses that a captured, disputed or refunded transaction moves
to. -/
def gatewayTransitions : GatewayStatus → Option (List GatewayStatus)
  | .succeeded => some [.succeeded, .refunded, .disputed]
  | .disputed => some [.disputed, .refunded]
  | .refunded => some [.refunded]
  | _ => none

def isAllowedGatewayTransition (source target : GatewayStatus) : Bool :=
  match gatewayTransitions source with
  | none => true
  | some allowed => target ∈ allowed

/-! ### The state -/

inductive EventStatus where
  | received | processing | processed | failed | ignored | noMatch
  deriving DecidableEq, Repr

/-- A row of `webhook_events`. -/
structure WebhookEvent where
  id : ℕ
  organizationId : Option ℕ
  provider : Provider
  providerEventId : String
  status : EventStatus
  transactionId : Option ℕ
  deriving DecidableEq, Repr

instance : Keyed WebhookEvent := ⟨WebhookEvent.id⟩

/-- The columns of the unique key: `org_dedup`, the provider and the event's id there. -/
def WebhookEvent.dedupKey (row : WebhookEvent) : ℕ × Provider × String :=
  (row.organizationId.getD 0, row.provider, row.providerEventId)

def Incoming.dedupKey (e : Incoming) : ℕ × Provider × String :=
  (e.organizationId.getD 0, e.provider, e.providerEventId)

/-- A delivery of the event may be processed again. -/
def EventStatus.reclaimable : EventStatus → Bool
  | .failed | .noMatch => true
  | _ => false

/-- What has happened, which no statement reads. -/
inductive Happening where
  | wrote (transactionId : ℕ) (before after : GatewayStatus)
  | posted (transactionId paymentId : ℕ)
  | processed (event : ℕ)
  | requested (transactionId : ℕ)
  | unanswered (transactionId : ℕ)
  | confirmed (transactionId : ℕ)
  deriving DecidableEq, Repr

/-- The database, with the column `gateway_reference_id` apart, and what has happened, the latest
first. -/
structure State where
  db : Db
  gatewayReferenceId : ℕ → String
  events : Table WebhookEvent
  log : List Happening

namespace State

def note (s : State) (h : Happening) : State := { s with log := h :: s.log }

/-- The record of an event, in its partition. -/
def eventOf (s : State) (e : Incoming) : Option WebhookEvent :=
  s.events.rows.find? fun row => row.dedupKey = e.dedupKey

/-- The record that an event is inserted as. -/
def newEvent (e : Incoming) (id : ℕ) : WebhookEvent :=
  ⟨id, e.organizationId, e.provider, e.providerEventId, .processing, none⟩

def insertEvent (s : State) (e : Incoming) : State :=
  { s with events := s.events.insert (newEvent e) fun _ => rfl }

/-- `UPDATE webhook_events SET status = ?`, with the transaction where one is known. -/
def setEvent (s : State) (event : ℕ) (transactionId : Option ℕ) (status : EventStatus) : State :=
  { s with
    events := s.events.modify event (fun row => { row with
      status
      transactionId := transactionId.or row.transactionId }) fun _ => rfl }

/-- `SELECT * FROM payment_transactions WHERE gateway_reference_id = ?`, within the organization
of the route if it has one. -/
def findByReference (s : State) (gatewayRef : String) (organizationId : Option ℕ) :
    Option PaymentTransaction :=
  s.db.transactions.rows.find? fun tx =>
    s.gatewayReferenceId tx.id = gatewayRef ∧ ∀ o ∈ organizationId, tx.organizationId = o

/-- `SELECT * FROM payment_transactions WHERE id = ? AND organization_id = ?`. -/
def findById (s : State) (transactionId organizationId : ℕ) : Option PaymentTransaction :=
  (s.db.transactions.find? transactionId).filter fun tx => tx.organizationId = organizationId

/-- `UPDATE payment_transactions SET gateway_status = ?` on one row. -/
def writeStatus (s : State) (transactionId : ℕ) (status : GatewayStatus) : State :=
  match s.db.transactions.find? transactionId with
  | none => s
  | some tx =>
    { s with
      db := s.db.setGatewayStatus transactionId status
      log := .wrote transactionId tx.gatewayStatus status :: s.log }

/-- `UPDATE payment_transactions SET gateway_reference_id = COALESCE(?, gateway_reference_id)`. -/
def writeReference (s : State) (transactionId : ℕ) (ref : Option String) : State :=
  { s with
    gatewayReferenceId := Function.update s.gatewayReferenceId transactionId
      (ref.getD (s.gatewayReferenceId transactionId)) }

/-- The `UPDATE` of the transaction by a webhook: its status, and the PaymentIntent if named. -/
def writeReport (s : State) (transactionId : ℕ) (newStatus : GatewayStatus)
    (piRef : Option String) : State :=
  let written := (s.writeStatus transactionId newStatus).writeReference transactionId piRef
  if newStatus = .refunded then written.note (.confirmed transactionId) else written

/-- The transaction that `reconcilePayment` runs: `none` when it fails and is rolled back. -/
def reconcile (s : State) (transactionId : ℕ) : Option State :=
  match reconcilePayment s.db transactionId with
  | .error _ => none
  | .ok (db, .reconciled paymentId _ _) =>
    some { s with db, log := .posted transactionId paymentId :: s.log }
  | .ok (db, _) => some { s with db }

/-- The transaction that `reverseRefund` runs. -/
def reverse (s : State) (transactionId : ℕ) : State :=
  { s with db := reverseRefund s.db transactionId }

end State

theorem find?_of_findById {s : State} {t o : ℕ} {status : GatewayStatus} {tx : PaymentTransaction}
    (h : (s.findById t o).filter (fun tx => tx.gatewayStatus = status) = some tx) :
    s.db.transactions.find? t = some tx ∧ tx.gatewayStatus = status := by
  obtain ⟨hrow, hstatus⟩ := Option.filter_eq_some_iff.1 h
  exact ⟨(Option.filter_eq_some_iff.1 hrow).1, by simpa using hstatus⟩

/-! ### Calls -/

/-- A call of `refund`.  `provider` is the provider of the transaction's gateway, where that gateway
is one of the organization; the amount is in minor units. -/
structure RefundCall where
  transactionId : ℕ
  orgId : ℕ
  clientId : Option ℕ
  amount : Option ℤ
  provider : Option Provider
  deriving DecidableEq, Repr

inductive Answer where
  | duplicate | ignored | noMatch | processed | swept | thrown
  | refunded (ref : Option String)
  | refused (message : String)
  deriving DecidableEq, Repr

/-- What the provider answers to a refund request: it refunds, it refuses, it refunds but the answer
does not arrive; or the request is not sent at all. -/
inductive ProviderAnswer where
  | refunded (ref : Option String) | refused | lost | unsent
  deriving DecidableEq, Repr

/-- How a statement goes, and what the provider answers where it is asked. -/
inductive Reply where
  | ok | fails
  | provider (answer : ProviderAnswer)
  deriving DecidableEq, Repr

/-- A call and the statement that it comes to. -/
inductive Task where
  | select (e : Incoming)
  | claim (e : Incoming) (event : ℕ)
  | insert (e : Incoming)
  | find (e : Incoming) (event : ℕ) (gatewayRef : String) (newStatus : GatewayStatus)
  | findById (e : Incoming) (event : ℕ) (transactionId organizationId : ℕ)
      (newStatus : GatewayStatus)
  | write (event transactionId : ℕ) (newStatus : GatewayStatus) (piRef : Option String)
  | link (event transactionId : ℕ) (newStatus : GatewayStatus)
  | reconcile (event transactionId : ℕ)
  | reverse (event transactionId : ℕ)
  | finish (event : ℕ) (transactionId : Option ℕ) (status : EventStatus) (answer : Answer)
  | fail (event : ℕ)
  | sweepSelect (orgId limit : ℕ)
  | sweep (ids : List ℕ)
  | refundSelect (r : RefundCall)
  | refundClaim (r : RefundCall) (provider : Provider)
  | refundRequest (r : RefundCall) (provider : Provider)
  | refundRelease (r : RefundCall)
  | refundReference (r : RefundCall) (ref : String)
  | refundReverse (r : RefundCall) (ref : Option String)
  | done (answer : Answer)
  deriving DecidableEq, Repr

/-- The event is the Checkout Session that saves a card for autopay. -/
def Incoming.isSetup (e : Incoming) : Bool :=
  e.provider = .stripe ∧ e.eventType = "checkout.session.completed" ∧ e.object.mode = some "setup"

/-- The PaymentIntent that a completed Checkout Session names. -/
def Incoming.piRef (e : Incoming) : Option String :=
  if e.provider = .stripe ∧ e.eventType.startsWith "checkout.session." then
    e.object.paymentIntent.filter fun ref => ref.startsWith "pi_"
  else none

/-- The organization of the route and the transaction that the event's metadata names in it. -/
def Incoming.fallback (e : Incoming) : Option (ℕ × ℕ) := do
  let organizationId ← e.organizationId
  let transactionId ← e.object.metadataTransactionId
  return (transactionId, organizationId)

/-- What the event reports: the reference of a transaction, and its status. -/
def Incoming.report (e : Incoming) : Option (String × GatewayStatus) :=
  if e.isSetup then none
  else
    let mapped := mapProviderEvent e.provider e.eventType e.object
    (truthy mapped.gatewayRef).bind fun ref => mapped.newStatus.map fun status => (ref, status)

/-- What a delivery does once the event is its own. -/
def Incoming.begin (e : Incoming) (event : ℕ) : Task :=
  match e.report with
  | some (gatewayRef, newStatus) => .find e event gatewayRef newStatus
  | none =>
    if e.isSetup then .finish event none .processed .processed
    else .finish event none .ignored .ignored

/-- What a delivery does with the transaction that it has read. -/
def Incoming.matched (e : Incoming) (event : ℕ) (newStatus : GatewayStatus)
    (tx : PaymentTransaction) : Task :=
  if isAllowedGatewayTransition tx.gatewayStatus newStatus then
    .write event tx.id newStatus e.piRef
  else .finish event (some tx.id) .ignored .ignored

/-- What `refund` refuses with, of the transaction that it has read. -/
def refundRefusal (r : RefundCall) (tx : PaymentTransaction) : Option String :=
  let requestedMinor := r.amount.getD tx.amount
  if tx.gatewayStatus ≠ .succeeded then some "Can only refund succeeded transactions"
  else if requestedMinor ≤ 0 then some "Refund amount must be greater than zero"
  else if tx.amount < requestedMinor then
    some "Refund amount exceeds the captured transaction amount"
  else if requestedMinor < tx.amount then
    some ("Partial gateway refunds are not supported yet. Refund the full transaction amount, " ++
      "or use the credit_balance or manual refund method.")
  else none

/-- The rows that a sweep takes up, in the order of their ids. -/
def State.outstanding (s : State) (orgId limit : ℕ) : List ℕ :=
  let rows := s.db.transactions.rows.filter fun tx =>
    tx.organizationId = orgId ∧ tx.gatewayStatus = .succeeded ∧ tx.paymentId = none
  ((rows.map PaymentTransaction.id).mergeSort (· ≤ ·)).take
    (max 1 (min 1000 (if limit = 0 then 200 else limit)))

/-- One statement of a call. -/
def next (s : State) : Task → Reply → State × Task
  | .select e, reply =>
    if reply = .fails then (s, .done .thrown)
    else
      match s.eventOf e with
      | none => (s, .insert e)
      | some row =>
        if row.status.reclaimable then (s, .claim e row.id) else (s, .done .duplicate)
  | .claim e event, reply =>
    if reply = .fails then (s, .done .thrown)
    else
      match (s.events.find? event).filter (·.status.reclaimable) with
      | none => (s, .done .duplicate)
      | some _ => (s.setEvent event none .processing, e.begin event)
  | .insert e, reply =>
    if reply = .fails then (s, .done .thrown)
    else
      match s.eventOf e with
      | some _ => (s, .done .duplicate)
      | none => (s.insertEvent e, e.begin s.events.nextId)
  | .find e event gatewayRef newStatus, reply =>
    if reply = .fails then (s, .fail event)
    else
      match s.findByReference gatewayRef e.organizationId, e.fallback with
      | some tx, _ => (s, e.matched event newStatus tx)
      | none, some (transactionId, organizationId) =>
        (s, .findById e event transactionId organizationId newStatus)
      | none, none => (s, .finish event none .noMatch .noMatch)
  | .findById e event transactionId organizationId newStatus, reply =>
    if reply = .fails then (s, .fail event)
    else
      match s.findById transactionId organizationId with
      | some tx => (s, e.matched event newStatus tx)
      | none => (s, .finish event none .noMatch .noMatch)
  | .write event transactionId newStatus piRef, reply =>
    if reply = .fails then (s, .fail event)
    else
      (s.writeReport transactionId newStatus piRef, .link event transactionId newStatus)
  | .link event transactionId newStatus, reply =>
    if reply = .fails then (s, .fail event)
    else
      let s := s.setEvent event (some transactionId) .processed
      match newStatus with
      | .succeeded => (s, .reconcile event transactionId)
      | .refunded => (s, .reverse event transactionId)
      | _ => (s.note (.processed event), .done .processed)
  | .reconcile event transactionId, reply =>
    match if reply = .fails then none else s.reconcile transactionId with
    | none => (s, .fail event)
    | some s => (s.note (.processed event), .done .processed)
  | .reverse event transactionId, reply =>
    let s := if reply = .fails then s else s.reverse transactionId
    (s.note (.processed event), .done .processed)
  | .finish event transactionId status answer, reply =>
    if reply = .fails then (s, .fail event)
    else
      let s := s.setEvent event transactionId status
      (if answer = .processed then s.note (.processed event) else s, .done answer)
  | .fail event, reply =>
    (if reply = .fails then s else s.setEvent event none .failed, .done .thrown)
  | .sweepSelect orgId limit, reply =>
    (s, if reply = .fails then .done .thrown else .sweep (s.outstanding orgId limit))
  | .sweep [], _ => (s, .done .swept)
  | .sweep (id :: ids), reply =>
    (((if reply = .fails then none else s.reconcile id).getD s), .sweep ids)
  | .refundSelect r, reply =>
    if reply = .fails then (s, .done .thrown)
    else
      let row := (s.findById r.transactionId r.orgId).filter fun tx =>
        ∀ c ∈ r.clientId, tx.clientId = c
      match row, r.provider with
      | some tx, some provider =>
        (s, ((refundRefusal r tx).map fun message => .done (.refused message)).getD
          (.refundClaim r provider))
      | _, _ =>
        (s, .done (.refused "Payment transaction not found for this organization and client"))
  | .refundClaim r provider, reply =>
    if reply = .fails then (s, .done .thrown)
    else
      match (s.findById r.transactionId r.orgId).filter (·.gatewayStatus = .succeeded) with
      | some _ => (s.writeStatus r.transactionId .refunded, .refundRequest r provider)
      | none =>
        (s, .done (.refused "Transaction is already being refunded or is no longer refundable"))
  | .refundRequest r .manual, _ => (s.note (.confirmed r.transactionId), .refundReverse r none)
  | .refundRequest r .other, _ => (s, .refundRelease r)
  | .refundRequest r _, reply =>
    let asked := s.note (.requested r.transactionId)
    match reply with
    | .provider (.refunded ref) =>
      (asked.note (.confirmed r.transactionId),
        ((truthy ref).map fun ref => .refundReference r ref).getD (.refundReverse r none))
    | .provider .lost => (asked.note (.unanswered r.transactionId), .refundRelease r)
    | .provider .refused => (asked, .refundRelease r)
    | _ => (s, .refundRelease r)
  | .refundRelease r, reply =>
    if reply = .fails then (s, .done .thrown)
    else
      match (s.findById r.transactionId r.orgId).filter (·.gatewayStatus = .refunded) with
      | some _ => (s.writeStatus r.transactionId .succeeded, .done .thrown)
      | none => (s, .done .thrown)
  | .refundReference r ref, reply =>
    if reply = .fails then (s, .done .thrown)
    else (s.writeReference r.transactionId (some ref), .refundReverse r (some ref))
  | .refundReverse r ref, reply =>
    (if reply = .fails then s else s.reverse r.transactionId, .done (.refunded ref))
  | .done answer, _ => (s, .done answer)

/-- What comes in: a delivery of an event, a sweep, or a refund that the staff asks for. -/
inductive Call where
  | webhook (e : Incoming)
  | sweep (orgId limit : ℕ)
  | refund (r : RefundCall)
  deriving DecidableEq, Repr

def Call.start : Call → Task
  | .webhook e => .select e
  | .sweep orgId limit => .sweepSelect orgId limit
  | .refund r => .refundSelect r

end Vigabss.Gateway
