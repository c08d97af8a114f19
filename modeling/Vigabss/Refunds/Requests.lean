import Vigabss.Billing.NoteChanges
import Vigabss.Lib.Threads

/-!
# Vigabss.Refunds.Requests — one refund request and the staff who work on it

`refundRequestService`: `updateRequest`, `reviewRequest` and `processRequest` as threads over the
row of a request, one SQL statement a turn.  The history keeps what the row went through, the newest
first.
-/

namespace Vigabss.Refunds

open Vigabss.Lib

/-! ### The row -/

inductive RequestStatus where
  | requested | under_review | approved | rejected | processed
  deriving DecidableEq, Repr

inductive RefundReason where
  | overcharge | duplicate | cancellation | service_issue | other
  deriving DecidableEq, Repr

inductive RefundMethod where
  | original_method | credit_balance | credit_note | manual
  deriving DecidableEq, Repr

/-- `['requested', 'under_review'].includes(status)`. -/
def RequestStatus.isOpen (s : RequestStatus) : Bool := s = .requested ∨ s = .under_review

/-- The methods that the column `refund_method` has a value for. -/
def RefundMethod.stored (m : RefundMethod) : Bool := m ≠ .credit_note

/-- What a refund pays back: an amount in cents, and the payment transaction. -/
structure Figures where
  amount : ℤ
  payment_id : Option ℕ
  deriving DecidableEq, Repr

/-- The row of `refund_requests`. -/
structure RefundRequest where
  amount : ℤ
  payment_id : Option ℕ
  invoice_id : Option ℕ
  reason : RefundReason
  status : RequestStatus
  refund_method : Option RefundMethod
  deriving DecidableEq, Repr

def RefundRequest.figures (r : RefundRequest) : Figures := ⟨r.amount, r.payment_id⟩

/-- The editable fields that a request body has. -/
structure Changes where
  amount : Option ℤ
  reason : Option RefundReason
  payment_id : Option (Option ℕ)
  invoice_id : Option (Option ℕ)
  deriving DecidableEq, Repr

def RefundRequest.edit (changes : Changes) (r : RefundRequest) : RefundRequest :=
  { r with
    amount := changes.amount.getD r.amount
    reason := changes.reason.getD r.reason
    payment_id := changes.payment_id.getD r.payment_id
    invoice_id := changes.invoice_id.getD r.invoice_id }

/-! ### What happened to it -/

/-- An approval with the figures it was given for, a rejection, money that moved, and a processing
that came to its end. -/
inductive Event where
  | approved (figures : Figures)
  | rejected
  | moved (figures : Figures)
  | processed
  deriving DecidableEq, Repr

/-- The request is over: it was rejected, or processed, or its money went out. -/
def Event.closes : Event → Bool
  | .approved _ => false
  | .rejected => true
  | .moved _ => true
  | .processed => true

def Event.isMove : Event → Bool
  | .moved _ => true
  | _ => false

/-- The row and its history. -/
structure Request where
  row : RefundRequest
  history : List Event
  deriving DecidableEq, Repr

/-- The figures of the last approval. -/
def lastApproval : List Event → Option Figures
  | [] => none
  | .approved f :: _ => some f
  | _ :: older => lastApproval older

namespace Request

def setStatus (status : RequestStatus) (s : Request) : Request :=
  { s with row := { s.row with status := status } }

def edit (changes : Changes) (s : Request) : Request := { s with row := s.row.edit changes }

def log (e : Event) (s : Request) : Request := { s with history := e :: s.history }

end Request

/-! ### The calls -/

inductive Verdict where
  | approved | rejected
  deriving DecidableEq, Repr

/-- A call on the request. -/
inductive Call where
  | updateRequest (changes : Changes)
  | reviewRequest (verdict : Verdict)
  | processRequest (method : RefundMethod)
  deriving DecidableEq, Repr

/-- The statement a call stands before: `reading` the row it will edit or review, writing it,
`claiming` it, `fetching` the claimed row, `paying` by its method, `recording` the adjustment,
`finishing` with the status, or `releasing` the claim. -/
inductive Stage where
  | reading (changes : Changes)
  | editing (changes : Changes)
  | reviewing (verdict : Verdict)
  | writing (verdict : Verdict)
  | claiming (method : RefundMethod)
  | fetching (method : RefundMethod)
  | paying (method : RefundMethod) (figures : Figures)
  | recording (method : RefundMethod) (figures : Figures)
  | finishing (method : RefundMethod) (figures : Figures)
  | releasing
  | done
  deriving DecidableEq, Repr

def start : Call → Stage
  | .updateRequest changes => .reading changes
  | .reviewRequest verdict => .reviewing verdict
  | .processRequest method => .claiming method

/-- How a statement, or the call of the gateway, ends: it takes effect, it fails without one (also
when a check on what it read refuses), or it takes effect and fails all the same. -/
inductive Answer where
  | ok | failed | lost
  deriving DecidableEq, Repr

/-- The effect of a statement, unless it failed without one. -/
def effect (a : Answer) (f : Request → Request) (s : Request) : Request :=
  if a = .failed then s else f s

/-- `RefundRequest.update(id, { status, … })` of a review. -/
def review (verdict : Verdict) (s : Request) : Request :=
  match verdict with
  | .approved => (s.setStatus .approved).log (.approved s.row.figures)
  | .rejected => (s.setStatus .rejected).log .rejected

/-- The last update of `completeProcessing`; a manual refund is paid by hand, and this is where it
counts as paid. -/
def finish (method : RefundMethod) (figures : Figures) (s : Request) : Request :=
  let s' : Request := { s with row := { s.row with
    status := .processed, refund_method := some method } }
  if method = .manual then (s'.log (.moved figures)).log .processed else s'.log .processed

/-- `completeProcessing` up to the adjustment: the statement, or the call, that moves the money. -/
def pay (method : RefundMethod) (figures : Figures) (s : Request) (a : Answer) :
    Request × Stage :=
  match method with
  | .manual => (s, .recording method figures)
  | .original_method =>
    if figures.payment_id = none then (s, .releasing)
    else (effect a (Request.log (.moved figures)) s,
      if a = .ok then .recording method figures else .releasing)
  | .credit_balance | .credit_note =>
    (effect a (Request.log (.moved figures)) s,
      if a = .ok then .recording method figures else .releasing)

/-- Where an error leaves a processing after the money step: only a gateway refund that went through
sets `state.moneyMoved`. -/
def afterError (method : RefundMethod) : Stage :=
  if method = .original_method then .done else .releasing

/-- The next statement of a call. -/
def next (s : Request) (t : Stage) (a : Answer) : Request × Stage :=
  match t with
  | .reading changes => (s, if a = .ok ∧ s.row.status.isOpen = true then .editing changes else .done)
  | .editing changes => (effect a (Request.edit changes) s, .done)
  | .reviewing verdict =>
    (s, if a = .ok ∧ s.row.status.isOpen = true then .writing verdict else .done)
  | .writing verdict => (effect a (review verdict) s, .done)
  | .claiming method =>
    if s.row.status = .approved then
      (effect a (Request.setStatus .processed) s, if a = .ok then .fetching method else .done)
    else (s, .done)
  | .fetching method => (s, if a = .ok then .paying method s.row.figures else .done)
  | .paying method figures => pay method figures s a
  | .recording method figures =>
    (s, if a = .ok then .finishing method figures else afterError method)
  | .finishing method figures =>
    if method.stored = true then
      (effect a (finish method figures) s, if a = .ok then .done else afterError method)
    else (s, afterError method)
  | .releasing =>
    (if s.row.status = .processed then effect a (Request.setStatus .approved) s else s, .done)
  | .done => (s, .done)

/-- `createRequest`: the row as it is inserted. -/
def createRequest (amount : ℤ) (payment_id invoice_id : Option ℕ) (reason : RefundReason) :
    Request :=
  ⟨⟨amount, payment_id, invoice_id, reason, .requested, none⟩, []⟩

/-- The system of a request and the calls on it. -/
abbrev step : Threads Request Stage → Turn Call Answer → Threads Request Stage :=
  Threads.step start next

/-! ### The law -/

/-- Money moves at most once, for what was approved, and a request that is over is not approved
again. -/
structure Lawful (s : Request) : Prop where
  once : (s.history.filter Event.isMove).length ≤ 1
  asApproved : ∀ f older, (Event.moved f :: older).IsSuffix s.history → lastApproval older = some f
  closed : (∃ e ∈ s.history, e.closes = true) → s.row.status ≠ .approved

/-- What the code would have to make sure of: an edit of the figures is written while the request is
open, an approval while it is open or approved, and no error comes after money that the handler
does not know of. -/
def Covered (s : Request) (t : Stage) (a : Answer) : Prop :=
  match t with
  | .editing changes => (s.row.edit changes).figures = s.row.figures ∨ s.row.status.isOpen = true
  | .writing .approved => s.row.status.isOpen = true ∨ s.row.status = .approved
  | .paying method _ => method = .manual ∨ a ≠ .lost
  | .recording method _ => method = .original_method ∨ method = .manual ∨ a = .ok
  | .finishing method _ =>
    method = .original_method ∨ method = .manual ∧ a ≠ .lost ∨ method.stored = true ∧ a = .ok
  | _ => True

instance (s : Request) (t : Stage) (a : Answer) : Decidable (Covered s t a) :=
  match t with
  | .editing changes =>
    inferInstanceAs (Decidable ((s.row.edit changes).figures = s.row.figures ∨ _ = true))
  | .writing .approved => inferInstanceAs (Decidable (_ = true ∨ s.row.status = .approved))
  | .writing .rejected => .isTrue trivial
  | .paying method _ => inferInstanceAs (Decidable (method = .manual ∨ a ≠ .lost))
  | .recording method _ =>
    inferInstanceAs (Decidable (method = .original_method ∨ method = .manual ∨ a = .ok))
  | .finishing method _ => inferInstanceAs (Decidable (method = .original_method ∨
      method = .manual ∧ a ≠ .lost ∨ method.stored = true ∧ a = .ok))
  | .reading _ | .reviewing _ | .claiming _ | .fetching _ | .releasing | .done => .isTrue trivial

end Vigabss.Refunds

/-!
## What a processed refund leaves in the books

The refund requests of an organization, their payment transactions and the billing books, one call
at a time.  `moneyStep` is the part of `completeProcessing` that moves the money, by the method of
the refund; the log keeps what was refunded.
-/

namespace Vigabss.Refunds

open Vigabss.Lib Vigabss.Billing

/-! ### Rows -/

inductive GatewayStatus where
  | pending | succeeded | failed | refunded | cancelled
  deriving DecidableEq, Repr

/-- A row of `payment_transactions`. -/
structure PaymentTransaction where
  id : ℕ
  client_id : ℕ
  amount : ℤ
  gateway_status : GatewayStatus
  nonneg : 0 ≤ amount

/-- A row of `refund_requests` under its id; amounts are validated to be at least a cent. -/
structure RequestEntry where
  id : ℕ
  client_id : ℕ
  row : RefundRequest
  positive : 0 < row.amount

instance : Keyed PaymentTransaction := ⟨PaymentTransaction.id⟩
instance : Keyed RequestEntry := ⟨RequestEntry.id⟩

/-- A credit that `credit_balance` writes to `client_balance_ledger`. -/
structure BalanceCredit where
  client_id : ℕ
  credit : ℤ
  reference_id : ℕ

/-- Money that went back for a request. -/
structure Refund where
  request_id : ℕ
  amount : ℤ
  payment_id : Option ℕ

/-- The billing books, in which applications name notes that exist. -/
structure LinkedBooks where
  books : Books
  linked : ∀ a ∈ books.db.applications.rows, a.creditNoteId < books.db.creditNotes.nextId

/-- What the refund service reads and writes. -/
structure Desk where
  ledgers : LinkedBooks
  transactions : Table PaymentTransaction
  requests : Table RequestEntry
  credits : List BalanceCredit
  refunds : List Refund

/-- `credit_notes.currency` of a note. -/
def Desk.noteCurrency (d : Desk) (noteId : ℕ) : String :=
  (d.ledgers.books.details noteId).currency

/-- The amounts refunded of a transaction. -/
def refundedOf (refunds : List Refund) (transactionId : ℕ) : ℤ :=
  ((refunds.filter fun x => x.payment_id = some transactionId).map Refund.amount).sum

/-! ### The money step -/

/-- What a processing is given: the organization and its currency, the day, the number of a new
credit note, and whether the gateway, asked for a refund, makes it. -/
structure Setting where
  orgId : ℕ
  orgCurrency : String
  today : ℕ
  cnNumber : String
  gatewayPays : Bool

/-- The currency of the credit note: that of the invoice, if it has one. -/
def refundCurrency (books : Books) (env : Setting) (invoice_id : Option ℕ) : String :=
  let found := invoice_id.bind fun i => (books.db.invoices.find? i).filter fun inv =>
    inv.organizationId = env.orgId ∧ inv.deleted = false
  match found with
  | some inv => if inv.currency = "" then env.orgCurrency else inv.currency
  | none => env.orgCurrency

/-- The credit note of a refund, with its ledger credit, in one transaction. -/
def refundNote (d : Desk) (r : RequestEntry) (env : Setting) : Except Failure Books :=
  issueRefundCreditNote d.ledgers.books env.orgId r.client_id env.today r.row.invoice_id
    r.row.amount ⟨env.cnNumber, refundCurrency d.ledgers.books env r.row.invoice_id⟩

def PaymentTransaction.setStatus (status : GatewayStatus) (t : PaymentTransaction) :
    PaymentTransaction := { t with gateway_status := status }

theorem key_setStatus (status : GatewayStatus) (t : PaymentTransaction) :
    Keyed.key (t.setStatus status) = Keyed.key t := rfl

namespace Desk

/-- `UPDATE payment_transactions SET gateway_status = …` on one row. -/
def setGateway (d : Desk) (transactionId : ℕ) (status : GatewayStatus) : Desk :=
  { d with
    transactions := d.transactions.modify transactionId (PaymentTransaction.setStatus status)
      (key_setStatus status) }

/-- The transaction that a request names, if it is the client's. -/
def transactionOf (d : Desk) (r : RequestEntry) : Option PaymentTransaction :=
  (r.row.payment_id.bind d.transactions.find?).filter fun t => t.client_id = r.client_id

def logRefund (d : Desk) (r : RequestEntry) : Desk :=
  { d with refunds := ⟨r.id, r.row.amount, r.row.payment_id⟩ :: d.refunds }

/-- `paymentGatewayService.refund` of the request's transaction: in full or not at all. -/
def gatewayRefund (d : Desk) (r : RequestEntry) (env : Setting) : Option Desk :=
  match d.transactionOf r with
  | none => none
  | some t =>
    if t.gateway_status = .succeeded ∧ r.row.amount = t.amount ∧ env.gatewayPays = true then
      some ((d.setGateway t.id .refunded).logRefund r)
    else none

/-- The credit of `credit_balance`; a transaction that it covers is marked as refunded. -/
def creditBalance (d : Desk) (r : RequestEntry) : Desk :=
  let d' := { d with credits := ⟨r.client_id, r.row.amount, r.id⟩ :: d.credits }
  match d.transactionOf r with
  | none => d'.logRefund r
  | some t =>
    if t.amount ≤ r.row.amount then (d'.setGateway t.id .refunded).logRefund r
    else d'.logRefund r

end Desk

/-- The row of the credit note. -/
def refundNoteRow (r : RequestEntry) (env : Setting) (id : ℕ) : CreditNote :=
  ⟨id, env.orgId, r.client_id, r.row.invoice_id, r.row.amount, .issued, false⟩

theorem key_refundNoteRow (r : RequestEntry) (env : Setting) (id : ℕ) :
    Keyed.key (refundNoteRow r env id) = id := rfl

/-- The tables with other credit notes. -/
def withNotes (db : Db) (notes : Table CreditNote) : Db := { db with creditNotes := notes }

theorem refundNote_ok {d : Desk} {r : RequestEntry} {env : Setting} {books : Books}
    (h : refundNote d r env = .ok books) :
    books.db = withNotes d.ledgers.books.db
        (d.ledgers.books.db.creditNotes.insert (refundNoteRow r env) (key_refundNoteRow r env)) ∧
      books.details = Function.update d.ledgers.books.details
        d.ledgers.books.db.creditNotes.nextId
        ⟨env.cnNumber, refundCurrency d.ledgers.books env r.row.invoice_id⟩ := by
  obtain ⟨inserted, hins, hsync⟩ := except_bind_ok.1 h
  obtain ⟨u, -, hout⟩ := except_bind_ok.1 (query_ok.1 hins)
  cases hout
  obtain ⟨synced, -, hout⟩ := except_bind_ok.1 hsync
  cases hout
  exact ⟨rfl, rfl⟩

theorem linked_of_refundNote {d : Desk} {r : RequestEntry} {env : Setting} {books : Books}
    (h : refundNote d r env = .ok books) :
    ∀ a ∈ books.db.applications.rows, a.creditNoteId < books.db.creditNotes.nextId := by
  rw [(refundNote_ok h).1]
  intro a ha
  show a.creditNoteId < (d.ledgers.books.db.creditNotes.insert (refundNoteRow r env)
    (key_refundNoteRow r env)).nextId
  rw [Table.nextId_insert]
  exact Nat.lt_succ_of_lt (d.ledgers.linked a ha)

/-- The money step of `completeProcessing`: nothing if it fails.  A manual refund is paid by hand,
and the request is all that says so. -/
def moneyStep (d : Desk) (r : RequestEntry) (method : RefundMethod) (env : Setting) : Option Desk :=
  match method with
  | .original_method => d.gatewayRefund r env
  | .credit_balance => if decimalMax < r.row.amount then none else some (d.creditBalance r)
  | .credit_note =>
    match h : refundNote d r env with
    | .ok books => some ({ d with ledgers := ⟨books, linked_of_refundNote h⟩ }.logRefund r)
    | .error _ => none
  | .manual => some (d.logRefund r)

/-! ### The requests -/

/-- The row of the request, with the status it ends in. -/
def RequestEntry.setStatus (status : RequestStatus) (r : RequestEntry) : RequestEntry :=
  { r with row := { r.row with status := status } }

theorem RequestEntry.key_setStatus (status : RequestStatus) (r : RequestEntry) :
    Keyed.key (r.setStatus status) = Keyed.key r := rfl

def Desk.setRequest (d : Desk) (requestId : ℕ) (status : RequestStatus) : Desk :=
  { d with
    requests := d.requests.modify requestId (RequestEntry.setStatus status)
      (RequestEntry.key_setStatus status) }

/-- `processRequest`: the claim and the processing.  The last update refuses the method
`credit_note`, which gives the claim back. -/
def processRequest (d : Desk) (requestId : ℕ) (method : RefundMethod) (env : Setting) : Desk :=
  match d.requests.find? requestId with
  | none => d
  | some r =>
    if r.row.status = .approved then
      match moneyStep d r method env with
      | none => d
      | some d' => if method.stored = true then d'.setRequest requestId .processed else d'
    else d

/-- `assertReferencesOwned`. -/
def Desk.owned (d : Desk) (client_id : ℕ) (payment_id invoice_id : Option ℕ) : Bool :=
  (payment_id.all fun i => (d.transactions.find? i).any fun t => t.client_id = client_id) &&
    invoice_id.all fun i => (d.ledgers.books.db.invoices.find? i).any fun inv =>
      inv.clientId = client_id ∧ inv.deleted = false

/-- The row of a new request. -/
def newRequest (client_id : ℕ) (row : RefundRequest) (h : 0 < row.amount) (id : ℕ) : RequestEntry :=
  ⟨id, client_id, row, h⟩

theorem key_newRequest (client_id : ℕ) (row : RefundRequest) (h : 0 < row.amount) (id : ℕ) :
    Keyed.key (newRequest client_id row h id) = id := rfl

/-- `createRequest(orgId, data)`. -/
def createEntry (d : Desk) (client_id : ℕ) (amount : ℤ) (payment_id invoice_id : Option ℕ)
    (reason : RefundReason) : Desk :=
  if h : 0 < amount ∧ d.owned client_id payment_id invoice_id = true then
    { d with
      requests := d.requests.insert
        (newRequest client_id (createRequest amount payment_id invoice_id reason).row h.1)
        (key_newRequest client_id (createRequest amount payment_id invoice_id reason).row h.1) }
  else d

/-- `updateRequest(orgId, id, data)`, with nobody in between. -/
def updateEntry (d : Desk) (requestId : ℕ) (changes : Changes) : Desk :=
  match d.requests.find? requestId with
  | none => d
  | some r =>
    let row := r.row.edit changes
    if h : 0 < row.amount ∧ r.row.status.isOpen = true ∧
        d.owned r.client_id row.payment_id row.invoice_id = true then
      { d with requests := d.requests.put ⟨r.id, r.client_id, row, h.1⟩ }
    else d

/-- `reviewRequest(orgId, id, { status })`, with nobody in between. -/
def reviewEntry (d : Desk) (requestId : ℕ) (verdict : Verdict) : Desk :=
  match d.requests.find? requestId with
  | none => d
  | some r =>
    if r.row.status.isOpen = true then
      d.setRequest requestId (match verdict with | .approved => .approved | .rejected => .rejected)
    else d

/-- A call of the service, or other code that changes the billing books and the status of a
transaction; the reversal of a gateway refund in the books is one of these. -/
inductive Action where
  | createRequest (client_id : ℕ) (amount : ℤ) (payment_id invoice_id : Option ℕ)
      (reason : RefundReason)
  | updateRequest (requestId : ℕ) (changes : Changes)
  | reviewRequest (requestId : ℕ) (verdict : Verdict)
  | processRequest (requestId : ℕ) (method : RefundMethod) (env : Setting)
  | elsewhere (ledgers : LinkedBooks) (transactionId : ℕ) (status : GatewayStatus)

def act (d : Desk) : Action → Desk
  | .createRequest client_id amount payment_id invoice_id reason =>
    createEntry d client_id amount payment_id invoice_id reason
  | .updateRequest requestId changes => updateEntry d requestId changes
  | .reviewRequest requestId verdict => reviewEntry d requestId verdict
  | .processRequest requestId method env => processRequest d requestId method env
  | .elsewhere ledgers transactionId status =>
    { d.setGateway transactionId status with ledgers := ledgers }

/-- A desk before any refund. -/
def Desk.opening (ledgers : LinkedBooks) (transactions : Table PaymentTransaction)
    (requests : Table RequestEntry) : Desk := ⟨ledgers, transactions, requests, [], []⟩

/-! ### The law -/

/-- `computeClientBalance` of a client, in a currency. -/
def Desk.balance (d : Desk) (env : Setting) (client_id : ℕ) (cur : String) : ℤ :=
  netBalance d.ledgers.books.db env.orgId client_id d.noteCurrency env.orgCurrency cur

/-- The request that a processing pays back, when the money moves. -/
def paidBack (d : Desk) (requestId : ℕ) (method : RefundMethod) (env : Setting) :
    Option RequestEntry :=
  (d.requests.find? requestId).filter fun r =>
    r.row.status = .approved ∧ (moneyStep d r method env).isSome = true

/-- The refund that an action makes, with what is given to its processing. -/
def refundMade (d : Desk) : Action → Option (RequestEntry × RefundMethod × Setting)
  | .processRequest requestId method env =>
    (paidBack d requestId method env).map fun r => (r, method, env)
  | _ => none

/-- A refund by `credit_balance` or `credit_note` takes its amount off the client's balance. -/
def Falls (cur : String) (d : Desk) (a : Action) : Prop :=
  ∀ r method env, refundMade d a = some (r, method, env) →
    method = .credit_balance ∨ method = .credit_note →
      (act d a).balance env r.client_id cur = d.balance env r.client_id cur - r.row.amount

/-- No transaction is refunded beyond its amount. -/
def Capped (d : Desk) : Prop :=
  ∀ t ∈ d.transactions.rows, refundedOf d.refunds t.id ≤ t.amount

/-- What the code would have to make sure of: no refund is by `credit_balance`, a credit note is in
the client's currency, and a refund fits into what is left of its transaction. -/
def Settles (cur : String) (d : Desk) (a : Action) : Prop :=
  ∀ r method env, refundMade d a = some (r, method, env) →
    method ≠ .credit_balance ∧
      (method = .credit_note →
        refundCurrency d.ledgers.books env r.row.invoice_id = cur) ∧
      ∀ t ∈ d.transactions.rows, r.row.payment_id = some t.id →
        refundedOf d.refunds t.id + r.row.amount ≤ t.amount

end Vigabss.Refunds
