import Vigabss.Billing.Requests

/-!
# Vigabss.Gateway.Payments — gateway transactions beside the billing tables

`payment_transactions` records each attempt to take money through a payment gateway.  Once the
provider has reported the capture, `reconcilePayment` posts it as a payment; once it has reported a
refund, `reverseRefund` takes the payment back.  Both are one transaction.
-/

namespace Vigabss.Gateway

open Vigabss.Lib Vigabss.Billing

/-- `gateway_status`: what the provider has reported of a transaction. -/
inductive GatewayStatus where
  | pending | succeeded | failed | refunded | disputed | cancelled
  deriving DecidableEq, Repr

/-- A row of `payment_transactions`. -/
structure PaymentTransaction where
  id : ℕ
  paymentId : Option ℕ
  clientId : ℕ
  invoiceId : Option ℕ
  settledInvoiceId : Option ℕ
  organizationId : ℕ
  amount : ℤ
  currency : String
  gatewayStatus : GatewayStatus
  deriving DecidableEq, Repr

instance : Keyed PaymentTransaction := ⟨PaymentTransaction.id⟩

/-- The billing database with the gateway transactions. -/
structure Db where
  billing : Billing.Db
  transactions : Table PaymentTransaction
  deriving DecidableEq

/-- `UPDATE payment_transactions SET gateway_status = ?` on one row. -/
def Db.setGatewayStatus (db : Db) (transactionId : ℕ) (status : GatewayStatus) : Db :=
  { db with
    transactions := db.transactions.modify transactionId
      (fun t => { t with gatewayStatus := status }) fun _ => rfl }

theorem Db.mem_setGatewayStatus {db : Db} {transactionId : ℕ} {status : GatewayStatus}
    {tx : PaymentTransaction} :
    tx ∈ (db.setGatewayStatus transactionId status).transactions.rows ↔
      tx ∈ db.transactions.rows ∧ tx.id ≠ transactionId ∨
        ∃ t, db.transactions.find? transactionId = some t ∧
          tx = { t with gatewayStatus := status } := by
  unfold Db.setGatewayStatus
  rw [Table.mem_modify]
  rfl

/-! ### Reconciling -/

/-- What `reconcilePayment` answers when nothing went wrong. -/
inductive Reconciled where
  | notFound
  | alreadyReconciled (paymentId : ℕ)
  | notSucceeded
  | reconciled (paymentId : ℕ) (allocations : List (ℕ × ℕ × ℤ)) (remainingCredit : ℤ)
  deriving DecidableEq, Repr

/-- The payment a capture is posted as, under an id. -/
def captured (tx : PaymentTransaction) (id : ℕ) : Payment :=
  ⟨id, tx.organizationId, tx.clientId, tx.amount, tx.currency, .completed, none, false⟩

/-- The invoices that the capture may settle: the linked one, or every payable invoice of the
client, oldest first. -/
def capturable (db : Billing.Db) (tx : PaymentTransaction) : List OpenInvoice :=
  (getInvoicesWithBalance db tx.organizationId tx.clientId (tx.invoiceId.map fun id => [id])).filter
    fun x => (allocationRefusal (captured tx 0) x.invoice false).isNone

/-- `reconcilePayment(transactionId)`. -/
def reconcilePayment (db : Db) (transactionId : ℕ) : Except Failure (Db × Reconciled) :=
  match db.transactions.find? transactionId with
  | none => .ok (db, .notFound)
  | some tx =>
    match tx.paymentId with
    | some paymentId => .ok (db, .alreadyReconciled paymentId)
    | none =>
      if tx.gatewayStatus ≠ .succeeded then .ok (db, .notSucceeded)
      else do
        let invoices := capturable db.billing tx
        let payment := captured tx db.billing.payments.nextId
        let billing := withPayment db.billing tx.organizationId (captured tx) fun _ => rfl
        let applied ← allocateAcrossInvoices payment billing tx.amount invoices
        let transactions := db.transactions.modify tx.id (fun t => { t with
            paymentId := some payment.id
            settledInvoiceId := applied.justPaid.head?.or t.settledInvoiceId }) fun _ => rfl
        return (⟨applied.db, transactions⟩,
          .reconciled payment.id applied.allocations applied.remainder)

/-! ### Reversing -/

/-- `refreshInvoicePaidStatusOn`: as `refreshInvoicePaidStatus`, whether or not the invoice is
deleted. -/
def refreshInvoicePaidStatusOn (db : Billing.Db) (invoiceId : ℕ) : Billing.Db :=
  match db.invoices.find? invoiceId with
  | none => db
  | some inv => db.setInvoiceStatus invoiceId
    (refreshedStatus (inv.total ≤ db.coveredOf invoiceId))

/-- The debit that offsets the credit of a refunded payment. -/
def recordRefundDebit (db : Billing.Db) (payment : Payment) : Billing.Db :=
  { db with ledger := db.ledger ++
      [⟨payment.clientId, payment.organizationId, .debit, payment.amount, payment.currency,
        .payment, payment.id⟩] }

/-- The part of `reverseRefund` that takes a payment back. -/
def refundPayment (db : Billing.Db) (payment : Payment) : Except SqlError Billing.Db := do
  let db := db.setPayment payment.id (fun _ => .refunded) payment.deleted
  let invoiceIds := ((db.allocations.rows.filter (ofPayment payment.id)).map (·.invoiceId)).dedup
  let db ← db.updateAllocations (ofPayment payment.id) true
  let db := invoiceIds.foldl refreshInvoicePaidStatusOn db
  -- a deleted payment has had its credit removed already
  return if payment.deleted then db else recordRefundDebit db payment

/-- The payment of a transaction that has been reconciled. -/
def paymentOf (db : Db) (transactionId : ℕ) : Option Payment := do
  let tx ← db.transactions.find? transactionId
  let paymentId ← tx.paymentId
  (db.billing.payments.find? paymentId).filter fun p => p.organizationId = tx.organizationId

/-- `reverseRefund(transactionId)`; an error is logged and rolled back. -/
def reverseRefund (db : Db) (transactionId : ℕ) : Db :=
  match paymentOf db transactionId with
  | none => db
  | some payment =>
    if payment.status = .refunded then db
    else
      match refundPayment db.billing payment with
      | .error _ => db
      | .ok billing => { db with billing }

/-! ### Creating a payment -/

/-- `Organization.getCurrency`, on the currency of the organization's row: empty reads as MXN. -/
def getCurrency (column : String) : String := if column = "" then "MXN" else column

/-- The payment that `POST /payments` writes.  Of the body, `currency` and `status` are `none` when
it does not have them. -/
def newPayment (orgId clientId : ℕ) (amount : ℚ) (currency : Option String)
    (status : Option PaymentStatus) (orgCurrency : String) (id : ℕ) : Payment :=
  ⟨id, orgId, clientId, toDecimal amount,
    (currency.filter (· ≠ "")).getD (getCurrency orgCurrency), status.getD .completed, none, false⟩

/-- `POST /payments`, behind the body check of `createPayment`: `clientOwned` tells whether the
client belongs to the organization, `orgCurrency` is what the organization's row says. -/
def createPayment (db : Billing.Db) (orgId clientId : ℕ) (amount : ℚ) (currency : Option String)
    (status : Option PaymentStatus) (clientOwned : Bool) (orgCurrency : String) :
    Except Failure Billing.Db := do
  if clientId < 1 ∨ amount < 0 then
    .error (.app 422 "VALIDATION_ERROR" "Validation failed")
  if clientOwned = false then
    .error (.app 422 "CLIENT_NOT_FOUND" "client_id not found in this organization.")
  return withPayment db orgId (newPayment orgId clientId amount currency status orgCurrency)
    fun _ => rfl

end Vigabss.Gateway

/-!
## The life of a payment, from every side

The requests of the staff on a payment and on its allocations, and the two movements that the
gateway makes.  Each has one lemma that says what it has checked and what it writes; `Event` lists
them, and `Db.after` runs one as one transaction.
-/

namespace Vigabss.Gateway

open Vigabss.Lib Vigabss.Billing

/-- The payment counts: it is live and completed. -/
def counts (p : Payment) : Bool := p.deleted = false ∧ p.status = .completed

theorem mem_withPayment {db : Billing.Db} {orgId : ℕ} {payer : ℕ → Payment}
    {hid : ∀ n, (payer n).id = n} {p : Payment} :
    p ∈ (withPayment db orgId payer hid).payments.rows ↔
      p ∈ db.payments.rows ∨ p = payer db.payments.nextId := by
  show p ∈ (db.payments.insert payer hid).rows ↔ _
  exact Table.mem_insert

/-! ### Creating and editing -/

theorem createPayment_ok {db db' : Billing.Db} {orgId clientId : ℕ} {amount : ℚ}
    {currency : Option String} {status : Option PaymentStatus} {clientOwned : Bool}
    {orgCurrency : String}
    (h : createPayment db orgId clientId amount currency status clientOwned orgCurrency = .ok db') :
    clientOwned = true ∧
      db' = withPayment db orgId
        (newPayment orgId clientId amount currency status orgCurrency) fun _ => rfl := by
  unfold createPayment at h
  obtain ⟨-, h⟩ := check_ok h
  obtain ⟨howned, h⟩ := check_ok h
  exact ⟨by simpa using howned, (Except.ok.inj h).symm⟩

/-- The row that an edit writes. -/
def edited (old : Payment) (amount : Option ℚ) (status : Option PaymentStatus)
    (currency : Option String) : Payment :=
  { old with
    amount := amount.elim old.amount toDecimal
    status := status.getD old.status
    currency := currency.getD old.currency }

/-- The row that the ledger credit of an edit is written for. -/
def credited (old : Payment) (amount : Option ℚ) (status : Option PaymentStatus)
    (currency : Option String) : Payment :=
  { edited old amount status currency with
    currency := (currency.filter (· ≠ "")).getD old.currency }

/-- The edit changes the amount or the status, so that the ledger credit is written anew. -/
def movesCredit (old : Payment) (amount : Option ℚ) (status : Option PaymentStatus) : Bool :=
  amount.any (· ≠ number old.amount) ∨ status.any (· ≠ old.status)

/-- The ledger after an edit. -/
def editLedger (db : Billing.Db) (old : Payment) (amount : Option ℚ)
    (status : Option PaymentStatus) (currency : Option String) : Billing.Db :=
  if movesCredit old amount status then
    if (edited old amount status currency).status = .completed then
      recordPaymentCredit (reversePaymentCredit db old.id)
        (credited old amount status currency) old.organizationId
    else reversePaymentCredit db old.id
  else db

theorem editPayment_ok {db db' : Billing.Db} {orgId paymentId : ℕ} {amount : Option ℚ}
    {status : Option PaymentStatus} {currency bindingRep : Option String} :
    editPayment db orgId paymentId amount status currency bindingRep = .ok db' ↔
      amount.any (· < 0) = false ∧ ∃ old, findPayment db paymentId orgId = some old ∧
        assertPaymentEditKeepsMoneyConsistent db old amount status bindingRep = .ok () ∧
        db' = { editLedger db old amount status currency with
          payments := db.payments.put (edited old amount status currency) } := by
  unfold editPayment
  by_cases hbody : amount.any (· < 0) = true
  · rw [if_pos hbody]
    simp [hbody, except_bind_ok]
  rw [if_neg hbody]
  cases findPayment db paymentId orgId with
  | none => simp
  | some old =>
    have hledger : editLedger db old amount status currency =
        if amount.any (· ≠ number old.amount) ∨ status.any (· ≠ old.status) then
          if (edited old amount status currency).status = .completed then
            recordPaymentCredit (reversePaymentCredit db old.id)
              (credited old amount status currency) old.organizationId
          else reversePaymentCredit db old.id
        else db := by
      simp only [editLedger, movesCredit, decide_eq_true_eq]
    have hpayments : (editLedger db old amount status currency).payments = db.payments := by
      rw [hledger]
      split_ifs <;> rfl
    simp only [except_bind_ok, Option.some.injEq, exists_eq_left', ← hpayments, hledger]
    constructor
    · rintro ⟨_, hcheck, hout⟩
      exact ⟨by simpa using hbody, hcheck, (Except.ok.inj hout).symm⟩
    · rintro ⟨-, hcheck, rfl⟩
      exact ⟨(), hcheck, rfl⟩

/-! ### Taking back a refunded payment -/

theorem refreshOn_eq (db : Billing.Db) (id : ℕ) :
    refreshInvoicePaidStatusOn db id =
      { db with invoices := (refreshInvoicePaidStatusOn db id).invoices } := by
  unfold refreshInvoicePaidStatusOn
  cases db.invoices.find? id <;> rfl

theorem refreshOnAll_eq (db : Billing.Db) (ids : List ℕ) :
    ∃ invoices, ids.foldl refreshInvoicePaidStatusOn db = { db with invoices } := by
  induction ids generalizing db with
  | nil => exact ⟨db.invoices, rfl⟩
  | cons id ids ih =>
    obtain ⟨invoices, h⟩ := ih (refreshInvoicePaidStatusOn db id)
    exact ⟨invoices, by rw [List.foldl_cons, h, refreshOn_eq]⟩

/-- The database with a payment marked refunded and its live allocations deleted. -/
def takenBack (db : Billing.Db) (payment : Payment) : Billing.Db :=
  (db.setPayment payment.id (fun _ => .refunded) payment.deleted).markAll true
    (db.allocations.rows.filter (ofPayment payment.id))

theorem takenBack_payments (db : Billing.Db) (payment : Payment) :
    (takenBack db payment).payments =
      (db.setPayment payment.id (fun _ => .refunded) payment.deleted).payments := by
  rw [takenBack, Db.markAll_eq]

/-- What taking a payment back changes besides is the status of invoices, and the ledger while the
payment is live. -/
theorem refundPayment_ok {db db' : Billing.Db} {payment : Payment}
    (h : refundPayment db payment = .ok db') :
    ∃ invoices, db' = { takenBack db payment with
      invoices
      ledger := if payment.deleted then db.ledger else (recordRefundDebit db payment).ledger } := by
  unfold refundPayment at h
  obtain ⟨db₁, hupdate, hout⟩ := except_bind_ok.1 h
  obtain ⟨-, rfl⟩ := Db.updateAllocations_ok.1 hupdate
  have hrefreshed : ∃ ids : List ℕ, db' = if payment.deleted then
      ids.foldl refreshInvoicePaidStatusOn (takenBack db payment)
      else recordRefundDebit (ids.foldl refreshInvoicePaidStatusOn (takenBack db payment))
        payment := ⟨_, (Except.ok.inj hout).symm⟩
  obtain ⟨ids, rfl⟩ := hrefreshed
  obtain ⟨invoices, hrefresh⟩ := refreshOnAll_eq (takenBack db payment) ids
  have hledger : (takenBack db payment).ledger = db.ledger := by
    rw [takenBack, Db.markAll_eq]
    rfl
  refine ⟨invoices, ?_⟩
  rw [hrefresh]
  cases payment.deleted with
  | true => rw [if_pos rfl, if_pos rfl, ← hledger]
  | false =>
    rw [if_neg Bool.false_ne_true, if_neg Bool.false_ne_true, recordRefundDebit, recordRefundDebit,
      ← hledger]

theorem paymentOf_some {db : Db} {transactionId : ℕ} {payment : Payment}
    (h : paymentOf db transactionId = some payment) :
    payment ∈ db.billing.payments.rows := by
  unfold paymentOf at h
  obtain ⟨tx, -, h⟩ := Option.bind_eq_some_iff.1 h
  obtain ⟨paymentId, -, h⟩ := Option.bind_eq_some_iff.1 h
  rw [Option.filter_eq_some_iff] at h
  exact (Table.find?_eq_some.1 h.1).1

theorem reverseRefund_cases (db : Db) (transactionId : ℕ) :
    reverseRefund db transactionId = db ∨
      ∃ payment billing, paymentOf db transactionId = some payment ∧
        payment.status ≠ .refunded ∧ refundPayment db.billing payment = .ok billing ∧
        reverseRefund db transactionId = { db with billing } := by
  unfold reverseRefund
  cases hpay : paymentOf db transactionId with
  | none => exact .inl rfl
  | some payment =>
    dsimp only
    by_cases hrefunded : payment.status = .refunded
    · exact .inl (if_pos hrefunded)
    rw [if_neg hrefunded]
    cases hrefund : refundPayment db.billing payment with
    | error err => exact .inl rfl
    | ok billing => exact .inr ⟨payment, billing, rfl, hrefunded, hrefund, rfl⟩

/-! ### Posting a capture -/

/-- The ways a reconciliation goes: it has nothing to do, or the capture is posted as a payment
and spread over open invoices of the client. -/
theorem reconcilePayment_ok {db db' : Db} {transactionId : ℕ} {answer : Reconciled}
    (h : reconcilePayment db transactionId = .ok (db', answer)) :
    db' = db ∨ ∃ tx rows applied transactions,
      db.transactions.find? transactionId = some tx ∧ tx.paymentId = none ∧
      tx.gatewayStatus = .succeeded ∧
      rows.Sublist (getInvoicesWithBalance db.billing tx.organizationId tx.clientId
        (tx.invoiceId.map fun id => [id])) ∧
      allocateAcrossInvoices (captured tx db.billing.payments.nextId)
        (withPayment db.billing tx.organizationId (captured tx) fun _ => rfl) tx.amount rows =
          .ok applied ∧
      (∀ t ∈ transactions.rows, ∃ t' ∈ db.transactions.rows, t'.currency = t.currency) ∧
      db' = ⟨applied.db, transactions⟩ := by
  unfold reconcilePayment at h
  cases hfind : db.transactions.find? transactionId with
  | none =>
    rw [hfind] at h
    cases h
    exact .inl rfl
  | some tx =>
    simp only [hfind] at h
    cases hpay : tx.paymentId with
    | some paymentId =>
      rw [hpay] at h
      cases h
      exact .inl rfl
    | none =>
      simp only [hpay] at h
      split_ifs at h with hstatus
      · cases h
        exact .inl rfl
      · obtain ⟨applied, happ, hout⟩ := except_bind_ok.1 h
        cases hout
        refine .inr ⟨tx, _, applied, _, rfl, hpay, not_not.1 hstatus, List.filter_sublist, happ,
          fun t ht => ?_, rfl⟩
        rcases Table.mem_modify.1 ht with ⟨ht, -⟩ | ⟨t', ht', rfl⟩
        · exact ⟨t, ht, rfl⟩
        · exact ⟨t', (Table.find?_eq_some.1 ht').1, rfl⟩

/-! ### What the rows of transactions become -/

theorem key_captured (tx : PaymentTransaction) (id : ℕ) : Keyed.key (captured tx id) = id := rfl

/-- The books with the capture posted, and the payment that it is posted as. -/
def post (db : Billing.Db) (tx : PaymentTransaction) : Except Failure (Applied × ℕ) := do
  let payment := captured tx db.payments.nextId
  let applied ← allocateAcrossInvoices payment
    (withPayment db tx.organizationId (captured tx) (key_captured tx)) tx.amount (capturable db tx)
  return (applied, payment.id)

/-- The row of a transaction whose capture is posted. -/
def PaymentTransaction.linked (applied : Applied) (id : ℕ) (t : PaymentTransaction) :
    PaymentTransaction :=
  { t with
    paymentId := some id
    settledInvoiceId := applied.justPaid.head?.or t.settledInvoiceId }

theorem reconcilePayment_eq {db : Db} {t : ℕ} {tx : PaymentTransaction}
    (h : db.transactions.find? t = some tx) (hpay : tx.paymentId = none)
    (hstatus : tx.gatewayStatus = .succeeded) :
    reconcilePayment db t = (post db.billing tx).map fun (applied, id) =>
      (⟨applied.db, db.transactions.modify tx.id (PaymentTransaction.linked applied id)
          fun _ => rfl⟩,
        .reconciled id applied.allocations applied.remainder) := by
  unfold reconcilePayment post
  rw [h]
  dsimp only
  rw [hpay]
  dsimp only
  rw [if_neg (not_not.2 hstatus)]
  cases allocateAcrossInvoices (captured tx db.billing.payments.nextId)
      (withPayment db.billing tx.organizationId (captured tx) fun _ => rfl) tx.amount
      (capturable db.billing tx) <;> rfl

theorem find?_setGatewayStatus (db : Db) (t u : ℕ) (status : GatewayStatus) :
    (db.setGatewayStatus t status).transactions.find? u =
      if u = t then (db.transactions.find? t).map fun tx => { tx with gatewayStatus := status }
      else db.transactions.find? u :=
  Table.find?_modify db.transactions t u (fun tx => { tx with gatewayStatus := status })
    fun _ => rfl

theorem find?_linked {transactions : Table PaymentTransaction} {tx : PaymentTransaction}
    (h : transactions.find? tx.id = some tx) (applied : Applied) (id u : ℕ) :
    (transactions.modify tx.id (PaymentTransaction.linked applied id) fun _ => rfl).find? u =
      if u = tx.id then some (tx.linked applied id) else transactions.find? u := by
  refine (Table.find?_modify transactions tx.id u (PaymentTransaction.linked applied id)
    fun _ => rfl).trans ?_
  rw [h]
  rfl

/-! ### Runs -/

/-- What happens to payments: the requests of the staff, with what the caller sends and is told
from outside; the two movements of the gateway; and what opens a transaction and reports on it. -/
inductive Event where
  | createPayment (orgId clientId : ℕ) (amount : ℚ) (currency : Option String)
      (status : Option PaymentStatus) (clientOwned : Bool) (orgCurrency : String)
  | editPayment (orgId paymentId : ℕ) (amount : Option ℚ) (status : Option PaymentStatus)
      (currency bindingRep : Option String)
  | deletePayment (orgId paymentId : ℕ) (bindingRep : Option String)
  | restorePayment (orgId paymentId : ℕ)
  | allocate (orgId paymentId invoiceId : ℕ) (amount : ℚ)
  | allocateAuto (orgId paymentId : ℕ) (invoiceIds : Option (List ℕ))
  | reallocate (orgId paymentId fromInvoiceId toInvoiceId : ℕ) (amount : Option ℚ)
      (bindingRep : Option String)
  | unapply (orgId paymentId invoiceId : ℕ) (bindingRep : Option String)
  | reconcilePayment (transactionId : ℕ)
  | reverseRefund (transactionId : ℕ)
  | openTransaction (orgId clientId : ℕ) (invoiceId : Option ℕ) (amount : ℤ) (currency : String)
  | reportStatus (transactionId : ℕ) (status : GatewayStatus)

/-- The database with the billing tables after a request of the staff. -/
def Db.request (db : Db) (r : Except Failure Billing.Db) : Db :=
  { db with billing := commit db.billing r }

/-- The database after an event; what fails is rolled back. -/
def Db.after (db : Db) : Event → Db
  | .createPayment orgId clientId amount currency status clientOwned orgCurrency =>
    db.request (Gateway.createPayment db.billing orgId clientId amount currency status clientOwned
      orgCurrency)
  | .editPayment orgId paymentId amount status currency bindingRep =>
    db.request (Billing.editPayment db.billing orgId paymentId amount status currency bindingRep)
  | .deletePayment orgId paymentId bindingRep =>
    db.request (Billing.deletePayment db.billing orgId paymentId bindingRep)
  | .restorePayment orgId paymentId =>
    db.request (Billing.restorePayment db.billing orgId paymentId)
  | .allocate orgId paymentId invoiceId amount =>
    db.request (Billing.allocate db.billing orgId paymentId invoiceId amount)
  | .allocateAuto orgId paymentId invoiceIds =>
    db.request (Billing.allocateAuto db.billing orgId paymentId invoiceIds)
  | .reallocate orgId paymentId fromInvoiceId toInvoiceId amount bindingRep =>
    db.request (Billing.reallocate db.billing orgId paymentId fromInvoiceId toInvoiceId amount
      bindingRep)
  | .unapply orgId paymentId invoiceId bindingRep =>
    db.request (Billing.unapply db.billing orgId paymentId invoiceId bindingRep)
  | .reconcilePayment transactionId =>
    match Gateway.reconcilePayment db transactionId with
    | .ok (db', _) => db'
    | .error _ => db
  | .reverseRefund transactionId => Gateway.reverseRefund db transactionId
  | .openTransaction orgId clientId invoiceId amount currency =>
    let tx (id : ℕ) : PaymentTransaction :=
      ⟨id, none, clientId, invoiceId, none, orgId, amount, getCurrency currency, .pending⟩
    { db with transactions := db.transactions.insert tx fun _ => rfl }
  | .reportStatus transactionId status => db.setGatewayStatus transactionId status

theorem after_reconcile_cases {db : Db} {P : Db → Prop} {transactionId : ℕ} (h : P db)
    (hok : ∀ db' answer, reconcilePayment db transactionId = .ok (db', answer) → P db') :
    P (db.after (.reconcilePayment transactionId)) := by
  show P (match reconcilePayment db transactionId with | .ok (db', _) => db' | .error _ => db)
  cases hr : reconcilePayment db transactionId with
  | error err => exact h
  | ok r =>
    obtain ⟨db', answer⟩ := r
    exact hok db' answer hr

end Vigabss.Gateway
