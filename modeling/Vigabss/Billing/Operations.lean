import Vigabss.Billing.Allocation

/-!
# Vigabss.Billing.Operations — the requests that move payments

The billing service and the payment routes, each as one transaction on the database: the answer
is the database after the commit, or the failure the request is rolled back with.  Where a
request asks something the tables here do not hold (a payment complement at SAT, a live CFDI, the
reseller's guards), what it is told is an argument.
-/

namespace Vigabss.Billing

open Vigabss.Lib

/-! ### The billing service -/

/-- The paid status that a coverage calls for. -/
def refreshedStatus (covered : Bool) (st : InvoiceStatus) : InvoiceStatus :=
  if covered then .paid else if st = .paid then .issued else st

/-- `refreshInvoicePaidStatus(invoiceId)`. -/
def refreshInvoicePaidStatus (db : Db) (invoiceId : ℕ) : Db :=
  match db.invoices.find? invoiceId with
  | none => db
  | some inv =>
    if inv.deleted then db
    else db.setInvoiceStatus invoiceId
      (refreshedStatus (inv.total ≤ db.coveredOf invoiceId))

/-- `recordPaymentCredit(payment, orgId)`. -/
def recordPaymentCredit (db : Db) (payment : Payment) (orgId : ℕ) : Db :=
  { db with ledger := db.ledger ++
      [⟨payment.clientId, orgId, .credit, payment.amount, payment.currency, .payment, payment.id⟩] }

/-- `reversePaymentCredit(paymentId)`. -/
def reversePaymentCredit (db : Db) (paymentId : ℕ) : Db :=
  { db with ledger := db.ledger.filter fun e =>
      ¬ (e.referenceType = .payment ∧ e.referenceId = paymentId) }

/-- `releaseInvoiceAllocations(invoiceId)`. -/
def releaseInvoiceAllocations (db : Db) (invoiceId : ℕ) : Except SqlError Db :=
  db.updateAllocations (toInvoice invoiceId) true

/-- The body that reversing and restoring a payment's allocations share: the rows that meet
`cond` are deleted or revived, and every invoice they touch has its paid status re-derived. -/
def moveAllocations (db : Db) (cond : PaymentAllocation → Bool) (deleted : Bool) :
    Except SqlError Db := do
  let invoiceIds := ((db.allocations.rows.filter cond).map (·.invoiceId)).dedup
  let db ← db.updateAllocations cond deleted
  return invoiceIds.foldl refreshInvoicePaidStatus db

/-- A soft-deleted allocation of the payment. -/
def deletedOfPayment (paymentId : ℕ) (a : PaymentAllocation) : Bool :=
  a.paymentId = paymentId ∧ a.deleted = true

/-- `reversePaymentAllocations(paymentId)`. -/
def reversePaymentAllocations (db : Db) (paymentId : ℕ) : Except SqlError Db :=
  moveAllocations db (ofPayment paymentId) true

/-- `restorePaymentAllocations(paymentId)`. -/
def restorePaymentAllocations (db : Db) (paymentId : ℕ) : Except SqlError Db :=
  moveAllocations db (deletedOfPayment paymentId) false

def InvoiceStatus.terminal : InvoiceStatus → Bool
  | void | cancelled => true
  | _ => false

def notFound (table : String) : Failure := .app 404 "NOT_FOUND" (table ++ " not found")

/-- The live row under an id, in the caller's organization. -/
def findInvoice (db : Db) (invoiceId orgId : ℕ) : Option Invoice :=
  (db.invoices.find? invoiceId).filter fun i => i.organizationId = orgId ∧ i.deleted = false

@[inherit_doc findInvoice]
def findPayment (db : Db) (paymentId orgId : ℕ) : Option Payment :=
  (db.payments.find? paymentId).filter fun p => p.organizationId = orgId ∧ p.deleted = false

/-- The ledger part of a terminal settlement: the invoice's credits go, its debits become 0. -/
def clearInvoiceLedger (db : Db) (invoice : Invoice) : Db :=
  let ofInvoice (e : LedgerEntry) : Bool :=
    e.referenceType = .invoice ∧ e.referenceId = invoice.id ∧ e.clientId = invoice.clientId
  let kept := db.ledger.filter fun e => ¬ (ofInvoice e ∧ e.entryType = .credit)
  { db with ledger := kept.map fun e => if ofInvoice e then { e with amount := 0 } else e }

/-- `settleInvoiceTerminal`.  It runs outside a transaction: when releasing the allocations fails,
the status stays written. -/
def settleInvoiceTerminal (db : Db) (invoiceId orgId : ℕ) (status : InvoiceStatus)
    (forbidFrom : List InvoiceStatus) : Db × Option Failure :=
  match findInvoice db invoiceId orgId with
  | none => (db, some (notFound "invoices"))
  | some existing =>
    if existing.status ∈ forbidFrom then
      (db, some (.app 422 "INVOICE_CANCELLED" ("This invoice was cancelled at SAT — it is " ++
        "fiscally terminal and cannot be voided.")))
    else
      let db := db.setInvoiceStatus invoiceId fun _ => status
      if existing.status.terminal then (db, none)
      else
        match releaseInvoiceAllocations db invoiceId with
        | .error err => (db, some (.sql err))
        | .ok db => (clearInvoiceLedger (releaseForInvoice db invoiceId) existing, none)

/-- `cancelInvoiceForSat`. -/
def cancelInvoiceForSat (db : Db) (invoiceId orgId : ℕ) : Db × Option Failure :=
  settleInvoiceTerminal db invoiceId orgId .cancelled []

/-- `voidInvoiceById`; `liveCfdi` is the invoice's draft or live CFDI, and whether it is a
draft. -/
def voidInvoiceById (db : Db) (invoiceId orgId : ℕ) (liveCfdi : Option (ℕ × Bool)) :
    Db × Option Failure :=
  match liveCfdi with
  | some (cfdi, isDraft) =>
    (db, some (.app 422 "INVOICE_STAMPED"
      (if isDraft then "This invoice has a draft CFDI (#" ++ toString cfdi ++
          ") awaiting stamping. Discard the draft first, then void."
        else "This invoice has a stamped CFDI that is still valid at SAT. Cancel the CFDI at SAT " ++
          "(with a motivo) instead of voiding it.")))
  | none =>
    let ofOrg := (db.invoices.find? invoiceId).any fun i => i.organizationId = orgId
    if ofOrg ∧ db.allocations.rows.any (toInvoice invoiceId) then
      (db, some (.app 422 "INVOICE_HAS_PAYMENTS" ("This invoice has payment(s) allocated to it. " ++
        "Deallocate the payment(s) first (each becomes unallocated client credit, ready to " ++
        "reallocate), then void the invoice.")))
    else settleInvoiceTerminal db invoiceId orgId .void [.cancelled]

/-! ### The payment routes -/

/-- `assertNoBindingRep`: `bindingRep` is the message about the payment complement that stands in
the way. -/
def assertNoBindingRep (bindingRep : Option String) : Except Failure Unit :=
  match bindingRep with
  | none => .ok ()
  | some message => .error (.app 422 "PAYMENT_HAS_REP" message)

def requirePayment (db : Db) (paymentId orgId : ℕ) : Except Failure Payment :=
  match findPayment db paymentId orgId with
  | none => .error (.app 404 "NOT_FOUND" "Payment not found.")
  | some payment => .ok payment

def requireSettled (payment : Payment) : Except Failure Unit :=
  if isPaymentSettled payment then .ok () else .error (paymentNotSettledError payment)

/-- `POST /payments/:id/allocate`, behind the body check of `allocatePayment`. -/
def allocate (db : Db) (orgId paymentId invoiceId : ℕ) (amount : ℚ) : Except Failure Db := do
  if invoiceId < 1 ∨ amount < 0 then
    .error (.app 422 "VALIDATION_ERROR" "Validation failed")
  let payment ← requirePayment db paymentId orgId
  requireSettled payment
  match findInvoice db invoiceId orgId with
  | none => .error (.app 404 "NOT_FOUND" "Invoice not found.")
  | some invoice =>
    match allocationRefusal payment invoice false with
    | some (code, message) => .error (.app 422 code message)
    | none =>
      let paymentLeft := fl (number payment.amount - number (db.allocatedOf paymentId))
      let invoiceLeft :=
        match getInvoicesWithBalance db orgId invoice.clientId (some [invoice.id]) with
        | x :: _ => number x.balanceDue
        | [] => number invoice.total
      if fl amount > fl (paymentLeft + fl (5 / 1000)) ∨
          fl amount > fl (invoiceLeft + fl (5 / 1000)) then
        .error (.app 422 "OVER_ALLOCATION"
          "Allocation would exceed the invoice or payment total.")
      else do
        let (db, _, _) ← applyAllocation db payment invoice (toDecimal amount) false false
        return (finalizeIfFullyPaid db invoice).1

/-- `POST /payments/:id/allocate-auto`; `invoiceIds` are the distinct ids of the body, if any. -/
def allocateAuto (db : Db) (orgId paymentId : ℕ) (invoiceIds : Option (List ℕ)) :
    Except Failure Db := do
  if invoiceIds = some [] then
    .error (.app 422 "VALIDATION_ERROR"
      "invoice_ids must be a non-empty array of positive integers.")
  let payment ← requirePayment db paymentId orgId
  requireSettled payment
  let remainder := payment.amount - db.allocatedOf paymentId
  if remainder ≤ 0 then
    .error (.app 422 "PAYMENT_FULLY_ALLOCATED"
      "This payment has no remaining balance to allocate.")
  let rows := getInvoicesWithBalance db orgId payment.clientId invoiceIds
  match invoiceIds with
  | none =>
    let rows := rows.filter fun x => (allocationRefusal payment x.invoice false).isNone
    return (← allocateAcrossInvoices payment db remainder rows).db
  | some ids =>
    let missing := ids.filter fun id => ¬ rows.any fun x => x.invoice.id = id
    if missing ≠ [] then
      .error (.app 422 "INVOICE_NOT_PAYABLE" ("Invoice id(s) " ++
        ", ".intercalate (missing.map toString) ++
        " are not payable invoices for this payment's client."))
    return (← allocateAcrossInvoices payment db remainder rows).db

/-- The live allocation of a payment to an invoice. -/
def liveAllocation (db : Db) (paymentId invoiceId : ℕ) : Option PaymentAllocation :=
  db.allocations.rows.find? fun a => ofPayment paymentId a && decide (a.invoiceId = invoiceId)

/-- `POST /payments/:id/unapply`; an id of 0 is an absent one. -/
def unapply (db : Db) (orgId paymentId invoiceId : ℕ) (bindingRep : Option String) :
    Except Failure Db := do
  if invoiceId = 0 then .error (.app 422 "VALIDATION_ERROR" "invoice_id is required.")
  let _ ← requirePayment db paymentId orgId
  match liveAllocation db paymentId invoiceId with
  | none =>
    .error (.app 422 "ALLOCATION_NOT_FOUND" "This payment is not applied to that invoice.")
  | some row => do
    assertNoBindingRep bindingRep
    let db ← query (db.updateAllocation row true)
    return refreshInvoicePaidStatus db invoiceId

/-- `POST /payments/:id/reallocate`; `amountParam` is the number read from the body's `amount`. -/
def reallocate (db : Db) (orgId paymentId fromInvoiceId toInvoiceId : ℕ) (amountParam : Option ℚ)
    (bindingRep : Option String) : Except Failure Db := do
  if fromInvoiceId = 0 ∨ toInvoiceId = 0 then
    .error (.app 422 "VALIDATION_ERROR" "from_invoice_id and to_invoice_id are required.")
  if fromInvoiceId = toInvoiceId then
    .error (.app 422 "VALIDATION_ERROR" "from_invoice_id and to_invoice_id must differ.")
  let payment ← requirePayment db paymentId orgId
  requireSettled payment
  match liveAllocation db paymentId fromInvoiceId with
  | none =>
    .error (.app 422 "ALLOCATION_NOT_FOUND"
      "This payment has no live allocation to from_invoice_id.")
  | some existingAlloc => do
    assertNoBindingRep bindingRep
    let moveAmount := match amountParam with
      | some amount => toDecimal amount
      | none => existingAlloc.amount
    match findInvoice db fromInvoiceId orgId, findInvoice db toInvoiceId orgId with
    | none, _ => .error (.app 404 "NOT_FOUND" "from_invoice_id not found.")
    | _, none => .error (.app 404 "NOT_FOUND" "to_invoice_id not found.")
    | some fromInv, some toInv =>
      if toInv.status.terminal then
        .error (.app 422 "INVOICE_NOT_PAYABLE"
          ("Cannot reallocate a payment to a " ++ toInv.status.name ++ " invoice."))
      else if toInv.clientId ≠ payment.clientId then
        .error (.app 422 "CROSS_CLIENT_REALLOCATION" ("to_invoice_id belongs to a different " ++
          "client. Reassign the payment to that client first."))
      else if fromInv.clientId ≠ payment.clientId then
        .error (.app 422 "CROSS_CLIENT_REALLOCATION"
          "from_invoice_id belongs to a different client than this payment.")
      else do
        let db ← query (db.updateAllocation existingAlloc true)
        let (db, _, _) ← applyAllocation db payment toInv moveAmount false false
        return refreshInvoicePaidStatus (refreshInvoicePaidStatus db fromInvoiceId) toInvoiceId

/-- `UPDATE payments SET …` on one row. -/
def Db.setPayment (db : Db) (paymentId : ℕ) (status : PaymentStatus → PaymentStatus)
    (deleted : Bool) : Db :=
  { db with
    payments := db.payments.modify paymentId
      (fun p => { p with status := status p.status, deleted }) (fun _ => rfl) }

/-- `DELETE /payments/:id`: the locked row, `beforeDelete`, and the soft delete. -/
def deletePayment (db : Db) (orgId paymentId : ℕ) (bindingRep : Option String) :
    Except Failure Db := do
  match findPayment db paymentId orgId with
  | none => .error (notFound "payments")
  | some old =>
    assertNoBindingRep bindingRep
    let db := reversePaymentCredit db old.id
    let db ← query (reversePaymentAllocations db old.id)
    return db.setPayment paymentId id true

/-- `x.toFixed(2)` of an amount in cents. -/
def toFixed (cents : ℤ) : String :=
  let c := cents.natAbs
  (if cents < 0 then "-" else "") ++ toString (c / 100) ++ "." ++
    (if c % 100 < 10 then "0" else "") ++ toString (c % 100)

/-- `assertPaymentEditKeepsMoneyConsistent`; of the body, `amount` and `status` are `none` when it
does not have them. -/
def assertPaymentEditKeepsMoneyConsistent (db : Db) (old : Payment) (amount : Option ℚ)
    (status : Option PaymentStatus) (bindingRep : Option String) : Except Failure Unit := do
  let amountChanges := amount.any (· ≠ number old.amount)
  let newStatus := status.getD old.status
  let allocated := number (db.allocatedOf old.id)
  if amountChanges ∧ amount.any (· < fl (allocated - fl (5 / 1000))) then
    .error (.app 422 "PAYMENT_AMOUNT_BELOW_ALLOCATED" ("This payment has " ++
      toFixed (db.allocatedOf old.id) ++ " allocated to invoices; its amount cannot go below " ++
      "that. Deallocate first (POST /payments/:id/unapply)."))
  if newStatus ≠ old.status ∧ old.status = .completed then assertNoBindingRep bindingRep
  if newStatus ≠ old.status ∧ newStatus ≠ .completed ∧ allocated > fl (5 / 1000) then
    .error (.app 422 "PAYMENT_HAS_ALLOCATIONS" ("This payment is allocated to invoices. " ++
      "Deallocate it first (POST /payments/:id/unapply), or record a refund, before changing " ++
      "its status."))

/-- `PUT /payments/:id`, behind the body check of `updatePayment`: the locked row, `beforeUpdate`
with the ledger credit that mirrors the edit, and the update. -/
def editPayment (db : Db) (orgId paymentId : ℕ) (amount : Option ℚ)
    (status : Option PaymentStatus) (currency : Option String) (bindingRep : Option String) :
    Except Failure Db := do
  if amount.any (· < 0) then .error (.app 422 "VALIDATION_ERROR" "Validation failed")
  match findPayment db paymentId orgId with
  | none => .error (notFound "payments")
  | some old =>
    assertPaymentEditKeepsMoneyConsistent db old amount status bindingRep
    let new := { old with
      amount := amount.elim old.amount toDecimal
      status := status.getD old.status
      currency := currency.getD old.currency }
    -- an empty currency is written to the payment, and taken as absent for the ledger
    let credited := { new with currency := (currency.filter (· ≠ "")).getD old.currency }
    let db :=
      if amount.any (· ≠ number old.amount) ∨ status.any (· ≠ old.status) then
        let db := reversePaymentCredit db old.id
        if new.status = .completed then recordPaymentCredit db credited old.organizationId else db
      else db
    return { db with payments := db.payments.put new }

/-- The reseller ledger holds a void of the collection of this payment. -/
def resellerVoided (db : Db) (payment : Payment) : Bool :=
  db.resellerEntries.any fun e => e.organizationId = payment.organizationId ∧
    e.paymentId = payment.id ∧ e.entryType = .collectionVoid

/-- `beforeRestore`. -/
def beforeRestore (db : Db) (payment : Payment) : Except Failure Unit :=
  if resellerVoided db payment then
    .error (.app 409 "PAYMENT_VOIDED_BY_RESELLER" ("This payment is a reseller collection that " ++
      "was voided; it cannot be restored. Record a new payment instead."))
  else if payment.status ≠ .completed then
    .error (.app 409 "PAYMENT_NOT_RESTORABLE" ("Only a completed payment can be restored; this " ++
      "one is " ++ payment.status.name ++ "."))
  else .ok ()

/-- `POST /payments/:id/restore`: `beforeRestore`, the un-delete, and `afterRestore`. -/
def restorePayment (db : Db) (orgId paymentId : ℕ) : Except Failure Db := do
  match (db.payments.find? paymentId).filter fun p => p.organizationId = orgId with
  | none => .error (notFound "payments")
  | some payment =>
    beforeRestore db payment
    if payment.deleted = false then .error (notFound "payments")
    let db := db.setPayment paymentId id false
    let db := recordPaymentCredit (reversePaymentCredit db paymentId)
      { payment with deleted := false } orgId
    query (restorePaymentAllocations db paymentId)

/-! ### Installments and reseller collections -/

/-- The part of `payInstallment` that applies the payment to the installment's invoice, while it
is open and still owes something. -/
def allocateInstallment (db : Db) (orgId clientId : ℕ) (installment : Installment)
    (payment : Payment) : Except Failure Db :=
  match installment.invoiceId.bind fun id =>
    (getInvoicesWithBalance db orgId clientId (some [id])).head? with
  | none => .ok db
  | some x =>
    let allocated := min installment.amount x.balanceDue
    if 1 ≤ allocated then
      match applyAllocation db payment x.invoice allocated false true with
      | .error err => .error err
      | .ok (db, _, _) => .ok db
    else .ok db

/-- The part of `payInstallment` that marks the installment paid, and the plan completed with its
last installment. -/
def markInstallmentPaid (db : Db) (planId installmentId paymentId : ℕ) : Db :=
  let db := { db with
    installments := db.installments.modify installmentId
      (fun i => { i with status := .paid, paidPaymentId := some paymentId }) (fun _ => rfl) }
  if db.installments.rows.any fun i => i.planId = planId ∧ i.status ≠ .paid then db
  else { db with
    plans := db.plans.modify planId (fun p => { p with status := .completed }) (fun _ => rfl) }

/-- `payInstallment(planId, sequence, paymentId)`. -/
def payInstallment (db : Db) (orgId planId sequence paymentId : ℕ) : Except Failure Db := do
  match (db.plans.find? planId).filter fun p => p.organizationId = orgId ∧ p.deleted = false with
  | none => .error (notFound "payment_plans")
  | some plan =>
    if plan.status ≠ .active then
      .error (.app 422 "VALIDATION_ERROR" ("This payment plan is " ++ plan.status.name ++ "."))
    match db.installments.rows.find? fun i => i.planId = planId ∧ i.sequence = sequence with
    | none => .error (notFound "payment_plan_installments")
    | some installment =>
      if installment.status = .paid then
        .error (.app 422 "VALIDATION_ERROR" "Installment is already paid")
      match findPayment db paymentId orgId with
      | none => .error (notFound "payments")
      | some payment =>
        if payment.status ≠ .completed then
          .error (.app 422 "VALIDATION_ERROR" ("Only a completed payment can settle an " ++
            "installment (this payment is " ++ payment.status.name ++ ")."))
        if payment.clientId ≠ plan.clientId then
          .error (.app 422 "VALIDATION_ERROR"
            "The payment belongs to a different client than the payment plan.")
        if db.installments.rows.any fun i => i.paidPaymentId = some paymentId then
          .error (.app 422 "VALIDATION_ERROR" "This payment already settled another installment.")
        if payment.amount - db.allocatedOf paymentId < installment.amount then
          .error (.app 422 "VALIDATION_ERROR" ("The payment has " ++
            toFixed (payment.amount - db.allocatedOf paymentId) ++
            " left unallocated; the installment is " ++ toFixed installment.amount ++ "."))
        let db ← allocateInstallment db orgId plan.clientId installment payment
        return markInstallmentPaid db planId installment.id paymentId

/-- A reseller's collection.  `refusal` is what the checks of the collect token, the reseller, its
credit limit, the client and the cash session answer. -/
def collect (db : Db) (orgId resellerId clientId : ℕ) (amount : ℤ) (currency : String)
    (invoiceIds : Option (List ℕ)) (refusal : Option Failure) : Except Failure Db := do
  if amount ≤ 0 then
    .error (.app 422 "VALIDATION_ERROR" "amount must be more than 0 with at most 2 decimals")
  match refusal with
  | some failure => .error failure
  | none =>
    let payer (id : ℕ) : Payment :=
      ⟨id, orgId, clientId, amount, currency, .completed, some resellerId, false⟩
    let rows := getInvoicesWithBalance db orgId clientId invoiceIds
    let missing := (invoiceIds.getD []).filter fun id => ¬ rows.any fun x => x.invoice.id = id
    if missing ≠ [] then
      .error (.app 422 "INVOICE_NOT_PAYABLE" ("Invoice(s) " ++
        ", ".intercalate (missing.map toString) ++ " are not open invoices of this customer."))
    let rows := rows.filter fun x => (allocationRefusal (payer 0) x.invoice false).isNone
    let payment := payer db.payments.nextId
    let db := { db with payments := db.payments.insert payer (fun _ => rfl) }
    let db := recordPaymentCredit db payment orgId
    let applied ← allocateAcrossInvoices payment db amount rows
    return { applied.db with
      resellerEntries := applied.db.resellerEntries ++
        [⟨orgId, resellerId, .collection, amount, payment.id⟩] }

/-- The void of a collection.  `refusal` is what the checks of the day, the cash session and the
payment complement answer. -/
def voidCollection (db : Db) (orgId resellerId paymentId : ℕ) (refusal : Option Failure) :
    Except Failure Db := do
  match (db.payments.find? paymentId).filter fun p =>
    p.organizationId = orgId ∧ p.resellerId = some resellerId with
  | none => .error (notFound "Payment")
  | some payment =>
    if payment.deleted ∨ payment.status ≠ .completed then
      .error (.app 409 "ALREADY_VOIDED" "This collection is already voided.")
    match db.resellerEntries.find? fun e => e.organizationId = orgId ∧
      e.resellerId = resellerId ∧ e.paymentId = paymentId ∧ e.entryType = .collection with
    | none => .error (notFound "Payment")
    | some entry =>
      match refusal with
      | some failure => .error failure
      | none =>
        let db := reversePaymentCredit db paymentId
        let db ← query (reversePaymentAllocations db paymentId)
        let db := db.setPayment paymentId (fun _ => .cancelled) true
        return { db with
          resellerEntries := db.resellerEntries ++
            [⟨orgId, resellerId, .collectionVoid, -entry.amount, paymentId⟩] }

/-! ### Transactions -/

/-- The database after a request: a request that fails is rolled back. -/
def commit (db : Db) : Except Failure Db → Db
  | .ok db' => db'
  | .error _ => db

end Vigabss.Billing
