import Vigabss.Lib.Table

/-!
# Vigabss.Billing.Store — the billing tables

The tables that payments, allocations and credit notes are kept in, with the columns the
operations read, and the statements on `payment_allocations` with the guards the database puts on
them: the four over-allocation triggers and the unique key over live rows.  Amounts of
`DECIMAL(10, 2)` columns are whole cents.
-/

namespace Vigabss.Billing

open Vigabss.Lib

inductive PaymentStatus where
  | pending | completed | failed | refunded | cancelled
  deriving DecidableEq, Repr

def PaymentStatus.name : PaymentStatus → String
  | pending => "pending"
  | completed => "completed"
  | failed => "failed"
  | refunded => "refunded"
  | cancelled => "cancelled"

inductive InvoiceStatus where
  | draft | issued | sent | paid | overdue | cancelled | void
  deriving DecidableEq, Repr

def InvoiceStatus.name : InvoiceStatus → String
  | draft => "draft"
  | issued => "issued"
  | sent => "sent"
  | paid => "paid"
  | overdue => "overdue"
  | cancelled => "cancelled"
  | void => "void"

inductive CreditNoteStatus where
  | draft | issued | applied | cancelled
  deriving DecidableEq, Repr

inductive PlanStatus where
  | active | completed | defaulted | cancelled
  deriving DecidableEq, Repr

def PlanStatus.name : PlanStatus → String
  | active => "active"
  | completed => "completed"
  | defaulted => "defaulted"
  | cancelled => "cancelled"

inductive InstallmentStatus where
  | pending | paid | overdue
  deriving DecidableEq, Repr

/-! ### Rows -/

structure Payment where
  id : ℕ
  organizationId : ℕ
  clientId : ℕ
  amount : ℤ
  currency : String
  status : PaymentStatus
  resellerId : Option ℕ
  deleted : Bool
  deriving DecidableEq, Repr

structure Invoice where
  id : ℕ
  organizationId : ℕ
  clientId : ℕ
  issueDate : ℕ
  total : ℤ
  currency : String
  status : InvoiceStatus
  deleted : Bool
  deriving DecidableEq, Repr

structure PaymentAllocation where
  id : ℕ
  paymentId : ℕ
  invoiceId : ℕ
  amount : ℤ
  deleted : Bool
  deriving DecidableEq, Repr

structure CreditNote where
  id : ℕ
  organizationId : ℕ
  clientId : ℕ
  invoiceId : Option ℕ
  total : ℤ
  status : CreditNoteStatus
  deleted : Bool
  deriving DecidableEq, Repr

structure CreditNoteApplication where
  id : ℕ
  creditNoteId : ℕ
  invoiceId : ℕ
  amount : ℤ
  deleted : Bool
  deriving DecidableEq, Repr

structure PaymentPlan where
  id : ℕ
  organizationId : ℕ
  clientId : ℕ
  status : PlanStatus
  deleted : Bool
  deriving DecidableEq, Repr

structure Installment where
  id : ℕ
  planId : ℕ
  sequence : ℕ
  invoiceId : Option ℕ
  amount : ℤ
  status : InstallmentStatus
  paidPaymentId : Option ℕ
  deriving DecidableEq, Repr

inductive EntryType where
  | debit | credit
  deriving DecidableEq, Repr

inductive ReferenceType where
  | payment | invoice | creditNote
  deriving DecidableEq, Repr

/-- A row of `client_balance_ledger`. -/
structure LedgerEntry where
  clientId : ℕ
  organizationId : ℕ
  entryType : EntryType
  amount : ℤ
  currency : String
  referenceType : ReferenceType
  referenceId : ℕ
  deriving DecidableEq, Repr

inductive ResellerEntryType where
  | collection | collectionVoid
  deriving DecidableEq, Repr

/-- A row of `reseller_ledger_entries` about a payment. -/
structure ResellerEntry where
  organizationId : ℕ
  resellerId : ℕ
  entryType : ResellerEntryType
  amount : ℤ
  paymentId : ℕ
  deriving DecidableEq, Repr

instance : Keyed Payment := ⟨Payment.id⟩
instance : Keyed Invoice := ⟨Invoice.id⟩
instance : Keyed PaymentAllocation := ⟨PaymentAllocation.id⟩
instance : Keyed CreditNote := ⟨CreditNote.id⟩
instance : Keyed CreditNoteApplication := ⟨CreditNoteApplication.id⟩
instance : Keyed PaymentPlan := ⟨PaymentPlan.id⟩
instance : Keyed Installment := ⟨Installment.id⟩

/-- The billing database. -/
structure Db where
  payments : Table Payment
  invoices : Table Invoice
  allocations : Table PaymentAllocation
  creditNotes : Table CreditNote
  applications : Table CreditNoteApplication
  plans : Table PaymentPlan
  installments : Table Installment
  ledger : List LedgerEntry
  resellerEntries : List ResellerEntry
  deriving DecidableEq

/-! ### Errors -/

/-- What a statement on `payment_allocations` or `credit_note_applications` fails with. -/
inductive SqlError where
  | signal (message : String)
  | duplicateEntry
  deriving DecidableEq, Repr

/-- How a request fails: an answer of the application, or an error of the database that nothing
mapped. -/
inductive Failure where
  | app (status : ℕ) (code : String) (message : String)
  | sql (err : SqlError)
  deriving DecidableEq, Repr

/-- A statement inside a request. -/
def query {α : Type} (r : Except SqlError α) : Except Failure α := r.mapError .sql

/-! ### Sums over live rows -/

/-- A live allocation of the payment. -/
def ofPayment (paymentId : ℕ) (a : PaymentAllocation) : Bool :=
  a.paymentId = paymentId ∧ a.deleted = false

/-- A live allocation to the invoice. -/
def toInvoice (invoiceId : ℕ) (a : PaymentAllocation) : Bool :=
  a.invoiceId = invoiceId ∧ a.deleted = false

/-- A live application to the invoice. -/
def creditTo (invoiceId : ℕ) (a : CreditNoteApplication) : Bool :=
  a.invoiceId = invoiceId ∧ a.deleted = false

namespace Db

/-- `SUM(amount)` of the payment's live allocations. -/
def allocatedOf (db : Db) (paymentId : ℕ) : ℤ :=
  db.allocations.sum (ofPayment paymentId) PaymentAllocation.amount

/-- `SUM(amount)` of the live allocations to the invoice. -/
def allocatedTo (db : Db) (invoiceId : ℕ) : ℤ :=
  db.allocations.sum (toInvoice invoiceId) PaymentAllocation.amount

/-- `creditAppliedSql`: the live credit-note applications to the invoice. -/
def creditAppliedTo (db : Db) (invoiceId : ℕ) : ℤ :=
  db.applications.sum (creditTo invoiceId) CreditNoteApplication.amount

/-- `paidOrCreditedSql`: everything that has reduced the invoice. -/
def coveredOf (db : Db) (invoiceId : ℕ) : ℤ :=
  db.allocatedTo invoiceId + db.creditAppliedTo invoiceId

/-! ### The guards of `payment_allocations` -/

/-- The body the four triggers share: `v_already_alloc + NEW.amount > v_total`, where a missing
parent row leaves `v_total` null and the comparison not true. -/
def guardTrigger (total : Option ℤ) (already amount : ℤ) (message : String) :
    Except SqlError Unit :=
  match total with
  | none => .ok ()
  | some total => if total < already + amount then .error (.signal message) else .ok ()

def paymentTotal (db : Db) (paymentId : ℕ) : Option ℤ :=
  (db.payments.find? paymentId).map Payment.amount

def invoiceTotal (db : Db) (invoiceId : ℕ) : Option ℤ :=
  (db.invoices.find? invoiceId).map Invoice.total

def paymentMessage : String := "Payment allocation would exceed total payment amount"

def invoiceMessage : String := "Payment allocation would exceed invoice total"

/-- `trg_payment_alloc_payment_bi`. -/
def trgPaymentBi (db : Db) (new : PaymentAllocation) : Except SqlError Unit :=
  guardTrigger (db.paymentTotal new.paymentId) (db.allocatedOf new.paymentId) new.amount
    paymentMessage

/-- `trg_payment_alloc_invoice_bi`. -/
def trgInvoiceBi (db : Db) (new : PaymentAllocation) : Except SqlError Unit :=
  guardTrigger (db.invoiceTotal new.invoiceId) (db.allocatedTo new.invoiceId) new.amount
    invoiceMessage

/-- `trg_payment_alloc_payment_bu`. -/
def trgPaymentBu (db : Db) (old new : PaymentAllocation) : Except SqlError Unit :=
  guardTrigger (db.paymentTotal new.paymentId)
    (db.allocations.sum (fun a => ofPayment new.paymentId a && decide (a.id ≠ old.id))
      PaymentAllocation.amount)
    new.amount paymentMessage

/-- `trg_payment_alloc_invoice_bu`. -/
def trgInvoiceBu (db : Db) (old new : PaymentAllocation) : Except SqlError Unit :=
  guardTrigger (db.invoiceTotal new.invoiceId)
    (db.allocations.sum (fun a => toInvoice new.invoiceId a && decide (a.id ≠ old.id))
      PaymentAllocation.amount)
    new.amount invoiceMessage

/-- `uq_payment_allocations_payment_invoice`: another live row of the same pair. -/
def duplicatesLive (db : Db) (new : PaymentAllocation) : Bool :=
  db.allocations.rows.any fun a =>
    a.paymentId = new.paymentId ∧ a.invoiceId = new.invoiceId ∧ a.deleted = false ∧ a.id ≠ new.id

/-! ### Statements -/

/-- `INSERT INTO payment_allocations (payment_id, invoice_id, amount)`. -/
def insertAllocation (db : Db) (paymentId invoiceId : ℕ) (amount : ℤ) :
    Except SqlError (Db × ℕ) := do
  let new (id : ℕ) : PaymentAllocation := ⟨id, paymentId, invoiceId, amount, false⟩
  let id := db.allocations.nextId
  db.trgPaymentBi (new id)
  db.trgInvoiceBi (new id)
  if db.duplicatesLive (new id) then .error .duplicateEntry
  else .ok ({ db with allocations := db.allocations.insert new fun _ => rfl }, id)

/-- `UPDATE payment_allocations SET deleted_at = …` on one row. -/
def updateAllocation (db : Db) (old : PaymentAllocation) (deleted : Bool) :
    Except SqlError Db := do
  let new := { old with deleted }
  db.trgPaymentBu old new
  db.trgInvoiceBu old new
  if deleted = false ∧ db.duplicatesLive new then .error .duplicateEntry
  else .ok { db with
    allocations := db.allocations.modify old.id (fun a => { a with deleted }) fun _ => rfl }

/-- The same statement on every row that meets `cond`, row by row. -/
def updateAllocations (db : Db) (cond : PaymentAllocation → Bool) (deleted : Bool) :
    Except SqlError Db :=
  (db.allocations.rows.filter cond).foldlM (fun db old => db.updateAllocation old deleted) db

/-- `UPDATE invoices SET status = …` on one row. -/
def setInvoiceStatus (db : Db) (invoiceId : ℕ) (f : InvoiceStatus → InvoiceStatus) : Db :=
  { db with
    invoices := db.invoices.modify invoiceId (fun i => { i with status := f i.status })
      (fun _ => rfl) }

/-- `UPDATE credit_notes SET status = …` on one row. -/
def setNoteStatus (db : Db) (noteId : ℕ) (f : CreditNoteStatus → CreditNoteStatus) : Db :=
  { db with
    creditNotes := db.creditNotes.modify noteId (fun n => { n with status := f n.status })
      (fun _ => rfl) }

end Db

end Vigabss.Billing
