import Mathlib.Data.List.Sort
import Vigabss.Billing.Store
import Vigabss.Lib.Binary64

/-!
# Vigabss.Billing.Allocation — the payment allocation service

Every writer of `payment_allocations` goes through `applyAllocation`, which refuses an allocation
across organizations, clients or currencies, or to an invoice that is not payable, and marks a
fully covered invoice paid.  `allocateAcrossInvoices` spreads an amount over open invoices,
oldest first.
-/

namespace Vigabss.Billing

open Vigabss.Lib

/-- `Number(x)` of a `DECIMAL(10, 2)` column, given in cents. -/
def number (cents : ℤ) : ℚ := fl (cents / 100)

/-- The cents a `DECIMAL(10, 2)` column stores for an amount: rounded half away from zero. -/
def toDecimal (amount : ℚ) : ℤ :=
  if 0 ≤ amount then ⌊amount * 100 + 1 / 2⌋ else -⌊-amount * 100 + 1 / 2⌋

/-- `PAYABLE_STATUSES`. -/
def InvoiceStatus.payable : InvoiceStatus → Bool
  | issued | sent | overdue => true
  | _ => false

def isPaymentSettled (payment : Payment) : Bool := payment.status = .completed

def paymentNotSettledError (payment : Payment) : Failure :=
  .app 422 "PAYMENT_NOT_SETTLED"
    ("Only a completed payment can be applied to invoices (this payment is " ++
      payment.status.name ++ ").")

def sameCurrency (a b : String) : Bool :=
  a = "" ∨ b = "" ∨ a.toList.map Char.toUpper = b.toList.map Char.toUpper

/-- Why `payment` may not settle `invoice`: a code and a message. -/
def allocationRefusal (payment : Payment) (invoice : Invoice) (anyClient : Bool) :
    Option (String × String) :=
  if invoice.organizationId ≠ payment.organizationId then
    some ("NOT_FOUND", "Invoice not found.")
  else if invoice.status.payable = false then
    some ("INVOICE_NOT_PAYABLE",
      "Cannot apply a payment to a " ++ invoice.status.name ++ " invoice.")
  else if anyClient = false ∧ invoice.clientId ≠ payment.clientId then
    some ("CROSS_CLIENT_ALLOCATION", "The invoice belongs to a different client than the payment.")
  else if sameCurrency payment.currency invoice.currency = false then
    some ("CURRENCY_MISMATCH",
      "A " ++ payment.currency ++ " payment cannot settle a " ++ invoice.currency ++ " invoice.")
  else none

/-- Mark the invoice paid once its live allocations and credit cover it. -/
def finalizeIfFullyPaid (db : Db) (invoice : Invoice) : Db × Bool :=
  let totalAllocated :=
    fl (number (db.allocatedTo invoice.id) + number (db.creditAppliedTo invoice.id))
  if totalAllocated < number invoice.total then (db, false)
  else (db.setInvoiceStatus invoice.id fun _ => .paid, true)

/-- How `applyAllocation` answers a failed insert. -/
def insertFailure : SqlError → Failure
  | .signal _ => .app 422 "OVER_ALLOCATION" "Allocation would exceed the invoice or payment total."
  | .duplicateEntry =>
    .app 422 "ALLOCATION_EXISTS" "This payment is already applied to that invoice."

/-- Insert one allocation of `amount` cents and mark the invoice paid once covered.  Returns the
row's id and whether the invoice became paid. -/
def applyAllocation (db : Db) (payment : Payment) (invoice : Invoice) (amount : ℤ)
    (anyClient : Bool) (finalize : Bool) : Except Failure (Db × ℕ × Bool) :=
  match allocationRefusal payment invoice anyClient with
  | some (code, message) =>
    .error (.app (if code = "NOT_FOUND" then 404 else 422) code message)
  | none =>
    match db.insertAllocation payment.id invoice.id amount with
    | .error err => .error (insertFailure err)
    | .ok (db, id) =>
      if finalize then
        let (db, becamePaid) := finalizeIfFullyPaid db invoice
        .ok (db, id, becamePaid)
      else .ok (db, id, false)

/-- An invoice with its live `balance_due`. -/
structure OpenInvoice where
  invoice : Invoice
  balanceDue : ℤ

/-- `ORDER BY i.issue_date ASC, i.id ASC`. -/
def olderFirst (a b : OpenInvoice) : Prop :=
  a.invoice.issueDate < b.invoice.issueDate ∨
    a.invoice.issueDate = b.invoice.issueDate ∧ a.invoice.id ≤ b.invoice.id

instance : DecidableRel olderFirst := fun _ _ => inferInstanceAs (Decidable (_ ∨ _))

/-- The client's payable invoices with what they still owe, oldest first; `none` asks for all. -/
def getInvoicesWithBalance (db : Db) (orgId clientId : ℕ) (invoiceIds : Option (List ℕ)) :
    List OpenInvoice :=
  ((db.invoices.rows.filter fun i =>
      i.clientId = clientId ∧ i.organizationId = orgId ∧ i.deleted = false ∧
        i.status.payable = true ∧ ∀ ids ∈ invoiceIds, ids ≠ [] → i.id ∈ ids).map
    fun i => ⟨i, i.total - db.coveredOf i.id⟩).insertionSort olderFirst

/-- What `allocateAcrossInvoices` has done. -/
structure Applied where
  db : Db
  allocations : List (ℕ × ℕ × ℤ)
  justPaid : List ℕ
  remainder : ℤ

/-- Apply up to `remainder` cents of a payment across the invoices, in their order. -/
def allocateAcrossInvoices (payment : Payment) :
    Db → ℤ → List OpenInvoice → Except Failure Applied
  | db, remainder, [] => .ok ⟨db, [], [], remainder⟩
  | db, remainder, x :: rest =>
    if remainder ≤ 0 then .ok ⟨db, [], [], remainder⟩
    else
      let balanceDue := max 0 x.balanceDue
      if balanceDue ≤ 0 then allocateAcrossInvoices payment db remainder rest
      else
        let applyAmount := min remainder balanceDue
        if applyAmount ≤ 0 then allocateAcrossInvoices payment db remainder rest
        else
          match applyAllocation db payment x.invoice applyAmount false true with
          | .error err =>
            -- already allocated live from this payment: the earlier row covers it
            if err = insertFailure .duplicateEntry then
              allocateAcrossInvoices payment db remainder rest
            else .error err
          | .ok (db, id, becamePaid) => do
            let applied ← allocateAcrossInvoices payment db (remainder - applyAmount) rest
            return { applied with
              allocations := (id, x.invoice.id, applyAmount) :: applied.allocations
              justPaid := if becamePaid then x.invoice.id :: applied.justPaid
                else applied.justPaid }

end Vigabss.Billing

/-!
## Credit-note applications

A posted credit note with an invoice reduces that invoice through one live application row.
`syncApplication` brings the row to what the note's current state calls for; the invoice turns
paid when it is covered and back to issued when it is uncovered.  Amounts are whole cents, so a
difference below half a cent is none.
-/

namespace Vigabss.Billing

open Vigabss.Lib

/-- `POSTED`. -/
def CreditNoteStatus.posted : CreditNoteStatus → Bool
  | issued | applied => true
  | _ => false

/-- `PAYABLE` of the credit-note applications: a paid invoice can be re-sized. -/
def InvoiceStatus.creditable : InvoiceStatus → Bool
  | issued | sent | overdue | paid => true
  | _ => false

/-- A live application of the note. -/
def ofNote (noteId : ℕ) (a : CreditNoteApplication) : Bool :=
  a.creditNoteId = noteId ∧ a.deleted = false

namespace Db

/-- `INSERT INTO credit_note_applications`, one live row a note
(`uq_credit_note_applications_note`). -/
def insertApplication (db : Db) (noteId invoiceId : ℕ) (amount : ℤ) : Except SqlError Db :=
  if db.applications.rows.any (ofNote noteId) then .error .duplicateEntry
  else .ok { db with
    applications := db.applications.insert (fun id => ⟨id, noteId, invoiceId, amount, false⟩)
      (fun _ => rfl) }

/-- `UPDATE credit_note_applications SET deleted_at = NOW()` on one row. -/
def releaseApplication (db : Db) (id : ℕ) : Db :=
  { db with
    applications := db.applications.modify id (fun a => { a with deleted := true })
      (fun _ => rfl) }

end Db

/-- `refreshPaidStatus` of the credit notes: a covered open invoice turns paid, an uncovered paid
one issued. -/
def refreshPaidStatus (db : Db) (invoiceId : ℕ) : Db :=
  match db.invoices.find? invoiceId with
  | none => db
  | some inv =>
    if inv.deleted then db
    else if inv.total ≤ db.coveredOf invoiceId then
      db.setInvoiceStatus invoiceId fun st => if st.payable then .paid else st
    else db.setInvoiceStatus invoiceId fun st => if st = .paid then .issued else st

/-- The invoice a note is applied to, when there is one it may be applied to. -/
def creditedInvoice (db : Db) (note : CreditNote) (orgId : ℕ) : Option Invoice :=
  (note.invoiceId.bind db.invoices.find?).filter fun i =>
    i.organizationId = orgId ∧ i.clientId = note.clientId ∧ i.deleted = false ∧
      i.status.creditable = true

/-- The part of an invoice's credit that is the note's own live application. -/
def ownCredit (current : Option CreditNoteApplication) (invoiceId : ℕ) : ℤ :=
  match current with
  | some c => if c.invoiceId = invoiceId then c.amount else 0
  | none => 0

/-- The amount a note is to be applied for, and to which invoice. -/
def applicationTarget (db : Db) (note : CreditNote) (orgId : ℕ) (release : Bool)
    (current : Option CreditNoteApplication) : ℤ × Option ℕ :=
  if release = false ∧ note.deleted = false ∧ note.status.posted = true ∧
      note.invoiceId.isSome then
    match creditedInvoice db note orgId with
    | some invoice =>
      let owed := invoice.total - db.coveredOf invoice.id + ownCredit current invoice.id
      (max 0 (min note.total owed), some invoice.id)
    | none => (0, none)
  else (0, note.invoiceId)

/-- Replace the note's live application, and re-derive the status of the invoices concerned. -/
def replaceApplication (db : Db) (noteId : ℕ) (current : Option CreditNoteApplication)
    (target : ℤ) (invoiceId : Option ℕ) : Except SqlError Db := do
  let db := match current with
    | some c => db.releaseApplication c.id
    | none => db
  let db ← match invoiceId with
    | some id => if 1 ≤ target then db.insertApplication noteId id target else pure db
    | none => pure db
  return ((current.map (·.invoiceId)).toList ++ invoiceId.toList).dedup.foldl refreshPaidStatus db

/-- The live application is already what the note calls for. -/
def applicationUnchanged (current : Option CreditNoteApplication) (target : ℤ)
    (invoiceId : Option ℕ) : Bool :=
  match current with
  | some c => c.amount = target ∧ some c.invoiceId = invoiceId
  | none => target < 1

/-- A posted note used in full is applied, one with credit left is issued. -/
def setNoteUsed (db : Db) (note : CreditNote) (release : Bool) (target : ℤ) : Db :=
  if note.status.posted = true ∧ release = false ∧ note.deleted = false then
    let next : CreditNoteStatus := if note.total ≤ target ∧ 1 ≤ target then .applied else .issued
    if next ≠ note.status then db.setNoteStatus note.id fun st => if st.posted then next else st
    else db
  else db

/-- `syncApplication(exec, note, orgId, { release })`. -/
def syncApplication (db : Db) (note : CreditNote) (orgId : ℕ) (release : Bool) :
    Except Failure Db := do
  let current := db.applications.rows.find? (ofNote note.id)
  let target := applicationTarget db note orgId release current
  let db ←
    if applicationUnchanged current target.1 target.2 then pure db
    else query (replaceApplication db note.id current target.1 target.2)
  return setNoteUsed db note release target.1

/-- `releaseForInvoice`: release every live application to an invoice; the notes keep their
credit, unapplied. -/
def releaseForInvoice (db : Db) (invoiceId : ℕ) : Db :=
  let rows := db.applications.rows.filter (creditTo invoiceId)
  let db := rows.foldl (fun db a => db.releaseApplication a.id) db
  rows.foldl (fun db a => db.setNoteStatus a.creditNoteId fun st =>
    if st = .applied then .issued else st) db

end Vigabss.Billing
