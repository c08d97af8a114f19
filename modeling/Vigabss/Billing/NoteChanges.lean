import Vigabss.Billing.CreditLedger

/-!
# Vigabss.Billing.NoteChanges — every change of a credit note

The paths that create or change a credit note: the credit-note routes, a proration, a refund and
SAT's cancellation.  Each is one transaction, with the note's row locked, and each but the two that
touch drafts alone ends in the ledger sync.  They run in any order, with the other requests on
payments and invoices between them.
-/

namespace Vigabss.Billing

open Vigabss.Lib

/-- The billing database, with the columns of the credit notes that the ledger rows are made from
and these rows. -/
structure Books where
  db : Db
  details : ℕ → NoteDetails
  postings : List CreditPosting

/-! ### Statements -/

namespace Books

/-- What the columns and the foreign key of `credit_notes` refuse. -/
def refuses (note : CreditNote) : Except SqlError Unit :=
  if decimalMax < |note.total| then .error (outOfRange "total")
  else if note.clientId = 0 then
    .error (.signal "Cannot add or update a child row: a foreign key constraint fails")
  else .ok ()

/-- `INSERT INTO credit_notes`. -/
def insertNote (b : Books) (orgId clientId : ℕ) (invoiceId : Option ℕ) (total : ℤ)
    (status : CreditNoteStatus) (details : NoteDetails) : Except SqlError (Books × CreditNote) := do
  let new (id : ℕ) : CreditNote := ⟨id, orgId, clientId, invoiceId, total, status, false⟩
  let id := b.db.creditNotes.nextId
  refuses (new id)
  return ({ b with
    db := { b.db with creditNotes := b.db.creditNotes.insert new fun _ => rfl }
    details := Function.update b.details id details }, new id)

/-- `UPDATE credit_notes` on one row. -/
def saveNote (b : Books) (note : CreditNote) (details : NoteDetails) : Except SqlError Books := do
  refuses note
  return { b with
    db := { b.db with creditNotes := b.db.creditNotes.put note }
    details := Function.update b.details note.id details }

/-- `UPDATE credit_notes SET deleted_at = …` on one row. -/
def markNote (b : Books) (noteId : ℕ) (deleted : Bool) : Books :=
  { b with db := { b.db with
    creditNotes := b.db.creditNotes.modify noteId (fun n => { n with deleted }) fun _ => rfl } }

/-- The sync of a note that is given with its details. -/
def syncLedger (b : Books) (note : CreditNote) (details : NoteDetails) (orgId today : ℕ)
    (target : Option ℚ) (label : String) : Except Failure Books := do
  let synced ← query (syncCreditNoteLedger b.postings note details orgId today target label)
  return { b with postings := synced.1 }

/-- `creditNoteApplicationService.syncApplication`. -/
def syncApplied (b : Books) (note : CreditNote) (orgId : ℕ) (release : Bool) :
    Except Failure Books := do
  let db ← syncApplication b.db note orgId release
  return { b with db }

/-- The live row under an id, in the caller's organization. -/
def findNote (b : Books) (noteId orgId : ℕ) : Option CreditNote :=
  (b.db.creditNotes.find? noteId).filter fun n => n.organizationId = orgId ∧ n.deleted = false

end Books

/-! ### The routes

`refusal` is what the checks answer that read other tables: the client and the invoice, a live CFDI,
the tax, the amounts of the body against each other, and the unique number. -/

def refuseIf (refusal : Option Failure) : Except Failure Unit :=
  match refusal with
  | some failure => .error failure
  | none => .ok ()

/-- The body of `POST /credit-notes`, with its defaults. -/
structure NoteBody where
  clientId : ℕ
  invoiceId : Option ℕ
  total : ℚ
  status : CreditNoteStatus
  details : NoteDetails

/-- `POST /credit-notes`. -/
def createCreditNote (b : Books) (orgId today : ℕ) (body : NoteBody) (refusal : Option Failure) :
    Except Failure Books := do
  if body.clientId < 1 ∨ body.total < 0 then
    .error (.app 422 "VALIDATION_ERROR" "Validation failed")
  refuseIf refusal
  let inserted ← query (b.insertNote orgId body.clientId body.invoiceId (toDecimal body.total)
    body.status body.details)
  let creditNote := inserted.2
  if creditNote.status.posted then
    let b ← inserted.1.syncLedger creditNote body.details orgId today none ""
    b.syncApplied creditNote orgId false
  else return inserted.1

/-- A note born issued, with its ledger credit. -/
def insertIssued (b : Books) (orgId clientId today : ℕ) (invoiceId : Option ℕ) (total : ℤ)
    (details : NoteDetails) : Except Failure Books := do
  let inserted ← query (b.insertNote orgId clientId invoiceId total .issued details)
  inserted.1.syncLedger inserted.2 details orgId today none ""

/-- `issueProrationCreditNote`. -/
def issueProrationCreditNote (b : Books) (orgId clientId today : ℕ) (total : ℤ)
    (details : NoteDetails) : Except Failure Books :=
  insertIssued b orgId clientId today none total details

/-- The credit note of a refund request. -/
def issueRefundCreditNote (b : Books) (orgId clientId today : ℕ) (invoiceId : Option ℕ)
    (total : ℤ) (details : NoteDetails) : Except Failure Books :=
  insertIssued b orgId clientId today invoiceId total details

def CreditNoteStatus.name : CreditNoteStatus → String
  | draft => "draft"
  | issued => "issued"
  | applied => "applied"
  | cancelled => "cancelled"

/-- `POST /credit-notes/:id/items`; `delta` is what `applyCreditNoteLineItemToTotals` adds to
`total`. -/
def addCreditNoteItem (b : Books) (orgId noteId : ℕ) (delta : ℤ) (refusal : Option Failure) :
    Except Failure Books := do
  match b.findNote noteId orgId with
  | none => .error (notFound "Credit note")
  | some note =>
    if note.status ≠ .draft then
      .error (.app 422 "CREDIT_NOTE_NOT_DRAFT" ("Line items can only be added to a draft credit " ++
        "note (this one is " ++ note.status.name ++ ")."))
    refuseIf refusal
    query (b.saveNote { note with total := note.total + delta } (b.details noteId))

/-- `assertStatusTransition(oldStatus, newStatus)`. -/
def assertStatusTransition (oldStatus : CreditNoteStatus) (newStatus : Option CreditNoteStatus) :
    Except Failure Unit :=
  match newStatus with
  | none => .ok ()
  | some newStatus =>
    if newStatus = oldStatus then .ok ()
    else if oldStatus = .cancelled ∨ newStatus = .draft ∧ oldStatus ≠ .draft then
      .error (.app 422 "CREDIT_NOTE_STATUS_TRANSITION" ("A credit note cannot move from '" ++
        oldStatus.name ++ "' to '" ++ newStatus.name ++ "'."))
    else .ok ()

/-- The body of `PUT /credit-notes/:id`; a field it does not have is `none`. -/
structure NoteEdit where
  clientId : Option ℕ
  invoiceId : Option (Option ℕ)
  total : Option ℚ
  status : Option CreditNoteStatus
  creditNoteNumber : Option String
  currency : Option String

/-- The row after an edit. -/
def NoteEdit.row (edit : NoteEdit) (old : CreditNote) : CreditNote :=
  { old with
    clientId := edit.clientId.getD old.clientId
    invoiceId := edit.invoiceId.getD old.invoiceId
    total := edit.total.elim old.total toDecimal
    status := edit.status.getD old.status }

def NoteEdit.details (edit : NoteEdit) (old : NoteDetails) : NoteDetails where
  creditNoteNumber := edit.creditNoteNumber.getD old.creditNoteNumber
  currency := edit.currency.getD old.currency

/-- The label of the sync after an edit. -/
def updateLabel (before record : CreditNote) : String :=
  if record.status = .cancelled then "cancelled"
  else if before.status.posted = true ∧ before.total ≠ record.total then "total changed"
  else ""

/-- `afterUpdate`: a note that has changed clients first leaves the account of the old one. -/
def afterUpdate (b : Books) (orgId today : ℕ) (before record : CreditNote)
    (beforeDetails details : NoteDetails) : Except Failure Books := do
  let b ←
    if before.clientId ≠ record.clientId then
      b.syncLedger before beforeDetails orgId today (some 0) "moved to another client"
    else pure b
  let b ← b.syncLedger record details orgId today none (updateLabel before record)
  b.syncApplied record orgId false

/-- `PUT /credit-notes/:id`. -/
def updateCreditNote (b : Books) (orgId today noteId : ℕ) (edit : NoteEdit)
    (refusal : Option Failure) : Except Failure Books := do
  if edit.total.any (· < 0) then .error (.app 422 "VALIDATION_ERROR" "Validation failed")
  match b.findNote noteId orgId with
  | none => .error (notFound "credit_notes")
  | some old =>
    assertStatusTransition old.status edit.status
    refuseIf refusal
    let oldDetails := b.details noteId
    let b ← query (b.saveNote (edit.row old) (edit.details oldDetails))
    afterUpdate b orgId today old (edit.row old) oldDetails (edit.details oldDetails)

/-- `DELETE /credit-notes/:id`: `beforeDelete`, and the soft delete. -/
def deleteCreditNote (b : Books) (orgId today noteId : ℕ) (refusal : Option Failure) :
    Except Failure Books := do
  match b.findNote noteId orgId with
  | none => .error (notFound "credit_notes")
  | some old =>
    refuseIf refusal
    let b ← b.syncLedger old (b.details noteId) orgId today (some 0) "deleted"
    let b ← b.syncApplied old orgId true
    return b.markNote noteId true

/-- `POST /credit-notes/:id/restore`: the un-delete, and `afterRestore`. -/
def restoreCreditNote (b : Books) (orgId today noteId : ℕ) (refusal : Option Failure) :
    Except Failure Books := do
  refuseIf refusal
  match (b.db.creditNotes.find? noteId).filter fun n =>
    n.organizationId = orgId ∧ n.deleted = true with
  | none => .error (notFound "credit_notes")
  | some note =>
    let record := { note with deleted := false }
    let b := b.markNote noteId false
    let b ← b.syncLedger record (b.details noteId) orgId today none "restored"
    b.syncApplied record orgId false

/-- `cancelCreditNoteForSat(doc)`. -/
def cancelCreditNoteForSat (b : Books) (orgId today noteId : ℕ) : Except Failure Books := do
  match (b.db.creditNotes.find? noteId).filter fun n => n.organizationId = orgId with
  | none => return b
  | some note =>
    if note.status = .cancelled then return b
    let cancelled := { note with status := .cancelled }
    let b := { b with db := b.db.setNoteStatus noteId fun _ => .cancelled }
    let b ← b.syncLedger cancelled (b.details noteId) orgId today none "egreso cancelled at SAT"
    b.syncApplied cancelled orgId false

/-- The sync of a stored note, run once more. -/
def resync (b : Books) (today noteId : ℕ) (label : String) : Except Failure Books :=
  match b.db.creditNotes.find? noteId with
  | none => .ok b
  | some note => b.syncLedger note (b.details noteId) note.organizationId today none label

/-! ### Runs -/

/-- The changes of credit notes, and the other requests on the billing database. -/
inductive Change where
  | create (orgId today : ℕ) (body : NoteBody) (refusal : Option Failure)
  | prorate (orgId clientId today : ℕ) (total : ℤ) (details : NoteDetails)
  | refund (orgId clientId today : ℕ) (invoiceId : Option ℕ) (total : ℤ) (details : NoteDetails)
  | addItem (orgId noteId : ℕ) (delta : ℤ) (refusal : Option Failure)
  | update (orgId today noteId : ℕ) (edit : NoteEdit) (refusal : Option Failure)
  | delete (orgId today noteId : ℕ) (refusal : Option Failure)
  | restore (orgId today noteId : ℕ) (refusal : Option Failure)
  | cancelForSat (orgId today noteId : ℕ)
  | resync (today noteId : ℕ) (label : String)
  | billing (event : Event)

/-- What a change writes, or the failure it is rolled back with. -/
def Change.apply (b : Books) : Change → Except Failure Books
  | .create orgId today body refusal => createCreditNote b orgId today body refusal
  | .prorate orgId clientId today total details =>
    issueProrationCreditNote b orgId clientId today total details
  | .refund orgId clientId today invoiceId total details =>
    issueRefundCreditNote b orgId clientId today invoiceId total details
  | .addItem orgId noteId delta refusal => addCreditNoteItem b orgId noteId delta refusal
  | .update orgId today noteId edit refusal => updateCreditNote b orgId today noteId edit refusal
  | .delete orgId today noteId refusal => deleteCreditNote b orgId today noteId refusal
  | .restore orgId today noteId refusal => restoreCreditNote b orgId today noteId refusal
  | .cancelForSat orgId today noteId => cancelCreditNoteForSat b orgId today noteId
  | .resync today noteId label => Billing.resync b today noteId label
  | .billing event => .ok { b with db := b.db.after event }

/-- The books after a change: one that fails is rolled back. -/
def Books.after (b : Books) (change : Change) : Books :=
  match change.apply b with
  | .ok b' => b'
  | .error _ => b

end Vigabss.Billing
