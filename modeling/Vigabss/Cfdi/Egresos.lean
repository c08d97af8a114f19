import Vigabss.Billing.NoteChanges
import Vigabss.Cfdi.Complements
import Vigabss.Cfdi.Conversion
import Vigabss.Lib.Threads

/-!
# Vigabss.Cfdi.Egresos — credit notes converted to CFDIs de Egreso

`resolveEgresoInputs` and the calls of `stampCreditNote`, which interleave over the egresos of an
organization: the pre-flight on the pool, the row lock of the credit note, the view that the
transaction reads from, the insert, and the stamp.  Beside them SAT moves the documents, and drafts
are discarded.
-/

namespace Vigabss.Cfdi

open Vigabss.Lib Vigabss.Billing

/-! ### Rows -/

/-- What happens to a document at the PAC and at SAT. -/
inductive SatMove where
  | stamped | cancelRequested | cancelRefused | cancelled
  deriving DecidableEq, Repr

/-- `UPDATE cfdi_documents SET sat_status = ? WHERE id = ? AND sat_status IN (…)`. -/
def SatMove.apply : SatMove → SatStatus → SatStatus
  | .stamped, .draft => .vigente
  | .cancelRequested, .vigente => .cancel_pending
  | .cancelRefused, .cancel_pending => .vigente
  | .cancelled, .vigente => .cancelado
  | .cancelled, .cancel_pending => .cancelado
  | _, status => status

theorem SatMove.live_apply (m : SatMove) {status : SatStatus}
    (h : (m.apply status).live = true) : status.live = true := by
  cases m <;> cases status <;> first | rfl | exact h

/-- A row of `cfdi_documents` of tipo E, in cents. -/
structure Egreso where
  id : ℕ
  credit_note_id : ℕ
  subtotal : ℤ
  total_impuestos : ℤ
  total : ℤ
  sat_status : SatStatus
  deriving DecidableEq

instance : Keyed Egreso := ⟨Egreso.id⟩

/-- A credit note with its client's exemption, in cents; its rate in ten-thousandths.  The total is
validated not to be negative. -/
structure EgresoNote where
  status : CreditNoteStatus
  currency : String
  client_id : ℕ
  invoice_id : Option ℕ
  tax_rate : ℤ
  tax_exempt : Bool
  subtotal : ℤ
  tax_amount : ℤ
  total : ℤ
  nonneg : 0 ≤ total
  fits : total ≤ decimalMax

/-- The vigente CFDI de Ingreso of an invoice, and the invoice's client. -/
structure RelatedCfdi where
  uuid : Option String
  forma_pago : Option String
  total : ℤ
  invoice_client_id : ℕ
  nonneg : 0 ≤ total
  fits : total < 10 ^ 12

/-- A live row of `credit_note_items`. -/
structure NoteItem where
  quantity : ℤ
  unit_price : ℤ

/-! ### `resolveEgresoInputs` -/

/-- What `resolveEgresoInputs` reads: the note, its live CFDI, the CFDI of the invoice it credits,
the egresos of the other notes of that invoice, the receptor and the lines. -/
structure EgresoReads where
  cn : Option EgresoNote
  existing : Option (ℕ × SatStatus)
  related : Option RelatedCfdi
  credited : ℤ
  receptor : Option Receptor
  items : List NoteItem

structure EgresoOpts where
  uso_cfdi : Option String
  forma_pago : Option String

structure EgresoInputs where
  cn : EgresoNote
  receptor : Receptor
  items : List NoteItem
  relatedCfdi : RelatedCfdi
  formaPago : String
  usoCfdi : String
  taxRate : ℚ
  clientExempt : Bool
  subtotal : ℚ
  taxAmount : ℚ
  total : ℚ

/-- `STAMPABLE_STATUSES`. -/
def egresoStatuses : List CreditNoteStatus := [.issued, .applied]

/-- `x.toFixed(2)`. -/
def fixed2 (x : ℚ) : String := (if x < 0 then "-" else "") ++ toFixed 2 |x|

/-- The note and the egresos already filed come to more than the total of the CFDI they credit. -/
def exceedsRelated (credited total related : ℤ) : Bool :=
  0 < number related ∧ fl (number related + fl (5 / 1000)) < fl (number credited + number total)

/-- `Number(cn.subtotal || 0)`, or what the total and the tax leave. -/
def EgresoNote.subtotalOf (cn : EgresoNote) : ℚ :=
  if number cn.subtotal = 0 then number (roundedDifference (number cn.total) (number cn.tax_amount))
  else number cn.subtotal

/-- `Math.round(Number(it.quantity || 1) * Number(it.unit_price || 0) * 100) / 100`. -/
def NoteItem.importe (it : NoteItem) : ℚ :=
  number (mathRound (fl (fl (number it.quantity * number it.unit_price) * 100)))

def lineSum (items : List NoteItem) : ℚ := items.foldl (fun sum it => fl (sum + it.importe)) 0

/-- A text that is there, as `||` takes it. -/
def given (text : Option String) : Option String := text.filter (· ≠ "")

/-- The amounts of the note, when they agree. -/
def egresoAmounts (cn : EgresoNote) (items : List NoteItem) : Except AppError (ℚ × ℚ × ℚ) :=
  let taxAmount := number cn.tax_amount
  let total := number cn.total
  let subtotal := cn.subtotalOf
  if fl (1 / 100) < |fl (fl (subtotal + taxAmount) - total)| then
    .error ⟨"The credit note's amounts are inconsistent: subtotal (" ++ fixed2 subtotal ++
      ") + tax (" ++ fixed2 taxAmount ++ ") must equal total (" ++ fixed2 total ++
      "). Fix the credit note before stamping.", 422, "CREDIT_NOTE_TOTALS_INCONSISTENT"⟩
  else if items ≠ [] ∧ fl (1 / 100) < |fl (lineSum items - subtotal)| then
    .error ⟨"The credit note's line items sum to " ++ fixed2 (lineSum items) ++
      " but its subtotal is " ++ fixed2 subtotal ++ " — SAT requires SubTotal to equal the sum " ++
      "of concepto importes. Fix the items or the subtotal before stamping.", 422,
      "CREDIT_NOTE_TOTALS_INCONSISTENT"⟩
  else .ok (subtotal, taxAmount, total)

/-- The CFDI de Ingreso that the note credits, when the note may be filed against it. -/
def relatedOf (cn : EgresoNote) (related : Option RelatedCfdi) (credited : ℤ) :
    Except AppError RelatedCfdi :=
  match related.filter fun rel => (given rel.uuid).isSome with
  | none => .error ⟨"The credited invoice has no vigente CFDI — stamp the invoice first, then " ++
      "stamp the credit note as its egreso.", 422, "CFDI_EGRESO_NO_RELATED"⟩
  | some rel =>
    if rel.invoice_client_id ≠ cn.client_id then
      .error ⟨"This credit note is for a different client than the invoice it credits. An egreso " ++
        "must go to the receptor of the related CFDI.", 422, "CREDIT_NOTE_CLIENT_MISMATCH"⟩
    else if exceedsRelated credited cn.total rel.total then
      .error ⟨"This credit note (" ++ fixed2 (number cn.total) ++ ") plus the egresos already " ++
        "filed against the invoice (" ++ fixed2 (number credited) ++ ") would exceed the invoice " ++
        "CFDI total (" ++ fixed2 (number rel.total) ++ ").", 422, "CFDI_EGRESO_EXCEEDS_RELATED"⟩
    else .ok rel

/-- `resolveEgresoInputs(exec, creditNoteId, orgId, opts)`. -/
def resolveEgresoInputs (r : EgresoReads) (opts : EgresoOpts) : Except AppError EgresoInputs :=
  match r.cn with
  | none => .error ⟨"Credit note not found", 404, "NOT_FOUND"⟩
  | some cn =>
    if cn.status ∉ egresoStatuses then
      .error ⟨"Only issued or applied credit notes can be stamped (this one is '" ++
        cn.status.name ++ "').", 422, "CREDIT_NOTE_NOT_STAMPABLE"⟩
    else if cn.currency ≠ "" ∧ cn.currency ≠ "MXN" then
      .error ⟨"Only MXN credit notes can be stamped (this one is " ++ cn.currency ++
        ") — a non-MXN CFDI requires a TipoCambio exchange rate, which is not configured.", 422,
        "CFDI_UNSUPPORTED_CURRENCY"⟩
    else
      match r.existing with
      | some (id, status) => .error ⟨if status = .draft then
          "A draft CFDI (#" ++ toString id ++ ") already exists for this credit note — retry " ++
            "stamping it from the CFDI page instead of converting again."
          else "This credit note already has a live CFDI (#" ++ toString id ++ ").", 409,
          "CFDI_EXISTS"⟩
      | none =>
        if cn.invoice_id = none then
          .error ⟨"This credit note is not linked to an invoice — a CFDI de Egreso must relate to " ++
            "the stamped invoice it credits. Set invoice_id first.", 422, "CFDI_EGRESO_NO_RELATED"⟩
        else do
          let rel ← relatedOf cn r.related r.credited
          match r.receptor.filter Receptor.complete with
          | none => .error ⟨"The client has no complete MX fiscal profile (RFC, razón social, " ++
              "régimen fiscal, C.P.). Complete it on the client page before stamping.", 422,
              "CLIENT_MX_PROFILE_MISSING"⟩
          | some receptor =>
            let (subtotal, taxAmount, total) ← egresoAmounts cn r.items
            let taxRate := invoiceTaxFraction cn.tax_rate
            let forma := (given rel.forma_pago).filter (· ≠ "99")
            .ok {
              cn := cn, receptor := receptor, items := r.items, relatedCfdi := rel
              formaPago := (given opts.forma_pago).getD (forma.getD "15")
              usoCfdi := (given opts.uso_cfdi).getD "G02"
              taxRate := taxRate
              clientExempt := cn.tax_exempt && decide (taxRate = 0)
              subtotal := subtotal, taxAmount := taxAmount, total := total }

/-! ### The calls -/

/-- What the calls read and none of them writes: the notes, the ingreso of each invoice, the
receptor of each client and the lines of each note. -/
structure EgresoBooks where
  notes : ℕ → Option EgresoNote
  related : ℕ → Option RelatedCfdi
  receptor : ℕ → Option Receptor
  items : ℕ → List NoteItem

/-- The egresos, and the credit notes whose rows a transaction has locked. -/
structure EgresoDb where
  egresos : Table Egreso
  locked : List ℕ

/-- `stampCreditNote(creditNoteId, orgId, opts)`. -/
structure EgresoCall where
  note : ℕ
  opts : EgresoOpts

/-- Where a call stands: in the pre-flight before each of its two reads of egresos, before the row
lock, with the lock and no view yet, with what the view gave (and the sum it had of the egresos
filed), and with its document. -/
inductive EgresoTask where
  | checking (c : EgresoCall)
  | summing (c : EgresoCall) (existing : Option (ℕ × SatStatus))
  | locking (c : EgresoCall)
  | reading (c : EgresoCall)
  | filing (c : EgresoCall) (credited : ℤ) (inputs : EgresoInputs)
  | stamping (id : ℕ)
  | moving (id : ℕ) (m : SatMove)
  | discarding (id : ℕ)
  | refused (err : AppError)
  | failed
  | done

/-- The calls, and what SAT and the staff do to a document. -/
inductive EgresoAct where
  | stampCreditNote (c : EgresoCall)
  | move (id : ℕ) (m : SatMove)
  | discardDraft (id : ℕ)

def EgresoAct.start : EgresoAct → EgresoTask
  | .stampCreditNote c => .checking c
  | .move id m => .moving id m
  | .discardDraft id => .discarding id

variable (books : EgresoBooks)

/-- The invoice that a note credits. -/
def EgresoBooks.invoiceOf (note : ℕ) : Option ℕ := (books.notes note).bind EgresoNote.invoice_id

/-- The live egresos of a note. -/
def existingEgreso (t : Table Egreso) (note : ℕ) : Option (ℕ × SatStatus) :=
  (t.rows.find? fun d => d.credit_note_id = note ∧ d.sat_status.live).map fun d =>
    (d.id, d.sat_status)

/-- The total of the live egresos of the invoice's notes. -/
def EgresoBooks.credited (t : Table Egreso) (invoice : ℕ) : ℤ :=
  t.sum (fun d => d.sat_status.live && decide (books.invoiceOf d.credit_note_id = some invoice))
    Egreso.total

/-- The same, without those of one note. -/
def EgresoBooks.creditedByOthers (t : Table Egreso) (invoice note : ℕ) : ℤ :=
  t.sum (fun d => d.sat_status.live && decide (books.invoiceOf d.credit_note_id = some invoice) &&
    decide (d.credit_note_id ≠ note)) Egreso.total

/-- What a call sums up for its note. -/
def EgresoBooks.alreadyCredited (t : Table Egreso) (note : ℕ) : ℤ :=
  (books.invoiceOf note).elim 0 fun invoice => books.creditedByOthers t invoice note

def EgresoBooks.reads (note : ℕ) (existing : Option (ℕ × SatStatus)) (credited : ℤ) :
    EgresoReads where
  cn := books.notes note
  existing := existing
  related := (books.invoiceOf note).bind books.related
  credited := credited
  receptor := (books.notes note).bind fun cn => books.receptor cn.client_id
  items := books.items note

/-- The row that `stampCreditNote` inserts. -/
def newEgreso (note : ℕ) (inputs : EgresoInputs) (id : ℕ) : Egreso :=
  ⟨id, note, toDecimal inputs.subtotal, toDecimal inputs.taxAmount, toDecimal inputs.total, .draft⟩

theorem key_newEgreso (note : ℕ) (inputs : EgresoInputs) (id : ℕ) :
    Keyed.key (newEgreso note inputs id) = id := rfl

def Egreso.move (m : SatMove) (d : Egreso) : Egreso :=
  { d with sat_status := m.apply d.sat_status }

theorem Egreso.key_move (m : SatMove) (d : Egreso) : Keyed.key (d.move m) = Keyed.key d := rfl

def EgresoDb.release (s : EgresoDb) (note : ℕ) : EgresoDb :=
  { s with locked := s.locked.filter (· ≠ note) }

/-- The commit of a call: its document is there, and its lock is given back. -/
def EgresoDb.filed (s : EgresoDb) (note : ℕ) (inputs : EgresoInputs) : EgresoDb :=
  ⟨s.egresos.insert (newEgreso note inputs) (key_newEgreso note inputs), (s.release note).locked⟩

def EgresoDb.moved (s : EgresoDb) (id : ℕ) (m : SatMove) : EgresoDb :=
  { s with egresos := s.egresos.modify id (Egreso.move m) (Egreso.key_move m) }

/-- The next statement of a call; `through` is whether it goes through.  A rollback gives the
lock back, and a lock that is taken is waited for. -/
def EgresoTask.next (s : EgresoDb) (task : EgresoTask) (through : Bool) : EgresoDb × EgresoTask :=
  match task with
  | .checking c =>
    if through then (s, .summing c (existingEgreso s.egresos c.note)) else (s, .failed)
  | .summing c existing =>
    if through then
      match resolveEgresoInputs
          (books.reads c.note existing (books.alreadyCredited s.egresos c.note)) c.opts with
      | .ok _ => (s, .locking c)
      | .error err => (s, .refused err)
    else (s, .failed)
  | .locking c =>
    if through then
      if c.note ∈ s.locked then (s, .locking c)
      else ({ s with locked := c.note :: s.locked }, .reading c)
    else (s, .failed)
  | .reading c =>
    if through then
      let credited := books.alreadyCredited s.egresos c.note
      match resolveEgresoInputs
          (books.reads c.note (existingEgreso s.egresos c.note) credited) c.opts with
      | .ok inputs => (s, .filing c credited inputs)
      | .error err => (s.release c.note, .refused err)
    else (s.release c.note, .failed)
  | .filing c _ inputs =>
    if through then
      (s.filed c.note inputs, .stamping s.egresos.nextId)
    else (s.release c.note, .failed)
  | .stamping id => (if through then s.moved id .stamped else s, .done)
  | .moving id m => (if through then s.moved id m else s, .done)
  | .discarding id =>
    if through ∧ ∃ d ∈ s.egresos.find? id, d.sat_status = .draft then
      ({ s with egresos := s.egresos.remove id }, .done)
    else (s, .failed)
  | task => (s, task)

end Vigabss.Cfdi
