import Vigabss.Cfdi.Egresos

/-!
# Vigabss.Cfdi.Globals — invoices stamped alone and in a factura global

The calls of `stampInvoice`, `rebuildDraft`, `addEligibleInvoices`, `removeItem` and `stampGlobal`,
which interleave over the CFDIs and the facturas públicas of an organization.  One path locks the
invoice, the other the factura; a document is seen from the commit on, with the invoices that its
conceptos report.
-/

namespace Vigabss.Cfdi

open Vigabss.Lib Vigabss.Billing

/-! ### Rows -/

/-- A row of `cfdi_documents` of tipo I with the invoices of its conceptos; a global has no
`invoice_id`. -/
structure Ingreso where
  id : ℕ
  invoice_id : Option ℕ
  conceptos : List ℕ
  sat_status : SatStatus
  deriving DecidableEq

instance : Keyed Ingreso := ⟨Ingreso.id⟩

inductive FacturaStatus where
  | draft | stamped | cancelled
  deriving DecidableEq, Repr

def FacturaStatus.name : FacturaStatus → String
  | draft => "draft"
  | stamped => "stamped"
  | cancelled => "cancelled"

/-- A row of `factura_publica_invoices`; `periodProblem` is what the catalogues say of its
period. -/
structure Factura where
  id : ℕ
  status : FacturaStatus
  cfdi_document_id : Option ℕ
  meses : ℕ
  anio : ℕ
  periodProblem : Option String
  deriving DecidableEq

instance : Keyed Factura := ⟨Factura.id⟩

/-- A row of `factura_publica_invoice_items`. -/
structure FacturaItem where
  id : ℕ
  factura : ℕ
  invoice : ℕ
  deriving DecidableEq

instance : Keyed FacturaItem := ⟨FacturaItem.id⟩

/-- An invoice, with what its conversion reads. -/
structure SaleInvoice where
  id : ℕ
  invoice_number : String
  deleted : Bool
  paid_at : Option ℤ
  stamp : StampReads

instance : Keyed SaleInvoice := ⟨SaleInvoice.id⟩

/-- What no call writes: the invoices, where a business day starts, and what is wrong with the
organization's fiscal name. -/
structure SaleBooks where
  invoices : Table SaleInvoice
  businessDayStartUtc : ℕ → ℕ → ℤ
  emisorNameProblem : Option String

/-- The documents with their `AUTO_INCREMENT`, the facturas with their items, and the rows of
invoices and of facturas that a transaction has locked. -/
structure SaleDb where
  docs : Table Ingreso
  nextDoc : ℕ
  facturas : Table Factura
  items : Table FacturaItem
  lockedInvoices : List ℕ
  lockedFacturas : List ℕ

variable (books : SaleBooks)

/-! ### One invoice -/

/-- The live CFDI of an invoice. -/
def liveCfdi (t : Table Ingreso) (invoice : ℕ) : Option (ℕ × SatStatus) :=
  (t.rows.find? fun d => d.invoice_id = some invoice ∧ d.sat_status.live).map fun d =>
    (d.id, d.sat_status)

/-- `resolveStampInputs` for an invoice, and the rows built from it. -/
def SaleBooks.resolveInvoice (invoice : ℕ) (existing : Option (ℕ × SatStatus)) :
    Except AppError DocumentRow :=
  match (books.invoices.find? invoice).filter fun inv => !inv.deleted with
  | none => .error ⟨"invoices not found", 404, "NOT_FOUND"⟩
  | some inv => documentRow { inv.stamp with existing := existing }

/-! ### A factura -/

/-- `periodRange(factura)`. -/
def SaleBooks.periodRange (f : Factura) : ℤ × ℤ :=
  let first := if 13 ≤ f.meses then (f.meses - 13) * 2 + 1 else f.meses
  let months := if 13 ≤ f.meses then 2 else 1
  let endMonth := first + months
  (books.businessDayStartUtc f.anio first,
    if 12 < endMonth then books.businessDayStartUtc (f.anio + 1) (endMonth - 12)
    else books.businessDayStartUtc f.anio endMonth)

/-- The draft that `lockDraft` gives, or its refusal. -/
def lockDraft (t : Table Factura) (factura : ℕ) : Except AppError Factura :=
  match t.find? factura with
  | none => .error ⟨"Factura pública not found", 404, "NOT_FOUND"⟩
  | some f =>
    if f.status ≠ .draft ∨ f.cfdi_document_id ≠ none then
      .error ⟨"Invoices can only be changed on a draft factura pública (this one is " ++
        f.status.name ++ ").", 422, "FACTURA_PUBLICA_NOT_DRAFT"⟩
    else .ok f

/-- `ELIGIBLE_WHERE`, with the currency asked for. -/
def SaleBooks.eligible (s : SaleDb) (f : Factura) (currency : Option String) (inv : SaleInvoice) :
    Bool :=
  let (first, last) := books.periodRange f
  !inv.deleted && decide (inv.stamp.status = .paid) &&
    inv.paid_at.any (fun t => decide (first ≤ t ∧ t < last)) &&
    (liveCfdi s.docs inv.id).isNone && s.items.rows.all (fun it => decide (it.invoice ≠ inv.id)) &&
    currency.all fun c => decide (inv.stamp.currency = c)

def newItem (factura invoice id : ℕ) : FacturaItem := ⟨id, factura, invoice⟩

theorem key_newItem (factura invoice id : ℕ) : Keyed.key (newItem factura invoice id) = id := rfl

/-- `INSERT INTO factura_publica_invoice_items … SELECT`. -/
def addItems (items : Table FacturaItem) (factura : ℕ) (invoices : List ℕ) : Table FacturaItem :=
  invoices.foldl (fun t invoice => t.insert (newItem factura invoice) (key_newItem factura invoice))
    items

/-! ### The factura global -/

/-- The refusals of `stampGlobal` once the factura is locked. -/
def lockGlobal (t : Table Factura) (factura : ℕ) : Except AppError Factura :=
  match t.find? factura with
  | none => .error ⟨"Factura pública not found", 404, "NOT_FOUND"⟩
  | some f =>
    if f.status ≠ .draft ∨ f.cfdi_document_id ≠ none then
      .error ⟨"Only a draft factura pública can be stamped (this one is " ++ f.status.name ++
        (f.cfdi_document_id.elim "" fun id => ", CFDI #" ++ toString id) ++ ").", 409,
        "FACTURA_PUBLICA_NOT_DRAFT"⟩
    else
      match f.periodProblem with
      | some problem => .error ⟨"The factura pública's period cannot be filed: " ++ problem ++ ".",
          422, "FACTURA_PUBLICA_PERIOD_INVALID"⟩
      | none => .ok f

/-- The invoices of a factura, by id. -/
def SaleBooks.invoicesOf (s : SaleDb) (factura : ℕ) : List SaleInvoice :=
  (books.invoices.rows.filter fun inv => !inv.deleted &&
    s.items.rows.any fun it => decide (it.factura = factura ∧ it.invoice = inv.id)).insertionSort
      fun a b => a.id ≤ b.id

def SaleInvoice.label (inv : SaleInvoice) : String :=
  if inv.invoice_number = "" then toString inv.id else inv.invoice_number

/-- The invoices that have a live CFDI of their own. -/
def ownCfdi (t : Table Ingreso) (ids : List ℕ) : List ℕ :=
  t.rows.filterMap fun d => d.invoice_id.filter fun i => decide (i ∈ ids) && d.sat_status.live

/-- The first invoice whose rate SAT does not accept. -/
def rateProblem (invoices : List SaleInvoice) : Option SaleInvoice :=
  invoices.find? fun inv => (catalogIvaRate (invoiceTaxFraction inv.stamp.tax_rate)).isNone

/-- The checks of `stampGlobal` on the invoices of its view; their ids when they pass. -/
def globalInvoices (invoices : List SaleInvoice) (own : List ℕ) : Except AppError (List ℕ) :=
  let unpaid := invoices.filter fun inv => inv.stamp.status ≠ .paid
  if invoices = [] then
    .error ⟨"The factura pública has no invoices to report.", 422, "FACTURA_PUBLICA_EMPTY"⟩
  else if unpaid ≠ [] then
    .error ⟨"Only paid invoices go into a factura global; not paid: " ++
      ", ".intercalate (unpaid.map SaleInvoice.label) ++ ".", 422, "FACTURA_PUBLICA_UNPAID"⟩
  else if own ≠ [] then
    .error ⟨"These invoices already have their own CFDI and cannot also be in a factura global: " ++
      ", ".intercalate (own.map toString) ++ ".", 422, "FACTURA_PUBLICA_INVOICE_HAS_CFDI"⟩
  else if 1 < (invoices.map fun inv =>
      if inv.stamp.currency = "" then "MXN" else inv.stamp.currency).dedup.length then
    .error ⟨"A factura global is in one currency; these invoices mix currencies.", 422,
      "FACTURA_PUBLICA_MIXED_CURRENCY"⟩
  else
    match rateProblem invoices with
    | some inv => .error ⟨"Invoice " ++ inv.label ++
        " has a tax rate SAT does not accept (16%, 8% or 0%).", 422, "CFDI_TASA_NOT_IN_CATALOG"⟩
    | none => .ok (invoices.map SaleInvoice.id)

/-! ### The calls -/

/-- What is done to the items of a draft. -/
inductive DraftChange where
  | addEligible (currency : Option String)
  | removeItem (item : ℕ)

inductive SaleCall where
  | stampInvoice (invoice : ℕ)
  | rebuildDraft (doc : ℕ)
  | addEligibleInvoices (factura : ℕ) (currency : Option String)
  | removeItem (factura item : ℕ)
  | stampGlobal (factura : ℕ)
  | move (doc : ℕ) (m : SatMove)

/-- Where a call stands: `checking…` before the pre-flight, `locking…` before its row lock,
`reading…` with the lock and no view yet, `filing…` with what the view gave, `stamping` with its
document at the PAC. -/
inductive SaleTask where
  | checkingInvoice (invoice : ℕ)
  | lockingInvoice (invoice : ℕ)
  | readingInvoice (invoice : ℕ)
  | filingInvoice (invoice : ℕ)
  | rebuilding (doc : ℕ)
  | discarding (doc invoice : ℕ)
  | lockingDraft (factura : ℕ) (change : DraftChange)
  | changing (f : Factura) (change : DraftChange)
  | checkingEmisor (factura : ℕ)
  | lockingGlobal (factura : ℕ)
  | readingGlobal (factura : ℕ)
  | filingGlobal (factura : ℕ) (ids : List ℕ)
  | stamping (doc : ℕ) (factura : Option ℕ)
  | marking (factura : ℕ)
  | moving (doc : ℕ) (m : SatMove)
  | refused (err : AppError)
  | failed
  | done

def SaleCall.start : SaleCall → SaleTask
  | .stampInvoice invoice => .checkingInvoice invoice
  | .rebuildDraft doc => .rebuilding doc
  | .addEligibleInvoices factura currency => .lockingDraft factura (.addEligible currency)
  | .removeItem factura item => .lockingDraft factura (.removeItem item)
  | .stampGlobal factura => .checkingEmisor factura
  | .move doc m => .moving doc m

def Ingreso.move (m : SatMove) (d : Ingreso) : Ingreso :=
  { d with sat_status := m.apply d.sat_status }

theorem Ingreso.key_move (m : SatMove) (d : Ingreso) : Keyed.key (d.move m) = Keyed.key d := rfl

def Factura.filed (doc : ℕ) (f : Factura) : Factura := { f with cfdi_document_id := some doc }

theorem Factura.key_filed (doc : ℕ) (f : Factura) : Keyed.key (f.filed doc) = Keyed.key f := rfl

def Factura.mark (f : Factura) : Factura := { f with status := .stamped }

theorem Factura.key_mark (f : Factura) : Keyed.key f.mark = Keyed.key f := rfl

namespace SaleDb

def releaseInvoice (s : SaleDb) (invoice : ℕ) : SaleDb :=
  { s with lockedInvoices := s.lockedInvoices.filter (· ≠ invoice) }

def releaseFactura (s : SaleDb) (factura : ℕ) : SaleDb :=
  { s with lockedFacturas := s.lockedFacturas.filter (· ≠ factura) }

/-- `INSERT INTO cfdi_documents … 'draft'`. -/
def fileDoc (s : SaleDb) (invoice_id : Option ℕ) (conceptos : List ℕ) : SaleDb :=
  { s with
    docs := s.docs.put ⟨s.nextDoc, invoice_id, conceptos, .draft⟩
    nextDoc := s.nextDoc + 1 }

def moveDoc (s : SaleDb) (doc : ℕ) (m : SatMove) : SaleDb :=
  { s with docs := s.docs.modify doc (Ingreso.move m) (Ingreso.key_move m) }

/-- The commit of `stampGlobal`. -/
def fileGlobal (s : SaleDb) (factura : ℕ) (ids : List ℕ) : SaleDb :=
  { (s.fileDoc none ids).releaseFactura factura with
    facturas := s.facturas.modify factura (Factura.filed s.nextDoc) (Factura.key_filed s.nextDoc) }

def markStamped (s : SaleDb) (factura : ℕ) : SaleDb :=
  { s with facturas := s.facturas.modify factura Factura.mark Factura.key_mark }

end SaleDb

/-- The change of a locked draft and its commit.  The `SELECT` of the insert reads each invoice with
a lock, and waits for one that a transaction holds. -/
def SaleBooks.change (s : SaleDb) (f : Factura) : DraftChange → SaleDb × SaleTask
  | .addEligible currency =>
    let ids := (books.invoices.rows.filter (books.eligible s f currency)).map SaleInvoice.id
    if ids.any fun i => decide (i ∈ s.lockedInvoices) then (s, .changing f (.addEligible currency))
    else ({ s.releaseFactura f.id with items := addItems s.items f.id ids }, .done)
  | .removeItem item =>
    if ∃ it ∈ s.items.find? item, it.factura = f.id then
      ({ s.releaseFactura f.id with items := s.items.remove item }, .done)
    else
      (s.releaseFactura f.id,
        .refused ⟨"Factura pública item not found", 404, "NOT_FOUND"⟩)

/-- The next statement of a call that goes through.  A lock that is taken is waited for, and a
refusal rolls back. -/
def SaleTask.proceed (s : SaleDb) : SaleTask → SaleDb × SaleTask
  | .checkingInvoice invoice =>
    match books.emisorNameProblem with
    | some problem => (s, .refused ⟨"The organization's fiscal name (razón social) " ++ problem ++
        ". Correct it under Organization → Fiscal (SAT).", 422, "CFDI_NOMBRE_INVALID"⟩)
    | none =>
      match books.resolveInvoice invoice (liveCfdi s.docs invoice) with
      | .ok _ => (s, .lockingInvoice invoice)
      | .error err => (s, .refused err)
  | .lockingInvoice invoice =>
    if invoice ∈ s.lockedInvoices then (s, .lockingInvoice invoice)
    else ({ s with lockedInvoices := invoice :: s.lockedInvoices }, .readingInvoice invoice)
  | .readingInvoice invoice =>
    match books.resolveInvoice invoice (liveCfdi s.docs invoice) with
    | .ok _ => (s, .filingInvoice invoice)
    | .error err => (s.releaseInvoice invoice, .refused err)
  | .filingInvoice invoice =>
    ((s.fileDoc (some invoice) [invoice]).releaseInvoice invoice, .stamping s.nextDoc none)
  | .rebuilding doc =>
    match s.docs.find? doc with
    | none => (s, .refused ⟨"CFDI document not found", 404, "CFDI_NOT_FOUND"⟩)
    | some d =>
      match d.invoice_id with
      | none => (s, .refused ⟨"Only an invoice (ingreso) draft can be rebuilt — discard this " ++
          "draft and issue the document again.", 422, "CFDI_NOT_REBUILDABLE"⟩)
      | some invoice => (s, .discarding doc invoice)
  | .discarding doc invoice =>
    match s.docs.find? doc with
    | none => (s, .refused ⟨"CFDI document not found", 404, "CFDI_NOT_FOUND"⟩)
    | some d =>
      if d.sat_status ≠ .draft then
        (s, .refused ⟨"Only an unstamped draft can be discarded — a stamped CFDI must be " ++
          "cancelled at SAT.", 409, "CFDI_NOT_DRAFT"⟩)
      else ({ s with docs := s.docs.remove doc }, .checkingInvoice invoice)
  | .lockingDraft factura change =>
    if factura ∈ s.lockedFacturas then (s, .lockingDraft factura change)
    else
      match lockDraft s.facturas factura with
      | .ok f => ({ s with lockedFacturas := factura :: s.lockedFacturas }, .changing f change)
      | .error err => (s, .refused err)
  | .changing f change => books.change s f change
  | .checkingEmisor factura =>
    match books.emisorNameProblem with
    | some problem => (s, .refused ⟨"The organization's fiscal name (razón social) " ++ problem ++
        ".", 422, "CFDI_NOMBRE_INVALID"⟩)
    | none => (s, .lockingGlobal factura)
  | .lockingGlobal factura =>
    if factura ∈ s.lockedFacturas then (s, .lockingGlobal factura)
    else
      match lockGlobal s.facturas factura with
      | .ok _ =>
        ({ s with lockedFacturas := factura :: s.lockedFacturas }, .readingGlobal factura)
      | .error err => (s, .refused err)
  | .readingGlobal factura =>
    let invoices := books.invoicesOf s factura
    match globalInvoices invoices (ownCfdi s.docs (invoices.map SaleInvoice.id)) with
    | .ok ids => (s, .filingGlobal factura ids)
    | .error err => (s.releaseFactura factura, .refused err)
  | .filingGlobal factura ids => (s.fileGlobal factura ids, .stamping s.nextDoc (some factura))
  | .stamping doc factura => (s.moveDoc doc .stamped, factura.elim .done .marking)
  | .marking factura => (s.markStamped factura, .done)
  | .moving doc m => (s.moveDoc doc m, .done)
  | .refused err => (s, .refused err)
  | .failed => (s, .failed)
  | .done => (s, .done)

/-- A statement that fails rolls its transaction back. -/
def SaleTask.abort (s : SaleDb) : SaleTask → SaleDb
  | .readingInvoice invoice => s.releaseInvoice invoice
  | .filingInvoice invoice => s.releaseInvoice invoice
  | .changing f _ => s.releaseFactura f.id
  | .readingGlobal factura => s.releaseFactura factura
  | .filingGlobal factura _ => s.releaseFactura factura
  | _ => s

/-- The next statement of a call; `through` is whether it goes through, or the PAC stamps. -/
def SaleTask.next (s : SaleDb) (task : SaleTask) (through : Bool) : SaleDb × SaleTask :=
  if through then task.proceed books s else (task.abort s, .failed)

end Vigabss.Cfdi
