import Vigabss.Cfdi.Amounts
import Vigabss.Cfdi.Stamping

/-!
# Vigabss.Cfdi.Conversion — an invoice converted to a CFDI 4.0

`resolveStampInputs`, the rows that `stampInvoice` inserts, and the XML that `generateXml` builds of
them, with the figures of the XML in cents.  The header is copied from the invoice and the conceptos
from its lines, so the figures add up just when the invoice's do (`cfdi_adds_iff`).
-/

namespace Vigabss.Cfdi

open Vigabss.Lib Vigabss.Billing

/-! ### Texts of numbers -/

/-- `digits` places of an integer after the point. -/
def decimalText (digits : ℕ) (n : ℤ) : String :=
  let whole := toString (n.natAbs / 10 ^ digits)
  let fraction := toString (n.natAbs % 10 ^ digits)
  let point := if digits = 0 then "" else
    "." ++ String.ofList (List.replicate (digits - fraction.length) '0') ++ fraction
  (if n < 0 then "-" else "") ++ whole ++ point

/-- `x.toFixed(digits)`, for `x` not negative. -/
def toFixed (digits : ℕ) (x : ℚ) : String := decimalText digits ⌊x * 10 ^ digits + 1 / 2⌋

def Written.text (w : Written) : String := decimalText w.decimals w.digits

/-! ### What is read -/

/-- A live row of `invoice_items`, in cents; the amounts are validated not to be negative. -/
structure InvoiceItem where
  quantity : ℤ
  unit_price : ℤ
  amount : ℤ
  nonneg : 0 ≤ amount
  fits : amount ≤ decimalMax

structure Receptor where
  rfc : String
  razon_social : String
  regimen_fiscal : String
  codigo_postal_fiscal : String
  tax_exempt : Bool

/-- What `resolveStampInputs` reads: the invoice with its amounts in cents and its rate in
ten-thousandths, its live CFDI, the client's profile and the lines.  `usoCfdi` is the use that the
options or the profile give, `usoCfdiAllowed` and `nombreProblem` what the catalogues say. -/
structure StampReads where
  status : Billing.InvoiceStatus
  currency : String
  existing : Option (ℕ × SatStatus)
  receptor : Option Receptor
  items : List InvoiceItem
  usoCfdi : String
  usoCfdiAllowed : Bool
  nombreProblem : Option String
  tax_rate : ℤ
  subtotal : ℤ
  tax_amount : ℤ
  total : ℤ
  subtotal_fits : |subtotal| ≤ decimalMax
  tax_fits : |tax_amount| ≤ decimalMax
  total_fits : |total| ≤ decimalMax

/-- How a conversion fails: an answer of the application, or a statement the database refuses. -/
inductive StampFailure where
  | app (err : AppError)
  | sql (message : String)
  deriving DecidableEq

/-! ### `resolveStampInputs` -/

/-- `invoiceTaxFraction(Number(invoice.tax_rate || 0))`. -/
def invoiceTaxFraction (tax_rate : ℤ) : ℚ :=
  let r := number4 tax_rate
  if 1 < r then fl (r / 100) else r

def IVA_RATES : List ℚ := [fl (16 / 100), fl (8 / 100), 0]

/-- `catalogIvaRate(rate)`. -/
def catalogIvaRate (rate : ℚ) : Option ℚ :=
  IVA_RATES.find? fun c => |fl (c - rate)| ≤ fl (15 / 10000)

def stampableStatuses : List Billing.InvoiceStatus := [.issued, .sent, .overdue, .paid]

def Receptor.complete (p : Receptor) : Bool :=
  p.rfc ≠ "" ∧ p.razon_social ≠ "" ∧ p.regimen_fiscal ≠ "" ∧ p.codigo_postal_fiscal ≠ ""

/-- The checks of `resolveStampInputs`; the catalogue rate and the receptor when they pass. -/
def resolveStampInputs (r : StampReads) : Except AppError (ℚ × Receptor) :=
  if r.status ∉ stampableStatuses then
    .error ⟨"Only issued, sent, overdue or paid invoices can be stamped (this one is '" ++
      r.status.name ++ "').", 422, "INVOICE_NOT_STAMPABLE"⟩
  else if r.currency ≠ "" ∧ r.currency ≠ "MXN" then
    .error ⟨"Only MXN invoices can be stamped (this one is " ++ r.currency ++ ") — a non-MXN " ++
      "CFDI requires a TipoCambio exchange rate, which is not configured.", 422,
      "CFDI_UNSUPPORTED_CURRENCY"⟩
  else
    match r.existing with
    | some (id, status) => .error ⟨if status = .draft then
        "A draft CFDI (#" ++ toString id ++ ") already exists for this invoice — retry stamping " ++
          "it, or rebuild it from the invoice if its data was wrong."
        else "This invoice already has a live CFDI (#" ++ toString id ++ ").", 409, "CFDI_EXISTS"⟩
    | none =>
      match r.receptor.filter Receptor.complete with
      | none => .error ⟨"The client has no complete MX fiscal profile (RFC, razón social, " ++
          "régimen fiscal, C.P.). Complete it on the client page before stamping.", 422,
          "CLIENT_MX_PROFILE_MISSING"⟩
      | some receptor =>
        if r.items = [] then
          .error ⟨"The invoice has no line items to convert.", 422, "NO_LINE_ITEMS"⟩
        else if r.usoCfdiAllowed = false then
          .error ⟨"UsoCFDI " ++ r.usoCfdi ++ " is not allowed for a receptor in régimen " ++
            receptor.regimen_fiscal ++ ". Choose another use (S01 is always valid) or correct " ++
            "the client's fiscal profile.", 422, "CFDI_USO_REGIMEN_MISMATCH"⟩
        else
          match catalogIvaRate (invoiceTaxFraction r.tax_rate) with
          | none => .error ⟨"The invoice tax rate (" ++
              toFixed 4 (fl (invoiceTaxFraction r.tax_rate * 100)) ++ "%) is not an IVA rate " ++
              "SAT accepts (16%, 8% or 0%). Correct the invoice's tax rate before stamping.", 422,
              "CFDI_TASA_NOT_IN_CATALOG"⟩
          | some taxRate =>
            match r.nombreProblem with
            | some problem => .error ⟨"The client's fiscal name (razón social) " ++ problem ++
                ". Correct it in the client's MX fiscal profile.", 422, "CFDI_NOMBRE_INVALID"⟩
            | none => .ok (taxRate, receptor)

/-! ### The rows of the document -/

/-- A row of `cfdi_concepto_impuestos` (a traslado of impuesto 002): money in ten-thousandths, the
rate in millionths. -/
structure Impuesto where
  exento : Bool
  base : ℤ
  tasa_o_cuota : Option ℤ
  importe : Option ℤ
  deriving DecidableEq

/-- A row of `cfdi_conceptos` with its taxes, in ten-thousandths. -/
structure Concepto where
  cantidad : ℤ
  valor_unitario : ℤ
  importe : ℤ
  objeto_imp : String
  impuestos : List Impuesto
  deriving DecidableEq

/-- The row of `cfdi_documents`: its figures, in cents. -/
structure DocumentRow where
  subtotal : ℤ
  total_impuestos : ℤ
  total : ℤ
  conceptos : List Concepto
  deriving DecidableEq

def conceptoRow (item : InvoiceItem) (objetoImp : String) (impuestos : List Impuesto) :
    Concepto :=
  ⟨toDecimal4 (number item.quantity), toDecimal4 (number item.unit_price),
    toDecimal4 (number item.amount), objetoImp, impuestos⟩

/-- The conceptos of a taxed invoice: each line with its part of the tax. -/
def taxedConceptos (taxRate : ℚ) : List InvoiceItem → List ℚ → List Concepto
  | item :: items, lineTax :: lineTaxes =>
    conceptoRow item "02" [⟨false, toDecimal4 (number item.amount),
      some ⌊taxRate * 10 ^ 6 + 1 / 2⌋, some (toDecimal4 lineTax)⟩] ::
      taxedConceptos taxRate items lineTaxes
  | _, _ => []

def exemptConcepto (item : InvoiceItem) : Concepto :=
  conceptoRow item "02" [⟨true, toDecimal4 (number item.amount), none, none⟩]

/-- What `stampInvoice` inserts. -/
def documentRow (r : StampReads) : Except AppError DocumentRow :=
  match resolveStampInputs r with
  | .error err => .error err
  | .ok (taxRate, receptor) =>
    let header := DocumentRow.mk (toDecimal (number r.subtotal)) (toDecimal (number r.tax_amount))
      (toDecimal (number r.total))
    if 0 < taxRate then
      match allocateLineTaxes (r.items.map fun i => number i.amount) taxRate
          (number r.tax_amount) with
      | none => .error ⟨"The invoice tax (" ++ toFixed 2 (number r.tax_amount) ++ ") cannot be " ++
          "split over its lines at " ++ toFixed 2 (fl (taxRate * 100)) ++ "% within SAT's " ++
          "limits — correct the invoice tax amount.", 422, "CFDI_TAX_OUT_OF_BOUNDS"⟩
      | some lineTaxes => .ok (header (taxedConceptos taxRate r.items lineTaxes))
    else if receptor.tax_exempt = true then .ok (header (r.items.map exemptConcepto))
    else .ok (header (r.items.map fun i => conceptoRow i "01" []))

/-! ### The XML -/

/-- A `cfdi:Traslado`: amounts in cents, the rate in millionths. -/
structure Traslado where
  base : ℤ
  exento : Bool
  tasaOCuota : Option ℤ
  importe : Option ℤ
  deriving DecidableEq

structure ConceptoXml where
  cantidad : Written
  valorUnitario : Written
  importe : ℤ
  objetoImp : String
  traslados : List Traslado
  deriving DecidableEq

/-- The figures of a `cfdi:Comprobante`. -/
structure Comprobante where
  subTotal : ℤ
  total : ℤ
  conceptos : List ConceptoXml
  totalImpuestosTrasladados : Option ℤ
  traslados : List Traslado
  deriving DecidableEq

/-- A group of the document's traslados, with its running sums. -/
structure Group where
  exento : Bool
  tasa_o_cuota : Option ℤ
  base : ℚ
  importe : ℚ
  deriving DecidableEq

/-- The key of a group: an exempt row has no rate in it. -/
def Impuesto.key (t : Impuesto) : Bool × Option ℤ :=
  (t.exento, if t.exento then none else t.tasa_o_cuota)

def Group.key (g : Group) : Bool × Option ℤ :=
  (g.exento, if g.exento then none else g.tasa_o_cuota)

/-- `g.base += …; g.importe += …`. -/
def Group.add (t : Impuesto) (g : Group) : Group :=
  { g with
    base := fl (g.base + number4 t.base)
    importe := fl (g.importe + number4 (t.importe.getD 0)) }

/-- One round of the loop over the traslados. -/
def addTraslado (groups : List Group) (t : Impuesto) : List Group :=
  if groups.any fun g => g.key = t.key then
    groups.map fun g => if g.key = t.key then g.add t else g
  else groups ++ [Group.add t ⟨t.exento, t.tasa_o_cuota, 0, 0⟩]

def groupTraslados (ts : List Impuesto) : List Group := ts.foldl addTraslado []

def trasladoXml (t : Impuesto) : Traslado :=
  if t.exento then ⟨formatMoney t.base, true, none, none⟩
  else ⟨formatMoney t.base, false, t.tasa_o_cuota, some (formatMoney (t.importe.getD 0))⟩

def groupXml (g : Group) : Traslado :=
  if g.exento then ⟨toDecimal g.base, true, none, none⟩
  else ⟨toDecimal g.base, false, g.tasa_o_cuota, some (toDecimal g.importe)⟩

def conceptoXml (c : Concepto) : ConceptoXml :=
  ⟨formatQuantity c.cantidad, formatUnitValue c.valor_unitario, formatMoney c.importe, c.objeto_imp,
    c.impuestos.map trasladoXml⟩

/-- `buildCfdi40Xml(doc, emisor, conceptos, impuestos)`. -/
def buildCfdi40Xml (doc : DocumentRow) : Comprobante :=
  let groups := groupTraslados (doc.conceptos.flatMap Concepto.impuestos)
  let taxable := groups.filter fun g => g.exento = false
  let totalTraslados := taxable.foldl (fun sum g => fl (sum + g.importe)) 0
  ⟨toDecimal (number doc.subtotal), toDecimal (number doc.total), doc.conceptos.map conceptoXml,
    if taxable = [] then none else some (toDecimal totalTraslados), groups.map groupXml⟩

/-- The violations of one line, as texts. -/
def lineViolations (line : ℕ) (c : Concepto) : List String :=
  let cantidad := formatQuantity c.cantidad
  let valor := formatUnitValue c.valor_unitario
  let importe := formatMoney c.importe
  let bounds := conceptoImporteBounds cantidad valor
  let own := if outside importe bounds then
      ["Line " ++ toString line ++ ": Importe " ++ decimalText 2 importe ++ " is not Cantidad " ++
        cantidad.text ++ " × ValorUnitario " ++ valor.text ++ " (allowed " ++ toFixed 2 bounds.1 ++
        "–" ++ toFixed 2 bounds.2 ++ ")"]
    else []
  own ++ (c.impuestos.filter fun t => t.exento = false).flatMap fun t =>
    let base := formatMoney t.base
    let taxImporte := formatMoney (t.importe.getD 0)
    let rate := fl (t.tasa_o_cuota.getD 0 / 10 ^ 6)
    let bounds := trasladoImporteBounds base rate
    if outside taxImporte bounds then
      ["Line " ++ toString line ++ ": IVA " ++ decimalText 2 taxImporte ++ " is outside Base " ++
        decimalText 2 base ++ " × " ++ (dropZeros 6 (t.tasa_o_cuota.getD 0)).text ++ " (allowed " ++
        toFixed 2 bounds.1 ++ "–" ++ toFixed 2 bounds.2 ++ ")"]
    else []

/-- `anexo20Violations(conceptos, impuestos)`. -/
def anexo20Violations (conceptos : List Concepto) : List String :=
  conceptos.zipIdx.flatMap fun x => lineViolations (x.2 + 1) x.1

/-- The placeholders a prepared statement may have. -/
def maxPlaceholders : ℕ := 65535

/-- `generateXml(cfdiDocumentId)` of the inserted rows: the taxes are read with one placeholder for
each concepto. -/
def generatedXml (doc : DocumentRow) : Except StampFailure Comprobante :=
  if maxPlaceholders < doc.conceptos.length then
    .error (.sql "Prepared statement contains too many placeholders")
  else
    match anexo20Violations doc.conceptos with
    | [] => .ok (buildCfdi40Xml doc)
    | problem :: problems => .error (.app ⟨"The CFDI amounts are outside SAT's Anexo 20 limits: " ++
        "; ".intercalate (problem :: problems), 422, "CFDI_ANEXO20_LIMITS"⟩)

/-- The XML that `stampInvoice` stores for the invoice. -/
def stampedXml (r : StampReads) : Except StampFailure Comprobante :=
  match documentRow r with
  | .error err => .error (.app err)
  | .ok doc => generatedXml doc

end Vigabss.Cfdi
