import Vigabss.Billing.CreditLedger
import Vigabss.Invoicing.Tables

/-!
# Vigabss.LateFees.Application — late fees on overdue invoices

`applyLateFees`, statement by statement, so that any number of runs can take turns on one database:
a run has its own copy of the invoices and the rules, and each of its steps is one statement or one
transaction.
-/

namespace Vigabss.LateFees

open Vigabss.Lib Vigabss.Billing
open Vigabss.Invoicing (ItemRow)

/-! ### Tables -/

inductive FeeType where
  | flat | percent
  deriving DecidableEq, Repr

/-- A row of `late_fee_rules`. -/
structure LateFeeRule where
  id : ℕ
  organization_id : ℕ
  name : String
  fee_type : FeeType
  fee_amount : ℤ
  grace_period_days : ℤ
  max_applications : Option ℤ
  is_active : Bool
  deriving DecidableEq

instance : Keyed LateFeeRule := ⟨LateFeeRule.id⟩

/-- What else decides whether an invoice is late: columns that other code writes, and what the
query asks of the payments, the client, the CFDIs and the payment plans.  Days are numbered. -/
structure Standing where
  status : InvoiceStatus
  due_date : ℤ
  deleted : Bool
  clientArchived : Bool
  liveCfdi : Bool
  underActivePlan : Bool
  paid_or_credited : ℤ
  deriving DecidableEq

/-- A row of `invoices`. -/
structure InvoiceRow where
  id : ℕ
  organization_id : ℕ
  subtotal : ℤ
  tax_amount : ℤ
  total : ℤ
  tax_rate : ℚ
  standing : Standing
  deriving DecidableEq

instance : Keyed InvoiceRow := ⟨InvoiceRow.id⟩

/-- A row of `invoice_late_fees`; the period is a UTC month. -/
structure FeeRow where
  invoice_id : ℕ
  late_fee_rule_id : ℕ
  organization_id : ℕ
  amount : ℤ
  period_key : ℤ
  deriving DecidableEq

/-- The database, as far as late fees read and write it. -/
structure DB where
  rules : Table LateFeeRule
  invoices : Table InvoiceRow
  items : List ItemRow
  fees : List FeeRow

/-! ### The amount of a fee -/

/-- An invoice in the memory of a run; its amounts are the numbers of these cents. -/
structure LateInvoice where
  id : ℕ
  subtotal : ℤ
  tax_amount : ℤ
  total : ℤ
  tax_rate : ℚ
  paid_or_credited : ℤ
  days_overdue : ℤ

/-- `invoiceTaxFraction(taxRate)`. -/
def invoiceTaxFraction (taxRate : ℚ) : ℚ := if 1 < taxRate then taxRate / 100 else taxRate

/-- The cents of `Math.round(x * 100) / 100`. -/
def centsOf (x : ℚ) : ℤ := mathRound (fl (x * 100))

/-- The cents of `Math.round(amount * invoiceTaxFraction(rate) * 100) / 100`. -/
def taxCents (amount taxRate : ℚ) : ℤ := centsOf (fl (amount * fl (invoiceTaxFraction taxRate)))

/-- `unpaidShare`: the part of the original charge that is not paid yet. -/
def unpaidShare (invoice : LateInvoice) (priorFees : ℤ) : ℚ :=
  let priorFeesGross := fl (number priorFees + number (taxCents (number priorFees) invoice.tax_rate))
  let originalGross := fl (number invoice.total - priorFeesGross)
  if 0 < originalGross then
    min 1 (fl (max 0 (fl (originalGross - number invoice.paid_or_credited)) / originalGross))
  else 0

/-- `base`: what a percentage is taken of. -/
def percentBase (invoice : LateInvoice) (priorFees : ℤ) : ℚ :=
  fl (fl (number invoice.subtotal - number priorFees) * unpaidShare invoice priorFees)

/-- `feeAmount` of a percentage, in cents. -/
def percentFee (invoice : LateInvoice) (priorFees : ℤ) (rule : LateFeeRule) : ℤ :=
  centsOf (fl (percentBase invoice priorFees * fl (number rule.fee_amount / 100)))

/-- The invoice in memory after a fee has been booked. -/
def LateInvoice.sync (invoice : LateInvoice) (feeAmount : ℤ) : LateInvoice :=
  let lineTax := taxCents (number feeAmount) invoice.tax_rate
  { invoice with
    subtotal := centsOf (fl (number invoice.subtotal + number feeAmount))
    tax_amount := centsOf (fl (number invoice.tax_amount + number lineTax))
    total := centsOf (fl (fl (number invoice.total + number feeAmount) + number lineTax)) }

/-! ### The statements -/

/-- The fees of an invoice under a rule. -/
def feesUnder (fees : List FeeRow) (invoiceId ruleId : ℕ) : List FeeRow :=
  fees.filter fun fee => fee.invoice_id = invoiceId ∧ fee.late_fee_rule_id = ruleId

/-- The fee of an invoice under a rule in a period. -/
def feesInPeriod (fees : List FeeRow) (invoiceId ruleId : ℕ) (periodKey : ℤ) : List FeeRow :=
  (feesUnder fees invoiceId ruleId).filter fun fee => fee.period_key = periodKey

/-- `SUM(amount)` of the fees of an invoice. -/
def feesOf (fees : List FeeRow) (invoiceId : ℕ) : ℤ :=
  ((fees.filter fun fee => fee.invoice_id = invoiceId).map FeeRow.amount).sum

/-- The overdue invoices of an organization. -/
def overdueInvoices (db : DB) (organizationId : ℕ) (today : ℤ) : List LateInvoice :=
  (db.invoices.rows.filter fun i =>
    i.organization_id = organizationId ∧
      (i.standing.status = .issued ∨ i.standing.status = .overdue) ∧
      i.standing.due_date < today ∧ ¬ i.standing.deleted ∧ ¬ i.standing.clientArchived ∧
      ¬ i.standing.liveCfdi ∧ ¬ i.standing.underActivePlan).map fun i =>
    { id := i.id
      subtotal := i.subtotal
      tax_amount := i.tax_amount
      total := i.total
      tax_rate := i.tax_rate
      paid_or_credited := i.standing.paid_or_credited
      days_overdue := today - i.standing.due_date }

/-- The active rules of an organization. -/
def activeRules (db : DB) (organizationId : ℕ) : List LateFeeRule :=
  db.rules.rows.filter fun rule => rule.organization_id = organizationId ∧ rule.is_active

/-- The tax of a line: `money.mul(amt, invoiceTaxFraction(taxRate))`. -/
def lineTax (taxRate : ℚ) (amount : ℤ) : ℤ :=
  Money.mul (fromCents amount) (invoiceTaxFraction taxRate)

/-- `applyLineItemToTotals`, on a row. -/
def addLine (taxRate : ℚ) (lineAmount : ℤ) (row : InvoiceRow) : InvoiceRow :=
  { row with
    subtotal := row.subtotal + lineAmount
    tax_amount := row.tax_amount + lineTax taxRate lineAmount
    total := row.total + (lineAmount + lineTax taxRate lineAmount) }

theorem key_addLine (taxRate : ℚ) (lineAmount : ℤ) (row : InvoiceRow) :
    Keyed.key (addLine taxRate lineAmount row) = Keyed.key row := rfl

/-- A `DECIMAL(10, 2)` column can hold the amount. -/
def Fits (c : ℤ) : Prop := |c| ≤ decimalMax

instance (c : ℤ) : Decidable (Fits c) := inferInstanceAs (Decidable (_ ≤ _))

/-- The amounts of a row fit their columns. -/
def InvoiceRow.Fits (row : InvoiceRow) : Prop :=
  LateFees.Fits row.subtotal ∧ LateFees.Fits row.tax_amount ∧ LateFees.Fits row.total

instance (row : InvoiceRow) : Decidable row.Fits := inferInstanceAs (Decidable (_ ∧ _))

/-- The line of a fee. -/
def feeItem (rule : LateFeeRule) (invoiceId : ℕ) (feeAmount : ℤ) : ItemRow where
  invoice_id := invoiceId
  description := "Late fee: " ++ rule.name
  quantity := 1
  unit_price := feeAmount
  amount := feeAmount

/-- The transaction of one fee: the claim, the line and the totals, or nothing when the claim is
a duplicate or a column cannot hold an amount. -/
def bookFee (db : DB) (organizationId : ℕ) (invoice : LateInvoice) (rule : LateFeeRule)
    (periodKey feeAmount : ℤ) : Option DB :=
  match db.invoices.find? invoice.id with
  | none => none
  | some row =>
    if feesInPeriod db.fees invoice.id rule.id periodKey ≠ [] ∨ ¬ Fits feeAmount ∨
        ¬ (addLine invoice.tax_rate feeAmount row).Fits then none
    else some { db with
      fees := db.fees ++ [⟨invoice.id, rule.id, organizationId, feeAmount, periodKey⟩]
      items := db.items ++ [feeItem rule invoice.id feeAmount]
      invoices := db.invoices.modify invoice.id (addLine invoice.tax_rate feeAmount)
        (key_addLine invoice.tax_rate feeAmount) }

/-! ### Runs -/

/-- Where a run stands with its first invoice and its first rule. -/
inductive Phase where
  | check
  | counted (alreadyApplied : ℕ)
  | priced (alreadyApplied : ℕ) (feeAmount : ℤ)

/-- A run of `applyLateFees`: the invoices it still has to go through, and the rules for the first
of them, which it has `entered` once it has seen that something is owed on it. -/
structure LateRun where
  id : ℕ
  organizationId : ℕ
  periodKey : ℤ
  rules : List LateFeeRule
  invoices : List LateInvoice
  entered : Bool
  pending : List LateFeeRule
  phase : Phase

instance : Keyed LateRun := ⟨LateRun.id⟩

/-- The database and the runs in flight. -/
structure System where
  db : DB
  runs : Table LateRun

/-- A run that starts: it reads the rules and the invoices, and the clock. -/
def newRun (db : DB) (organizationId : ℕ) (today periodKey : ℤ) (id : ℕ) : LateRun where
  id
  organizationId
  periodKey := periodKey
  rules := activeRules db organizationId
  invoices := overdueInvoices db organizationId today
  entered := false
  pending := activeRules db organizationId
  phase := .check

theorem key_newRun (db : DB) (organizationId : ℕ) (today periodKey : ℤ) (id : ℕ) :
    Keyed.key (newRun db organizationId today periodKey id) = id := rfl

/-- Go on with the next rule. -/
def LateRun.skipRule (r : LateRun) : LateRun :=
  { r with pending := r.pending.tail, phase := .check }

/-- Go on with the next invoice. -/
def LateRun.skipInvoice (r : LateRun) : LateRun :=
  { r with invoices := r.invoices.tail, entered := false, pending := r.rules, phase := .check }

/-- The fee is known: book it, unless it is nothing. -/
def LateRun.price (r : LateRun) (alreadyApplied : ℕ) (feeAmount : ℤ) : LateRun :=
  if feeAmount ≤ 0 then r.skipRule else { r with phase := .priced alreadyApplied feeAmount }

/-- Nothing is owed on the invoice. -/
def LateInvoice.Settled (invoice : LateInvoice) : Prop :=
  mathRound (fl (fl (number invoice.total - number invoice.paid_or_credited) * 100)) ≤ 0

instance (invoice : LateInvoice) : Decidable invoice.Settled := inferInstanceAs (Decidable (_ ≤ _))

/-- The count of the fees of the rule lets it apply once more. -/
def LateRun.countAllows (db : DB) (r : LateRun) (invoice : LateInvoice) (rule : LateFeeRule) :
    Prop :=
  feesInPeriod db.fees invoice.id rule.id r.periodKey = [] ∧
    ∀ max ∈ rule.max_applications, ((feesUnder db.fees invoice.id rule.id).length : ℤ) < max

instance (db : DB) (r : LateRun) (invoice : LateInvoice) (rule : LateFeeRule) :
    Decidable (r.countAllows db invoice rule) := inferInstanceAs (Decidable (_ ∧ _))

/-- The next statement of a run on its first invoice and rule; `goesThrough` says whether the
transaction of a fee is not broken off by an error. -/
def LateRun.next (db : DB) (r : LateRun) (invoice : LateInvoice) (rule : LateFeeRule)
    (goesThrough : Bool) : DB × LateRun :=
  match r.phase with
  | .check =>
    if invoice.days_overdue ≤ rule.grace_period_days ∨ ¬ r.countAllows db invoice rule then
      (db, r.skipRule)
    else
      let alreadyApplied := (feesUnder db.fees invoice.id rule.id).length
      match rule.fee_type with
      | .percent => (db, { r with phase := .counted alreadyApplied })
      | .flat => (db, r.price alreadyApplied (centsOf (number rule.fee_amount)))
  | .counted alreadyApplied =>
    (db, r.price alreadyApplied (percentFee invoice (feesOf db.fees invoice.id) rule))
  | .priced _ feeAmount =>
    match bookFee db r.organizationId invoice rule r.periodKey feeAmount with
    | some db' =>
      if goesThrough then
        (db', { r.skipRule with invoices := invoice.sync feeAmount :: r.invoices.tail })
      else (db, r.skipRule)
    | none => (db, r.skipRule)

/-- One step of a run: to the next invoice, to the next rule, or one statement. -/
def LateRun.advance (db : DB) (r : LateRun) (goesThrough : Bool) : DB × LateRun :=
  match r.invoices with
  | [] => (db, r)
  | invoice :: _ =>
    if r.entered = false then
      (db, if invoice.Settled then r.skipInvoice else { r with entered := true })
    else
      match r.pending with
      | [] => (db, r.skipInvoice)
      | rule :: _ => r.next db invoice rule goesThrough

/-- What happens: a run starts, takes a step or ends, or other code changes what decides whether
an invoice is late. -/
inductive Event where
  | start (organizationId : ℕ) (today periodKey : ℤ)
  | step (runId : ℕ) (goesThrough : Bool)
  | stop (runId : ℕ)
  | elsewhere (standing : ℕ → Standing)

/-- Other code changes the standing of an invoice. -/
def withStanding (standing : ℕ → Standing) (row : InvoiceRow) : InvoiceRow :=
  { row with standing := standing row.id }

theorem key_withStanding (standing : ℕ → Standing) :
    Keyed.key ∘ withStanding standing = Keyed.key := rfl

/-- `UPDATE invoices` by other code, on all rows. -/
def DB.restand (db : DB) (standing : ℕ → Standing) : DB :=
  { db with
    invoices := ⟨db.invoices.rows.map (withStanding standing), by
      rw [List.map_map, key_withStanding]
      exact db.invoices.nodup⟩ }

def step (s : System) : Event → System
  | .start organizationId today periodKey =>
    ⟨s.db, s.runs.insert (newRun s.db organizationId today periodKey)
      (key_newRun s.db organizationId today periodKey)⟩
  | .step runId goesThrough =>
    match s.runs.find? runId with
    | none => s
    | some r =>
      let next := r.advance s.db goesThrough
      ⟨next.1, s.runs.put next.2⟩
  | .stop runId => ⟨s.db, s.runs.remove runId⟩
  | .elsewhere standing => ⟨s.db.restand standing, s.runs⟩

end Vigabss.LateFees
