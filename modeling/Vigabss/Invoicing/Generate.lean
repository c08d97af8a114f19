import Vigabss.Invoicing.Tables

/-!
# Vigabss.Invoicing.Generate — the invoice of a billing period

`generateInvoice`: one transaction that writes the header from the plan, then its lines, and last
the totals, the period and the ledger; after the commit it reads the invoice back.
-/

namespace Vigabss.Invoicing

open Vigabss.Lib Vigabss.Billing

/-! ### The rows read -/

inductive BillingCycle where
  | monthly | quarterly | semi_annual | annual
  deriving DecidableEq, Repr

def CONTRACT_CYCLE_MONTHS : BillingCycle → ℕ
  | .monthly => 1
  | .quarterly => 3
  | .semi_annual => 6
  | .annual => 12

/-- The columns of a plan that an invoice comes from. -/
structure Plan where
  name : String
  price : ℤ
  currency : Option String
  billing_cycle : Option BillingCycle
  overage_mode : OverageMode
  trial_days : ℕ
  trial_price : ℤ

/-- The columns of a contract that an invoice comes from. -/
structure Contract where
  id : ℕ
  client_id : ℕ
  plan_id : ℕ
  price_override : Option ℤ
  billing_cycle : Option BillingCycle
  schedule : Schedule

/-- What the generation reads of the tables that it does not write, and what the read of the
invoice after the commit answers when it fails. -/
structure Reads where
  planRow : Option Plan
  orgCurrency : String
  taxRate : ℚ
  taxRateId : Option ℕ
  usage : Option UsageRow
  extraGb : ℚ
  now : Date
  businessToday : Date
  readBack : Option String

/-- `resolveFullPlan(contract, plan, orgId)`: a plan that is a full row is used as it is. -/
def resolveFullPlan (contract : Contract) (plan : Option Plan) (reads : Reads) :
    Except String Plan :=
  match plan.or reads.planRow with
  | some row => .ok row
  | none => .error s!"Plan {contract.plan_id} of contract {contract.id} was not found"

/-- `isContractInTrial(contract, plan)`. -/
def isContractInTrial (contract : Contract) (plan : Plan) (now : Date) : Bool :=
  plan.trial_days ≠ 0 ∧ now.Before (addDays (serviceStartDate contract.schedule) plan.trial_days)

/-! ### The statements -/

/-- The figures of an invoice. -/
structure Totals where
  subtotal : ℤ
  taxAmount : ℤ
  total : ℤ

/-- The totals of a subtotal under a tax rate. -/
def totalsOf (subtotal : ℤ) (taxPct : ℚ) : Totals :=
  let taxAmount := Money.mul (fromCents subtotal) taxPct
  ⟨subtotal, taxAmount, Money.add (fromCents subtotal) (fromCents taxAmount)⟩

/-- A number of hundredths as text. -/
def hundredthsText (n : ℤ) : String :=
  let whole := toString (n.natAbs / 100)
  let rest := n.natAbs % 100
  let digits := if rest = 0 then "" else if rest % 10 = 0 then s!".{rest / 10}" else
    "." ++ padded 2 rest
  (if n < 0 then "-" else "") ++ whole ++ digits

/-- `nextInvoiceNumber(conn, orgId)`: the upsert of the sequence, then `LAST_INSERT_ID()`. -/
def nextInvoiceNumber (orgId : ℕ) : Txn DB String := do
  let next ← Txn.statement fun db =>
    let next := db.sequences orgId
    (next, { db with sequences := Function.update db.sequences orgId (next + 1) })
  let id ← Txn.read fun _ => next
  pure ("INV-" ++ padded 6 id)

/-- `INSERT INTO invoices`, with the id that the row gets. -/
def insertInvoice (mk : ℕ → InvoiceRow) (hmk : ∀ n, Keyed.key (mk n) = n) : Txn DB ℕ :=
  Txn.statement fun db =>
    (db.invoices.nextId, { db with invoices := db.invoices.insert mk hmk })

/-- `INSERT INTO invoice_items`. -/
def insertItem (item : ItemRow) : Txn DB Unit :=
  Txn.write fun db => { db with items := db.items ++ [item] }

/-- `UPDATE contract_addons SET status = 'expired' WHERE status = 'active'`, on a row. -/
def expired (addon : AddonRow) : AddonRow :=
  if addon.status = .active then { addon with status := .expired } else addon

theorem key_expired (addon : AddonRow) : Keyed.key (expired addon) = Keyed.key addon := by
  rw [expired]
  split_ifs <;> rfl

def expireAddon (id : ℕ) : Txn DB Unit :=
  Txn.write fun db => { db with addons := db.addons.modify id expired key_expired }

/-- `UPDATE invoices SET subtotal = ?, tax_amount = ?, total = ?`, on a row. -/
def withTotals (last : Totals) (inv : InvoiceRow) : InvoiceRow :=
  { inv with subtotal := last.subtotal, tax_amount := last.taxAmount, total := last.total }

theorem key_withTotals (last : Totals) (inv : InvoiceRow) :
    Keyed.key (withTotals last inv) = Keyed.key inv := rfl

def updateTotals (id : ℕ) (last : Totals) : Txn DB Unit :=
  Txn.write fun db =>
    { db with invoices := db.invoices.modify id (withTotals last) (key_withTotals last) }

/-- `UPDATE billing_periods SET status = 'invoiced', invoice_id = ?`, on a row. -/
def invoicedBy (invoiceId : ℕ) (row : PeriodRow) : PeriodRow :=
  { row with period.status := .invoiced, invoice_id := some invoiceId }

theorem key_invoicedBy (invoiceId : ℕ) (row : PeriodRow) :
    Keyed.key (invoicedBy invoiceId row) = Keyed.key row := rfl

def closePeriod (periodId invoiceId : ℕ) : Txn DB Unit :=
  Txn.write fun db =>
    { db with
      periods := db.periods.modify periodId (invoicedBy invoiceId) (key_invoicedBy invoiceId) }

/-- `INSERT INTO client_balance_ledger`. -/
def insertPosting (posting : InvoicePosting) : Txn DB Unit :=
  Txn.write fun db => { db with ledger := db.ledger ++ [posting] }

/-! ### The lines -/

/-- The add-ons in force during a period. -/
def addonsInForce (contractId : ℕ) (period : BillingPeriod) (db : DB) : List AddonRow :=
  db.addons.rows.filter fun addon =>
    addon.contract_id = contractId ∧ addon.status = .active ∧ ¬ addon.deleted ∧
      ¬ addon.addon_deleted ∧ ¬ period.period_end.Before addon.start_date ∧
      addon.end_date.all fun end_date => ¬ end_date.Before period.period_start

/-- The overage line, and the running subtotal after it. -/
def billOverage (invoiceId : ℕ) (currency : String) (overage : OverageCharge)
    (runningSubtotal : ℤ) : Txn DB ℤ :=
  if 0 < overage.overage_gb then do
    insertItem
      { invoice_id := invoiceId
        description := s!"Data overage — {hundredthsText overage.overage_gb} GB @ {currency} " ++
          s!"{hundredthsText overage.price_per_gb}/GB"
        quantity := fromCents overage.overage_gb
        unit_price := overage.price_per_gb
        amount := overage.amount }
    pure (Money.add (fromCents runningSubtotal) (fromCents overage.amount))
  else pure runningSubtotal

/-- The loop over the add-ons: a line for each that bills in the period; a one-time charge expires
with it. -/
def billAddons (invoiceId : ℕ) (period : BillingPeriod) (cycleMonths : ℕ) :
    List AddonRow → ℤ → Txn DB ℤ
  | [], runningSubtotal => pure runningSubtotal
  | addon :: addons, runningSubtotal =>
    match addonLineForPeriod addon period cycleMonths with
    | none => billAddons invoiceId period cycleMonths addons runningSubtotal
    | some line => do
      insertItem
        { invoice_id := invoiceId
          description := line.description
          quantity := line.quantity
          unit_price := line.unitPrice
          amount := line.amount }
      if addon.addon_cycle = .one_time then expireAddon addon.id
      billAddons invoiceId period cycleMonths addons
        (Money.add (fromCents runningSubtotal) (fromCents line.amount))

/-! ### The invoice -/

variable (orgId : ℕ) (billingPeriod : PeriodRow) (contract : Contract) (plan : Plan)
  (reads : Reads)

/-- The price of the plan: the trial's, the contract's own, or the plan's. -/
def effectivePrice : ℤ :=
  if isContractInTrial contract plan reads.now then plan.trial_price
  else contract.price_override.getD plan.price

/-- The currency of the invoice. -/
def invoiceCurrency : String := plan.currency.getD reads.orgCurrency

/-- The lines beyond the plan's: overage, then add-ons; answers the running subtotal. -/
def billExtras (invoiceId : ℕ) (subtotal : ℤ) : Txn DB ℤ := do
  let overage ← Txn.read fun _ =>
    if isContractInTrial contract plan reads.now = false ∧ plan.overage_mode = .per_gb then
      calculateOverageCharges reads.usage reads.extraGb
    else noOverage
  let runningSubtotal ←
    billOverage invoiceId (invoiceCurrency plan reads) overage subtotal
  let addons ← Txn.read (addonsInForce contract.id billingPeriod.period)
  let cycleMonths := ((contract.billing_cycle.or plan.billing_cycle).map
    CONTRACT_CYCLE_MONTHS).getD 1
  billAddons invoiceId billingPeriod.period cycleMonths addons runningSubtotal

/-- Fold the lines into the stored totals, when they changed them; answers the final total. -/
def foldTotals (invoiceId : ℕ) (first : Totals) (runningSubtotal : ℤ) : Txn DB ℤ :=
  if runningSubtotal ≠ first.subtotal then do
    let last := totalsOf runningSubtotal reads.taxRate
    updateTotals invoiceId last
    pure last.total
  else pure first.total

/-- The row of `invoices` that is inserted. -/
def newInvoice (invoiceNumber : String) (first : Totals) (id : ℕ) : InvoiceRow where
  id := id
  organization_id := orgId
  client_id := contract.client_id
  contract_id := contract.id
  invoice_number := invoiceNumber
  subtotal := first.subtotal
  tax_amount := first.taxAmount
  total := first.total
  currency := invoiceCurrency plan reads
  tax_rate := reads.taxRate
  tax_rate_id := reads.taxRateId
  due_date := addDays billingPeriod.period.period_end 15
  issue_date := reads.businessToday

theorem key_newInvoice (invoiceNumber : String) (first : Totals) (id : ℕ) :
    Keyed.key (newInvoice orgId billingPeriod contract plan reads invoiceNumber first id) = id :=
  rfl

/-- The line of the plan. -/
def planItem (price : ℤ) (invoiceId : ℕ) : ItemRow where
  invoice_id := invoiceId
  description := s!"{plan.name} — {fmtDateOnly billingPeriod.period.period_start} to " ++
    fmtDateOnly billingPeriod.period.period_end
  quantity := 1
  unit_price := price
  amount := price

/-- The debit of the final total. -/
def invoiceDebit (invoiceNumber : String) (finalTotal : ℤ) (invoiceId : ℕ) : InvoicePosting where
  client_id := contract.client_id
  organization_id := orgId
  entry_type := .debit
  amount := finalTotal
  currency := invoiceCurrency plan reads
  reference_id := invoiceId
  description := "Invoice " ++ invoiceNumber
  entry_date := reads.businessToday

/-- The writes of `generateInvoice`, for a period that is still to be invoiced. -/
def writeInvoice : Txn DB ℕ := do
  let price := effectivePrice contract plan reads
  let first := totalsOf (Money.round (fromCents price)) reads.taxRate
  let invoiceNumber ← nextInvoiceNumber orgId
  let invoiceId ← insertInvoice
    (newInvoice orgId billingPeriod contract plan reads invoiceNumber first)
    (key_newInvoice orgId billingPeriod contract plan reads invoiceNumber first)
  insertItem (planItem billingPeriod plan price invoiceId)
  let runningSubtotal ← billExtras billingPeriod contract plan reads invoiceId first.subtotal
  let finalTotal ← foldTotals reads invoiceId first runningSubtotal
  closePeriod billingPeriod.id invoiceId
  insertPosting (invoiceDebit orgId contract plan reads invoiceNumber finalTotal invoiceId)
  pure invoiceId

/-- The period is locked and found to be invoiced, or skipped. -/
def settledPeriod (db : DB) : Option PeriodRow :=
  (db.periods.find? billingPeriod.id).filter fun locked => locked.period.status ≠ .pending

/-- The transaction of `generateInvoice`: the invoice of a period that has one, or a new one. -/
def invoiceTxn : Txn DB (Option ℕ) := do
  let locked ← Txn.read (settledPeriod billingPeriod)
  match locked with
  | some row => pure row.invoice_id
  | none =>
    -- the currency and the tax are read on the way
    let _ ← Txn.read fun _ => invoiceCurrency plan reads
    let _ ← Txn.read fun _ => reads.taxRate
    let invoiceId ← writeInvoice orgId billingPeriod contract plan reads
    pure (some invoiceId)

/-- `Invoice.findById(id, orgId)`. -/
def findById (id : Option ℕ) (db : DB) : Except String (Option InvoiceRow) :=
  match reads.readBack with
  | some message => .error message
  | none => .ok (id.bind db.invoices.find?)

/-- `InvoiceGenerationError`. -/
def generationError (message : String) : String :=
  s!"Failed to generate invoice for contract {contract.id}: {message}"

/-- `generateInvoice(billingPeriod, contract, plan, orgId)`, with the plan as the caller has it. -/
def generateInvoice (given : Option Plan) (faults : Faults) (db : DB) :
    Except String (Option InvoiceRow) × DB :=
  match resolveFullPlan contract given reads with
  | .error message => (.error message, db)
  | .ok plan =>
    match Txn.atomically (invoiceTxn orgId billingPeriod contract plan reads) faults db with
    | (.error message, after) => (.error (generationError contract message), after)
    | (.ok id, after) =>
      match findById reads id after with
      | .ok invoice => (.ok invoice, after)
      | .error message =>
        -- a period that has its invoice is answered before the guarded part of the code
        if (settledPeriod billingPeriod db).isSome then (.error message, after)
        else (.error (generationError contract message), after)

end Vigabss.Invoicing
