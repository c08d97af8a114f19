import Vigabss.Invoicing.Generate

/-!
# Vigabss.Invoicing.AddonLines — the lines of the add-ons on an invoice

What `generateInvoice` writes beside the totals: the line of every add-on in force is put on the
new invoice, the period is closed, and the monthly add-ons stay as they are.
-/

namespace Vigabss.Invoicing

open Vigabss.Lib Vigabss.Billing

/-! ### The lines -/

/-- The test of `addonsInForce` on one add-on. -/
def inForce (contractId : ℕ) (period : BillingPeriod) (addon : AddonRow) : Bool :=
  addon.contract_id = contractId ∧ addon.status = .active ∧ ¬ addon.deleted ∧
    ¬ addon.addon_deleted ∧ ¬ period.period_end.Before addon.start_date ∧
    addon.end_date.all fun end_date => ¬ end_date.Before period.period_start

/-- The months of a cycle of the contract, or else of its plan. -/
def cycleMonths (contract : Contract) (plan : Plan) : ℕ :=
  ((contract.billing_cycle.or plan.billing_cycle).map CONTRACT_CYCLE_MONTHS).getD 1

/-- A line that an invoice has for an add-on. -/
structure BilledLine where
  addon : AddonRow
  item : ItemRow
  /-- `months` of `addonLineForPeriod`; none for a charge that is not by the month. -/
  months : ℕ

/-- The line of an add-on on an invoice, with the months that it bills. -/
def billedLine (invoiceId : ℕ) (period : BillingPeriod) (cycleMonths : ℕ) (addon : AddonRow) :
    Option BilledLine :=
  (addonLineForPeriod addon period cycleMonths).map fun line =>
    { addon := addon
      item :=
        { invoice_id := invoiceId
          description := line.description
          quantity := line.quantity
          unit_price := line.unitPrice
          amount := line.amount }
      months := if addon.addon_cycle = .monthly then max 1 cycleMonths else 0 }

/-- The lines of the add-ons in force. -/
def billedLines (contract : Contract) (plan : Plan) (billingPeriod : PeriodRow) (db : DB) :
    List BilledLine :=
  (addonsInForce contract.id billingPeriod.period db).filterMap
    (billedLine db.invoices.nextId billingPeriod.period (cycleMonths contract plan))

theorem addonsInForce_eq (contractId : ℕ) (period : BillingPeriod) (db : DB) :
    addonsInForce contractId period db = db.addons.rows.filter (inForce contractId period) := rfl

/-- **The line of a monthly add-on** bills the months that it says: they stand in its text, and its
unit price is the monthly price times their number. -/
theorem billedLine_monthly {addon : AddonRow} (hmonthly : addon.addon_cycle = .monthly)
    (invoiceId : ℕ) (period : BillingPeriod) (cycleMonths : ℕ) :
    ∃ line, billedLine invoiceId period cycleMonths addon = some line ∧ line.addon = addon ∧
      line.months = max 1 cycleMonths ∧
      line.item.unit_price = round2 (fl (number addon.unit_price * line.months)) ∧
      line.item.description =
        if 1 < line.months then s!"{addon.addon_name} ({line.months} months)"
        else addon.addon_name := by
  rw [billedLine, addonLineForPeriod]
  simp only [hmonthly, Option.map_some, if_true]
  exact ⟨_, rfl, rfl, rfl, rfl, rfl⟩

/-! ### What the statements leave -/

/-- The monthly add-ons. -/
def monthlyRows (db : DB) : List AddonRow :=
  db.addons.rows.filter fun addon => addon.addon_cycle = .monthly

/-- The expiry of an add-on that is not monthly leaves the monthly ones. -/
theorem monthlyRows_expire {db : DB} {id : ℕ} (hid : ∀ addon ∈ monthlyRows db, addon.id ≠ id) :
    monthlyRows { db with addons := db.addons.modify id expired key_expired } =
      monthlyRows db := by
  have hcycle : ∀ row : AddonRow, (expired row).addon_cycle = row.addon_cycle := by
    intro row
    rw [expired]
    split_ifs <;> rfl
  have hrows : ∀ rows : List AddonRow,
      (∀ row ∈ rows, row.addon_cycle = .monthly → row.id ≠ id) →
      (rows.map fun row => if Keyed.key row = id then expired row else row).filter
          (fun row => row.addon_cycle = .monthly) =
        rows.filter fun row => row.addon_cycle = .monthly := by
    intro rows hne
    induction rows with
    | nil => rfl
    | cons row rows ih =>
      have hrest := ih fun r hr => hne r (List.mem_cons_of_mem _ hr)
      by_cases hkey : Keyed.key row = id
      · have hnot : row.addon_cycle ≠ .monthly := fun hmonthly =>
          hne row List.mem_cons_self hmonthly hkey
        rw [List.map_cons, if_pos hkey, List.filter_cons_of_neg (by simpa [hcycle] using hnot),
          List.filter_cons_of_neg (by simpa using hnot), hrest]
      · rw [List.map_cons, if_neg hkey, List.filter_cons, List.filter_cons, hrest]
  refine hrows _ fun row hrow hmonthly => hid row ?_
  exact List.mem_filter.2 ⟨hrow, decide_eq_true hmonthly⟩

/-- While the lines are written: the periods and the monthly add-ons are as before, and these lines
are there. -/
structure Writing (before : DB) (done : List ItemRow) (db : DB) : Prop where
  periods : db.periods = before.periods
  monthly : monthlyRows db = monthlyRows before
  items : ∀ item ∈ done, item ∈ db.items

variable {before : DB} {done : List ItemRow}

theorem writing_insertItem (item : ItemRow) :
    Txn.Ensures (Writing before done) (insertItem item)
      fun _ => Writing before (done ++ [item]) := by
  refine Txn.ensures_write fun db hdb => ⟨hdb.periods, hdb.monthly, ?_⟩
  intro row hrow
  rcases List.mem_append.1 hrow with hold | hnew
  · exact List.mem_append_left _ (hdb.items row hold)
  · exact List.mem_append_right _ hnew

theorem writing_expireAddon {addon : AddonRow} (haddon : addon ∈ before.addons.rows)
    (hcycle : addon.addon_cycle ≠ .monthly) :
    Txn.Ensures (Writing before done) (expireAddon addon.id) fun _ => Writing before done := by
  refine Txn.ensures_write fun db hdb => ⟨hdb.periods, ?_, hdb.items⟩
  refine (monthlyRows_expire fun row hrow hid => ?_).trans hdb.monthly
  rw [hdb.monthly] at hrow
  obtain ⟨hmem, hmonthly⟩ := List.mem_filter.1 hrow
  rw [Table.eq_of_key_eq hmem haddon hid] at hmonthly
  exact hcycle (of_decide_eq_true hmonthly)

/-- **The loop** puts the line of every add-on on the invoice. -/
theorem writing_billAddons (invoiceId : ℕ) (period : BillingPeriod) (cycleMonths : ℕ)
    (addons : List AddonRow) (haddons : ∀ addon ∈ addons, addon ∈ before.addons.rows)
    (done : List ItemRow) (runningSubtotal : ℤ) :
    Txn.Ensures (Writing before done)
      (billAddons invoiceId period cycleMonths addons runningSubtotal)
      fun _ => Writing before (done ++
        (addons.filterMap (billedLine invoiceId period cycleMonths)).map BilledLine.item) := by
  induction addons generalizing done runningSubtotal with
  | nil =>
    refine Txn.ensures_pure fun db hdb => ?_
    rw [List.filterMap_nil, List.map_nil, List.append_nil]
    exact hdb
  | cons addon addons ih =>
    have hrest := ih fun a ha => haddons a (List.mem_cons_of_mem _ ha)
    have haddon := haddons addon List.mem_cons_self
    rw [billAddons]
    cases hline : addonLineForPeriod addon period cycleMonths with
    | none =>
      rw [List.filterMap_cons_none (by rw [billedLine, hline]; rfl)]
      exact hrest done runningSubtotal
    | some line =>
      obtain ⟨billed, hbilled, hitem⟩ : ∃ billed,
          billedLine invoiceId period cycleMonths addon = some billed ∧ billed.item =
            { invoice_id := invoiceId
              description := line.description
              quantity := line.quantity
              unit_price := line.unitPrice
              amount := line.amount } := by
        rw [billedLine, hline]
        exact ⟨_, rfl, rfl⟩
      rw [List.filterMap_cons_some hbilled, List.map_cons, List.append_cons, hitem]
      refine Txn.Ensures.bind (writing_insertItem _) fun _ => ?_
      split_ifs with hcycle
      · refine Txn.Ensures.bind (writing_expireAddon haddon (by rw [hcycle]; decide)) fun _ => ?_
        exact hrest _ _
      · exact hrest _ _

/-- What a committed invoice leaves: the period is closed, the monthly add-ons are as before, and
these lines are there. -/
structure Written (before : DB) (periodId : ℕ) (done : List ItemRow) (db : DB) : Prop where
  periods : ∃ invoiceId,
    db.periods = before.periods.modify periodId (invoicedBy invoiceId) (key_invoicedBy invoiceId)
  monthly : monthlyRows db = monthlyRows before
  items : ∀ item ∈ done, item ∈ db.items

variable (orgId : ℕ) (billingPeriod : PeriodRow) (contract : Contract) (plan : Plan)
  (reads : Reads)

/-- Until the lines are written, nothing but invoices, items and numbers has changed. -/
def Started (before db : DB) : Prop :=
  db.periods = before.periods ∧ db.addons = before.addons ∧ ∀ item ∈ before.items, item ∈ db.items

theorem started_insertItem (item : ItemRow) :
    Txn.Ensures (Started before) (insertItem item) fun _ => Started before :=
  Txn.ensures_write fun _ hdb =>
    ⟨hdb.1, hdb.2.1, fun row hrow => List.mem_append_left _ (hdb.2.2 row hrow)⟩

/-- The lines beyond the plan's. -/
theorem writing_billExtras (invoiceId : ℕ) (subtotal : ℤ) :
    Txn.Ensures (Started before)
      (billExtras billingPeriod contract plan reads invoiceId subtotal)
      fun _ => Writing before (before.items ++
        ((addonsInForce contract.id billingPeriod.period before).filterMap
          (billedLine invoiceId billingPeriod.period (cycleMonths contract plan))).map
            BilledLine.item) := by
  rw [billExtras]
  refine Txn.Ensures.bind (Txn.ensures_keep _) fun overage => ?_
  refine Txn.Ensures.bind (Q := fun _ => Started before) ?_ fun running => ?_
  · rw [billOverage]
    split_ifs
    · exact Txn.Ensures.bind (started_insertItem _) fun _ => Txn.ensures_pure fun _ hdb => hdb
    · exact Txn.ensures_pure fun _ hdb => hdb
  refine Txn.Ensures.bind
    (Q := fun addons db => addons = addonsInForce contract.id billingPeriod.period before ∧
      Writing before before.items db)
    (Txn.ensures_read fun db hdb => ⟨?_, hdb.1, ?_, hdb.2.2⟩)
    fun addons => Txn.ensures_of_fact fun haddons => ?_
  · rw [addonsInForce_eq, addonsInForce_eq, hdb.2.1]
  · rw [monthlyRows, monthlyRows, hdb.2.1]
  · subst haddons
    exact writing_billAddons invoiceId _ _ _ (fun addon h => (List.mem_filter.1 h).1)
      before.items running

/-- **What the writes leave** of periods, add-ons and lines. -/
theorem written_writeInvoice :
    Txn.Ensures (· = before) (writeInvoice orgId billingPeriod contract plan reads)
      fun _ => Written before billingPeriod.id
        (before.items ++ (billedLines contract plan billingPeriod before).map BilledLine.item) := by
  rw [writeInvoice]
  refine Txn.Ensures.bind
    (Q := fun _ db => Started before db ∧ db.invoices = before.invoices) ?_ fun number => ?_
  · rw [nextInvoiceNumber]
    refine Txn.Ensures.bind
      (Q := fun _ db => Started before db ∧ db.invoices = before.invoices)
      (Txn.ensures_statement fun db hdb => ?_) fun _ => ?_
    · subst hdb
      exact ⟨⟨rfl, rfl, fun _ h => h⟩, rfl⟩
    · exact Txn.Ensures.bind (Txn.ensures_keep _) fun _ => Txn.ensures_pure fun _ hdb => hdb
  refine Txn.Ensures.bind
    (Q := fun id db => id = before.invoices.nextId ∧ Started before db)
    (Txn.ensures_statement fun db hdb => ⟨by rw [hdb.2], hdb.1⟩)
    fun id => Txn.ensures_of_fact fun hid => ?_
  subst hid
  refine Txn.Ensures.bind (started_insertItem _) fun _ => ?_
  refine Txn.Ensures.bind (writing_billExtras billingPeriod contract plan reads _ _)
    fun running => ?_
  refine Txn.Ensures.bind (Q := fun _ => Writing before
    (before.items ++ (billedLines contract plan billingPeriod before).map BilledLine.item)) ?_
    fun final => ?_
  · rw [foldTotals]
    split_ifs
    · exact Txn.Ensures.bind
        (Txn.ensures_write fun db hdb => ⟨hdb.periods, hdb.monthly, hdb.items⟩)
        fun _ => Txn.ensures_pure fun _ hdb => hdb
    · exact Txn.ensures_pure fun _ hdb => hdb
  refine Txn.Ensures.bind (Q := fun _ => Written before billingPeriod.id
      (before.items ++ (billedLines contract plan billingPeriod before).map BilledLine.item))
    (Txn.ensures_write fun db hdb =>
      ⟨⟨before.invoices.nextId, ?_⟩, hdb.monthly, hdb.items⟩) fun _ => ?_
  · rw [← hdb.periods]
  · refine Txn.Ensures.bind (Txn.ensures_write fun db hdb => ?_)
      fun _ => Txn.ensures_pure fun _ hdb => hdb
    exact ⟨hdb.periods, hdb.monthly, hdb.items⟩

/-- A call leaves the database as it was, or as the writes leave it. -/
theorem generateInvoice_rule (given : Option Plan) (faults : Faults) (db : DB)
    {P : Plan → DB → Prop}
    (hwrites : ∀ plan, Txn.Ensures (· = db) (writeInvoice orgId billingPeriod contract plan reads)
      fun _ => P plan) :
    (generateInvoice orgId billingPeriod contract reads given faults db).2 = db ∨
      settledPeriod billingPeriod db = none ∧
        ∃ plan, resolveFullPlan contract given reads = .ok plan ∧
          P plan (generateInvoice orgId billingPeriod contract reads given faults db).2 := by
  rw [generateInvoice]
  cases hplan : resolveFullPlan contract given reads with
  | error message => exact Or.inl rfl
  | ok plan =>
    have hensures : Txn.Ensures (· = db) (invoiceTxn orgId billingPeriod contract plan reads)
        fun _ after => after = db ∨ settledPeriod billingPeriod db = none ∧
          ∃ plan', Except.ok plan = (Except.ok plan' : Except String Plan) ∧ P plan' after := by
      rw [invoiceTxn]
      refine Txn.Ensures.bind (Q := fun locked after => locked = settledPeriod billingPeriod db ∧
        after = db) (Txn.ensures_read fun after hafter => ⟨by rw [hafter], hafter⟩)
        fun locked => Txn.ensures_of_fact fun hlocked => ?_
      cases locked with
      | some row => exact Txn.ensures_pure fun _ hafter => Or.inl hafter
      | none =>
        refine Txn.Ensures.bind (Txn.ensures_keep _) fun _ => ?_
        refine Txn.Ensures.bind (Txn.ensures_keep _) fun _ => ?_
        refine Txn.Ensures.bind (hwrites plan)
          fun _ => Txn.ensures_pure fun _ hafter => Or.inr ⟨hlocked.symm, plan, rfl, hafter⟩
    rcases Txn.atomically_cases hensures faults with ⟨e, heq⟩ | ⟨id, after, heq, hafter⟩
    · left
      simp only [heq]
    · simp only [heq]
      cases findById reads id after with
      | ok invoice => exact hafter
      | error message =>
        dsimp only
        split_ifs <;> exact hafter

/-- **What a call leaves**: the database as it was, or a new invoice with a line for every add-on in
force. -/
theorem written_generateInvoice (given : Option Plan) (faults : Faults) (db : DB) :
    (generateInvoice orgId billingPeriod contract reads given faults db).2 = db ∨
      settledPeriod billingPeriod db = none ∧
        ∃ plan, resolveFullPlan contract given reads = .ok plan ∧
          Written db billingPeriod.id
            (db.items ++ (billedLines contract plan billingPeriod db).map BilledLine.item)
            (generateInvoice orgId billingPeriod contract reads given faults db).2 :=
  generateInvoice_rule orgId billingPeriod contract reads given faults db fun plan =>
    written_writeInvoice orgId billingPeriod contract plan reads

end Vigabss.Invoicing
