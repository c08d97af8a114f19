import Vigabss.Invoicing.AddonMonths

/-!
# Vigabss.Invoicing.AddonPeriods — yearly and one-time add-ons over a sequence of periods

Runs of `generateInvoice` over billing periods that are there already, in any order and with
failures in between.  A yearly add-on is billed in the periods with an anniversary of its start, and
a one-time add-on in the first invoiced period that it is in force in, which expires it
(`addons_by_period`).
-/

namespace Vigabss.Invoicing

open Vigabss.Lib Vigabss.Billing

/-! ### The add-ons that a call expires -/

/-- `expired` on the rows of these ids. -/
def expireIn (ids : List ℕ) (addon : AddonRow) : AddonRow :=
  if addon.id ∈ ids then expired addon else addon

/-- The ids of the one-time add-ons. -/
def oneTimeIds (addons : List AddonRow) : List ℕ :=
  (addons.filter fun addon => addon.addon_cycle = .one_time).map AddonRow.id

theorem id_expireIn (ids : List ℕ) (addon : AddonRow) : (expireIn ids addon).id = addon.id := by
  rw [expireIn]
  split_ifs
  · exact key_expired addon
  · rfl

theorem expired_expired (addon : AddonRow) : expired (expired addon) = expired addon := by
  by_cases h : addon.status = .active
  · simp [expired, h]
  · rw [expired, expired, if_neg h, if_neg h]

theorem expireIn_append (ids : List ℕ) (id : ℕ) (addon : AddonRow) :
    (if (expireIn ids addon).id = id then expired (expireIn ids addon) else expireIn ids addon) =
      expireIn (ids ++ [id]) addon := by
  rw [id_expireIn, expireIn, expireIn]
  simp only [List.mem_append, List.mem_singleton]
  by_cases hids : addon.id ∈ ids
  · rw [if_pos hids, expired_expired, ite_self, if_pos (Or.inl hids)]
  · rw [if_neg hids]
    simp only [hids, false_or]

/-- The add-ons of the first database, these expired. -/
def Expiring (before : DB) (ids : List ℕ) (db : DB) : Prop :=
  db.addons.rows = before.addons.rows.map (expireIn ids)

theorem expiring_expireAddon (before : DB) (ids : List ℕ) (id : ℕ) :
    Txn.Ensures (Expiring before ids) (expireAddon id) fun _ => Expiring before (ids ++ [id]) := by
  refine Txn.ensures_write fun db hdb => ?_
  show (db.addons.rows.map fun row => if Keyed.key row = id then expired row else row) = _
  rw [hdb, List.map_map]
  exact List.map_congr_left fun addon _ => expireIn_append ids id addon

/-- The loop expires the one-time add-ons. -/
theorem expiring_billAddons (before : DB) (invoiceId : ℕ) (period : BillingPeriod)
    (cycleMonths : ℕ) (addons : List AddonRow) (ids : List ℕ) (runningSubtotal : ℤ) :
    Txn.Ensures (Expiring before ids)
      (billAddons invoiceId period cycleMonths addons runningSubtotal)
      fun _ => Expiring before (ids ++ oneTimeIds addons) := by
  induction addons generalizing ids runningSubtotal with
  | nil =>
    refine Txn.ensures_pure fun db hdb => ?_
    rw [show oneTimeIds [] = [] from rfl, List.append_nil]
    exact hdb
  | cons addon addons ih =>
    rw [billAddons]
    by_cases hcycle : addon.addon_cycle = .one_time
    · have hids : oneTimeIds (addon :: addons) = addon.id :: oneTimeIds addons := by
        rw [oneTimeIds, List.filter_cons_of_pos (by simpa using hcycle)]
        rfl
      have hline : ∃ line, addonLineForPeriod addon period cycleMonths = some line := by
        rw [addonLineForPeriod]
        simp only [hcycle]
        exact ⟨_, rfl⟩
      obtain ⟨line, hline⟩ := hline
      rw [hline, hids, List.append_cons]
      refine Txn.Ensures.bind (Q := fun _ => Expiring before ids)
        (Txn.ensures_write fun _ hdb => hdb) fun _ => ?_
      rw [if_pos hcycle]
      exact Txn.Ensures.bind (expiring_expireAddon before ids addon.id) fun _ => ih _ _
    · have hids : oneTimeIds (addon :: addons) = oneTimeIds addons := by
        rw [oneTimeIds, List.filter_cons_of_neg (by simpa using hcycle)]
        rfl
      rw [hids]
      cases addonLineForPeriod addon period cycleMonths with
      | none => exact ih ids runningSubtotal
      | some line =>
        refine Txn.Ensures.bind (Q := fun _ => Expiring before ids)
          (Txn.ensures_write fun _ hdb => hdb) fun _ => ?_
        rw [if_neg hcycle]
        exact ih _ _

section Writes

variable (orgId : ℕ) (billingPeriod : PeriodRow) (contract : Contract) (plan : Plan)
  (reads : Reads)

/-- The ids of the one-time add-ons in force. -/
def expiredIds (before : DB) : List ℕ :=
  oneTimeIds (addonsInForce contract.id billingPeriod.period before)

theorem expiring_writeInvoice (before : DB) :
    Txn.Ensures (· = before) (writeInvoice orgId billingPeriod contract plan reads)
      fun _ => Expiring before (expiredIds billingPeriod contract before) := by
  rw [writeInvoice]
  refine Txn.Ensures.bind (Q := fun _ db => db.addons = before.addons) ?_ fun number => ?_
  · rw [nextInvoiceNumber]
    refine Txn.Ensures.bind (Q := fun _ db => db.addons = before.addons)
      (Txn.ensures_statement fun db hdb => by rw [hdb]) fun _ => ?_
    exact Txn.Ensures.bind (Txn.ensures_keep _) fun _ => Txn.ensures_pure fun _ hdb => hdb
  refine Txn.Ensures.bind (Q := fun _ db => db.addons = before.addons)
    (Txn.ensures_statement fun _ hdb => hdb) fun id => ?_
  refine Txn.Ensures.bind (Q := fun _ db => db.addons = before.addons)
    (Txn.ensures_write fun _ hdb => hdb) fun _ => ?_
  refine Txn.Ensures.bind
    (Q := fun _ => Expiring before (expiredIds billingPeriod contract before)) ?_ fun running => ?_
  · rw [billExtras]
    refine Txn.Ensures.bind (Txn.ensures_keep _) fun overage => ?_
    refine Txn.Ensures.bind (Q := fun _ db => db.addons = before.addons) ?_ fun running => ?_
    · rw [billOverage]
      split_ifs
      · exact Txn.Ensures.bind (Q := fun _ db => db.addons = before.addons)
          (Txn.ensures_write fun _ hdb => hdb) fun _ => Txn.ensures_pure fun _ hdb => hdb
      · exact Txn.ensures_pure fun _ hdb => hdb
    refine Txn.Ensures.bind
      (Q := fun addons db => addons = addonsInForce contract.id billingPeriod.period before ∧
        Expiring before [] db)
      (Txn.ensures_read fun db hdb => ⟨?_, ?_⟩) fun addons => Txn.ensures_of_fact fun haddons => ?_
    · rw [addonsInForce_eq, addonsInForce_eq, hdb]
    · rw [Expiring, hdb]
      exact (List.map_id' before.addons.rows).symm
    · subst haddons
      exact expiring_billAddons before id _ _ _ [] running
  refine Txn.Ensures.bind
    (Q := fun _ => Expiring before (expiredIds billingPeriod contract before)) ?_ fun final => ?_
  · rw [foldTotals]
    split_ifs
    · exact Txn.Ensures.bind (Q := fun _ => Expiring before _)
        (Txn.ensures_write fun _ hdb => hdb) fun _ => Txn.ensures_pure fun _ hdb => hdb
    · exact Txn.ensures_pure fun _ hdb => hdb
  refine Txn.Ensures.bind (Q := fun _ => Expiring before _)
    (Txn.ensures_write fun _ hdb => hdb) fun _ => ?_
  exact Txn.Ensures.bind (Q := fun _ => Expiring before _)
    (Txn.ensures_write fun _ hdb => hdb) fun _ => Txn.ensures_pure fun _ hdb => hdb

/-- **What a call leaves of the add-ons**: all as they were, or the one-time add-ons in force
expired. -/
theorem expiring_generateInvoice (given : Option Plan) (faults : Faults) (db : DB) :
    (generateInvoice orgId billingPeriod contract reads given faults db).2 = db ∨
      Expiring db (expiredIds billingPeriod contract db)
        (generateInvoice orgId billingPeriod contract reads given faults db).2 := by
  refine (generateInvoice_rule orgId billingPeriod contract reads given faults db fun plan =>
    expiring_writeInvoice orgId billingPeriod contract plan reads db).imp_right ?_
  rintro ⟨-, _, -, hexpiring⟩
  exact hexpiring

end Writes

/-! ### Runs -/

/-- A call of `generateInvoice` on a row of the table. -/
structure InvoiceCall where
  periodId : ℕ
  given : Option Plan
  reads : Reads
  faults : Faults

/-- The database, and the rows that a run has invoiced with the add-on lines of their invoices. -/
structure Charges where
  db : DB
  charged : List (PeriodRow × List BilledLine)

/-- A call, with the lines of the invoice if it makes one. -/
def charge (orgId : ℕ) (contract : Contract) (books : Charges) (call : InvoiceCall) : Charges :=
  match (books.db.periods.find? call.periodId).filter fun row => row.contract_id = contract.id with
  | none => books
  | some row =>
    let after :=
      (generateInvoice orgId row contract call.reads call.given call.faults books.db).2
    let lines := match resolveFullPlan contract call.given call.reads with
      | .ok plan => billedLines contract plan row books.db
      | .error _ => []
    { db := after
      charged := if statusOf books.db call.periodId = some .pending ∧
          statusOf after call.periodId = some .invoiced then books.charged ++ [(row, lines)]
        else books.charged }

/-- A pending period of the contract. -/
def Awaiting (contract : Contract) (row : PeriodRow) : Prop :=
  row.contract_id = contract.id ∧ row.period.status = .pending

instance (contract : Contract) (row : PeriodRow) : Decidable (Awaiting contract row) :=
  inferInstanceAs (Decidable (_ ∧ _))

/-- The pending periods of a contract. -/
def openPeriods (contract : Contract) (db : DB) : List PeriodRow :=
  db.periods.rows.filter fun row => Awaiting contract row

/-- How many of the lines are for the add-on. -/
def linesFor (addon : AddonRow) (lines : List BilledLine) : ℕ :=
  (lines.filter fun line => line.addon.id = addon.id).length

section Charges

variable (orgId : ℕ) {contract : Contract}

/-- What an invoice adds. -/
structure Invoiced (contract : Contract) (before after : Charges) (row : PeriodRow)
    (lines : List BilledLine) : Prop where
  pending : row ∈ openPeriods contract before.db
  billed : ∃ plan, lines = billedLines contract plan row before.db
  charged : after.charged = before.charged ++ [(row, lines)]
  periods : ∃ invoiceId, after.db.periods =
    before.db.periods.modify row.id (invoicedBy invoiceId) (key_invoicedBy invoiceId)
  addons : Expiring before.db (expiredIds row contract before.db) after.db
  items : ∀ item ∈ before.db.items ++ lines.map BilledLine.item, item ∈ after.db.items

/-- **A call** changes nothing, or invoices a pending period. -/
theorem charge_cases (books : Charges) (call : InvoiceCall) :
    charge orgId contract books call = books ∨
      ∃ row lines, Invoiced contract books (charge orgId contract books call) row lines := by
  unfold charge
  cases hfind : (books.db.periods.find? call.periodId).filter
      fun row => row.contract_id = contract.id with
  | none => exact .inl rfl
  | some row =>
    rw [Option.filter_eq_some_iff] at hfind
    obtain ⟨hrow, hcontract⟩ := hfind
    obtain ⟨hmem, hkey⟩ := Table.find?_eq_some.1 hrow
    have hkey : row.id = call.periodId := hkey
    dsimp only
    have hstatus : statusOf books.db call.periodId = some row.period.status := by
      rw [statusOf, hrow, Option.map_some]
    rcases written_generateInvoice orgId row contract call.reads call.given call.faults books.db
      with hsame | ⟨hsettled, plan, hplan, hwritten⟩
    · left
      rw [hsame, if_neg]
      rintro ⟨hpending, hinvoiced⟩
      rw [hpending] at hinvoiced
      cases hinvoiced
    · right
      have hpending : row.period.status = .pending := by
        rw [settledPeriod, hkey, hrow] at hsettled
        by_contra hne
        simp [Option.filter, hne] at hsettled
      obtain ⟨invoiceId, hperiods⟩ := hwritten.periods
      have hinvoiced : statusOf (generateInvoice orgId row contract call.reads call.given
          call.faults books.db).2 call.periodId = some .invoiced := by
        rw [statusOf, hperiods, hkey, Table.find?_modify, if_pos rfl, hrow]
        rfl
      rw [if_pos ⟨by rw [hstatus, hpending], hinvoiced⟩, hplan]
      refine ⟨row, _, List.mem_filter.2 ⟨hmem, ?_⟩, ⟨plan, rfl⟩, rfl, ⟨invoiceId, hperiods⟩, ?_,
        hwritten.items⟩
      · exact decide_eq_true ⟨of_decide_eq_true hcontract, hpending⟩
      · rcases expiring_generateInvoice orgId row contract call.reads call.given call.faults
          books.db with hsame | hexpiring
        · rw [hsame, hstatus, hpending] at hinvoiced
          cases hinvoiced
        · exact hexpiring

/-! ### The periods of a run -/

/-- What a run keeps of the periods: each of its invoices is for one of the periods that were
pending, and the others are pending still. -/
structure KeepsPeriods (contract : Contract) (db : DB) (books : Charges) : Prop where
  once : (books.charged.map Prod.fst).Nodup
  open_iff : ∀ row, row ∈ openPeriods contract books.db ↔
    row ∈ openPeriods contract db ∧ row ∉ books.charged.map Prod.fst
  charged : ∀ entry ∈ books.charged, entry.1 ∈ openPeriods contract db
  items : ∀ entry ∈ books.charged, ∀ line ∈ entry.2, line.item ∈ books.db.items

theorem mem_openPeriods {db : DB} {row : PeriodRow} :
    row ∈ openPeriods contract db ↔ row ∈ db.periods.rows ∧ Awaiting contract row := by
  rw [openPeriods, List.mem_filter, decide_eq_true_eq]

theorem Invoiced.open_iff {before after : Charges} {row : PeriodRow} {lines : List BilledLine}
    (h : Invoiced contract before after row lines) (other : PeriodRow) :
    other ∈ openPeriods contract after.db ↔
      other ∈ openPeriods contract before.db ∧ other ≠ row := by
  obtain ⟨hmem, -⟩ := mem_openPeriods.1 h.pending
  obtain ⟨invoiceId, hperiods⟩ := h.periods
  rw [mem_openPeriods, mem_openPeriods, hperiods, Table.mem_modify]
  constructor
  · rintro ⟨⟨hother, hne⟩ | ⟨b, -, rfl⟩, hopen⟩
    · refine ⟨⟨hother, hopen⟩, ?_⟩
      rintro rfl
      exact hne rfl
    · cases hopen.2
  · rintro ⟨⟨hother, hopen⟩, hne⟩
    refine ⟨.inl ⟨hother, fun hkey => hne ?_⟩, hopen⟩
    exact Table.eq_of_key_eq hother hmem hkey

theorem KeepsPeriods.charge {db : DB} {books : Charges} (h : KeepsPeriods contract db books)
    (call : InvoiceCall) :
    KeepsPeriods contract db (Vigabss.Invoicing.charge orgId contract books call) := by
  rcases charge_cases orgId books call with hsame | ⟨row, lines, hinvoiced⟩
  · rw [hsame]
    exact h
  · obtain ⟨hrow, hnew⟩ := (h.open_iff row).1 hinvoiced.pending
    refine ⟨?_, fun other => ?_, ?_, ?_⟩
    · rw [hinvoiced.charged, List.map_append, List.map_singleton, List.nodup_append]
      refine ⟨h.once, List.nodup_singleton _, ?_⟩
      rintro a ha b hb rfl
      rw [List.mem_singleton.1 hb] at ha
      exact hnew ha
    · rw [hinvoiced.open_iff, h.open_iff, hinvoiced.charged, List.map_append, List.mem_append,
        List.map_singleton, List.mem_singleton, not_or, and_assoc]
    · intro entry hentry
      rw [hinvoiced.charged] at hentry
      rcases List.mem_append.1 hentry with hold | hlast
      · exact h.charged entry hold
      · rw [List.mem_singleton.1 hlast]
        exact hrow
    · intro entry hentry line hline
      rw [hinvoiced.charged] at hentry
      rcases List.mem_append.1 hentry with hold | hlast
      · exact hinvoiced.items _ (List.mem_append_left _ (h.items entry hold line hline))
      · rw [List.mem_singleton.1 hlast] at hline
        exact hinvoiced.items _ (List.mem_append_right _ (List.mem_map_of_mem hline))

theorem keepsPeriods_run (db : DB) (calls : List InvoiceCall) :
    KeepsPeriods contract db (run (Vigabss.Invoicing.charge orgId contract) ⟨db, []⟩ calls) := by
  induction calls using List.reverseRecOn with
  | nil => exact ⟨List.nodup_nil, by simp [run], by simp [run], by simp [run]⟩
  | append_singleton calls call ih =>
    rw [run, List.foldl_append, List.foldl_cons, List.foldl_nil]
    exact ih.charge orgId call

/-! ### The lines of one add-on -/

/-- **One invoice** has a line for an add-on when it is in force and bills in the period. -/
theorem linesFor_billedLines {plan : Plan} {row : PeriodRow} {db : DB} {addon : AddonRow}
    (haddon : addon ∈ db.addons.rows) :
    linesFor addon (billedLines contract plan row db) =
      if inForce contract.id row.period addon ∧
        (addonLineForPeriod addon row.period (cycleMonths contract plan)).isSome then 1 else 0 := by
  have hone : (db.addons.rows.filter fun a => a.id = addon.id) = [addon] :=
    Table.filter_eq_singleton haddon (decide_eq_true rfl) fun b _ hb => of_decide_eq_true hb
  have hcomm : ((db.addons.rows.filter (inForce contract.id row.period)).filter
      fun a => a.id = addon.id) = [addon].filter (inForce contract.id row.period) := by
    rw [← hone, List.filter_filter, List.filter_filter]
    exact List.filter_congr fun a _ => Bool.and_comm _ _
  rw [linesFor, billedLines, filter_billedLine, addonsInForce_eq, hcomm]
  by_cases hforce : inForce contract.id row.period addon = true
  · rw [List.filter_cons_of_pos hforce, List.filter_nil]
    simp only [hforce, true_and]
    cases hline : addonLineForPeriod addon row.period (cycleMonths contract plan) with
    | none =>
      rw [List.filterMap_cons_none (by rw [billedLine, hline]; rfl)]
      rfl
    | some line =>
      rw [List.filterMap_cons_some (by rw [billedLine, hline]; rfl)]
      rfl
  · rw [List.filter_cons_of_neg hforce, if_neg fun h => hforce h.1]
    rfl

theorem mem_expiredIds {row : PeriodRow} {db : DB} {addon : AddonRow}
    (haddon : addon ∈ db.addons.rows) :
    addon.id ∈ expiredIds row contract db ↔
      inForce contract.id row.period addon ∧ addon.addon_cycle = .one_time := by
  rw [expiredIds, oneTimeIds, addonsInForce_eq, List.mem_map]
  constructor
  · rintro ⟨a, ha, hid⟩
    obtain ⟨ha, hcycle⟩ := List.mem_filter.1 ha
    obtain ⟨ha, hforce⟩ := List.mem_filter.1 ha
    obtain rfl := Table.eq_of_key_eq ha haddon hid
    exact ⟨hforce, of_decide_eq_true hcycle⟩
  · rintro ⟨hforce, hcycle⟩
    exact ⟨addon, List.mem_filter.2 ⟨List.mem_filter.2 ⟨haddon, hforce⟩, decide_eq_true hcycle⟩,
      rfl⟩

theorem Invoiced.present {before after : Charges} {row : PeriodRow} {lines : List BilledLine}
    (h : Invoiced contract before after row lines) {addon : AddonRow}
    (haddon : addon ∈ before.db.addons.rows) :
    (if inForce contract.id row.period addon ∧ addon.addon_cycle = .one_time then expired addon
      else addon) ∈ after.db.addons.rows := by
  have hafter := h.addons
  rw [Expiring] at hafter
  rw [hafter]
  refine List.mem_map.2 ⟨addon, haddon, ?_⟩
  rw [expireIn]
  simp only [mem_expiredIds haddon]

/-! ### A yearly add-on -/

/-- The add-on is the contract's, and active. -/
def ActiveOn (contract : Contract) (addon : AddonRow) : Prop :=
  addon.contract_id = contract.id ∧ addon.status = .active ∧ addon.deleted = false ∧
    addon.addon_deleted = false

/-- The period does not start after the end of the add-on. -/
def NotEnded (addon : AddonRow) (period : BillingPeriod) : Prop :=
  ∀ end_date, addon.end_date = some end_date → ¬ end_date.Before period.period_start

theorem inForce_iff {addon : AddonRow} (hactive : ActiveOn contract addon)
    (period : BillingPeriod) :
    inForce contract.id period addon = true ↔
      ¬ period.period_end.Before addon.start_date ∧ NotEnded addon period := by
  obtain ⟨hcontract, hstatus, hdeleted, hcatalog⟩ := hactive
  unfold NotEnded
  cases hend : addon.end_date <;> simp [inForce, hcontract, hstatus, hdeleted, hcatalog, hend]

/-- What a run keeps of a yearly add-on. -/
structure KeepsYearly (contract : Contract) (addon : AddonRow) (books : Charges) : Prop where
  present : addon ∈ books.db.addons.rows
  billed : ∀ entry ∈ books.charged, linesFor addon entry.2 =
    if inForce contract.id entry.1.period addon ∧
      anniversaryInPeriod addon.start_date entry.1.period then 1 else 0

theorem KeepsYearly.charge {addon : AddonRow} {books : Charges}
    (h : KeepsYearly contract addon books) (hcycle : addon.addon_cycle = .yearly)
    (call : InvoiceCall) :
    KeepsYearly contract addon (Vigabss.Invoicing.charge orgId contract books call) := by
  rcases charge_cases orgId books call with hsame | ⟨row, lines, hinvoiced⟩
  · rw [hsame]
    exact h
  · have hpresent := hinvoiced.present h.present
    rw [hcycle, if_neg (by simp)] at hpresent
    refine ⟨hpresent, fun entry hentry => ?_⟩
    rw [hinvoiced.charged] at hentry
    rcases List.mem_append.1 hentry with hold | hlast
    · exact h.billed entry hold
    · obtain ⟨plan, rfl⟩ := hinvoiced.billed
      rw [List.mem_singleton.1 hlast, linesFor_billedLines h.present, addonLineForPeriod]
      simp only [hcycle]
      by_cases hholds : anniversaryInPeriod addon.start_date row.period = true <;> simp [hholds]

theorem keepsYearly_run {db : DB} {addon : AddonRow} (haddon : addon ∈ db.addons.rows)
    (hcycle : addon.addon_cycle = .yearly) (calls : List InvoiceCall) :
    KeepsYearly contract addon
      (run (Vigabss.Invoicing.charge orgId contract) ⟨db, []⟩ calls) := by
  induction calls using List.reverseRecOn with
  | nil => exact ⟨haddon, by simp [run]⟩
  | append_singleton calls call ih =>
    rw [run, List.foldl_append, List.foldl_cons, List.foldl_nil]
    exact ih.charge orgId hcycle call

theorem KeepsYearly.billed_iff {addon : AddonRow} {books : Charges}
    (h : KeepsYearly contract addon books) (hactive : ActiveOn contract addon)
    {entry : PeriodRow × List BilledLine} (hentry : entry ∈ books.charged)
    (htwo : TouchesTwoYears entry.1.period) :
    linesFor addon entry.2 ≤ 1 ∧ (linesFor addon entry.2 = 1 ↔
      HoldsAnniversary addon.start_date entry.1.period ∧ NotEnded addon entry.1.period) := by
  have hbills : (inForce contract.id entry.1.period addon = true ∧
      anniversaryInPeriod addon.start_date entry.1.period = true) ↔
        HoldsAnniversary addon.start_date entry.1.period ∧ NotEnded addon entry.1.period := by
    rw [inForce_iff hactive, anniversaryInPeriod_iff htwo]
    constructor
    · rintro ⟨⟨hstart, hend⟩, hholds⟩
      exact ⟨(holdsAnniversary_iff hstart).2 hholds, hend⟩
    · rintro ⟨hholds, hend⟩
      exact ⟨⟨hholds.not_before, hend⟩, (holdsAnniversary_iff hholds.not_before).1 hholds⟩
  rw [h.billed entry hentry, ← hbills]
  split_ifs with hbilled
  · exact ⟨le_rfl, iff_of_true rfl hbilled⟩
  · exact ⟨Nat.zero_le _, by simpa using hbilled⟩

/-! ### A one-time add-on -/

/-- The add-on is billed in the first of the periods that it is in force in, and in no other. -/
def BilledFirst (contract : Contract) (addon : AddonRow)
    (charged : List (PeriodRow × List BilledLine)) : Prop :=
  ∃ before entry later, charged = before ++ entry :: later ∧
    (∀ e ∈ before, inForce contract.id e.1.period addon = false ∧ linesFor addon e.2 = 0) ∧
    inForce contract.id entry.1.period addon = true ∧ linesFor addon entry.2 = 1 ∧
    ∀ e ∈ later, linesFor addon e.2 = 0

/-- What a run keeps of a one-time add-on: it is there until it is billed, and expired then. -/
inductive KeepsOneTime (contract : Contract) (addon : AddonRow) (books : Charges) : Prop
  | unbilled (present : addon ∈ books.db.addons.rows)
      (none : ∀ e ∈ books.charged,
        inForce contract.id e.1.period addon = false ∧ linesFor addon e.2 = 0)
  | billed (present : expired addon ∈ books.db.addons.rows)
      (first : BilledFirst contract addon books.charged)

theorem linesFor_congr {a b : AddonRow} (h : a.id = b.id) (lines : List BilledLine) :
    linesFor a lines = linesFor b lines := by
  rw [linesFor, linesFor, h]

theorem KeepsOneTime.charge {addon : AddonRow} {books : Charges}
    (h : KeepsOneTime contract addon books) (hactive : addon.status = .active)
    (hcycle : addon.addon_cycle = .one_time) (call : InvoiceCall) :
    KeepsOneTime contract addon (Vigabss.Invoicing.charge orgId contract books call) := by
  rcases charge_cases orgId books call with hsame | ⟨row, lines, hinvoiced⟩
  · rw [hsame]
    exact h
  · obtain ⟨plan, rfl⟩ := hinvoiced.billed
    cases h with
    | unbilled present none =>
      have hpresent := hinvoiced.present present
      have hlines : linesFor addon (billedLines contract plan row books.db) =
          if inForce contract.id row.period addon then 1 else 0 := by
        rw [linesFor_billedLines present, addonLineForPeriod]
        simp [hcycle]
      by_cases hforce : inForce contract.id row.period addon = true
      · rw [if_pos ⟨hforce, hcycle⟩] at hpresent
        rw [if_pos hforce] at hlines
        exact .billed hpresent ⟨books.charged, _, [], hinvoiced.charged, none, hforce, hlines,
          fun _ he => absurd he List.not_mem_nil⟩
      · rw [if_neg fun hboth => hforce hboth.1] at hpresent
        rw [if_neg hforce] at hlines
        refine .unbilled hpresent fun e he => ?_
        rw [hinvoiced.charged] at he
        rcases List.mem_append.1 he with hold | hlast
        · exact none e hold
        · rw [List.mem_singleton.1 hlast]
          exact ⟨Bool.eq_false_iff.2 hforce, hlines⟩
    | billed present first =>
      -- expired, it is in force no more
      have hstatus : (expired addon).status = .expired := by
        rw [expired, if_pos hactive]
      have hforce : inForce contract.id row.period (expired addon) = false := by
        simp [inForce, hstatus]
      have hpresent := hinvoiced.present present
      rw [hforce, if_neg (by simp)] at hpresent
      obtain ⟨before, entry, later, hcharged, hbefore, hentry, hone, hlater⟩ := first
      refine .billed hpresent ⟨before, entry,
        later ++ [(row, billedLines contract plan row books.db)], ?_, hbefore, hentry, hone, ?_⟩
      · rw [hinvoiced.charged, hcharged, List.append_assoc, List.cons_append]
      · intro e he
        rcases List.mem_append.1 he with hold | hlast
        · exact hlater e hold
        · rw [List.mem_singleton.1 hlast,
            linesFor_congr (b := expired addon) (key_expired addon).symm,
            linesFor_billedLines present, hforce]
          rfl

theorem keepsOneTime_run {db : DB} {addon : AddonRow} (haddon : addon ∈ db.addons.rows)
    (hactive : addon.status = .active) (hcycle : addon.addon_cycle = .one_time)
    (calls : List InvoiceCall) :
    KeepsOneTime contract addon
      (run (Vigabss.Invoicing.charge orgId contract) ⟨db, []⟩ calls) := by
  induction calls using List.reverseRecOn with
  | nil => exact .unbilled haddon (by simp [run])
  | append_singleton calls call ih =>
    rw [run, List.foldl_append, List.foldl_cons, List.foldl_nil]
    exact ih.charge orgId hactive hcycle call

/-! ### The law -/

theorem KeepsPeriods.all_charged {db : DB} {books : Charges} (h : KeepsPeriods contract db books)
    (hdone : openPeriods contract books.db = []) {row : PeriodRow}
    (hrow : row ∈ openPeriods contract db) : ∃ entry ∈ books.charged, entry.1 = row := by
  by_contra hnone
  have hopen : row ∈ openPeriods contract books.db := by
    refine (h.open_iff row).2 ⟨hrow, fun hmem => hnone ?_⟩
    obtain ⟨entry, hentry, heq⟩ := List.mem_map.1 hmem
    exact ⟨entry, hentry, heq⟩
  rw [hdone] at hopen
  cases hopen

theorem eq_of_holds {rows : List PeriodRow} (h : GapFree (rows.map PeriodRow.period))
    {r s : PeriodRow} (hr : r ∈ rows) (hs : s ∈ rows) {date : Date} (hrd : Holds r.period date)
    (hsd : Holds s.period date) : r = s := by
  have hbefore := List.pairwise_map.1 h.before
  by_contra hne
  have hapart : rows.Pairwise fun a b => ¬ (Holds a.period date ∧ Holds b.period date) := by
    refine hbefore.imp fun hab => ?_
    rintro ⟨ha, hb⟩
    exact not_holds_both hab ha hb
  have : Std.Symm fun a b : PeriodRow => ¬ (Holds a.period date ∧ Holds b.period date) :=
    ⟨fun _ _ hab hboth => hab hboth.symm⟩
  exact hapart.forall hr hs hne ⟨hrd, hsd⟩

/-- A yearly add-on by period. -/
structure YearlyByPeriod (contract : Contract) (addon : AddonRow) (db : DB) (books : Charges) :
    Prop where
  billed : ∀ entry ∈ books.charged, TouchesTwoYears entry.1.period →
    linesFor addon entry.2 ≤ 1 ∧ (linesFor addon entry.2 = 1 ↔
      HoldsAnniversary addon.start_date entry.1.period ∧ NotEnded addon entry.1.period)
  anniversaries : openPeriods contract books.db = [] →
    GapFree ((openPeriods contract db).map PeriodRow.period) →
    (∀ row ∈ openPeriods contract db, TouchesTwoYears row.period) →
    ∀ year, addon.start_date.month / 12 ≤ year →
      Covers ((openPeriods contract db).map PeriodRow.period)
        (anniversary addon.start_date year) →
      (∀ end_date, addon.end_date = some end_date →
        ¬ end_date.Before (anniversary addon.start_date year)) →
      ∃ entry ∈ books.charged, linesFor addon entry.2 = 1 ∧ ∀ other ∈ books.charged,
        Holds other.1.period (anniversary addon.start_date year) ↔ other.1 = entry.1

/-- A one-time add-on by period. -/
structure OneTimeByPeriod (contract : Contract) (addon : AddonRow) (books : Charges) : Prop where
  first : (∃ entry ∈ books.charged, inForce contract.id entry.1.period addon = true) →
    BilledFirst contract addon books.charged
  none : (∀ entry ∈ books.charged, inForce contract.id entry.1.period addon = false) →
    ∀ entry ∈ books.charged, linesFor addon entry.2 = 0

variable {db : DB} {addon : AddonRow}

theorem yearlyByPeriod_run (haddon : addon ∈ db.addons.rows) (hactive : ActiveOn contract addon)
    (hcycle : addon.addon_cycle = .yearly) (calls : List InvoiceCall) :
    YearlyByPeriod contract addon db
      (run (Vigabss.Invoicing.charge orgId contract) ⟨db, []⟩ calls) := by
  have hperiods := @keepsPeriods_run orgId contract db calls
  have hkept := @keepsYearly_run orgId contract db addon haddon hcycle calls
  refine ⟨fun entry hentry htwo => hkept.billed_iff hactive hentry htwo, ?_⟩
  intro hdone hgapfree htwo year hyear hcovers hend
  obtain ⟨period, hperiod, hheld⟩ := hgapfree.exists_holds hcovers
  obtain ⟨row, hrow, rfl⟩ := List.mem_map.1 hperiod
  obtain ⟨entry, hentry, rfl⟩ := hperiods.all_charged hdone hrow
  refine ⟨entry, hentry, ?_, fun other hother => ⟨fun hothers => ?_, fun hsame => ?_⟩⟩
  · rw [(hkept.billed_iff hactive hentry (htwo _ hrow)).2]
    refine ⟨⟨year, hyear, hheld⟩, fun end_date hsome hbefore => hend end_date hsome ?_⟩
    have hstart := hheld.1
    unfold Date.Before at *
    omega
  · exact eq_of_holds hgapfree (hperiods.charged other hother) hrow hothers hheld
  · rw [hsame]
    exact hheld

theorem oneTimeByPeriod_run (haddon : addon ∈ db.addons.rows) (hactive : addon.status = .active)
    (hcycle : addon.addon_cycle = .one_time) (calls : List InvoiceCall) :
    OneTimeByPeriod contract addon
      (run (Vigabss.Invoicing.charge orgId contract) ⟨db, []⟩ calls) := by
  cases @keepsOneTime_run orgId contract db addon haddon hactive hcycle calls with
  | unbilled _ hnone =>
    refine ⟨?_, fun _ entry hentry => (hnone entry hentry).2⟩
    rintro ⟨entry, hentry, hforce⟩
    rw [(hnone entry hentry).1] at hforce
    cases hforce
  | billed _ hfirst =>
    refine ⟨fun _ => hfirst, fun hnone => ?_⟩
    obtain ⟨before, entry, later, hcharged, -, hforce, -⟩ := hfirst
    rw [hnone entry (by simp [hcharged])] at hforce
    cases hforce

/-- **Yearly and one-time add-ons by period**, over every run of invoices. Of periods that touch two
years at most, a yearly add-on has one line on the invoices of those with an anniversary of its
start that do not start after its end; where the periods are gap-free and all invoiced, every
anniversary up to its end is billed in just one of them. A one-time add-on has one line, on the
first invoice of a period that it is in force in. -/
theorem addons_by_period (haddon : addon ∈ db.addons.rows) (hactive : ActiveOn contract addon)
    (calls : List InvoiceCall) :
    KeepsPeriods contract db (run (charge orgId contract) ⟨db, []⟩ calls) ∧
      (addon.addon_cycle = .yearly →
        YearlyByPeriod contract addon db (run (charge orgId contract) ⟨db, []⟩ calls)) ∧
      (addon.addon_cycle = .one_time →
        OneTimeByPeriod contract addon (run (charge orgId contract) ⟨db, []⟩ calls)) :=
  ⟨keepsPeriods_run orgId db calls,
    fun hcycle => yearlyByPeriod_run orgId haddon hactive hcycle calls,
    fun hcycle => oneTimeByPeriod_run orgId haddon hactive.2.1 hcycle calls⟩

end Charges

/-! ### Periods beyond the law -/

theorem march_starts : (1 : ℤ) ≤ 1 ∧ (1 : ℤ) ≤ daysIn 24314 := by decide

theorem december_2026_starts : (1 : ℤ) ≤ 1 ∧ (1 : ℤ) ≤ daysIn 24323 := by decide

theorem january_2028_ends : (1 : ℤ) ≤ 31 ∧ (31 : ℤ) ≤ daysIn 24336 := by decide

/-- A yearly add-on from 1 March 2026. -/
def yearlyBackup : AddonRow :=
  { staticIp with
    start_date := ⟨24314, 1, march_starts⟩
    addon_cycle := .yearly }

/-- The database with the period of March, and the add-on. -/
def withBackup : DB :=
  { marchOnly with addons := ⟨[yearlyBackup], List.nodup_singleton _⟩ }

/-- The invoice of March. -/
def marchInvoice : List InvoiceCall :=
  [⟨1, none, { lostConnection with readBack := none }, noFaults⟩]

theorem addons_by_period_march :
    ActiveOn homeContract yearlyBackup ∧
      KeepsPeriods homeContract withBackup
        (run (charge 1 homeContract) ⟨withBackup, []⟩ marchInvoice) ∧
      (yearlyBackup.addon_cycle = .yearly → YearlyByPeriod homeContract yearlyBackup withBackup
        (run (charge 1 homeContract) ⟨withBackup, []⟩ marchInvoice)) ∧
      (yearlyBackup.addon_cycle = .one_time → OneTimeByPeriod homeContract yearlyBackup
        (run (charge 1 homeContract) ⟨withBackup, []⟩ marchInvoice)) :=
  ⟨⟨rfl, rfl, rfl, rfl⟩,
    addons_by_period 1 List.mem_cons_self ⟨rfl, rfl, rfl, rfl⟩ marchInvoice⟩

/-- The add-on, until 1 December 2026. -/
def endedBackup : AddonRow :=
  { yearlyBackup with end_date := some ⟨24323, 1, december_2026_starts⟩ }

/-- From 1 December 2026 to 31 January 2028. -/
def fourteenMonths : BillingPeriod :=
  ⟨⟨24323, 1, december_2026_starts⟩, ⟨24336, 31, january_2028_ends⟩, .pending,
    ⟨24323, 1, december_2026_starts⟩⟩

/-- March 2027. -/
def march2027 : BillingPeriod :=
  ⟨⟨24326, 1, by decide⟩, ⟨24326, 31, by decide⟩, .pending, ⟨24326, 1, by decide⟩⟩

/-- A period of three calendar years misses the anniversary in the middle one, and an add-on that
has ended is not billed on its anniversary. -/
theorem anniversaries_missed :
    (inForce 1 fourteenMonths yearlyBackup = true ∧
      Holds fourteenMonths (anniversary yearlyBackup.start_date 2027) ∧
      addonLineForPeriod yearlyBackup fourteenMonths 1 = none) ∧
    (ActiveOn homeContract endedBackup ∧
      Holds march2027 (anniversary endedBackup.start_date 2027) ∧
      inForce 1 march2027 endedBackup = false) :=
  ⟨⟨rfl, by decide, rfl⟩, ⟨rfl, rfl, rfl, rfl⟩, by decide, rfl⟩

end Vigabss.Invoicing
