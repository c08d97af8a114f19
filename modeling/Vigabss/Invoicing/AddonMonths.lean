import Vigabss.Invoicing.AddonLines
import Vigabss.Invoicing.Totals

/-!
# Vigabss.Invoicing.AddonMonths — the months that a monthly add-on is billed for

Runs of `generateBillingPeriod` and `generateInvoice` on a contract.  A period is one month long,
whatever the billing cycle, while the line of an add-on bills the months of the cycle; so the two
agree for the monthly cycle only.
-/

namespace Vigabss.Invoicing

open Vigabss.Lib Vigabss.Billing

/-! ### Runs -/

/-- The database, and the add-on lines that a run has put on invoices. -/
structure Books where
  db : DB
  billed : List BilledLine

/-- The billing periods of a contract. -/
def periodsOf (contractId : ℕ) (db : DB) : List BillingPeriod :=
  (db.periods.rows.filter fun row => row.contract_id = contractId).map PeriodRow.period

theorem key_newPeriodRow (contractId : ℕ) (period : BillingPeriod) (id : ℕ) :
    Keyed.key (⟨id, contractId, period, none⟩ : PeriodRow) = id := rfl

/-- `generateBillingPeriod(contract)`, on the table. -/
def insertPeriod (contract : Contract) (db : DB) : DB :=
  let rows := periodsOf contract.id db
  match (generateBillingPeriod contract.schedule rows)[rows.length]? with
  | some period =>
    { db with
      periods := db.periods.insert (fun id => ⟨id, contract.id, period, none⟩)
        (key_newPeriodRow contract.id period) }
  | none => db

/-- A call on the contract; an invoice is generated from a row of the table. -/
inductive Call where
  | generateBillingPeriod
  | generateInvoice (periodId : ℕ) (given : Option Plan) (reads : Reads) (faults : Faults)

/-- The status of a period. -/
def statusOf (db : DB) (periodId : ℕ) : Option PeriodStatus :=
  (db.periods.find? periodId).map fun row => row.period.status

/-- A call, and the add-on lines that it puts on a new invoice. -/
def step (orgId : ℕ) (contract : Contract) (books : Books) : Call → Books
  | .generateBillingPeriod => { books with db := insertPeriod contract books.db }
  | .generateInvoice periodId given reads faults =>
    match (books.db.periods.find? periodId).filter fun row => row.contract_id = contract.id with
    | none => books
    | some row =>
      let after := (generateInvoice orgId row contract reads given faults books.db).2
      let lines := match resolveFullPlan contract given reads with
        | .ok plan => billedLines contract plan row books.db
        | .error _ => []
      { db := after
        billed := if statusOf books.db periodId = some .pending ∧
            statusOf after periodId = some .invoiced then books.billed ++ lines
          else books.billed }

/-! ### Months -/

/-- The whole months from one date to another. -/
def wholeMonths (a b : Date) : ℤ :=
  b.month - a.month - if b.day < min a.day (daysIn b.month) then 1 else 0

/-- The months that a run has billed an add-on for. -/
def monthsBilled (addon : AddonRow) (books : Books) : ℕ :=
  ((books.billed.filter fun line => line.addon.id = addon.id).map BilledLine.months).sum

/-- The invoiced periods with the add-on in force. -/
def addonPeriods (contract : Contract) (addon : AddonRow) (db : DB) : List BillingPeriod :=
  (periodsOf contract.id db).filter fun period =>
    period.status = .invoiced ∧ inForce contract.id period addon

/-- The months that these periods cover. -/
def monthsCovered (contract : Contract) (addon : AddonRow) (db : DB) : ℤ :=
  ((addonPeriods contract addon db).map fun period =>
    wholeMonths period.period_start period.period_end.succ).sum

/-- The contract is billed by a cycle: its own, or that of the plans that the calls resolve. -/
def BilledBy (contract : Contract) (cycle : BillingCycle) (calls : List Call) : Prop :=
  ∀ periodId given reads faults plan, Call.generateInvoice periodId given reads faults ∈ calls →
    resolveFullPlan contract given reads = .ok plan →
      contract.billing_cycle.or plan.billing_cycle = some cycle

theorem wholeMonths_addMonth (d : Date) : wholeMonths d d.addMonth = 1 := by
  have hday := d.day_le
  have hbounds := daysIn_bounds (d.month + 1)
  have hbounds' := daysIn_bounds (d.month + 1 + 1)
  unfold wholeMonths
  rw [Date.addMonth, Date.ofOverflow]
  split_ifs with hover hless hless
  · dsimp only
    omega
  · dsimp only at hless ⊢
    omega
  · dsimp only at hless ⊢
    omega
  · dsimp only
    omega

theorem wholeMonths_closedPeriod (schedule : Schedule) (n : ℕ) :
    wholeMonths (closedPeriod schedule n).period_start (closedPeriod schedule n).period_end.succ =
      1 := by
  show wholeMonths (startOf schedule n) (startOf schedule n).addMonth.pred.succ = 1
  rw [Date.succ_pred]
  exact wholeMonths_addMonth _

/-! ### The lines of one add-on -/

theorem billedLine_addon {invoiceId : ℕ} {period : BillingPeriod} {cycleMonths : ℕ}
    {addon : AddonRow} {line : BilledLine}
    (h : billedLine invoiceId period cycleMonths addon = some line) : line.addon = addon := by
  rw [billedLine, Option.map_eq_some_iff] at h
  obtain ⟨_, _, rfl⟩ := h
  rfl

theorem filter_billedLine (invoiceId : ℕ) (period : BillingPeriod) (cycleMonths id : ℕ)
    (addons : List AddonRow) :
    (addons.filterMap (billedLine invoiceId period cycleMonths)).filter
        (fun line => line.addon.id = id) =
      (addons.filter fun addon => addon.id = id).filterMap
        (billedLine invoiceId period cycleMonths) := by
  induction addons with
  | nil => rfl
  | cons addon addons ih =>
    cases hline : billedLine invoiceId period cycleMonths addon with
    | none =>
      rw [List.filterMap_cons_none hline, ih]
      by_cases hid : addon.id = id
      · rw [List.filter_cons_of_pos (by simpa using hid), List.filterMap_cons_none hline]
      · rw [List.filter_cons_of_neg (by simpa using hid)]
    | some line =>
      have haddon := billedLine_addon hline
      rw [List.filterMap_cons_some hline]
      by_cases hid : addon.id = id
      · rw [List.filter_cons_of_pos (by simpa [haddon] using hid),
          List.filter_cons_of_pos (by simpa using hid), List.filterMap_cons_some hline, ih]
      · rw [List.filter_cons_of_neg (by simpa [haddon] using hid),
          List.filter_cons_of_neg (by simpa using hid), ih]

/-- **One invoice** bills a monthly add-on in force for the months of the cycle, once. -/
theorem months_billedLines {contract : Contract} {plan : Plan} {row : PeriodRow} {db : DB}
    {addon : AddonRow} (haddon : addon ∈ db.addons.rows)
    (hmonthly : addon.addon_cycle = .monthly) :
    (((billedLines contract plan row db).filter fun line => line.addon.id = addon.id).map
        BilledLine.months).sum =
      if inForce contract.id row.period addon then max 1 (cycleMonths contract plan) else 0 := by
  have hone : (db.addons.rows.filter fun a => a.id = addon.id) = [addon] :=
    Table.filter_eq_singleton haddon (decide_eq_true rfl) fun b _ hb => of_decide_eq_true hb
  have hcomm : ((db.addons.rows.filter (inForce contract.id row.period)).filter
      fun a => a.id = addon.id) = [addon].filter (inForce contract.id row.period) := by
    rw [← hone, List.filter_filter, List.filter_filter]
    exact List.filter_congr fun a _ => Bool.and_comm _ _
  rw [billedLines, filter_billedLine, addonsInForce_eq, hcomm]
  by_cases hforce : inForce contract.id row.period addon = true
  · obtain ⟨line, hline, _, hmonths, _⟩ := billedLine_monthly hmonthly db.invoices.nextId row.period
      (cycleMonths contract plan)
    rw [List.filter_cons_of_pos hforce, List.filter_nil, List.filterMap_cons_some hline,
      if_pos hforce, List.filterMap_nil, List.map_singleton, List.sum_singleton, hmonths]
  · rw [List.filter_cons_of_neg hforce, if_neg hforce]
    rfl

/-! ### What a run keeps -/

/-- What a run keeps: the periods are a chain, the add-on is there, it has been billed the months of
the cycle for each invoiced period with it in force, and the lines are on the invoices. -/
structure Kept (contract : Contract) (addon : AddonRow) (cycle : BillingCycle) (books : Books) :
    Prop where
  chain : Chain contract.schedule (periodsOf contract.id books.db)
  present : addon ∈ monthlyRows books.db
  billed : monthsBilled addon books =
    CONTRACT_CYCLE_MONTHS cycle * (addonPeriods contract addon books.db).length
  written : ∀ line ∈ books.billed, line.item ∈ books.db.items

section Kept

variable {contract : Contract} {addon : AddonRow} {cycle : BillingCycle} {books : Books}

theorem periodsOf_insert (db : DB) (period : BillingPeriod) :
    periodsOf contract.id
        { db with
          periods := db.periods.insert (fun id => ⟨id, contract.id, period, none⟩)
            (key_newPeriodRow contract.id period) } =
      periodsOf contract.id db ++ [period] := by
  simp [periodsOf, Table.insert]

/-- A new period is not invoiced. -/
theorem Kept.generated (h : Kept contract addon cycle books) :
    Kept contract addon cycle { books with db := insertPeriod contract books.db } := by
  obtain ⟨n, hclosed | hopen⟩ := h.chain
  · have hgenerate : generateBillingPeriod contract.schedule (closedPeriods contract.schedule n) =
        closedPeriods contract.schedule n ++
          [newPeriod contract.schedule (startOf contract.schedule n)] :=
      generateBillingPeriod_closed n
    have hdb : insertPeriod contract books.db =
        { books.db with
          periods := books.db.periods.insert
            (fun id => ⟨id, contract.id,
              newPeriod contract.schedule (startOf contract.schedule n), none⟩)
            (key_newPeriodRow contract.id _) } := by
      unfold insertPeriod
      simp only [hclosed, hgenerate, List.getElem?_concat_length]
    have hperiods : periodsOf contract.id (insertPeriod contract books.db) =
        periodsOf contract.id books.db ++
          [newPeriod contract.schedule (startOf contract.schedule n)] := by
      rw [hdb, periodsOf_insert]
    refine ⟨⟨n, Or.inr ?_⟩, ?_, ?_, ?_⟩
    · show periodsOf contract.id (insertPeriod contract books.db) = _
      rw [hperiods, hclosed]
    · show addon ∈ monthlyRows (insertPeriod contract books.db)
      rw [hdb]
      exact h.present
    · have hsame : addonPeriods contract addon (insertPeriod contract books.db) =
          addonPeriods contract addon books.db := by
        rw [addonPeriods, hperiods, List.filter_append, addonPeriods]
        simp [newPeriod]
      show monthsBilled addon books = _
      rw [h.billed]
      show _ = CONTRACT_CYCLE_MONTHS cycle *
        (addonPeriods contract addon (insertPeriod contract books.db)).length
      rw [hsame]
    · intro line hline
      show line.item ∈ (insertPeriod contract books.db).items
      rw [hdb]
      exact h.written line hline
  · have hgenerate : generateBillingPeriod contract.schedule (closedPeriods contract.schedule n ++
        [newPeriod contract.schedule (startOf contract.schedule n)]) =
          closedPeriods contract.schedule n ++
            [newPeriod contract.schedule (startOf contract.schedule n)] :=
      generateBillingPeriod_open n
    have hdb : insertPeriod contract books.db = books.db := by
      unfold insertPeriod
      simp only [hopen, hgenerate, List.getElem?_length]
    rw [hdb]
    exact h

theorem last_of_pending {rows : List BillingPeriod} (h : Chain contract.schedule rows)
    {period : BillingPeriod} (hperiod : period ∈ rows) (hpending : period.status = .pending) :
    ∃ n, rows = closedPeriods contract.schedule n ++
        [newPeriod contract.schedule (startOf contract.schedule n)] ∧
      period = newPeriod contract.schedule (startOf contract.schedule n) := by
  have hclosed : ∀ n, period ∉ closedPeriods contract.schedule n := by
    intro n hmem
    obtain ⟨m, _, rfl⟩ := mem_closedPeriods hmem
    cases hpending
  obtain ⟨n, rfl | rfl⟩ := h
  · exact absurd hperiod (hclosed n)
  · rcases List.mem_append.1 hperiod with hmem | hmem
    · exact absurd hmem (hclosed n)
    · exact ⟨n, rfl, List.mem_singleton.1 hmem⟩

/-- Closing the pending row makes one more closed period. -/
theorem periodsOf_close {db after : DB} {row : PeriodRow} {invoiceId : ℕ}
    (hrow : row ∈ db.periods.rows) (hcontract : row.contract_id = contract.id)
    (hpending : row.period.status = .pending) {n : ℕ}
    (hchain : periodsOf contract.id db = closedPeriods contract.schedule n ++
      [newPeriod contract.schedule (startOf contract.schedule n)])
    (hafter : after.periods =
      db.periods.modify row.id (invoicedBy invoiceId) (key_invoicedBy invoiceId)) :
    periodsOf contract.id after = closedPeriods contract.schedule (n + 1) := by
  have hcomm : ∀ rows : List PeriodRow,
      (rows.map fun r => if Keyed.key r = row.id then invoicedBy invoiceId r else r).filter
          (fun r => r.contract_id = contract.id) =
        (rows.filter fun r => r.contract_id = contract.id).map
          fun r => if Keyed.key r = row.id then invoicedBy invoiceId r else r := by
    intro rows
    rw [List.filter_map]
    refine congrArg _ (List.filter_congr fun r _ => ?_)
    rw [Function.comp_apply]
    split_ifs <;> rfl
  rw [periodsOf, hafter]
  show ((db.periods.rows.map _).filter _).map _ = _
  rw [hcomm, List.map_map]
  -- the closed rows are kept, since none of them is the pending one
  rw [periodsOf, List.map_eq_append_iff] at hchain
  obtain ⟨closedRows, openRows, hrows, hclosed, hopen⟩ := hchain
  have hmem : row ∈ closedRows ++ openRows := by
    rw [← hrows]
    exact List.mem_filter.2 ⟨hrow, decide_eq_true hcontract⟩
  have hinclosed : row ∉ closedRows := by
    intro hin
    have hperiod : row.period ∈ closedPeriods contract.schedule n :=
      hclosed ▸ List.mem_map_of_mem hin
    obtain ⟨m, _, hm⟩ := mem_closedPeriods hperiod
    rw [hm] at hpending
    cases hpending
  have hsub : ∀ r ∈ closedRows, r ∈ db.periods.rows := fun r hr =>
    (List.mem_filter.1 (hrows ▸ List.mem_append_left openRows hr)).1
  have hkeep : closedRows.map (PeriodRow.period ∘ fun r =>
      if Keyed.key r = row.id then invoicedBy invoiceId r else r) =
        closedPeriods contract.schedule n := by
    rw [← hclosed]
    refine List.map_congr_left fun r hr => ?_
    rw [Function.comp_apply, if_neg]
    intro hkey
    exact hinclosed (Table.eq_of_key_eq (hsub r hr) hrow hkey ▸ hr)
  obtain ⟨last, rfl, hlast⟩ := List.map_eq_singleton_iff.1 hopen
  have hsame : row = last := by
    rcases List.mem_append.1 hmem with hin | hin
    · exact absurd hin hinclosed
    · exact List.mem_singleton.1 hin
  subst hsame
  rw [hrows, List.map_append, hkeep, closedPeriods_succ, List.map_singleton, Function.comp_apply,
    if_pos (show Keyed.key row = row.id from rfl)]
  refine congrArg (closedPeriods contract.schedule n ++ [·]) ?_
  show { row.period with status := .invoiced } = closedPeriod contract.schedule n
  rw [hlast]
  rfl

/-- One more closed period, with the add-on in force or not. -/
theorem addonPeriods_succ {db after : DB} {n : ℕ}
    (hbefore : periodsOf contract.id db = closedPeriods contract.schedule n ++
      [newPeriod contract.schedule (startOf contract.schedule n)])
    (hafter : periodsOf contract.id after = closedPeriods contract.schedule (n + 1)) :
    (addonPeriods contract addon after).length = (addonPeriods contract addon db).length +
      if inForce contract.id (newPeriod contract.schedule (startOf contract.schedule n)) addon
      then 1 else 0 := by
  have hsame : inForce contract.id (closedPeriod contract.schedule n) addon =
      inForce contract.id (newPeriod contract.schedule (startOf contract.schedule n)) addon := rfl
  rw [addonPeriods, addonPeriods, hbefore, hafter, closedPeriods_succ, List.filter_append,
    List.filter_append, List.length_append, List.length_append]
  by_cases hforce : inForce contract.id
      (newPeriod contract.schedule (startOf contract.schedule n)) addon = true
  · have hbilled : (closedPeriod contract.schedule n).status = .invoiced ∧
        inForce contract.id (closedPeriod contract.schedule n) addon = true :=
      ⟨rfl, hsame.trans hforce⟩
    rw [if_pos hforce, List.filter_cons_of_pos (by exact decide_eq_true hbilled)]
    simp [newPeriod]
  · rw [if_neg hforce, List.filter_cons_of_neg (by simp [hsame, hforce])]
    simp [newPeriod]

theorem cycle_pos (cycle : BillingCycle) : 1 ≤ CONTRACT_CYCLE_MONTHS cycle := by
  cases cycle <;> decide

variable (orgId : ℕ)

/-- **A call** keeps the books: an invoice bills the add-on the months of the cycle, and closes one
period. -/
theorem Kept.step (h : Kept contract addon cycle books) (call : Call)
    (hcall : BilledBy contract cycle [call]) :
    Kept contract addon cycle (step orgId contract books call) := by
  cases call with
  | generateBillingPeriod => exact h.generated
  | generateInvoice periodId given reads faults =>
    simp only [Vigabss.Invoicing.step]
    cases hfind : (books.db.periods.find? periodId).filter
        fun row => row.contract_id = contract.id with
    | none => exact h
    | some row =>
      rw [Option.filter_eq_some_iff] at hfind
      obtain ⟨hrow, hcontract⟩ := hfind
      obtain ⟨hmem, hkey⟩ := Table.find?_eq_some.1 hrow
      have hkey : row.id = periodId := hkey
      dsimp only
      rcases written_generateInvoice orgId row contract reads given faults books.db with
        hsame | ⟨hsettled, plan, hplan, hwritten⟩
      · rw [hsame, if_neg]
        · exact h
        · rintro ⟨hpending, hinvoiced⟩
          rw [hpending] at hinvoiced
          cases hinvoiced
      · have hpending : row.period.status = .pending := by
          rw [settledPeriod, hkey, hrow] at hsettled
          by_contra hne
          simp [Option.filter, hne] at hsettled
        obtain ⟨n, hchain, hperiod⟩ := last_of_pending h.chain
          (List.mem_map_of_mem (List.mem_filter.2 ⟨hmem, hcontract⟩)) hpending
        obtain ⟨invoiceId, hperiods⟩ := hwritten.periods
        have hclosed := periodsOf_close hmem (of_decide_eq_true hcontract) hpending hchain hperiods
        have hinvoiced : statusOf (generateInvoice orgId row contract reads given faults
            books.db).2 periodId = some .invoiced := by
          rw [statusOf, hperiods, hkey, Table.find?_modify, if_pos rfl, hrow]
          rfl
        have hbefore : statusOf books.db periodId = some .pending := by
          rw [statusOf, hrow, Option.map_some, hpending]
        obtain ⟨hpresent, hmonthly⟩ := List.mem_filter.1 h.present
        have hmonths : (((billedLines contract plan row books.db).filter
            fun line => line.addon.id = addon.id).map BilledLine.months).sum =
              if inForce contract.id row.period addon then max 1 (cycleMonths contract plan)
              else 0 :=
          months_billedLines hpresent (of_decide_eq_true hmonthly)
        have hcycle : cycleMonths contract plan = CONTRACT_CYCLE_MONTHS cycle := by
          rw [cycleMonths, hcall periodId given reads faults plan List.mem_cons_self hplan]
          rfl
        rw [if_pos ⟨hbefore, hinvoiced⟩, hplan]
        refine ⟨⟨n + 1, Or.inl hclosed⟩, ?_, ?_, ?_⟩
        · show addon ∈ monthlyRows _
          rw [hwritten.monthly]
          exact h.present
        · rw [monthsBilled, List.filter_append, List.map_append, List.sum_append]
          show monthsBilled addon books + _ = _
          rw [hmonths, h.billed, addonPeriods_succ hchain hclosed, hcycle, hperiod,
            max_eq_right (cycle_pos cycle), Nat.mul_add]
          split_ifs <;> simp
        · intro line hline
          rcases List.mem_append.1 hline with hold | hnew
          · exact hwritten.items _ (List.mem_append_left _ (h.written line hold))
          · exact hwritten.items _ (List.mem_append_right _ (List.mem_map_of_mem hnew))

/-- **A run** keeps the books. -/
theorem Kept.run (h : Kept contract addon cycle books) (calls : List Call)
    (hcalls : BilledBy contract cycle calls) :
    Kept contract addon cycle (run (Invoicing.step orgId contract) books calls) := by
  induction calls generalizing books with
  | nil => exact h
  | cons call calls ih =>
    refine ih (h.step orgId call ?_) ?_
    · intro periodId given reads faults plan hmem
      refine hcalls periodId given reads faults plan ?_
      rw [List.mem_singleton.1 hmem]
      exact List.mem_cons_self
    · intro periodId given reads faults plan hmem
      exact hcalls periodId given reads faults plan (List.mem_cons_of_mem _ hmem)

theorem Kept.covered (h : Kept contract addon cycle books) :
    monthsCovered contract addon books.db = (addonPeriods contract addon books.db).length := by
  have hone : ∀ period ∈ addonPeriods contract addon books.db,
      wholeMonths period.period_start period.period_end.succ = 1 := by
    intro period hperiod
    obtain ⟨hmem, hinvoiced⟩ := List.mem_filter.1 hperiod
    have hstatus := (of_decide_eq_true hinvoiced).1
    obtain ⟨n, hrows | hrows⟩ := h.chain
    · rw [hrows] at hmem
      obtain ⟨m, _, rfl⟩ := mem_closedPeriods hmem
      exact wholeMonths_closedPeriod _ m
    · rw [hrows] at hmem
      rcases List.mem_append.1 hmem with hclosed | hnew
      · obtain ⟨m, _, rfl⟩ := mem_closedPeriods hclosed
        exact wholeMonths_closedPeriod _ m
      · rw [List.mem_singleton.1 hnew] at hstatus
        cases hstatus
  rw [monthsCovered, List.map_congr_left hone, List.map_const', List.sum_replicate, nsmul_one]

end Kept

/-! ### The law -/

theorem kept_start {contract : Contract} {addon : AddonRow} {cycle : BillingCycle} {db : DB}
    (hfresh : periodsOf contract.id db = []) (haddon : addon ∈ monthlyRows db) :
    Kept contract addon cycle ⟨db, []⟩ where
  chain := ⟨0, Or.inl hfresh⟩
  present := haddon
  billed := by simp [monthsBilled, addonPeriods, hfresh]
  written _ h := absurd h List.not_mem_nil

/-- **The months of a monthly add-on**: over every run on a contract that is billed by a cycle, the
months billed are the months that the invoiced periods cover just when the cycle is monthly, or no
period with the add-on in force has been invoiced. -/
theorem addon_months_iff (orgId : ℕ) {contract : Contract} {addon : AddonRow} {cycle : BillingCycle}
    {db : DB} {calls : List Call} (hfresh : periodsOf contract.id db = [])
    (haddon : addon ∈ db.addons.rows) (hmonthly : addon.addon_cycle = .monthly)
    (hcycle : BilledBy contract cycle calls) :
    (monthsBilled addon (run (step orgId contract) ⟨db, []⟩ calls) : ℤ) =
        monthsCovered contract addon (run (step orgId contract) ⟨db, []⟩ calls).db ↔
      cycle = .monthly ∨
        addonPeriods contract addon (run (step orgId contract) ⟨db, []⟩ calls).db = [] := by
  have hstart : Kept contract addon cycle ⟨db, []⟩ :=
    kept_start hfresh (List.mem_filter.2 ⟨haddon, decide_eq_true hmonthly⟩)
  have hkept := hstart.run orgId calls hcycle
  rw [hkept.billed, hkept.covered, ← List.length_eq_zero_iff]
  generalize (addonPeriods contract addon _).length = count
  push_cast
  constructor
  · intro heq
    by_cases hzero : count = 0
    · exact Or.inr hzero
    · left
      have hone : CONTRACT_CYCLE_MONTHS cycle = 1 := by
        have hmul : CONTRACT_CYCLE_MONTHS cycle * count = 1 * count := by
          rw [one_mul]
          exact_mod_cast heq
        exact Nat.eq_of_mul_eq_mul_right (Nat.pos_of_ne_zero hzero) hmul
      cases cycle with
      | monthly => rfl
      | quarterly => exact absurd hone (by decide)
      | semi_annual => exact absurd hone (by decide)
      | annual => exact absurd hone (by decide)
  · rintro (rfl | hzero)
    · exact one_mul _
    · rw [hzero]
      exact mul_zero _

/-- The contract of the example before, billed every three months. -/
def quarterlyContract : Contract := { homeContract with billing_cycle := some .quarterly }

/-- An add-on at 50 a month. -/
def staticIp : AddonRow :=
  ⟨1, 1, 1, 5000, ⟨24312, 1, january_2026_starts⟩, none, .active, false, "Static IP", .monthly,
    false⟩

/-- A database with the add-on, and no periods. -/
def withStaticIp : DB :=
  { marchOnly with
    periods := ⟨[], List.nodup_nil⟩
    addons := ⟨[staticIp], List.nodup_singleton _⟩ }

/-- The first period is created and invoiced. -/
def firstInvoice : List Call :=
  [.generateBillingPeriod,
    .generateInvoice 1 none { lostConnection with readBack := none } noFaults]

theorem quarterly_billedBy : BilledBy quarterlyContract .quarterly firstInvoice :=
  fun _ _ _ _ _ _ _ => rfl

theorem addon_months_iff_quarterly :
    periodsOf quarterlyContract.id withStaticIp = [] ∧
      ((monthsBilled staticIp
          (run (step 1 quarterlyContract) ⟨withStaticIp, []⟩ firstInvoice) : ℤ) =
          monthsCovered quarterlyContract staticIp
            (run (step 1 quarterlyContract) ⟨withStaticIp, []⟩ firstInvoice).db ↔
        BillingCycle.quarterly = .monthly ∨ addonPeriods quarterlyContract staticIp
          (run (step 1 quarterlyContract) ⟨withStaticIp, []⟩ firstInvoice).db = []) :=
  ⟨rfl, addon_months_iff 1 rfl List.mem_cons_self rfl quarterly_billedBy⟩

/-- The invoice of one month bills three months of the add-on. -/
theorem month_billed_as_quarter :
    BilledBy quarterlyContract .quarterly firstInvoice ∧
      monthsBilled staticIp (run (step 1 quarterlyContract) ⟨withStaticIp, []⟩ firstInvoice) = 3 ∧
      monthsCovered quarterlyContract staticIp
        (run (step 1 quarterlyContract) ⟨withStaticIp, []⟩ firstInvoice).db = 1 :=
  ⟨quarterly_billedBy, by decide +kernel, by decide +kernel⟩

end Vigabss.Invoicing
