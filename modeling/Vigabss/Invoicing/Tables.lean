import Vigabss.Billing.Overage
import Vigabss.Billing.Periods
import Vigabss.Lib.Atomic
import Vigabss.Lib.Binary64
import Vigabss.Lib.Table

/-!
# Vigabss.Invoicing.Tables — invoices, their lines and the ledger

The tables that `generateInvoice` writes, and the line that an add-on contributes to a billing
period.  Amounts are cents.
-/

namespace Vigabss.Invoicing

open Vigabss.Lib Vigabss.Billing

/-! ### Tables -/

/-- A row of `invoices`. -/
structure InvoiceRow where
  id : ℕ
  organization_id : ℕ
  client_id : ℕ
  contract_id : ℕ
  invoice_number : String
  subtotal : ℤ
  tax_amount : ℤ
  total : ℤ
  currency : String
  tax_rate : ℚ
  tax_rate_id : Option ℕ
  due_date : Date
  issue_date : Date

instance : Keyed InvoiceRow := ⟨InvoiceRow.id⟩

/-- A row of `invoice_items`. -/
structure ItemRow where
  invoice_id : ℕ
  description : String
  quantity : ℚ
  unit_price : ℤ
  amount : ℤ
  deriving DecidableEq

inductive EntryType where
  | debit | credit
  deriving DecidableEq, Repr

/-- A row of `client_balance_ledger` under `reference_type = 'invoice'`. -/
structure InvoicePosting where
  client_id : ℕ
  organization_id : ℕ
  entry_type : EntryType
  amount : ℤ
  currency : String
  reference_id : ℕ
  description : String
  entry_date : Date

/-- A row of `billing_periods`. -/
structure PeriodRow where
  id : ℕ
  contract_id : ℕ
  period : BillingPeriod
  invoice_id : Option ℕ

instance : Keyed PeriodRow := ⟨PeriodRow.id⟩

inductive AddonStatus where
  | active | cancelled | expired
  deriving DecidableEq, Repr

inductive AddonCycle where
  | monthly | one_time | yearly
  deriving DecidableEq, Repr

/-- A row of `contract_addons`, joined with its row of `plan_addons`. -/
structure AddonRow where
  id : ℕ
  contract_id : ℕ
  quantity : ℕ
  unit_price : ℤ
  start_date : Date
  end_date : Option Date
  status : AddonStatus
  deleted : Bool
  addon_name : String
  addon_cycle : AddonCycle
  addon_deleted : Bool

instance : Keyed AddonRow := ⟨AddonRow.id⟩

/-- The database, as far as the generation of an invoice writes it; `sequences` is the
`next_number` of each organization, 1 where there is no row. -/
structure DB where
  invoices : Table InvoiceRow
  items : List ItemRow
  ledger : List InvoicePosting
  periods : Table PeriodRow
  addons : Table AddonRow
  sequences : ℕ → ℕ

/-! ### Dates as text -/

/-- A number with leading zeros. -/
def padded (width : ℕ) (n : ℤ) : String :=
  let digits := toString n
  String.ofList (List.replicate (width - digits.length) '0') ++ digits

/-- `fmtDateOnly(d)`. -/
def fmtDateOnly (d : Date) : String :=
  padded 4 (d.month / 12) ++ "-" ++ padded 2 (d.month % 12 + 1) ++ "-" ++ padded 2 d.day

/-- `d.setDate(d.getDate() + days)`. -/
def addDays (d : Date) (days : ℕ) : Date := Date.succ^[days] d

/-! ### The line of an add-on -/

/-- `round2(n)`: the cents of `Math.round(n * 100) / 100`. -/
def round2 (n : ℚ) : ℤ := mathRound (fl (n * 100))

/-- The JavaScript number of an amount. -/
def number (c : ℤ) : ℚ := fl (c / 100)

/-- The anniversary of a date in a year: 29 February falls on 28 February in a common year. -/
def anniversary (start : Date) (year : ℤ) : Date :=
  Date.clamp (12 * year + start.month % 12) start.day start.valid.1

/-- `anniversaryInPeriod(start, period)`, for the years that the period touches. -/
def anniversaryInPeriod (start : Date) (period : BillingPeriod) : Bool :=
  [period.period_start.month / 12, period.period_end.month / 12].any fun year =>
    ¬ (anniversary start year).Before period.period_start ∧
      ¬ period.period_end.Before (anniversary start year)

/-- What `addonLineForPeriod` returns. -/
structure AddonLine where
  description : String
  quantity : ℕ
  unitPrice : ℤ
  amount : ℤ

/-- `addonLineForPeriod(addon, period, cycleMonths)`. -/
def addonLineForPeriod (addon : AddonRow) (period : BillingPeriod) (cycleMonths : ℕ) :
    Option AddonLine :=
  let unitPrice := number addon.unit_price
  let units := if addon.quantity = 0 then 1 else addon.quantity
  match addon.addon_cycle with
  | .yearly =>
    if anniversaryInPeriod addon.start_date period then
      some ⟨addon.addon_name ++ " (yearly)", units, addon.unit_price, round2 (fl (unitPrice * units))⟩
    else none
  | .one_time => some ⟨addon.addon_name, units, addon.unit_price, round2 (fl (unitPrice * units))⟩
  | .monthly =>
    let months := max 1 cycleMonths
    let periodPrice := round2 (fl (unitPrice * months))
    some ⟨if 1 < months then s!"{addon.addon_name} ({months} months)" else addon.addon_name,
      units, periodPrice, round2 (fl (number periodPrice * units))⟩

end Vigabss.Invoicing

/-!
## The anniversaries in a sequence of billing periods

`anniversaryInPeriod` looks at the first and the last year of a period, so it finds an anniversary
in every period that touches no more than two calendar years.  In a gap-free sequence of periods
every date between the ends is in one period, and in one only.
-/

namespace Vigabss.Invoicing

open Vigabss.Lib Vigabss.Billing

/-- The date is in the period. -/
def Holds (period : BillingPeriod) (date : Date) : Prop :=
  ¬ date.Before period.period_start ∧ ¬ period.period_end.Before date

instance (period : BillingPeriod) (date : Date) : Decidable (Holds period date) :=
  inferInstanceAs (Decidable (_ ∧ _))

/-- The period touches two calendar years at most. -/
def TouchesTwoYears (period : BillingPeriod) : Prop :=
  period.period_end.month / 12 ≤ period.period_start.month / 12 + 1

/-- The period holds an anniversary of the date, or the date itself. -/
def HoldsAnniversary (start : Date) (period : BillingPeriod) : Prop :=
  ∃ year, start.month / 12 ≤ year ∧ Holds period (anniversary start year)

/-! ### Anniversaries -/

theorem month_anniversary (start : Date) (year : ℤ) :
    (anniversary start year).month = 12 * year + start.month % 12 := rfl

theorem anniversary_self (start : Date) : anniversary start (start.month / 12) = start := by
  have hmonth : 12 * (start.month / 12) + start.month % 12 = start.month := by omega
  rw [Date.ext_iff']
  refine ⟨hmonth, ?_⟩
  show min start.day (daysIn (12 * (start.month / 12) + start.month % 12)) = start.day
  rw [hmonth, min_eq_left start.valid.2]

theorem anniversaryInPeriod_iff {period : BillingPeriod} (h : TouchesTwoYears period)
    (start : Date) :
    anniversaryInPeriod start period = true ↔ ∃ year, Holds period (anniversary start year) := by
  have hany : anniversaryInPeriod start period = true ↔
      Holds period (anniversary start (period.period_start.month / 12)) ∨
        Holds period (anniversary start (period.period_end.month / 12)) := by
    simp [anniversaryInPeriod, Holds]
  rw [hany]
  constructor
  · rintro (hheld | hheld)
    · exact ⟨_, hheld⟩
    · exact ⟨_, hheld⟩
  · rintro ⟨year, hheld⟩
    have hyear : year = period.period_start.month / 12 ∨ year = period.period_end.month / 12 := by
      have hfrom := hheld.1
      have hto := hheld.2
      unfold Date.Before at hfrom hto
      rw [month_anniversary] at hfrom hto
      unfold TouchesTwoYears at h
      omega
    rcases hyear with rfl | rfl
    · exact .inl hheld
    · exact .inr hheld

/-- In a period that does not end before the start, an anniversary of an earlier year stands beside
the start itself. -/
theorem holdsAnniversary_iff {period : BillingPeriod} {start : Date}
    (h : ¬ period.period_end.Before start) :
    HoldsAnniversary start period ↔ ∃ year, Holds period (anniversary start year) := by
  constructor
  · rintro ⟨year, -, hheld⟩
    exact ⟨year, hheld⟩
  · rintro ⟨year, hheld⟩
    by_cases hyear : start.month / 12 ≤ year
    · exact ⟨year, hyear, hheld⟩
    · refine ⟨start.month / 12, le_rfl, ?_⟩
      rw [anniversary_self]
      refine ⟨fun hbefore => hheld.1 ?_, h⟩
      have hearlier : (anniversary start year).Before start := by
        left
        rw [month_anniversary]
        omega
      exact hearlier.trans hbefore

theorem HoldsAnniversary.not_before {period : BillingPeriod} {start : Date}
    (h : HoldsAnniversary start period) : ¬ period.period_end.Before start := by
  obtain ⟨year, hyear, hheld⟩ := h
  intro hbefore
  by_cases hsame : year = start.month / 12
  · rw [hsame, anniversary_self] at hheld
    exact hheld.2 hbefore
  · refine hheld.2 (hbefore.trans ?_)
    left
    rw [month_anniversary]
    omega

/-! ### Gap-free sequences -/

/-- Each period is not empty, and the next one starts on the day after its end. -/
def GapFree : List BillingPeriod → Prop
  | [] => True
  | period :: periods => ¬ period.period_end.Before period.period_start ∧
      (∀ next, periods.head? = some next → next.period_start = period.period_end.succ) ∧
      GapFree periods

/-- The sequence has a period that starts no later than the date, and one that ends no earlier. -/
def Covers (periods : List BillingPeriod) (date : Date) : Prop :=
  (∃ period ∈ periods, ¬ date.Before period.period_start) ∧
    ∃ period ∈ periods, ¬ period.period_end.Before date

theorem GapFree.before {periods : List BillingPeriod} (h : GapFree periods) :
    periods.Pairwise fun p q => p.period_end.Before q.period_start := by
  induction periods with
  | nil => exact .nil
  | cons period periods ih =>
    obtain ⟨-, hnext, hrest⟩ := h
    refine List.pairwise_cons.2 ⟨?_, ih hrest⟩
    cases periods with
    | nil => exact fun _ hq => absurd hq List.not_mem_nil
    | cons next periods =>
      have hstart : period.period_end.Before next.period_start := by
        rw [hnext next rfl]
        exact Date.before_succ _
      intro q hq
      rcases List.mem_cons.1 hq with rfl | hq
      · exact hstart
      · -- the next period is not empty, and ends before the later ones start
        have hlater := (List.pairwise_cons.1 (ih hrest)).1 q hq
        have hend := hrest.1
        unfold Date.Before at *
        omega

/-- **A date between the ends of a gap-free sequence is in a period of it.** -/
theorem GapFree.exists_holds {periods : List BillingPeriod} (h : GapFree periods) {date : Date}
    (hcovers : Covers periods date) : ∃ period ∈ periods, Holds period date := by
  induction periods with
  | nil =>
    obtain ⟨⟨_, hmem, _⟩, -⟩ := hcovers
    exact absurd hmem List.not_mem_nil
  | cons period periods ih =>
    by_cases hend : period.period_end.Before date
    · obtain ⟨-, last, hlast, hlastend⟩ := hcovers
      have hlast : last ∈ periods := by
        rcases List.mem_cons.1 hlast with rfl | hlast
        · exact absurd hend hlastend
        · exact hlast
      cases periods with
      | nil => exact absurd hlast List.not_mem_nil
      | cons next periods =>
        obtain ⟨p, hp, hheld⟩ := ih h.2.2 ⟨⟨next, List.mem_cons_self, by
          rw [h.2.1 next rfl]
          exact Date.not_before_succ hend⟩, last, hlast, hlastend⟩
        exact ⟨p, List.mem_cons_of_mem _ hp, hheld⟩
    · refine ⟨period, List.mem_cons_self, ?_, hend⟩
      obtain ⟨⟨first, hfirst, hstart⟩, -⟩ := hcovers
      rcases List.mem_cons.1 hfirst with rfl | hfirst
      · exact hstart
      · have hafter := (List.pairwise_cons.1 h.before).1 first hfirst
        have hnonempty := h.1
        unfold Date.Before at *
        omega

theorem not_holds_both {p q : BillingPeriod} (h : p.period_end.Before q.period_start)
    {date : Date} (hp : Holds p date) (hq : Holds q date) : False := by
  have hend := hp.2
  have hstart := hq.1
  unfold Date.Before at *
  omega

end Vigabss.Invoicing
