import Vigabss.Billing.GroupShares
import Vigabss.Billing.Periods

/-!
# Vigabss.Billing.Proration — the rest of a period when a plan changes

`calculateProration` prices the days that remain of the latest invoiced period at the old and at
the new plan's price.  It keeps the days from falling below zero but not from passing those of the
period, so the amounts stay within the prices exactly when the period has begun
(`proration_within_iff`).
-/

namespace Vigabss.Billing

open Vigabss.Lib

/-! ### The code -/

/-- A value of a `DATE` column, in days since 1 January 1970. -/
structure Day where
  number : ℤ
  valid : -354285 ≤ number ∧ number ≤ 2932896

/-- The time value of a valid `Date`, in milliseconds since 1 January 1970. -/
structure Instant where
  time : ℤ
  valid : -8640000000000000 ≤ time ∧ time ≤ 8640000000000000

/-- `new Date(day)`: the midnight that it begins with, UTC. -/
def Day.midnight (day : Day) : Instant :=
  ⟨day.number * msPerDay, by
    have := day.valid
    unfold msPerDay
    omega⟩

/-- A value of a `DECIMAL(10, 2)` price, in cents. -/
structure Price where
  cents : ℕ
  fits : cents < 10 ^ 10

/-- The columns of `billing_periods` that a plan change reads.  `generateBillingPeriod` ends a
period a day before the one that starts a month later. -/
structure PeriodRow where
  period_start : Day
  period_end : Day
  status : PeriodStatus
  ordered : period_start.number ≤ period_end.number

/-- What `calculateProration` returns. -/
structure Proration where
  credit : ℚ
  charge : ℚ
  net : ℚ
  daysRemaining : ℤ
  totalDays : ℤ
  deriving DecidableEq

/-- `Math.round((to - from) / (1000 * 60 * 60 * 24))`. -/
def daysBetween (start stop : Instant) : ℤ :=
  mathRound (fl ((stop.time - start.time : ℤ) / msPerDay))

/-- `Math.round(parseFloat(price) / totalDays * daysRemaining * 100)`, the cents of the days that
remain. -/
def proratedCents (price : Price) (totalDays daysRemaining : ℤ) : ℤ :=
  let daily := fl (number price.cents / totalDays)
  mathRound (fl (fl (daily * daysRemaining) * 100))

/-- `calculateProration`. -/
def calculateProration (oldPrice newPrice : Price) (changeDate periodStart periodEnd : Instant) :
    Proration :=
  let totalDays := daysBetween periodStart periodEnd + 1
  let daysRemaining := max 0 (daysBetween changeDate periodEnd + 1)
  if totalDays ≤ 0 ∨ daysRemaining ≤ 0 then ⟨0, 0, 0, 0, totalDays⟩
  else
    let credit := number (proratedCents oldPrice totalDays daysRemaining)
    let charge := number (proratedCents newPrice totalDays daysRemaining)
    ⟨credit, charge, number (mathRound (fl (fl (charge - credit) * 100))), daysRemaining, totalDays⟩

/-- `WHERE status = 'invoiced' ORDER BY period_start DESC LIMIT 1`, on the rows of the contract. -/
def latestInvoiced (periods : List PeriodRow) : Option PeriodRow :=
  (periods.filter fun p => p.status = .invoiced).foldl (fun best row => match best with
    | none => some row
    | some b => if b.period_start.number < row.period_start.number then some row else some b) none

/-- The columns of a plan that a plan change reads. -/
structure PlanRow where
  id : ℕ
  organization_id : Option ℕ
  price : Price

/-- The columns of a contract that a plan change reads. -/
structure PlanContract where
  plan_id : ℕ
  price_override : Option Price

/-- The plan with an id, of the organization or of all. -/
def findPlan (plans : List PlanRow) (id organizationId : ℕ) : Option PlanRow :=
  plans.find? fun p =>
    p.id = id ∧ (p.organization_id = some organizationId ∨ p.organization_id = none)

/-- `prorationFor(exec, contract, newPlanId, organizationId)` on a business day. -/
def prorationFor (plans : List PlanRow) (periods : List PeriodRow) (businessToday : Day)
    (contract : PlanContract) (newPlanId organizationId : ℕ) : Option Proration :=
  if contract.price_override.isSome then none
  else
    match findPlan plans contract.plan_id organizationId, findPlan plans newPlanId organizationId,
      latestInvoiced periods with
    | some oldPlan, some newPlan, some period =>
      let proration := calculateProration oldPlan.price newPlan.price businessToday.midnight
        period.period_start.midnight period.period_end.midnight
      if proration.net = 0 then none else some proration
    | _, _, _ => none

/-- The proration that `createRequest` of the portal stores with a plan upgrade. -/
def requestProration (oldPrice newPrice : Price) (periods : List PeriodRow) (now : Instant) :
    Option Proration :=
  (latestInvoiced periods).map fun period =>
    calculateProration oldPrice newPrice now period.period_start.midnight
      period.period_end.midnight

/-- The bounds of a proration: its amounts stay within the prices, its days within the period. -/
structure Proration.Within (r : Proration) (oldPrice newPrice : Price) : Prop where
  credit : 0 ≤ r.credit ∧ r.credit ≤ number oldPrice.cents
  charge : 0 ≤ r.charge ∧ r.charge ≤ number newPrice.cents
  days : 0 ≤ r.daysRemaining ∧ r.daysRemaining ≤ r.totalDays

/-! ### Days -/

theorem daysBetween_midnight (start : Instant) (day : Day) :
    daysBetween start day.midnight =
      (day.number * msPerDay - start.time + 43200000) / msPerDay := by
  have hstart := start.valid
  have hday := day.valid
  have hms : (msPerDay : ℚ) = 2 * (43200000 : ℤ) := by
    rw [msPerDay]
    norm_num
  have hdiff : |((day.number * msPerDay - start.time : ℤ) : ℚ)| < 2 ^ 27 * 86400000 := by
    rw [← Int.cast_abs, show (2 ^ 27 * 86400000 : ℚ) = ((2 ^ 27 * 86400000 : ℤ) : ℚ) by norm_num,
      Int.cast_lt, abs_lt]
    rw [msPerDay]
    omega
  have hround := mathRound_fl_div (a := day.number * msPerDay - start.time) (h := 43200000)
    (n := 27) (by norm_num) (by
      rw [abs_div, div_lt_iff₀ (by norm_num)]
      refine hdiff.trans_le ?_
      norm_num) (by norm_num) (by norm_num)
  rw [daysBetween, Day.midnight, hms, hround]
  rfl

theorem daysBetween_midnights (start stop : Day) :
    daysBetween start.midnight stop.midnight = stop.number - start.number := by
  rw [daysBetween_midnight]
  show (stop.number * 86400000 - start.number * 86400000 + 43200000) / 86400000 = _
  omega

/-! ### Amounts -/

theorem fl_le {q : ℚ} (h : 0 ≤ q) : fl q ≤ q + q / 2 ^ 53 + 1 / 2 ^ 100 := by
  have := (abs_le.1 (abs_fl_sub_le_mul q)).2
  rw [abs_of_nonneg h] at this
  linarith

theorem number_nonneg (cents : ℕ) : 0 ≤ number cents :=
  fl_nonneg (div_nonneg (by exact_mod_cast cents.zero_le) (by norm_num))

theorem number_le_number {a b : ℕ} (h : a ≤ b) (hb : b < 10 ^ 10) : number a ≤ number b := by
  rcases h.eq_or_lt with rfl | hlt
  · exact le_rfl
  · have hfits : ∀ c : ℕ, c < 10 ^ 10 → |(c : ℤ)| ≤ 2 * decimalMax := by
      intro c hc
      rw [Nat.abs_cast]
      unfold decimalMax
      omega
    exact (number_lt_number (hfits a (h.trans_lt hb)) (hfits b hb)).2 (by exact_mod_cast hlt) |>.le

/-- **The share of a price never passes the price**, when no more days remain than there are. -/
theorem proratedCents_le (price : Price) {totalDays daysRemaining : ℤ} (hlong : totalDays ≤ 2 ^ 23)
    (h0 : 0 < daysRemaining) (hle : daysRemaining ≤ totalDays) :
    0 ≤ proratedCents price totalDays daysRemaining ∧
      proratedCents price totalDays daysRemaining ≤ price.cents := by
  obtain ⟨k, hk⟩ := price
  simp only [proratedCents]
  have hT : (0 : ℚ) < totalDays := by exact_mod_cast h0.trans_le hle
  have hd : (0 : ℚ) < daysRemaining := by exact_mod_cast h0
  have hdT : (daysRemaining : ℚ) ≤ totalDays := by exact_mod_cast hle
  have hTlong : (totalDays : ℚ) ≤ 2 ^ 23 := by exact_mod_cast hlong
  have hk0 : (0 : ℚ) ≤ k := k.cast_nonneg
  have hk' : (k : ℚ) ≤ 10 ^ 10 := by exact_mod_cast hk.le
  -- each of the four roundings adds a part in `2 ^ 53` at most
  have hP0 : 0 ≤ number k := number_nonneg k
  have hP := fl_le (q := (k : ℚ) / 100) (by positivity)
  have hnumber : number k = fl ((k : ℚ) / 100) := by
    rw [number]
    push_cast
    rfl
  rw [← hnumber] at hP
  generalize number k = P at hP0 hP
  have hq0 : 0 ≤ P / totalDays := div_nonneg hP0 hT.le
  have hdaily := fl_le hq0
  have hdaily0 := fl_nonneg hq0
  have hshare : fl (P / totalDays) * daysRemaining ≤ P + P / 2 ^ 53 + 1 / 2 ^ 77 := by
    calc fl (P / totalDays) * daysRemaining
        ≤ (P / totalDays + P / totalDays / 2 ^ 53 + 1 / 2 ^ 100) * totalDays :=
          mul_le_mul hdaily hdT hd.le (hdaily0.trans hdaily)
      _ = P + P / 2 ^ 53 + totalDays / 2 ^ 100 := by field_simp
      _ ≤ P + P / 2 ^ 53 + 1 / 2 ^ 77 := by linarith
  have hshare0 := mul_nonneg hdaily0 hd.le
  have hround := fl_le hshare0
  have hround0 := fl_nonneg hshare0
  have hcents0 : 0 ≤ fl (fl (P / totalDays) * daysRemaining) * 100 := by positivity
  have hcents := fl_le hcents0
  have hlow := fl_nonneg hcents0
  constructor
  · exact Int.floor_nonneg.2 (by linarith)
  · have hlt : fl (fl (fl (P / totalDays) * daysRemaining) * 100) + 1 / 2 < ((k + 1 : ℤ) : ℚ) := by
      push_cast
      linarith
    exact Int.le_of_lt_add_one (Int.floor_lt.2 hlt)

/-! ### The bounds -/

/-- The days that remain are at most those of the period exactly when the period begins less than
half a day after the change. -/
theorem daysRemaining_le_iff (changeDate : Instant) (p : PeriodRow) :
    max 0 (daysBetween changeDate p.period_end.midnight + 1) ≤
        daysBetween p.period_start.midnight p.period_end.midnight + 1 ↔
      p.period_start.number * msPerDay < changeDate.time + 43200000 := by
  have hordered := p.ordered
  rw [daysBetween_midnights, daysBetween_midnight, msPerDay]
  omega

/-- **A proration stays within its bounds exactly when the period has begun**, up to half a day
after the change. -/
theorem calculateProration_within_iff (oldPrice newPrice : Price) (changeDate : Instant)
    (p : PeriodRow) :
    (calculateProration oldPrice newPrice changeDate p.period_start.midnight
        p.period_end.midnight).Within oldPrice newPrice ↔
      p.period_start.number * msPerDay < changeDate.time + 43200000 := by
  rw [← daysRemaining_le_iff]
  have hordered := p.ordered
  have htotal := daysBetween_midnights p.period_start p.period_end
  have hstart := p.period_start.valid
  have hstop := p.period_end.valid
  unfold calculateProration
  dsimp only
  generalize htotal' : daysBetween p.period_start.midnight p.period_end.midnight + 1 = totalDays
  generalize hleft : max 0 (daysBetween changeDate p.period_end.midnight + 1) = daysRemaining
  have h0 : 0 ≤ daysRemaining := hleft ▸ le_max_left 0 _
  split_ifs with hnone
  · have hzero : daysRemaining = 0 := by omega
    refine ⟨fun _ => by omega, fun _ => ⟨⟨le_rfl, number_nonneg _⟩, ⟨le_rfl, number_nonneg _⟩,
      ⟨le_rfl, by show 0 ≤ totalDays; omega⟩⟩⟩
  · refine ⟨fun h => h.days.2, fun hle => ?_⟩
    have hshare : ∀ price : Price, 0 ≤ number (proratedCents price totalDays daysRemaining) ∧
        number (proratedCents price totalDays daysRemaining) ≤ number price.cents := by
      intro price
      obtain ⟨hpos, hle'⟩ := proratedCents_le price (by omega) (by omega) hle
      obtain ⟨c, hc⟩ := Int.eq_ofNat_of_zero_le hpos
      rw [hc] at hle' ⊢
      exact ⟨number_nonneg c, number_le_number (by exact_mod_cast hle') price.fits⟩
    exact ⟨hshare oldPrice, hshare newPrice, h0, hle⟩

/-- **When the prorations of the program stay within their bounds**: that of a staff or batch change
when the latest invoiced period has begun by today, and that of a portal request up to half a day
before it begins. -/
theorem proration_within_iff (periods : List PeriodRow) (p : PeriodRow)
    (hp : latestInvoiced periods = some p) :
    (∀ (plans : List PlanRow) (today : Day) (contract : PlanContract) (newPlanId organizationId : ℕ)
        (oldPlan newPlan : PlanRow) (r : Proration),
      findPlan plans contract.plan_id organizationId = some oldPlan →
      findPlan plans newPlanId organizationId = some newPlan →
      prorationFor plans periods today contract newPlanId organizationId = some r →
      (r.Within oldPlan.price newPlan.price ↔ p.period_start.number ≤ today.number)) ∧
    ∀ (oldPrice newPrice : Price) (now : Instant) (r : Proration),
      requestProration oldPrice newPrice periods now = some r →
      (r.Within oldPrice newPrice ↔ p.period_start.number * msPerDay < now.time + 43200000) := by
  constructor
  · intro plans today contract newPlanId organizationId oldPlan newPlan r hold hnew hr
    have hcalc : r = calculateProration oldPlan.price newPlan.price today.midnight
        p.period_start.midnight p.period_end.midnight := by
      rw [prorationFor, hold, hnew, hp] at hr
      dsimp only at hr
      split_ifs at hr
      exact (Option.some.inj hr).symm
    rw [hcalc, calculateProration_within_iff]
    show _ < today.number * msPerDay + 43200000 ↔ _
    rw [msPerDay]
    omega
  · intro oldPrice newPrice now r hr
    rw [requestProration, hp] at hr
    obtain rfl := Option.some.inj hr
    exact calculateProration_within_iff oldPrice newPrice now p

/-! ### A period that has not begun -/

/-- Days of January and February 2026. -/
def januaryDay (n : ℕ) (h : n < 60) : Day := ⟨20454 + n, by omega⟩

/-- The period from one day to a later one. -/
def invoicedPeriod (first last : ℕ) (h : first ≤ last) (hlast : last < 60) : PeriodRow :=
  ⟨januaryDay first (by omega), januaryDay last hlast, .invoiced, by
    show (20454 + first : ℤ) ≤ 20454 + last
    omega⟩

/-- Plans of 300.00 and 600.00. -/
def twoPlans : List PlanRow := [⟨1, some 1, ⟨30000, by decide⟩⟩, ⟨2, none, ⟨60000, by decide⟩⟩]

/-- Halfway through January an upgrade pays half of both prices; at the end of its first day a
portal request pays nearly all of them. -/
theorem proration_within_january :
    (⟨150, 300, 150, 15, 30⟩ : Proration).Within ⟨30000, by decide⟩ ⟨60000, by decide⟩ ∧
      ∃ r, requestProration ⟨30000, by decide⟩ ⟨60000, by decide⟩
          [invoicedPeriod 0 29 (by decide) (by decide)] ⟨20454 * 86400000 + 86399999, by decide⟩ =
        some r ∧ r.Within ⟨30000, by decide⟩ ⟨60000, by decide⟩ := by
  constructor
  · exact ((proration_within_iff [invoicedPeriod 0 29 (by decide) (by decide)] _ rfl).1 twoPlans
      (januaryDay 15 (by decide)) ⟨1, none⟩ 2 1 _ _ _ rfl rfl (by decide +kernel)).2 (by decide)
  · exact ⟨_, rfl, ((proration_within_iff [invoicedPeriod 0 29 (by decide) (by decide)] _ rfl).2 _ _
      ⟨20454 * 86400000 + 86399999, by decide⟩ _ rfl).2 (by decide)⟩

/-- The period from 31 January is invoiced when the plan changes on 1 January: 60 of its 30 days
remain, and the credit is twice the price. -/
theorem proration_of_future_period :
    prorationFor twoPlans [invoicedPeriod 30 59 (by decide) (by decide)]
        (januaryDay 0 (by decide)) ⟨1, none⟩ 2 1 = some ⟨600, 1200, 600, 60, 30⟩ ∧
      ¬ (⟨600, 1200, 600, 60, 30⟩ : Proration).Within ⟨30000, by decide⟩ ⟨60000, by decide⟩ := by
  refine ⟨by decide +kernel, fun h => ?_⟩
  exact absurd h.days.2 (by decide)

end Vigabss.Billing
