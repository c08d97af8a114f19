import Mathlib.Data.List.Infix
import Vigabss.Billing.PaymentPlans
import Vigabss.Lib.Calendar

/-!
# Vigabss.Billing.DueDates — what the installments of a plan are and when they fall due

`splitAmounts` loses no cent: the installments sum to the total.  `computeDueDates` counts months
with an overflowing `setMonth`, so an installment falls into its month exactly when this month has
the day (`installments_due_iff`).
-/

namespace Vigabss.Billing

open Vigabss.Lib

/-! ### The code -/

inductive Frequency where
  | weekly | biweekly | monthly
  deriving DecidableEq, Repr

/-- `d.setDate(base.getDate() + days)`. -/
def addDays (base : Date) (days : ℕ) : Date := Date.succ^[days] base

/-- `d.setMonth(base.getMonth() + i)`: the day runs over when the month does not have it. -/
def addMonths (base : Date) (i : ℕ) : Date := .ofOverflow (base.month + i) base.day base.day_le

/-- The due date of an installment, from that of the first. -/
def dueDate (base : Date) (frequency : Frequency) (i : ℕ) : Date :=
  match frequency with
  | .weekly => addDays base (i * 7)
  | .biweekly => addDays base (i * 14)
  | .monthly => addMonths base i

/-- `computeDueDates(count, frequency)` on a day. -/
def computeDueDates (today : Date) (count : ℕ) (frequency : Frequency) : List Date :=
  (List.range count).map (dueDate today.succ frequency)

/-! ### Amounts -/

theorem abs_mathRound_sub_le (q : ℚ) : |(mathRound q : ℚ) - q| ≤ 1 / 2 := by
  have hle := Int.floor_le (q + 1 / 2)
  have hlt := Int.lt_floor_add_one (q + 1 / 2)
  rw [mathRound, abs_le]
  constructor <;> linarith

theorem abs_fl_sub_le_nonneg {q : ℚ} (h : 0 ≤ q) : |fl q - q| ≤ q / 2 ^ 53 + 1 / 2 ^ 100 := by
  have := abs_fl_sub_le_mul q
  rwa [abs_of_nonneg h] at this

theorem mul_unit_le {total c : ℚ} (h0 : 0 ≤ total) (h : total ≤ 10 ^ 10) (hc1 : 1 ≤ c)
    (hc : c ≤ 2 ^ 32) : c * ⌊fl (fl (total / c) * 100)⌋ ≤ total * 100 + 1 / 2 ^ 12 := by
  have hc0 : 0 < c := by linarith
  have hq0 : 0 ≤ total / c := div_nonneg h0 hc0.le
  have ha := (abs_le.1 (abs_fl_sub_le_nonneg hq0)).2
  have ha0 := mul_nonneg (fl_nonneg hq0) (by norm_num : (0 : ℚ) ≤ 100)
  have hb := (abs_le.1 (abs_fl_sub_le_nonneg ha0)).2
  have hu := Int.floor_le (fl (fl (total / c) * 100))
  have hca : c * fl (total / c) ≤ total + total / 2 ^ 53 + 1 / 2 ^ 68 := by
    calc c * fl (total / c) ≤ c * (total / c + (total / c / 2 ^ 53 + 1 / 2 ^ 100)) :=
          mul_le_mul_of_nonneg_left (by linarith only [ha]) hc0.le
      _ = total + total / 2 ^ 53 + c / 2 ^ 100 := by
          field_simp
          ring
      _ ≤ total + total / 2 ^ 53 + 1 / 2 ^ 68 := by linarith only [hc]
  generalize fl (total / c) = a at ha0 hb hu hca ⊢
  calc c * ⌊fl (a * 100)⌋ ≤ c * (a * 100 + (a * 100 / 2 ^ 53 + 1 / 2 ^ 100)) :=
        mul_le_mul_of_nonneg_left (by linarith only [hb, hu]) hc0.le
    _ = c * a * 100 + c * a * 100 / 2 ^ 53 + c / 2 ^ 100 := by ring
    _ ≤ total * 100 + 1 / 2 ^ 12 := by linarith only [hca, hc, h]

theorem sumOfOthers_close {u : ℤ} {m : ℚ} (hu : 0 ≤ u) (hm0 : 0 ≤ m) (hm : m ≤ 2 ^ 32)
    (hmu : m * u ≤ 2 ^ 41) : |fl (number u * m) - m * u / 100| ≤ 1 / 2 ^ 17 := by
  have hu' : (0 : ℚ) ≤ u := by exact_mod_cast hu
  have hP := abs_fl_sub_le_nonneg (q := (u : ℚ) / 100) (by positivity)
  have hP0 : 0 ≤ number u := fl_nonneg (by positivity)
  have hPm : |number u * m - m * u / 100| ≤ 1 / 2 ^ 18 := by
    calc |number u * m - m * u / 100| = |fl ((u : ℚ) / 100) - u / 100| * m := by
          rw [number, ← abs_of_nonneg hm0, ← abs_mul, abs_of_nonneg hm0]
          congr 1
          ring
      _ ≤ (u / 100 / 2 ^ 53 + 1 / 2 ^ 100) * m := mul_le_mul_of_nonneg_right hP hm0
      _ = m * u / 100 / 2 ^ 53 + m / 2 ^ 100 := by ring
      _ ≤ 1 / 2 ^ 18 := by linarith only [hm, hmu]
  have hfl := abs_fl_sub_le_nonneg (mul_nonneg hP0 hm0)
  generalize number u * m = M at hPm hfl ⊢
  rw [abs_le] at hPm hfl ⊢
  constructor <;> linarith only [hPm.1, hPm.2, hfl.1, hfl.2, hmu]

theorem last_close {total s U : ℚ} (h : total ≤ 10 ^ 10)
    (hs : |s - U / 100| ≤ 1 / 2 ^ 17) (hU0 : 0 ≤ U) (hU : U ≤ total * 100 + 1 / 2 ^ 12) :
    |U + mathRound (fl (fl (total - s) * 100)) - total * 100| ≤ 1 / 2 + 1 / 2 ^ 9 := by
  rw [abs_le] at hs
  have hd : |total - s| ≤ 10 ^ 10 + 1 := by
    rw [abs_le]
    constructor <;> linarith only [h, hs.1, hs.2, hU0, hU]
  have he := abs_le.1 (abs_fl_sub_le_mul (total - s))
  have he' : |fl (total - s) * 100| ≤ 10 ^ 12 + 200 := by
    rw [abs_le] at hd ⊢
    have hd' : |total - s| ≤ 10 ^ 10 + 1 := abs_le.2 hd
    constructor <;> linarith only [he.1, he.2, hd.1, hd.2, hd']
  have hf := abs_le.1 (abs_fl_sub_le_mul (fl (total - s) * 100))
  have hr := abs_le.1 (abs_mathRound_sub_le (fl (fl (total - s) * 100)))
  rw [abs_le]
  constructor <;> linarith only [hs.1, hs.2, he.1, he.2, hf.1, hf.2, hr.1, hr.2, hd, he']

/-- **The installments sum to the total**, to the nearest cent: the last one takes what rounding
down left over. -/
theorem splitAmounts_sum {total : ℚ} {count : ℕ} (h0 : 0 ≤ total) (h : total ≤ 10 ^ 10)
    (hcount : 1 ≤ count) (hlong : count ≤ 2 ^ 32) :
    ∃ cents : List ℤ, splitAmounts total count = cents.map number ∧
      |(cents.sum : ℚ) - total * 100| ≤ 1 / 2 + 1 / 2 ^ 9 := by
  refine ⟨List.replicate (count - 1) ⌊fl (fl (total / count) * 100)⌋ ++ [_], by
    rw [splitAmounts, List.map_append, List.map_replicate, List.map_singleton], ?_⟩
  rw [List.sum_append, List.sum_replicate, List.sum_singleton, nsmul_eq_mul]
  have hc1 : (1 : ℚ) ≤ count := by exact_mod_cast hcount
  have hc : (count : ℚ) ≤ 2 ^ 32 := by exact_mod_cast hlong
  have hcast : (((count - 1 : ℕ) : ℤ) : ℚ) = count - 1 := by
    rw [Int.cast_natCast, Nat.cast_sub hcount, Nat.cast_one]
  have hu0 : 0 ≤ ⌊fl (fl (total / count) * 100)⌋ := by
    refine Int.floor_nonneg.2 (fl_nonneg (mul_nonneg (fl_nonneg ?_) (by norm_num)))
    exact div_nonneg h0 (by linarith only [hc1])
  have hcu := mul_unit_le h0 h hc1 hc
  generalize ⌊fl (fl (total / count) * 100)⌋ = u at hu0 hcu ⊢
  have hu0' : (0 : ℚ) ≤ u := by exact_mod_cast hu0
  have hU0 : 0 ≤ (count - 1 : ℚ) * u := mul_nonneg (by linarith only [hc1]) hu0'
  have hU : (count - 1 : ℚ) * u ≤ total * 100 + 1 / 2 ^ 12 := by linarith only [hcu, hu0']
  have hs := sumOfOthers_close hu0 (m := count - 1) (by linarith only [hc1]) (by linarith only [hc])
    (by linarith only [hU, h])
  rw [Int.cast_add, Int.cast_mul, hcast]
  exact last_close h hs hU0 hU

/-- **The installments sum to a total of whole cents.** -/
theorem splitAmounts_number {k count : ℕ} (h : k < 10 ^ 12) (hcount : 1 ≤ count)
    (hlong : count ≤ 2 ^ 32) :
    ∃ cents : List ℤ, splitAmounts (number k) count = cents.map number ∧ cents.sum = k := by
  have hk : (k : ℚ) < 10 ^ 12 := by exact_mod_cast h
  have hk0 : 0 ≤ (k : ℚ) / 100 := by positivity
  have hnear := abs_le.1 (abs_fl_sub_le_nonneg hk0)
  have hnumber : number k = fl ((k : ℚ) / 100) := by rw [number, Int.cast_natCast]
  have hle : number k ≤ 10 ^ 10 := by
    rw [hnumber]
    have := fl_le_natCast (n := 10 ^ 10) hk0 (by norm_num) (by push_cast; linarith only [hk])
    exact_mod_cast this
  obtain ⟨cents, hcents, hsum⟩ := splitAmounts_sum (hnumber ▸ fl_nonneg hk0) hle hcount hlong
  refine ⟨cents, hcents, ?_⟩
  rw [hnumber] at hsum
  have habs : |((cents.sum - k : ℤ) : ℚ)| < 1 := by
    rw [Int.cast_sub, Int.cast_natCast]
    rw [abs_le] at hsum
    rw [abs_lt]
    constructor <;> linarith only [hsum.1, hsum.2, hnear.1, hnear.2, hk]
  have : |cents.sum - k| < 1 := by exact_mod_cast habs
  rw [Int.abs_lt_one_iff] at this
  omega

/-! ### Dates -/

theorem before_addDays (d : Date) {m n : ℕ} (h : m < n) : (addDays d m).Before (addDays d n) := by
  induction n, h using Nat.le_induction with
  | base =>
    rw [addDays, addDays, Function.iterate_succ_apply']
    exact Date.before_succ _
  | succ n _ ih =>
    refine ih.trans ?_
    rw [addDays, addDays, Function.iterate_succ_apply']
    exact Date.before_succ _

theorem addMonths_month (base : Date) (i : ℕ) :
    (addMonths base i).month = base.month + i ↔ base.day ≤ daysIn (base.month + i) := by
  rw [addMonths, Date.ofOverflow]
  split_ifs with hlate <;> dsimp only <;> omega

theorem before_addMonths (base : Date) {i j : ℕ} (h : i < j) :
    (addMonths base i).Before (addMonths base j) := by
  have hday := base.day_le
  have hi := daysIn_bounds (base.month + i)
  have hj := daysIn_bounds (base.month + j)
  unfold Date.Before addMonths Date.ofOverflow
  split_ifs <;> dsimp only <;> omega

theorem before_dueDate (base : Date) (frequency : Frequency) {i j : ℕ} (h : i < j) :
    (dueDate base frequency i).Before (dueDate base frequency j) := by
  cases frequency with
  | weekly => exact before_addDays base (by omega)
  | biweekly => exact before_addDays base (by omega)
  | monthly => exact before_addMonths base h

theorem computeDueDates_increasing (today : Date) (count : ℕ) (frequency : Frequency) :
    (computeDueDates today count frequency).Pairwise Date.Before := by
  rw [computeDueDates, List.pairwise_map]
  exact List.pairwise_lt_range.imp fun h => before_dueDate _ frequency h

theorem month_computeDueDates (today : Date) (count i : ℕ) (h : i < count) :
    ((computeDueDates today count .monthly)[i]?.map Date.month) =
      some (addMonths today.succ i).month := by
  rw [computeDueDates, List.getElem?_map, List.getElem?_range h]
  rfl

/-- **What the installments of a plan are.**  Their amounts sum to the total, rounded to the cent
where it is none; their due dates come one after the other, and fall into the months after the
first exactly when each of these months has the day. -/
theorem installments_due_iff (count : ℕ) (hcount : 1 ≤ count) (hlong : count ≤ 2 ^ 32) :
    (∀ total : ℚ, 0 ≤ total → total ≤ 10 ^ 10 →
      ∃ cents : List ℤ, splitAmounts total count = cents.map number ∧
        |(cents.sum : ℚ) - total * 100| ≤ 1 / 2 + 1 / 2 ^ 9) ∧
    (∀ k : ℕ, k < 10 ^ 12 →
      ∃ cents : List ℤ, splitAmounts (number k) count = cents.map number ∧ cents.sum = k) ∧
    ∀ today : Date,
      ((computeDueDates today count .monthly).Pairwise Date.Before ∧
        ∀ i < count, (computeDueDates today count .monthly)[i]?.map Date.month =
          some (today.succ.month + i)) ↔
      ∀ i < count, today.succ.day ≤ daysIn (today.succ.month + i) := by
  refine ⟨?_, ?_, ?_⟩
  · intro total h0 h
    exact splitAmounts_sum h0 h hcount hlong
  · intro k hk
    exact splitAmounts_number hk hcount hlong
  · intro today
    rw [and_iff_right (computeDueDates_increasing today count .monthly)]
    refine forall₂_congr fun i hi => ?_
    rw [month_computeDueDates today count i hi, Option.some_inj, addMonths_month]

/-- A third of 1.00 and 100.00 in three parts. -/
theorem installments_due_three :
    (∃ cents : List ℤ, splitAmounts (1 / 3) 3 = cents.map number ∧
      |(cents.sum : ℚ) - 1 / 3 * 100| ≤ 1 / 2 + 1 / 2 ^ 9) ∧
    (∃ cents : List ℤ, splitAmounts (number 10000) 3 = cents.map number ∧ cents.sum = 10000) ∧
      splitAmounts (number 10000) 3 = [3333, 3333, 3334].map number :=
  ⟨(installments_due_iff 3 (by decide) (by decide)).1 (1 / 3) (by norm_num) (by norm_num),
    (installments_due_iff 3 (by decide) (by decide)).2.1 10000 (by decide), by decide +kernel⟩

/-- A monthly plan made on 30 January 2026: the second installment is due on 3 March. -/
theorem february_left_out :
    ((computeDueDates ⟨2026 * 12, 30, by decide⟩ 2 .monthly).map fun d => (d.month, d.day)) =
      [(2026 * 12, 31), (2026 * 12 + 2, 3)] ∧
    ¬ ∀ i : ℕ, i < 2 → (computeDueDates ⟨2026 * 12, 30, by decide⟩ 2 .monthly)[i]?.map Date.month =
      some ((2026 * 12 : ℤ) + i) := by
  decide

end Vigabss.Billing
