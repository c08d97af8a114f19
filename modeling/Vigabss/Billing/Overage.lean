import Mathlib.Data.List.Sort
import Vigabss.Lib.Money

/-!
# Vigabss.Billing.Overage — data overage, data packs and rollover

`calculateOverageCharges` bills the usage beyond a plan's cap, the data packs and the rollover that
`extraAllowanceGb` counts for the period.  Amounts of data are bytes, or thousandths of a gigabyte
as the tables store them.
-/

namespace Vigabss.Billing

open Vigabss.Lib

/-! ### Overage -/

inductive OverageMode where
  | none | per_gb | upgrade_prompt
  deriving DecidableEq, Repr

/-- The row that `calculateOverageCharges` reads for a contract and a period. -/
structure UsageRow where
  data_cap_gb : Option ℚ
  overage_mode : OverageMode
  overage_price_per_gb : Option ℚ
  bytes_used : ℕ
  incomplete_rows : ℕ
  observed_rows : ℕ
  unverifiable_session_rows : ℕ

/-- What `calculateOverageCharges` returns, in hundredths of a gigabyte and in cents. -/
structure OverageCharge where
  overage_gb : ℤ
  price_per_gb : ℤ
  amount : ℤ
  deriving DecidableEq, Repr

def BYTES_PER_GB : ℚ := 1073741824

/-- The usage is known, and the plan bills what goes beyond its cap. -/
def UsageRow.bills (r : UsageRow) : Prop :=
  r.observed_rows ≠ 0 ∧ r.incomplete_rows = 0 ∧ r.unverifiable_session_rows = 0 ∧
    r.overage_mode = .per_gb ∧ r.data_cap_gb.isSome ∧ r.overage_price_per_gb.isSome

instance (r : UsageRow) : Decidable r.bills := inferInstanceAs (Decidable (_ ∧ _))

/-- `overageBytes`, in hundredths of a byte, for the gigabytes that are allowed on top. -/
def overageBytes (r : UsageRow) (extraGb : ℚ) : ℤ :=
  let allowanceBytes := Money.add (fromCents (Money.mul (r.data_cap_gb.getD 0) BYTES_PER_GB))
    (fromCents (Money.mul extraGb BYTES_PER_GB))
  Money.sub r.bytes_used (fromCents allowanceBytes)

def noOverage : OverageCharge := ⟨0, 0, 0⟩

/-- `calculateOverageCharges`, on the row read and the extra allowance of the period. -/
def calculateOverageCharges (row : Option UsageRow) (extraGb : ℚ) : OverageCharge :=
  match row with
  | none => noOverage
  | some r =>
    if ¬ r.bills then noOverage
    else
      let overage := overageBytes r extraGb
      if overage ≤ 0 then noOverage
      else
        let gb := Money.div (fromCents overage) BYTES_PER_GB
        let pricePerGb := Money.round (r.overage_price_per_gb.getD 0)
        if gb ≤ 0 then noOverage
        else ⟨gb, pricePerGb, Money.mul (fromCents gb) (fromCents pricePerGb)⟩

/-- The usage of a period that is billed goes beyond the plan's own cap. -/
def UsageRow.Over (r : UsageRow) : Prop := r.bills ∧ 0 < overageBytes r 0

instance (r : UsageRow) : Decidable r.Over := inferInstanceAs (Decidable (_ ∧ _))

/-- **The overage waived** because of an extra allowance, in whole thousandths of a gigabyte: how
much less is billed than without it. -/
def waivedGb (r : UsageRow) (extraGb : ℚ) : ℤ :=
  if r.bills then
    ⌊fromCents (max 0 (overageBytes r 0) - max 0 (overageBytes r extraGb)) * 1000 / BYTES_PER_GB⌋
  else 0

theorem overageBytes_zero_sub (r : UsageRow) (extraGb : ℚ) :
    overageBytes r 0 - overageBytes r extraGb = Money.mul extraGb BYTES_PER_GB := by
  simp only [overageBytes, Money.mul, zero_mul, cents_zero, Money.add_fromCents, Money.sub,
    cents_fromCents]
  ring

theorem mul_bytesPerGb_mono {a b : ℤ} (h : a ≤ max 0 b) :
    Money.mul (a / 1000) BYTES_PER_GB ≤ 100 * ((max 0 b : ℤ) / 1000 * BYTES_PER_GB) + 1 / 2 := by
  have hle : (a : ℚ) ≤ (max 0 b : ℤ) := by exact_mod_cast h
  refine roundAway_le.trans ?_
  rw [BYTES_PER_GB]
  linarith

theorem waivedGb_le (r : UsageRow) (extra : ℤ) : waivedGb r (extra / 1000) ≤ max 0 extra := by
  rw [waivedGb]
  split_ifs with hbills
  · have hsub := overageBytes_zero_sub r (extra / 1000)
    have hmul := mul_bytesPerGb_mono (le_max_right 0 extra)
    have hzero : (0 : ℚ) ≤ 100 * ((max 0 extra : ℤ) / 1000 * BYTES_PER_GB) + 1 / 2 := by
      have : (0 : ℚ) ≤ (max 0 extra : ℤ) := by exact_mod_cast le_max_left 0 extra
      rw [BYTES_PER_GB]
      positivity
    have hdiff : ((max 0 (overageBytes r 0) - max 0 (overageBytes r (extra / 1000)) : ℤ) : ℚ) ≤
        100 * ((max 0 extra : ℤ) / 1000 * BYTES_PER_GB) + 1 / 2 := by
      have hle : max 0 (overageBytes r 0) - max 0 (overageBytes r (extra / 1000)) ≤
          max 0 (Money.mul (extra / 1000) BYTES_PER_GB) := by omega
      refine (Int.cast_le.2 hle).trans ?_
      rw [Int.cast_max, Int.cast_zero]
      exact max_le hzero hmul
    generalize max 0 (overageBytes r 0) - max 0 (overageBytes r (extra / 1000)) = d at hdiff ⊢
    rw [← Int.lt_add_one_iff, Int.floor_lt, fromCents]
    rw [BYTES_PER_GB] at *
    push_cast at *
    linarith
  · exact le_max_left 0 extra

theorem waivedGb_of_not_over {r : UsageRow} (h : ¬ r.Over) (extraGb : ℚ) :
    waivedGb r extraGb ≤ 0 := by
  rw [waivedGb]
  split_ifs with hbills
  · have hle : overageBytes r 0 ≤ 0 := by
      by_contra hpos
      exact h ⟨hbills, by omega⟩
    have hdiff : ((max 0 (overageBytes r 0) - max 0 (overageBytes r extraGb) : ℤ) : ℚ) ≤ 0 := by
      exact_mod_cast (by omega)
    rw [← Int.lt_add_one_iff, Int.floor_lt, fromCents, BYTES_PER_GB]
    push_cast at *
    linarith
  · exact le_rfl

/-! ### Data packs -/

inductive PurchaseStatus where
  | pending | active | expired | cancelled
  deriving DecidableEq, Repr

/-- A row of `data_pack_purchases` of the contract; `gb_applied` in thousandths. -/
structure Purchase where
  id : ℕ
  activated_at : ℤ
  expires_at : Option ℤ
  gb_applied : ℕ
  status : PurchaseStatus
  deriving DecidableEq, Repr

/-- The condition of `extraAllowanceGb` on a purchase. -/
def Purchase.counts (p : Purchase) (windowStart windowEnd : ℤ) : Bool :=
  (p.status = .active ∨ p.status = .expired) ∧ p.activated_at ≤ windowEnd ∧
    p.expires_at.all fun expires => windowStart ≤ expires

/-- `pack_gb`, in thousandths. -/
def packGb (purchases : List Purchase) (windowStart windowEnd : ℤ) : ℤ :=
  ((purchases.filter fun p => p.counts windowStart windowEnd).map fun p => (p.gb_applied : ℤ)).sum

/-- The row that `purchasePack` inserts. -/
def newPurchase (id : ℕ) (activatedAt validityMs : ℤ) (dataGb : ℕ) : Purchase :=
  ⟨id, activatedAt, some (activatedAt + validityMs), dataGb, .active⟩

/-- `cancelPurchase(purchaseId)`, on a row. -/
def cancelPurchase (purchaseId : ℕ) (p : Purchase) : Purchase :=
  if p.id = purchaseId ∧ (p.status = .pending ∨ p.status = .active) then
    { p with status := .cancelled }
  else p

/-! ### Rollover -/

/-- A row of `data_rollover_balances` of the contract, in thousandths. -/
structure RolloverRow where
  billing_month : ℤ
  rollover_gb : ℕ
  consumed_rollover_gb : ℕ
  deriving DecidableEq, Repr

def RolloverRow.available_gb (r : RolloverRow) : ℤ := r.rollover_gb - r.consumed_rollover_gb

/-- The rows that `getRolloverBalance` reads: `ORDER BY billing_month DESC LIMIT 3`. -/
def rolloverHistory (rows : List RolloverRow) : List RolloverRow :=
  (rows.mergeSort fun a b => b.billing_month ≤ a.billing_month).take 3

/-- `total_available_gb` of `getRolloverBalance`. -/
def totalAvailableGb (rows : List RolloverRow) : ℤ :=
  ((rolloverHistory rows).map RolloverRow.available_gb).sum

/-- `ON DUPLICATE KEY UPDATE rollover_gb = VALUES(rollover_gb)`, on a row. -/
def setRollover (billingMonth : ℤ) (rolloverGb : ℕ) (r : RolloverRow) : RolloverRow :=
  if r.billing_month = billingMonth then { r with rollover_gb := rolloverGb } else r

/-- What `accrueRollover` writes for a contract: a row of the month, or a new amount in it. -/
def accrueRollover (rows : List RolloverRow) (billingMonth : ℤ) (rolloverGb : ℕ) :
    List RolloverRow :=
  if rows.any fun r => r.billing_month = billingMonth then
    rows.map (setRollover billingMonth rolloverGb)
  else rows ++ [⟨billingMonth, rolloverGb, 0⟩]

/-- `consumeRollover(contractId, gb)`, on a row; nothing in the repository calls it. -/
def consumeRollover (currentMonth : ℤ) (gb : ℕ) (r : RolloverRow) : RolloverRow :=
  if r.billing_month = currentMonth then
    { r with consumed_rollover_gb :=
        (r.consumed_rollover_gb + min (gb : ℤ) r.available_gb).toNat }
  else r

/-- `extraAllowanceGb`, in thousandths of a gigabyte. -/
def extraAllowanceGb (purchases : List Purchase) (rollover : List RolloverRow)
    (windowStart windowEnd : ℤ) : ℤ :=
  packGb purchases windowStart windowEnd + totalAvailableGb rollover

end Vigabss.Billing
