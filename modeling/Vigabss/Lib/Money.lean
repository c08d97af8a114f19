import Mathlib.Data.Rat.Floor

/-!
# Vigabss.Lib.Money — decimal amounts and whole cents

Amounts are exact rationals; each operation rounds its exact result to cents, half away from zero.
-/

namespace Vigabss.Lib

/-- The nearest integer, halves away from zero. -/
def roundAway (q : ℚ) : ℤ := if q < 0 then -⌊-q + 1 / 2⌋ else ⌊q + 1 / 2⌋

@[simp] theorem roundAway_intCast (n : ℤ) : roundAway n = n := by
  have hhalf : ∀ m : ℤ, ⌊(m : ℚ) + 1 / 2⌋ = m := by
    intro m
    rw [Int.floor_eq_iff]
    constructor <;> linarith
  rw [roundAway]
  split_ifs
  · have := hhalf (-n)
    rw [Int.cast_neg] at this
    rw [this, neg_neg]
  · exact hhalf n

theorem roundAway_le {q : ℚ} : (roundAway q : ℚ) ≤ q + 1 / 2 := by
  rw [roundAway]
  split_ifs with h
  · have := Int.lt_floor_add_one (-q + 1 / 2)
    push_cast
    linarith
  · exact Int.floor_le _

/-- The whole cents of an amount. -/
def cents (q : ℚ) : ℤ := roundAway (100 * q)

/-- The amount of some cents. -/
def fromCents (c : ℤ) : ℚ := c / 100

@[simp] theorem cents_fromCents (c : ℤ) : cents (fromCents c) = c := by
  rw [cents, fromCents, mul_div_cancel₀ _ (by norm_num)]
  exact roundAway_intCast c

@[simp] theorem fromCents_zero : fromCents 0 = 0 := by
  rw [fromCents, Int.cast_zero, zero_div]

@[simp] theorem cents_zero : cents 0 = 0 := by
  rw [← fromCents_zero, cents_fromCents]

namespace Money

/-- `money.round(value)`, in cents. -/
def round (value : ℚ) : ℤ := cents value

/-- `money.add(a, b)`, in cents. -/
def add (a b : ℚ) : ℤ := cents a + cents b

/-- `money.sub(a, b)`, in cents. -/
def sub (a b : ℚ) : ℤ := cents a - cents b

/-- `money.mul(a, b)`, in cents: the exact product, rounded once. -/
def mul (a b : ℚ) : ℤ := cents (a * b)

/-- `money.div(a, b)`, in cents: the exact quotient, rounded once. -/
def div (a b : ℚ) : ℤ := cents (a / b)

@[simp] theorem add_fromCents (a b : ℤ) : add (fromCents a) (fromCents b) = a + b := by
  rw [add, cents_fromCents, cents_fromCents]

end Money

end Vigabss.Lib
