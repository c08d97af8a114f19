import Mathlib.Data.Int.Log
import Mathlib.Data.Rat.Floor
import Mathlib.Tactic.Positivity

/-!
# Vigabss.Lib.Binary64 — rounding to double precision

`fl q` is the double nearest to the rational `q`, ties to even, which is what a JavaScript number
literal and each arithmetic operation on JavaScript numbers give while nothing overflows.
-/

namespace Vigabss.Lib

/-- The nearest integer, ties to even. -/
def roundEven (q : ℚ) : ℤ :=
  if q - ⌊q⌋ < 1 / 2 then ⌊q⌋
  else if 1 / 2 < q - ⌊q⌋ then ⌊q⌋ + 1
  else if ⌊q⌋ % 2 = 0 then ⌊q⌋ else ⌊q⌋ + 1

/-- The exponent of the last bit of the double nearest to `q`. -/
def lastBit (q : ℚ) : ℤ := max (Int.log 2 |q| - 52) (-1074)

/-- The double nearest to `q`. -/
def fl (q : ℚ) : ℚ := if q = 0 then 0 else roundEven (q / 2 ^ lastBit q) * 2 ^ lastBit q

theorem le_roundEven {q : ℚ} {m : ℤ} (h : (m : ℚ) ≤ q) : m ≤ roundEven q := by
  have hfloor : m ≤ ⌊q⌋ := Int.le_floor.2 h
  unfold roundEven
  split_ifs <;> omega

theorem roundEven_le {q : ℚ} {m : ℤ} (h : q ≤ m) : roundEven q ≤ m := by
  rcases h.eq_or_lt with rfl | h
  · simp [roundEven]
  · have hfloor : ⌊q⌋ < m := Int.floor_lt.2 h
    unfold roundEven
    split_ifs <;> omega

theorem abs_roundEven_sub_le (q : ℚ) : |(roundEven q : ℚ) - q| ≤ 1 / 2 := by
  have hle := Int.floor_le q
  have hlt := Int.lt_floor_add_one q
  unfold roundEven
  rw [abs_le]
  split_ifs <;> push_cast <;> constructor <;> linarith

/-- **Rounding moves a number below `2 ^ n` by at most half the weight of its last bit.** -/
theorem abs_fl_sub_le {q : ℚ} {n : ℤ} (hn : -1021 ≤ n) (h : |q| < 2 ^ n) :
    |fl q - q| ≤ 2 ^ (n - 54) := by
  unfold fl
  split_ifs with hq
  · subst hq
    rw [sub_zero, abs_zero]
    exact zpow_nonneg (by norm_num) _
  have hpos : (0 : ℚ) < 2 ^ lastBit q := zpow_pos (by norm_num) _
  have hlog : Int.log 2 |q| < n := by
    have hlow := Int.zpow_log_le_self (b := 2) (by norm_num) (abs_pos.2 hq)
    have hlt : (2 : ℚ) ^ Int.log 2 |q| < 2 ^ n := lt_of_le_of_lt (by exact_mod_cast hlow) h
    exact (zpow_lt_zpow_iff_right₀ (by norm_num)).1 hlt
  have hbit : lastBit q ≤ n - 53 := by
    unfold lastBit
    omega
  have herror : (roundEven (q / 2 ^ lastBit q) : ℚ) * 2 ^ lastBit q - q =
      ((roundEven (q / 2 ^ lastBit q) : ℚ) - q / 2 ^ lastBit q) * 2 ^ lastBit q := by
    field_simp
  rw [herror, abs_mul, abs_of_pos hpos]
  calc |(roundEven (q / 2 ^ lastBit q) : ℚ) - q / 2 ^ lastBit q| * 2 ^ lastBit q
      ≤ 1 / 2 * 2 ^ lastBit q := mul_le_mul_of_nonneg_right (abs_roundEven_sub_le _) hpos.le
    _ ≤ 1 / 2 * 2 ^ (n - 53) := by
        have := zpow_le_zpow_right₀ (a := (2 : ℚ)) (by norm_num) hbit
        linarith
    _ = 2 ^ (n - 54) := by
        rw [show n - 53 = n - 54 + 1 by ring, zpow_add₀ (by norm_num)]
        ring

/-- **Rounding moves a number by at most a part in `2 ^ 53` of itself**, next to nothing near 0. -/
theorem abs_fl_sub_le_mul (q : ℚ) : |fl q - q| ≤ |q| / 2 ^ 53 + 1 / 2 ^ 100 := by
  by_cases hsmall : |q| < 2 ^ (-46 : ℤ)
  · have h := abs_fl_sub_le (by norm_num) hsmall
    have hq : 0 ≤ |q| / 2 ^ 53 := by positivity
    calc |fl q - q| ≤ 2 ^ (-46 - 54 : ℤ) := h
      _ = 1 / 2 ^ 100 := by norm_num
      _ ≤ |q| / 2 ^ 53 + 1 / 2 ^ 100 := by linarith
  · rw [not_lt] at hsmall
    have hpos : 0 < |q| := lt_of_lt_of_le (by positivity) hsmall
    have hlow : (2 : ℚ) ^ Int.log 2 |q| ≤ |q| := by
      exact_mod_cast Int.zpow_log_le_self (b := 2) (by norm_num) hpos
    have hlt : |q| < (2 : ℚ) ^ (Int.log 2 |q| + 1) := by
      exact_mod_cast Int.lt_zpow_succ_log_self (b := 2) (by norm_num) |q|
    have hlog : -46 < Int.log 2 |q| + 1 :=
      (zpow_lt_zpow_iff_right₀ (by norm_num : (1 : ℚ) < 2)).1 (hsmall.trans_lt hlt)
    calc |fl q - q| ≤ 2 ^ (Int.log 2 |q| + 1 - 54) := abs_fl_sub_le (by omega) hlt
      _ = 2 ^ Int.log 2 |q| / 2 ^ 53 := by
          rw [show Int.log 2 |q| + 1 - 54 = Int.log 2 |q| - 53 by ring, zpow_sub₀ (by norm_num)]
          rfl
      _ ≤ |q| / 2 ^ 53 := div_le_div_of_nonneg_right hlow (by norm_num)
      _ ≤ |q| / 2 ^ 53 + 1 / 2 ^ 100 := le_add_of_nonneg_right (by positivity)

/-- `Math.round`: the nearest integer, halves up. -/
def mathRound (q : ℚ) : ℤ := ⌊q + 1 / 2⌋

theorem mathRound_eq {q : ℚ} {m : ℤ} (h : |q - m| < 1 / 2) : mathRound q = m := by
  rw [abs_lt] at h
  rw [mathRound, Int.floor_eq_iff]
  constructor <;> linarith [h.1, h.2]

theorem fl_nonneg {q : ℚ} (h : 0 ≤ q) : 0 ≤ fl q := by
  unfold fl
  split_ifs
  · exact le_rfl
  · have hscaled : ((0 : ℤ) : ℚ) ≤ q / 2 ^ lastBit q := by
      rw [Int.cast_zero]
      exact div_nonneg h (zpow_nonneg (by norm_num) _)
    have hround : (0 : ℚ) ≤ roundEven (q / 2 ^ lastBit q) := by
      exact_mod_cast le_roundEven hscaled
    exact mul_nonneg hround (zpow_nonneg (by norm_num) _)

theorem fl_nonpos {q : ℚ} (h : q ≤ 0) : fl q ≤ 0 := by
  unfold fl
  split_ifs
  · exact le_rfl
  · have hscaled : q / 2 ^ lastBit q ≤ ((0 : ℤ) : ℚ) := by
      rw [Int.cast_zero]
      exact div_nonpos_of_nonpos_of_nonneg h (zpow_nonneg (by norm_num) _)
    have hround : (roundEven (q / 2 ^ lastBit q) : ℚ) ≤ 0 := by
      exact_mod_cast roundEven_le hscaled
    exact mul_nonpos_of_nonpos_of_nonneg hround (zpow_nonneg (by norm_num) _)

theorem fl_le_of_scaled {q : ℚ} {m : ℤ} (h0 : 0 ≤ q) (h : q ≤ m * 2 ^ lastBit q) :
    fl q ≤ m * 2 ^ lastBit q := by
  have hpos : (0 : ℚ) < 2 ^ lastBit q := zpow_pos (by norm_num) _
  unfold fl
  split_ifs
  · exact h0.trans h
  · have hround : roundEven (q / 2 ^ lastBit q) ≤ m := roundEven_le ((div_le_iff₀ hpos).2 h)
    exact mul_le_mul_of_nonneg_right (by exact_mod_cast hround) hpos.le

theorem le_fl_of_scaled {q : ℚ} {m : ℤ} (h : m * 2 ^ lastBit q ≤ q) : m * 2 ^ lastBit q ≤ fl q := by
  have hpos : (0 : ℚ) < 2 ^ lastBit q := zpow_pos (by norm_num) _
  unfold fl
  split_ifs with hq
  · exact h.trans hq.le
  · have hround : m ≤ roundEven (q / 2 ^ lastBit q) := le_roundEven ((le_div_iff₀ hpos).2 h)
    exact mul_le_mul_of_nonneg_right (by exact_mod_cast hround) hpos.le

/-- **Rounding stays above a half-integer** when the number is small enough to have halves. -/
theorem fl_of_half_le {q : ℚ} {m : ℤ} (hq : |q| < 2 ^ (52 : ℤ)) (h : (m : ℚ) / 2 ≤ q) :
    (m : ℚ) / 2 ≤ fl q := by
  rcases eq_or_ne q 0 with rfl | hne
  · rwa [fl, if_pos rfl]
  have hlow : (2 : ℚ) ^ Int.log 2 |q| ≤ |q| := by
    exact_mod_cast Int.zpow_log_le_self (b := 2) (by norm_num) (abs_pos.2 hne)
  have hlog : Int.log 2 |q| < 52 :=
    (zpow_lt_zpow_iff_right₀ (by norm_num : (1 : ℚ) < 2)).1 (hlow.trans_lt hq)
  -- the weight of the last bit is a half over a power of two
  obtain ⟨k, hk⟩ := Int.eq_ofNat_of_zero_le (a := -1 - lastBit q) (by rw [lastBit]; omega)
  have heq : ((m * 2 ^ k : ℤ) : ℚ) * 2 ^ lastBit q = m / 2 := by
    push_cast
    rw [mul_assoc, ← zpow_natCast, ← zpow_add₀ (by norm_num), ← hk, sub_add_cancel, zpow_neg_one,
      div_eq_mul_inv]
  have := le_fl_of_scaled (m := m * 2 ^ k) (heq.trans_le h)
  rwa [heq] at this

/-- **Rounding stays below an integer** that a double can hold. -/
theorem fl_le_natCast {q : ℚ} {n : ℕ} (h0 : 0 ≤ q) (hn : n ≤ 2 ^ 53) (h : q ≤ n) : fl q ≤ n := by
  rcases h0.eq_or_lt with rfl | hpos
  · rw [fl, if_pos rfl]
    exact Nat.cast_nonneg n
  have hlow : (2 : ℚ) ^ Int.log 2 q ≤ q := by
    exact_mod_cast Int.zpow_log_le_self (b := 2) (by norm_num) hpos
  have hn' : (n : ℚ) ≤ 2 ^ (53 : ℤ) := by exact_mod_cast hn
  have hlog : Int.log 2 q ≤ 53 :=
    (zpow_le_zpow_iff_right₀ (by norm_num : (1 : ℚ) < 2)).1 (hlow.trans (h.trans hn'))
  have hbit : lastBit q = max (Int.log 2 q - 52) (-1074) := by rw [lastBit, abs_of_pos hpos]
  rcases le_or_gt (lastBit q) 0 with hneg | hbig
  · -- the weight is 1 over an integer, so `n` is a multiple of it
    obtain ⟨k, hk⟩ := Int.eq_ofNat_of_zero_le (a := -lastBit q) (by omega)
    have heq : ((n * 2 ^ k : ℤ) : ℚ) * 2 ^ lastBit q = n := by
      push_cast
      rw [mul_assoc, ← zpow_natCast, ← zpow_add₀ (by norm_num), ← hk, neg_add_cancel, zpow_zero,
        mul_one]
    have := fl_le_of_scaled (m := n * 2 ^ k) h0 (heq ▸ h)
    rwa [heq] at this
  · -- only `2 ^ 53` itself is left, a multiple of 2
    have hone : lastBit q = 1 := by omega
    have hq : q ≤ ((2 ^ 52 : ℤ) : ℚ) * 2 ^ lastBit q := by
      rw [hone]
      exact (h.trans hn').trans (by norm_num)
    have hle : fl q ≤ (2 : ℚ) ^ (53 : ℤ) := by
      have := fl_le_of_scaled h0 hq
      rw [hone] at this
      exact this.trans (by norm_num)
    have hlog53 : Int.log 2 q = 53 := by omega
    have hge : (2 : ℚ) ^ (53 : ℤ) ≤ n := by
      rw [← hlog53]
      exact hlow.trans h
    exact hle.trans hge

/-- **`Math.round` of a quotient is not disturbed by the rounding of the quotient**: below the next
half there is more room than the error takes. -/
theorem mathRound_fl_div {a h : ℤ} {n : ℕ} (hpos : 0 < h) (ha : |(a : ℚ) / (2 * h)| < 2 ^ n)
    (hn : n ≤ 52) (hroom : (2 * h : ℚ) * 2 ^ n < 2 ^ 54) :
    mathRound (fl (a / (2 * h))) = (a + h) / (2 * h) := by
  have hden : (0 : ℚ) < 2 * h := by exact_mod_cast Int.mul_pos (by norm_num) hpos
  have hsmall : |(a : ℚ) / (2 * h)| < 2 ^ (n : ℤ) := by rwa [zpow_natCast]
  have hr := Int.mul_ediv_self_le (x := a + h) (k := 2 * h) (by omega)
  have hr' := Int.lt_mul_ediv_self_add (x := a + h) (k := 2 * h) (by omega)
  generalize (a + h) / (2 * h) = r at hr hr' ⊢
  have hlow : ((2 * r - 1 : ℤ) : ℚ) / 2 ≤ fl (a / (2 * h)) := by
    refine fl_of_half_le (hsmall.trans_le (zpow_le_zpow_right₀ (by norm_num) (by omega))) ?_
    rw [le_div_iff₀ hden]
    have hr : (2 * h * r : ℚ) ≤ a + h := by exact_mod_cast hr
    push_cast
    linarith
  have hhigh : fl (a / (2 * h)) < r + 1 / 2 := by
    have herror := (abs_le.1 (abs_fl_sub_le (by omega) hsmall)).2
    have hgap : (2 : ℚ) ^ ((n : ℤ) - 54) * (2 * h) < 1 := by
      rw [zpow_sub₀ (by norm_num), zpow_natCast, div_mul_eq_mul_div, div_lt_one (by norm_num)]
      norm_num at hroom ⊢
      linarith
    have hle : a + 1 ≤ 2 * h * r + h := by omega
    have hle' : ((a : ℚ) + 1) / (2 * h) ≤ r + 1 / 2 := by
      rw [div_le_iff₀ hden]
      have : ((a : ℚ) + 1) ≤ 2 * h * r + h := by exact_mod_cast hle
      linarith
    rw [add_div] at hle'
    have : (2 : ℚ) ^ ((n : ℤ) - 54) < 1 / (2 * h) := (lt_div_iff₀ hden).2 hgap
    linarith
  rw [mathRound, Int.floor_eq_iff]
  push_cast at hlow
  constructor <;> linarith

theorem roundEven_intCast (m : ℤ) : roundEven m = m :=
  le_antisymm (roundEven_le le_rfl) (le_roundEven le_rfl)

theorem fl_intCast {z : ℤ} (hz : |z| < 2 ^ 53) : fl z = z := by
  unfold fl
  split_ifs with hzero
  · rw [hzero]
  have hpos : (0 : ℚ) < |(z : ℚ)| := abs_pos.2 hzero
  have hlow : (2 : ℚ) ^ Int.log 2 |(z : ℚ)| ≤ |(z : ℚ)| := by
    exact_mod_cast Int.zpow_log_le_self (b := 2) (by norm_num) hpos
  have hz' : |(z : ℚ)| < 2 ^ (53 : ℤ) := by exact_mod_cast hz
  have hlog : Int.log 2 |(z : ℚ)| < 53 :=
    (zpow_lt_zpow_iff_right₀ (by norm_num : (1 : ℚ) < 2)).1 (hlow.trans_lt hz')
  have hbit : lastBit z ≤ 0 := by
    rw [lastBit]
    omega
  obtain ⟨k, hk⟩ := Int.eq_ofNat_of_zero_le (a := -lastBit z) (by omega)
  have hweight : (2 : ℚ) ^ lastBit z = (2 ^ k)⁻¹ := by
    rw [← neg_neg (lastBit z), hk, zpow_neg]
    rfl
  have hscaled : (z : ℚ) / 2 ^ lastBit z = ((z * 2 ^ k : ℤ) : ℚ) := by
    rw [hweight, div_inv_eq_mul]
    push_cast
    rfl
  rw [hscaled, roundEven_intCast, hweight]
  push_cast
  field_simp

theorem fl_natCast {n : ℕ} (hn : n < 2 ^ 53) : fl n = n := by
  have := fl_intCast (z := n) (by rw [Nat.abs_cast]; exact_mod_cast hn)
  rwa [Int.cast_natCast] at this

end Vigabss.Lib
