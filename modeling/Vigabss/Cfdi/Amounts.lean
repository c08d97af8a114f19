import Vigabss.Billing.CreditLedger
import Vigabss.Lib.LargestRemainder

/-!
# Vigabss.Cfdi.Amounts — the amounts a CFDI is written with

`utils/cfdiAmounts.js`: how values are written, the Anexo 20 limits, and the split of a tax over the
lines.  Amounts with two decimals are whole cents, doubles are rationals; `toDecimal` is what
`toFixed(2)` writes of a double, in cents.
-/

namespace Vigabss.Cfdi

open Vigabss.Lib Vigabss.Billing

/-! ### The code -/

/-- A column of four decimals, in ten-thousandths. -/
def toDecimal4 (amount : ℚ) : ℤ :=
  if 0 ≤ amount then ⌊amount * 10000 + 1 / 2⌋ else -⌊-amount * 10000 + 1 / 2⌋

/-- `Number(x)` of such a column. -/
def number4 (tenThousandths : ℤ) : ℚ := fl (tenThousandths / 10000)

/-- `formatMoney(value)` of such a column, in cents. -/
def formatMoney (tenThousandths : ℤ) : ℤ := toDecimal (number4 tenThousandths)

/-- A number as written: an integer, and how many of its digits stand after the point. -/
structure Written where
  digits : ℤ
  decimals : ℕ
  deriving DecidableEq

/-- The trailing zeros of a fraction are dropped. -/
def dropZeros : ℕ → ℤ → Written
  | 0, n => ⟨n, 0⟩
  | d + 1, n => if n % 10 = 0 then dropZeros d (n / 10) else ⟨n, d + 1⟩

/-- `formatTrimmed(value, minDecimals)`, of a column of four decimals. -/
def formatTrimmed (tenThousandths : ℤ) (minDecimals : ℕ) : Written :=
  let w := dropZeros 4 tenThousandths
  ⟨w.digits * 10 ^ (minDecimals - w.decimals), max minDecimals w.decimals⟩

def formatQuantity (tenThousandths : ℤ) : Written := formatTrimmed tenThousandths 0

def formatUnitValue (tenThousandths : ℤ) : Written := formatTrimmed tenThousandths 2

/-- `Number(text)`. -/
def Written.value (w : Written) : ℚ := fl (w.digits / 10 ^ w.decimals)

def EPSILON : ℚ := fl (1 / 10 ^ 12)

/-- `10 ** -decimals / 2`. -/
def halfUnit (decimals : ℕ) : ℚ := fl (fl (1 / 10 ^ decimals) / 2)

/-- `truncate(value, 2)`. -/
def truncate (value : ℚ) : ℚ := fl (⌊fl (fl (value + EPSILON) * 100)⌋ / 100)

/-- `roundUp(value, 2)`. -/
def roundUp (value : ℚ) : ℚ := fl (⌈fl (fl (value - EPSILON) * 100)⌉ / 100)

/-- `conceptoImporteBounds(cantidadText, valorUnitarioText)`. -/
def conceptoImporteBounds (cantidad valorUnitario : Written) : ℚ × ℚ :=
  let qty := cantidad.value
  let price := valorUnitario.value
  let halfQ := halfUnit cantidad.decimals
  let halfV := halfUnit valorUnitario.decimals
  (truncate (fl (fl (qty - halfQ) * fl (price - halfV))),
    roundUp (fl (fl (fl (qty + halfQ) - EPSILON) * fl (fl (price + halfV) - EPSILON))))

/-- `trasladoImporteBounds(baseText, tasa)`; the base is written with two decimals. -/
def trasladoImporteBounds (baseCents : ℤ) (rate : ℚ) : ℚ × ℚ :=
  let base := number baseCents
  let half := halfUnit 2
  (truncate (fl (fl (base - half) * rate)),
    roundUp (fl (fl (fl (base + half) - EPSILON) * rate)))

/-- `importe < lo - EPSILON || importe > hi + EPSILON`. -/
def outside (importeCents : ℤ) (bounds : ℚ × ℚ) : Bool :=
  number importeCents < fl (bounds.1 - EPSILON) ∨ fl (bounds.2 + EPSILON) < number importeCents

/-- `b.frac - a.frac || a.i - b.i`. -/
def largerFraction (a b : ℕ × ℚ) : Prop := b.2 < a.2 ∨ a.2 = b.2 ∧ a.1 ≤ b.1

instance (a b : ℕ × ℚ) : Decidable (largerFraction a b) :=
  inferInstanceAs (Decidable (b.2 < a.2 ∨ a.2 = b.2 ∧ a.1 ≤ b.1))

/-- The lines with a fraction of a cent, by index, the largest fraction first. -/
def fractional (exact : List ℚ) (floors : List ℤ) : List (ℕ × ℚ) :=
  (((exact.zip floors).zipIdx.map fun x => (x.2, fl (x.1.1 - x.1.2))).filter
    fun x => EPSILON < x.2).insertionSort largerFraction

/-- One cent more for each line, while any remain. -/
def bump : List ℕ → ℕ → List ℤ → List ℤ
  | i :: is, n + 1, cents => bump is n (cents.modify i (· + 1))
  | _, _, cents => cents

/-- `allocateLineTaxes(bases, rate, totalTax)`. -/
def allocateLineTaxes (bases : List ℚ) (rate totalTax : ℚ) : Option (List ℚ) :=
  let exact := bases.map fun b => fl (mathRound (fl (b * 100)) * rate)
  let floors := exact.map fun c => ⌊fl (c + EPSILON)⌋
  let remaining := mathRound (fl (totalTax * 100)) - floors.sum
  let candidates := fractional exact floors
  if remaining < 0 ∨ candidates.length < remaining then none
  else some ((bump (candidates.map Prod.fst) remaining.toNat floors).map fun c : ℤ => fl (c / 100))

/-! ### What is written is what was stored -/

theorem toDecimal_near {x : ℚ} {c : ℤ} (h : |x * 100 - c| < 1 / 2) : toDecimal x = c := by
  unfold toDecimal
  split_ifs with hx
  · exact mathRound_eq h
  · have hneg : ⌊-x * 100 + 1 / 2⌋ = -c := by
      refine mathRound_eq ?_
      push_cast
      rw [show -x * 100 - -(c : ℚ) = -(x * 100 - c) by ring, abs_neg]
      exact h
    rw [hneg, neg_neg]

theorem toDecimal4_near {x : ℚ} {c : ℤ} (h : |x * 10000 - c| < 1 / 2) : toDecimal4 x = c := by
  unfold toDecimal4
  split_ifs with hx
  · exact mathRound_eq h
  · have hneg : ⌊-x * 10000 + 1 / 2⌋ = -c := by
      refine mathRound_eq ?_
      push_cast
      rw [show -x * 10000 - -(c : ℚ) = -(x * 10000 - c) by ring, abs_neg]
      exact h
    rw [hneg, neg_neg]

theorem toDecimal_number_cents {c : ℤ} (h : |c| ≤ 2 * decimalMax) : toDecimal (number c) = c := by
  have hclose := abs_le.1 (number_close h)
  refine toDecimal_near ?_
  rw [abs_lt]
  constructor <;> norm_num at hclose ⊢ <;> linarith [hclose.1, hclose.2]

theorem toDecimal4_number {c : ℤ} (h : |c| ≤ 2 * decimalMax) :
    toDecimal4 (number c) = 100 * c := by
  have hclose := abs_le.1 (number_close h)
  refine toDecimal4_near ?_
  push_cast
  rw [abs_lt]
  constructor <;> norm_num at hclose ⊢ <;> linarith [hclose.1, hclose.2]

theorem number4_cents (c : ℤ) : number4 (100 * c) = number c := by
  unfold number4 number
  push_cast
  congr 1
  ring

theorem formatMoney_cents {c : ℤ} (h : |c| ≤ 2 * decimalMax) : formatMoney (100 * c) = c := by
  rw [formatMoney, number4_cents, toDecimal_number_cents h]

/-! ### Sums of doubles -/

/-- The running sum of amounts in cents. -/
def floatSum (acc : ℚ) (cents : List ℤ) : ℚ := cents.foldl (fun acc c => fl (acc + number c)) acc

/-- Doubles near cents, each with its own error, are summed to a double near the sum. -/
theorem foldl_fl_close {l : List (ℚ × ℤ × ℕ)} {acc : ℚ} {paid : ℤ} {k : ℕ}
    (hl : ∀ p ∈ l, 0 ≤ p.2.1 ∧ |p.1 - p.2.1 / 100| ≤ p.2.2 / 2 ^ 26) (hpaid : 0 ≤ paid)
    (hsum : paid + (l.map fun p => p.2.1).sum ≤ 2 * decimalMax)
    (hk : k + (l.map fun p => p.2.2 + 1).sum ≤ 2 ^ 18) (hacc : |acc - paid / 100| ≤ k / 2 ^ 26) :
    |l.foldl (fun acc p => fl (acc + p.1)) acc -
        ((paid + (l.map fun p => p.2.1).sum : ℤ) : ℚ) / 100| ≤
      ((k + (l.map fun p => p.2.2 + 1).sum : ℕ) : ℚ) / 2 ^ 26 := by
  induction l generalizing acc paid k with
  | nil => simpa using hacc
  | cons p l ih =>
    obtain ⟨x, c, m⟩ := p
    obtain ⟨hc, hx⟩ : 0 ≤ c ∧ |x - c / 100| ≤ m / 2 ^ 26 := hl _ List.mem_cons_self
    have hrest : 0 ≤ (l.map fun p => p.2.1).sum := List.sum_nonneg fun n hn => by
      obtain ⟨p, hp, rfl⟩ := List.mem_map.1 hn
      exact (hl p (List.mem_cons_of_mem _ hp)).1
    simp only [List.map_cons, List.sum_cons] at hsum hk ⊢
    have hmax : decimalMax = 9999999999 := rfl
    have hp0 : (0 : ℚ) ≤ paid := by exact_mod_cast hpaid
    have hcq : (0 : ℚ) ≤ c := by exact_mod_cast hc
    have hle : (paid : ℚ) + c ≤ 19999999998 := by
      exact_mod_cast (by omega : paid + c ≤ 19999999998)
    have hkm : (k : ℚ) + m ≤ 2 ^ 18 := by exact_mod_cast (by omega : k + m ≤ 2 ^ 18)
    have ha := abs_le.1 hacc
    have hx := abs_le.1 hx
    have hlt : |acc + x| < 2 ^ (28 : ℤ) := by
      rw [abs_lt]
      constructor <;> norm_num at ha hx ⊢ <;> linarith [ha.1, ha.2, hx.1, hx.2]
    have hfl := abs_le.1 (abs_fl_sub_le (by norm_num) hlt)
    have hstep : |fl (acc + x) - ((paid + c : ℤ) : ℚ) / 100| ≤ ((k + (m + 1) : ℕ) : ℚ) / 2 ^ 26 := by
      push_cast
      rw [abs_le]
      constructor <;> norm_num at ha hx hfl ⊢ <;>
        linarith [ha.1, ha.2, hx.1, hx.2, hfl.1, hfl.2]
    have htail := ih (fun p hp => hl p (List.mem_cons_of_mem _ hp)) (by omega) (by omega)
      (by omega) hstep
    rw [add_assoc paid, add_assoc k] at htail
    exact htail

theorem floatSum_close {cents : List ℤ} (h0 : ∀ c ∈ cents, 0 ≤ c)
    (hsum : cents.sum ≤ 2 * decimalMax) (hlen : cents.length ≤ 2 ^ 16) :
    |floatSum 0 cents - (cents.sum : ℚ) / 100| ≤ ((2 * cents.length : ℕ) : ℚ) / 2 ^ 26 := by
  have hclose := @foldl_fl_close (cents.map fun c => (number c, c, 1)) 0 0 0
    (fun p hp => by
      obtain ⟨c, hc, rfl⟩ := List.mem_map.1 hp
      have hle := List.single_le_sum h0 c hc
      exact ⟨h0 c hc, (number_close (by rw [abs_of_nonneg (h0 c hc)]; omega)).trans (by norm_num)⟩)
    le_rfl (by simpa [Function.comp_def] using hsum)
    (by simp [Function.comp_def]; omega) (by norm_num)
  simpa [List.foldl_map, Function.comp_def, floatSum, mul_comm] using hclose

theorem toDecimal_floatSum {cents : List ℤ} (h0 : ∀ c ∈ cents, 0 ≤ c)
    (hsum : cents.sum ≤ 2 * decimalMax) (hlen : cents.length ≤ 2 ^ 16) :
    toDecimal (floatSum 0 cents) = cents.sum := by
  have hnear := abs_le.1 (floatSum_close h0 hsum hlen)
  have hk : (cents.length : ℚ) ≤ 2 ^ 16 := by exact_mod_cast hlen
  refine toDecimal_near ?_
  push_cast at hnear
  rw [abs_lt]
  constructor <;> norm_num at hnear ⊢ <;> linarith [hnear.1, hnear.2]

/-- However large the amounts, the sum of the doubles is not much less than theirs. -/
theorem le_floatSum {cents : List ℤ} {acc : ℚ} (h0 : ∀ c ∈ cents, 0 ≤ c) (hacc : 0 ≤ acc)
    (hlen : cents.length ≤ 2 ^ 16) :
    (acc + cents.sum / 100) * (1 - cents.length / 2 ^ 51) - cents.length / 2 ^ 90 ≤
      floatSum acc cents := by
  induction cents generalizing acc with
  | nil => simp [floatSum]
  | cons c cents ih =>
    have hc : (0 : ℚ) ≤ c := by exact_mod_cast h0 c List.mem_cons_self
    have hrest : (0 : ℚ) ≤ cents.sum := by
      exact_mod_cast List.sum_nonneg fun x hx => h0 x (List.mem_cons_of_mem c hx)
    have hnum := (abs_le.1 (abs_fl_sub_le_mul ((c : ℚ) / 100))).1
    rw [abs_of_nonneg (by positivity)] at hnum
    have hnum0 : 0 ≤ number c := fl_nonneg (by positivity)
    have hadd := (abs_le.1 (abs_fl_sub_le_mul (acc + number c))).1
    rw [abs_of_nonneg (by positivity)] at hadd
    rw [List.length_cons] at hlen ⊢
    have htail := @ih (fl (acc + number c)) (fun x hx => h0 x (List.mem_cons_of_mem c hx))
      (fl_nonneg (by positivity)) (by omega)
    have hn : (cents.length : ℚ) ≤ 2 ^ 16 := by exact_mod_cast (by omega : cents.length ≤ 2 ^ 16)
    have hn0 : (0 : ℚ) ≤ cents.length := Nat.cast_nonneg _
    refine le_trans ?_ htail
    -- one addition and one reading lose a relative error of `2 ^ -52`
    have hstep : (acc + (c + cents.sum) / 100) * (1 - 1 / 2 ^ 51) - 1 / 2 ^ 98 ≤
        fl (acc + number c) + cents.sum / 100 := by
      change -(_ : ℚ) ≤ number c - _ at hnum
      linarith
    have hbase : (0 : ℚ) ≤ acc + (c + cents.sum) / 100 := by positivity
    rw [List.sum_cons, Int.cast_add, Nat.cast_add, Nat.cast_one]
    generalize acc + ((c : ℚ) + cents.sum) / 100 = base at hstep hbase ⊢
    generalize fl (acc + number c) + (cents.sum : ℚ) / 100 = next at hstep ⊢
    have hmul := mul_le_mul_of_nonneg_right hstep
      (by linarith : (0 : ℚ) ≤ 1 - cents.length / 2 ^ 51)
    have hcross := mul_nonneg hbase hn0
    norm_num at hmul ⊢
    linarith

theorem sum_le_of_floatSum {cents : List ℤ} (h0 : ∀ c ∈ cents, 0 ≤ c)
    (hlen : cents.length ≤ 2 ^ 16) (h : floatSum 0 cents ≤ 10 ^ 8 + 10) :
    cents.sum ≤ 2 * decimalMax := by
  have hle := (le_floatSum h0 le_rfl hlen).trans h
  have hsum : (0 : ℚ) ≤ cents.sum := by exact_mod_cast List.sum_nonneg h0
  have hn : (cents.length : ℚ) ≤ 2 ^ 16 := by exact_mod_cast hlen
  have hmax : decimalMax = 9999999999 := rfl
  have hq : (cents.sum : ℚ) ≤ 2 * 9999999999 := by
    nlinarith [mul_nonneg hsum (sub_nonneg.2 hn)]
  rw [hmax]
  exact_mod_cast hq

/-- A rounded sum that fits its column is the sum of the cents. -/
theorem round2_floatSum {cents : List ℤ} (h0 : ∀ c ∈ cents, 0 ≤ c) (hlen : cents.length ≤ 2 ^ 16)
    (hfits : toDecimal (round2 (floatSum 0 cents)) ≤ decimalMax) :
    round2 (floatSum 0 cents) = number cents.sum ∧ 0 ≤ cents.sum ∧ cents.sum ≤ decimalMax := by
  have hmax : decimalMax = 9999999999 := rfl
  have hsmall : floatSum 0 cents ≤ 10 ^ 8 + 10 := by
    by_contra hlarge
    rw [not_le] at hlarge
    -- each rounding loses next to nothing
    have hscale := (abs_le.1 (abs_fl_sub_le_mul (floatSum 0 cents * 100))).1
    rw [abs_of_nonneg (by linarith)] at hscale
    have hfloor := Int.sub_one_lt_floor (fl (floatSum 0 cents * 100) + 1 / 2)
    have hcents : (10 ^ 10 + 990 : ℚ) ≤ mathRound (fl (floatSum 0 cents * 100)) := by
      rw [mathRound]
      linarith
    have hnum := (abs_le.1 (abs_fl_sub_le_mul
      ((mathRound (fl (floatSum 0 cents * 100)) : ℚ) / 100))).1
    rw [abs_of_nonneg (by linarith)] at hnum
    change _ ≤ round2 (floatSum 0 cents) - _ at hnum
    have hle : (10 ^ 8 + 9 : ℚ) ≤ round2 (floatSum 0 cents) := by linarith
    rw [toDecimal, if_pos (by linarith)] at hfits
    have hlast := Int.sub_one_lt_floor (round2 (floatSum 0 cents) * 100 + 1 / 2)
    have hcast : ((⌊round2 (floatSum 0 cents) * 100 + 1 / 2⌋ : ℤ) : ℚ) ≤ 9999999999 := by
      exact_mod_cast hfits
    linarith
  have hsum := sum_le_of_floatSum h0 hlen hsmall
  have habs : |cents.sum| ≤ 2 * decimalMax := by rwa [abs_of_nonneg (List.sum_nonneg h0)]
  have hk : (((2 * cents.length : ℕ) : ℚ)) / 2 ^ 26 ≤ 1 / 2 ^ 9 := by
    have : (cents.length : ℚ) ≤ 2 ^ 16 := by exact_mod_cast hlen
    push_cast
    linarith
  have hround : round2 (floatSum 0 cents) = number cents.sum := by
    rw [round2, mathRound_near (habs.trans (by norm_num [hmax]))
      ((floatSum_close h0 hsum hlen).trans hk), number]
  rw [hround, toDecimal_number_cents habs] at hfits
  exact ⟨hround, List.sum_nonneg h0, hfits⟩

/-! ### The split of a tax -/

theorem bump_eq (is : List ℕ) (n : ℕ) (cents : List ℤ) :
    bump is n cents = Lib.bump cents (is.take n) := by
  induction is generalizing n cents with
  | nil => simp [bump]
  | cons i is ih =>
    cases n with
    | zero => simp [bump]
    | succ n => rw [bump, ih, List.take_succ_cons, bump_cons]

theorem sum_bump {is : List ℕ} {n : ℕ} {cents : List ℤ} (his : ∀ i ∈ is, i < cents.length)
    (hn : n ≤ is.length) : (bump is n cents).sum = cents.sum + n := by
  rw [bump_eq, Lib.sum_bump fun i hi => his i (List.mem_of_mem_take hi), List.length_take,
    min_eq_left hn]

theorem length_bump (is : List ℕ) (n : ℕ) (cents : List ℤ) :
    (bump is n cents).length = cents.length := by
  rw [bump_eq, Lib.length_bump]

theorem bump_nonneg {is : List ℕ} {n : ℕ} {cents : List ℤ} (h : ∀ c ∈ cents, 0 ≤ c) :
    ∀ c ∈ bump is n cents, 0 ≤ c := by
  induction is generalizing n cents with
  | nil => exact h
  | cons i is ih =>
    cases n with
    | zero => exact h
    | succ n =>
      refine ih ?_
      intro c hc
      obtain ⟨j, hj, rfl⟩ := List.mem_iff_getElem.1 hc
      rw [List.getElem_modify]
      have hlt : j < cents.length := by simpa using hj
      have hold : 0 ≤ cents[j] := h _ (List.getElem_mem hlt)
      split_ifs <;> omega

theorem fractional_index {exact : List ℚ} {floors : List ℤ} (hlen : exact.length = floors.length) :
    ∀ i ∈ (fractional exact floors).map Prod.fst, i < floors.length := by
  intro i hi
  obtain ⟨x, hx, rfl⟩ := List.mem_map.1 hi
  rw [fractional, List.mem_insertionSort, List.mem_filter] at hx
  obtain ⟨y, hy, rfl⟩ := List.mem_map.1 hx.1
  obtain ⟨c, j⟩ := y
  have hj := (List.mem_zipIdx hy).2.1
  rw [List.length_zip, hlen, min_self] at hj
  omega

/-- **The split.**  When the tax can be split, the parts are whole cents, one for each line, and
sum to it; no line takes a part below zero when none is below zero. -/
theorem allocateLineTaxes_some {bases : List ℤ} {rate : ℚ} {tax : ℤ} {taxes : List ℚ}
    (hrate : 0 ≤ rate) (htax : |tax| ≤ decimalMax)
    (h : allocateLineTaxes (bases.map number) rate (number tax) = some taxes) :
    ∃ cents : List ℤ, taxes = cents.map number ∧ cents.sum = tax ∧
      cents.length = bases.length ∧
      ((∀ b ∈ bases, 0 ≤ b ∧ b ≤ 2 * decimalMax) → ∀ c ∈ cents, 0 ≤ c) := by
  have hmax : decimalMax = 9999999999 := rfl
  unfold allocateLineTaxes at h
  simp only at h
  have htarget : mathRound (fl (number tax * 100)) = tax :=
    mathRound_cents (by omega) ((number_close (by omega)).trans (by norm_num))
  rw [htarget] at h
  generalize hexact : (bases.map number).map
    (fun b => fl (mathRound (fl (b * 100)) * rate)) = exact at h
  generalize hfloors : exact.map (fun c => ⌊fl (c + EPSILON)⌋) = floors at h
  have hlen : exact.length = floors.length := by rw [← hfloors, List.length_map]
  split_ifs at h with hrem
  rw [not_or, not_lt, not_lt] at hrem
  obtain ⟨hrem0, hremle⟩ := hrem
  cases h
  have hsum : (bump ((fractional exact floors).map Prod.fst) (tax - floors.sum).toNat floors).sum =
      tax := by
    rw [sum_bump (fractional_index hlen) (by rw [List.length_map]; omega)]
    omega
  refine ⟨_, rfl, hsum, ?_, fun hbases => bump_nonneg fun c hc => ?_⟩
  · rw [length_bump, ← hlen, ← hexact, List.length_map, List.length_map]
  · rw [← hfloors, ← hexact] at hc
    obtain ⟨x, hx, rfl⟩ := List.mem_map.1 hc
    obtain ⟨y, hy, rfl⟩ := List.mem_map.1 hx
    obtain ⟨b, hb, rfl⟩ := List.mem_map.1 hy
    obtain ⟨hb0, hble⟩ := hbases b hb
    have habs : |b| ≤ 2 * decimalMax := by rwa [abs_of_nonneg hb0]
    rw [mathRound_cents habs ((number_close habs).trans (by norm_num))]
    have heps : (0 : ℚ) ≤ EPSILON := fl_nonneg (by norm_num)
    exact Int.floor_nonneg.2 (fl_nonneg (add_nonneg
      (fl_nonneg (mul_nonneg (by exact_mod_cast hb0) hrate)) heps))

end Vigabss.Cfdi
