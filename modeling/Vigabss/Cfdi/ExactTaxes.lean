import Vigabss.Cfdi.Conversion

/-!
# Vigabss.Cfdi.ExactTaxes — the split of a tax in exact arithmetic

`utils/cfdiAmounts.js` with rationals for the doubles.  The tax of a document, rounded half up, lies
between the floors and the ceilings of its lines' taxes, so `allocateLineTaxes` always splits it,
and the parts stay within the Anexo 20 limits (`taxes_split_exactly`).
-/

namespace Vigabss.Cfdi.Exact

open Vigabss.Lib

/-! ### The code -/

def EPSILON : ℚ := 1 / 10 ^ 12

/-- `Number(text)`. -/
def value (w : Written) : ℚ := w.digits / 10 ^ w.decimals

/-- `10 ** -decimals / 2`. -/
def halfUnit (decimals : ℕ) : ℚ := 1 / 10 ^ decimals / 2

/-- `truncate(value, 2)`. -/
def truncate (value : ℚ) : ℚ := ⌊(value + EPSILON) * 100⌋ / 100

/-- `roundUp(value, 2)`. -/
def roundUp (value : ℚ) : ℚ := ⌈(value - EPSILON) * 100⌉ / 100

/-- `conceptoImporteBounds(cantidadText, valorUnitarioText)`. -/
def conceptoImporteBounds (cantidad valorUnitario : Written) : ℚ × ℚ :=
  let qty := value cantidad
  let price := value valorUnitario
  let halfQ := halfUnit cantidad.decimals
  let halfV := halfUnit valorUnitario.decimals
  (truncate ((qty - halfQ) * (price - halfV)),
    roundUp ((qty + halfQ - EPSILON) * (price + halfV - EPSILON)))

/-- `trasladoImporteBounds(baseText, tasa)`; the base is written with two decimals. -/
def trasladoImporteBounds (baseCents : ℤ) (rate : ℚ) : ℚ × ℚ :=
  let base : ℚ := baseCents / 100
  (truncate ((base - halfUnit 2) * rate), roundUp ((base + halfUnit 2 - EPSILON) * rate))

/-- `importe < lo - EPSILON || importe > hi + EPSILON`. -/
def outside (importeCents : ℤ) (bounds : ℚ × ℚ) : Bool :=
  (importeCents / 100 : ℚ) < bounds.1 - EPSILON ∨ bounds.2 + EPSILON < (importeCents / 100 : ℚ)

/-- The lines with a fraction of a cent, by index, the largest fraction first. -/
def fractional (exact : List ℚ) (floors : List ℤ) : List (ℕ × ℚ) :=
  (((exact.zip floors).zipIdx.map fun x : (ℚ × ℤ) × ℕ => (x.2, x.1.1 - (x.1.2 : ℚ))).filter
    fun x => EPSILON < x.2).insertionSort largerFraction

/-- `allocateLineTaxes(bases, rate, totalTax)`. -/
def allocateLineTaxes (bases : List ℚ) (rate totalTax : ℚ) : Option (List ℚ) :=
  let exact := bases.map fun b => mathRound (b * 100) * rate
  let floors := exact.map fun c => ⌊c + EPSILON⌋
  let remaining := mathRound (totalTax * 100) - floors.sum
  let candidates := fractional exact floors
  if remaining < 0 ∨ candidates.length < remaining then none
  else some ((bump (candidates.map Prod.fst) remaining.toNat floors).map fun c : ℤ => (c / 100 : ℚ))

/-- `formatMoney(value)` of a column of four decimals, in cents. -/
def formatMoney (tenThousandths : ℤ) : ℤ := Billing.toDecimal (tenThousandths / 10000)

/-- The violations of one line, as texts. -/
def lineViolations (line : ℕ) (c : Concepto) : List String :=
  let cantidad := formatQuantity c.cantidad
  let valor := formatUnitValue c.valor_unitario
  let importe := formatMoney c.importe
  let bounds := conceptoImporteBounds cantidad valor
  let own := if outside importe bounds then
      ["Line " ++ toString line ++ ": Importe " ++ decimalText 2 importe ++ " is not Cantidad " ++
        cantidad.text ++ " × ValorUnitario " ++ valor.text ++ " (allowed " ++ toFixed 2 bounds.1 ++
        "–" ++ toFixed 2 bounds.2 ++ ")"]
    else []
  own ++ (c.impuestos.filter fun t => t.exento = false).flatMap fun t =>
    let base := formatMoney t.base
    let taxImporte := formatMoney (t.importe.getD 0)
    let rate : ℚ := t.tasa_o_cuota.getD 0 / 10 ^ 6
    let bounds := trasladoImporteBounds base rate
    if outside taxImporte bounds then
      ["Line " ++ toString line ++ ": IVA " ++ decimalText 2 taxImporte ++ " is outside Base " ++
        decimalText 2 base ++ " × " ++ (dropZeros 6 (t.tasa_o_cuota.getD 0)).text ++ " (allowed " ++
        toFixed 2 bounds.1 ++ "–" ++ toFixed 2 bounds.2 ++ ")"]
    else []

/-- `anexo20Violations(conceptos, impuestos)`. -/
def anexo20Violations (conceptos : List Concepto) : List String :=
  conceptos.zipIdx.flatMap fun x => lineViolations (x.2 + 1) x.1

/-! ### The cents of the lines

A base of `b` cents at a rate of `rate` ten-thousandths owes `b * rate` ten-thousandths of a cent. -/

theorem floor_add_epsilon (n : ℕ) : ⌊(n : ℚ) / 10000 + EPSILON⌋ = ((n / 10000 : ℕ) : ℤ) := by
  have hdiv := Nat.div_add_mod n 10000
  have hmod : n % 10000 ≤ 9999 := by omega
  have hn : (n : ℚ) = 10000 * (n / 10000 : ℕ) + (n % 10000 : ℕ) := by exact_mod_cast hdiv.symm
  have hmod' : ((n % 10000 : ℕ) : ℚ) ≤ 9999 := by exact_mod_cast hmod
  have hmod0 : (0 : ℚ) ≤ ((n % 10000 : ℕ) : ℚ) := Nat.cast_nonneg _
  rw [Int.floor_eq_iff, EPSILON, Int.cast_natCast]
  constructor <;> linarith

theorem epsilon_lt_fraction (n : ℕ) :
    EPSILON < (n : ℚ) / 10000 - ((n / 10000 : ℕ) : ℤ) ↔ n % 10000 ≠ 0 := by
  have hdiv := Nat.div_add_mod n 10000
  have hn : (n : ℚ) = 10000 * (n / 10000 : ℕ) + (n % 10000 : ℕ) := by exact_mod_cast hdiv.symm
  have hfrac : (n : ℚ) / 10000 - ((n / 10000 : ℕ) : ℤ) = ((n % 10000 : ℕ) : ℚ) / 10000 := by
    rw [Int.cast_natCast]
    linarith
  rw [hfrac, EPSILON]
  constructor
  · rintro h hzero
    rw [hzero] at h
    norm_num at h
  · intro h
    have hone : (1 : ℚ) ≤ ((n % 10000 : ℕ) : ℚ) := by exact_mod_cast Nat.one_le_iff_ne_zero.2 h
    linarith

theorem length_fractional (ns : List ℕ) :
    (fractional (ns.map fun n : ℕ => (n : ℚ) / 10000) (ns.map fun n : ℕ => ((n / 10000 : ℕ) : ℤ))).length =
      ns.countP fun n => n % 10000 ≠ 0 := by
  rw [fractional, List.length_insertionSort, List.zip_map', List.zipIdx_map, List.map_map,
    List.filter_map, List.length_map]
  have hcongr : ((fun x : ℕ × ℚ => decide (EPSILON < x.2)) ∘
      ((fun x : (ℚ × ℤ) × ℕ => (x.2, x.1.1 - (x.1.2 : ℚ))) ∘
        Prod.map (fun n : ℕ => ((n : ℚ) / 10000, ((n / 10000 : ℕ) : ℤ))) id)) =
      (fun n : ℕ => decide (n % 10000 ≠ 0)) ∘ Prod.fst := by
    funext x
    exact decide_eq_decide.2 (epsilon_lt_fraction x.1)
  rw [hcongr, ← List.countP_eq_length_filter, ← List.countP_map, List.zipIdx_map_fst]

theorem mem_fractional {ns : List ℕ} {i : ℕ}
    (h : i ∈ (fractional (ns.map fun n : ℕ => (n : ℚ) / 10000)
      (ns.map fun n : ℕ => ((n / 10000 : ℕ) : ℤ))).map Prod.fst) :
    ∃ n, ns[i]? = some n ∧ n % 10000 ≠ 0 := by
  obtain ⟨x, hx, rfl⟩ := List.mem_map.1 h
  rw [fractional, List.mem_insertionSort, List.mem_filter, List.zip_map', List.zipIdx_map,
    List.map_map] at hx
  obtain ⟨hx, hfrac⟩ := hx
  obtain ⟨⟨m, j⟩, hm, rfl⟩ := List.mem_map.1 hx
  exact ⟨m, List.mem_zipIdx_iff_getElem?.1 hm,
    (epsilon_lt_fraction m).1 (of_decide_eq_true hfrac)⟩

theorem nodup_fractional (exact : List ℚ) (floors : List ℤ) :
    ((fractional exact floors).map Prod.fst).Nodup := by
  have hperm := List.perm_insertionSort largerFraction
    (((exact.zip floors).zipIdx.map fun x : (ℚ × ℤ) × ℕ => (x.2, x.1.1 - (x.1.2 : ℚ))).filter fun x => EPSILON < x.2)
  rw [fractional, (hperm.map Prod.fst).nodup_iff]
  refine List.Nodup.sublist (List.filter_sublist.map Prod.fst) ?_
  rw [List.map_map]
  exact (List.zipIdx_map_snd 0 (exact.zip floors)) ▸ List.nodup_range'

theorem bump_getElem? {is : List ℕ} (his : is.Nodup) (n : ℕ) {cents : List ℤ} {j : ℕ} {c : ℤ}
    (hc : cents[j]? = some c) :
    (bump is n cents)[j]? = some c ∨ j ∈ is ∧ (bump is n cents)[j]? = some (c + 1) := by
  induction is generalizing n cents c with
  | nil => exact .inl hc
  | cons i is ih =>
    obtain ⟨hi, his⟩ := List.nodup_cons.1 his
    cases n with
    | zero => exact .inl hc
    | succ n =>
      rw [bump]
      by_cases hij : i = j
      · subst hij
        have hc' : (cents.modify i (· + 1))[i]? = some (c + 1) := by
          rw [List.getElem?_modify_eq, hc]
          rfl
        obtain h | ⟨hmem, -⟩ := ih his n hc'
        · exact .inr ⟨List.mem_cons_self, h⟩
        · exact absurd hmem hi
      · have hc' : (cents.modify i (· + 1))[j]? = some c := by
          rw [List.getElem?_modify, hc]
          simp [hij]
        obtain h | ⟨hmem, h⟩ := ih his n hc'
        · exact .inl h
        · exact .inr ⟨List.mem_cons_of_mem i hmem, h⟩

/-- **The rounded tax lies between the floors and the ceilings.** -/
theorem target_bounds (ns : List ℕ) :
    (ns.map (· / 10000)).sum ≤ (ns.sum + 5000) / 10000 ∧
      (ns.sum + 5000) / 10000 ≤ (ns.map (· / 10000)).sum + ns.countP fun n => n % 10000 ≠ 0 := by
  have hsum : ns.sum = 10000 * (ns.map (· / 10000)).sum + (ns.map (· % 10000)).sum ∧
      (ns.map (· % 10000)).sum ≤ 9999 * ns.countP fun n => n % 10000 ≠ 0 := by
    induction ns with
    | nil => exact ⟨rfl, le_rfl⟩
    | cons n ns ih =>
      obtain ⟨hsum, hle⟩ := ih
      have hdiv := Nat.div_add_mod n 10000
      simp only [List.sum_cons, List.map_cons, List.countP_cons]
      refine ⟨by omega, ?_⟩
      by_cases hzero : n % 10000 = 0
      · rw [hzero]
        simpa using hle
      · rw [if_pos (by simpa using hzero)]
        omega
  omega

/-- A part of the tax is the floor or the ceiling of what its line owes. -/
def RoundedEitherWay (n : ℕ) (c : ℤ) : Prop :=
  c = (n / 10000 : ℕ) ∨ n % 10000 ≠ 0 ∧ c = (n / 10000 : ℕ) + 1

theorem mathRound_natCast_add_half (n : ℕ) : mathRound ((n : ℚ) / 10000) = ((n + 5000) / 10000 : ℕ) := by
  have hhalf : (n : ℚ) / 10000 + 1 / 2 = ((n + 5000 : ℕ) : ℚ) / (10000 : ℕ) := by
    push_cast
    ring
  rw [mathRound, hhalf, Rat.floor_natCast_div_natCast]
  norm_cast

theorem mathRound_cents_exact (c : ℤ) : mathRound ((c : ℚ) / 100 * 100) = c := by
  rw [div_mul_cancel₀ _ (by norm_num)]
  exact mathRound_eq (by norm_num)

theorem sum_floors (ns : List ℕ) :
    (ns.map fun n : ℕ => ((n / 10000 : ℕ) : ℤ)).sum = ((ns.map (· / 10000)).sum : ℕ) := by
  induction ns with
  | nil => rfl
  | cons n ns ih =>
    rw [List.map_cons, List.sum_cons, ih, List.map_cons, List.sum_cons, Nat.cast_add]

/-- **The split succeeds.**  What `allocateLineTaxes` gives for the rounded tax. -/
theorem allocateLineTaxes_rounded (bases : List ℕ) (rate : ℕ) :
    ∃ cents : List ℤ,
      allocateLineTaxes (bases.map fun b : ℕ => (b : ℚ) / 100) (rate / 10000)
          ((((bases.map (· * rate)).sum + 5000) / 10000 : ℕ) / 100) =
        some (cents.map fun c : ℤ => (c / 100 : ℚ)) ∧
      cents.sum = (((bases.map (· * rate)).sum + 5000) / 10000 : ℕ) ∧
      List.Forall₂ RoundedEitherWay (bases.map (· * rate)) cents := by
  have hexact : ((bases.map fun b : ℕ => (b : ℚ) / 100).map fun b =>
      (mathRound (b * 100) : ℚ) * (rate / 10000)) =
      (bases.map (· * rate)).map fun n : ℕ => (n : ℚ) / 10000 := by
    rw [List.map_map, List.map_map]
    refine List.map_congr_left fun b _ => ?_
    have hround := mathRound_cents_exact b
    rw [Int.cast_natCast] at hround
    show (mathRound ((b : ℚ) / 100 * 100) : ℚ) * (rate / 10000) = ((b * rate : ℕ) : ℚ) / 10000
    rw [hround]
    push_cast
    ring
  have hround := mathRound_cents_exact (((bases.map (· * rate)).sum + 5000) / 10000 : ℕ)
  rw [Int.cast_natCast] at hround
  unfold allocateLineTaxes
  dsimp only
  rw [hexact, hround]
  generalize bases.map (· * rate) = ns
  have hfloors : ((ns.map fun n : ℕ => (n : ℚ) / 10000).map fun c => ⌊c + EPSILON⌋) =
      ns.map fun n : ℕ => ((n / 10000 : ℕ) : ℤ) := by
    rw [List.map_map]
    exact List.map_congr_left fun n _ => floor_add_epsilon n
  obtain ⟨hlow, hhigh⟩ := target_bounds ns
  rw [hfloors, sum_floors, length_fractional, if_neg (by omega)]
  refine ⟨_, rfl, ?_, ?_⟩
  · rw [sum_bump]
    · rw [sum_floors]
      omega
    · intro i hi
      obtain ⟨n, hn, -⟩ := mem_fractional hi
      rw [List.length_map]
      exact (List.getElem?_eq_some_iff.1 hn).1
    · rw [List.length_map, length_fractional]
      omega
  · refine List.forall₂_iff_get.2 ⟨by rw [length_bump, List.length_map], fun i hi hi' => ?_⟩
    have hn : ns[i]? = some (ns.get ⟨i, hi⟩) := List.getElem?_eq_getElem hi
    have hfloor : (ns.map fun n : ℕ => ((n / 10000 : ℕ) : ℤ))[i]? =
        some ((ns.get ⟨i, hi⟩ / 10000 : ℕ) : ℤ) := by
      rw [List.getElem?_map, hn]
      rfl
    have hpart := List.getElem?_eq_getElem hi'
    obtain h | ⟨hmem, h⟩ := bump_getElem? (nodup_fractional _ _) _ hfloor
    · exact .inl (Option.some.inj (hpart.symm.trans h))
    · obtain ⟨n, hn', hfrac⟩ := mem_fractional hmem
      obtain rfl := Option.some.inj (hn.symm.trans hn')
      exact .inr ⟨hfrac, Option.some.inj (hpart.symm.trans h)⟩

/-! ### The limits -/

theorem roundedEitherWay_bounds {n : ℕ} {c : ℤ} (h : RoundedEitherWay n c) :
    (n : ℚ) / 10000 + 1 / 10000 ≤ c + 1 ∧ (c : ℚ) - 1 + 1 / 10000 ≤ (n : ℚ) / 10000 := by
  have hdiv := Nat.div_add_mod n 10000
  have hn : (n : ℚ) = 10000 * (n / 10000 : ℕ) + (n % 10000 : ℕ) := by exact_mod_cast hdiv.symm
  have hmod : ((n % 10000 : ℕ) : ℚ) ≤ 9999 := by
    exact_mod_cast (by omega : n % 10000 ≤ 9999)
  have hmod0 : (0 : ℚ) ≤ ((n % 10000 : ℕ) : ℚ) := Nat.cast_nonneg _
  obtain rfl | ⟨hfrac, rfl⟩ := h
  · rw [Int.cast_natCast]
    constructor <;> linarith
  · have hone : (1 : ℚ) ≤ ((n % 10000 : ℕ) : ℚ) := by
      exact_mod_cast Nat.one_le_iff_ne_zero.2 hfrac
    rw [Int.cast_add, Int.cast_natCast, Int.cast_one]
    constructor <;> linarith

theorem outside_eq_false {c : ℤ} {x y : ℚ} (hx : (x + EPSILON) * 100 < c + 1)
    (hy : c - 1 < (y - EPSILON) * 100) : outside c (truncate x, roundUp y) = false := by
  have hlow : ⌊(x + EPSILON) * 100⌋ ≤ c :=
    Int.lt_add_one_iff.1 (Int.floor_lt.2 (by push_cast; exact hx))
  have hhigh : c ≤ ⌈(y - EPSILON) * 100⌉ :=
    Int.sub_one_lt_iff.1 (Int.lt_ceil.2 (by push_cast; exact hy))
  have hlow' : (⌊(x + EPSILON) * 100⌋ : ℚ) ≤ c := by exact_mod_cast hlow
  have hhigh' : (c : ℚ) ≤ ⌈(y - EPSILON) * 100⌉ := by exact_mod_cast hhigh
  have heps : (0 : ℚ) < EPSILON := by
    rw [EPSILON]
    norm_num
  refine decide_eq_false (not_or.2 ⟨not_lt.2 ?_, not_lt.2 ?_⟩)
  · rw [truncate]
    linarith
  · rw [roundUp]
    linarith

/-- **A part of the tax is inside the limits of its traslado.** -/
theorem part_inside {b rate : ℕ} {c : ℤ} (h : RoundedEitherWay (b * rate) c) :
    outside c (trasladoImporteBounds b (rate / 10000)) = false := by
  obtain ⟨hhigh, hlow⟩ := roundedEitherWay_bounds h
  have hrate : (0 : ℚ) ≤ rate := Nat.cast_nonneg _
  push_cast at hhigh hlow
  refine outside_eq_false ?_ ?_ <;> rw [halfUnit, EPSILON, Int.cast_natCast]
  · linarith
  · linarith

/-! ### Quantities and prices -/

theorem value_dropZeros (d : ℕ) (n : ℤ) :
    value (dropZeros d n) = n / 10 ^ d ∧ (dropZeros d n).decimals ≤ d := by
  induction d generalizing n with
  | zero => exact ⟨rfl, le_rfl⟩
  | succ d ih =>
    rw [dropZeros]
    split_ifs with hzero
    · obtain ⟨hvalue, hle⟩ := ih (n / 10)
      refine ⟨?_, by omega⟩
      have hn : (n : ℚ) = 10 * (n / 10 : ℤ) := by exact_mod_cast (by omega : n = 10 * (n / 10))
      rw [hvalue, hn, pow_succ]
      field_simp
    · exact ⟨rfl, le_rfl⟩

theorem value_formatTrimmed (n : ℤ) {m : ℕ} (hm : m ≤ 4) :
    value (formatTrimmed n m) = n / 10 ^ 4 ∧ m ≤ (formatTrimmed n m).decimals ∧
      (formatTrimmed n m).decimals ≤ 4 := by
  obtain ⟨hvalue, hle⟩ := value_dropZeros 4 n
  refine ⟨?_, le_max_left _ _, max_le hm hle⟩
  rw [← hvalue]
  show (((dropZeros 4 n).digits * 10 ^ (m - (dropZeros 4 n).decimals) : ℤ) : ℚ) /
    10 ^ max m (dropZeros 4 n).decimals = _
  rw [value, ← Nat.sub_add_eq_max, pow_add, Int.cast_mul]
  push_cast
  field_simp

theorem halfUnit_bounds {d e : ℕ} (hd : d ≤ e) (he : e ≤ 4) :
    1 / 20000 ≤ halfUnit e ∧ halfUnit e ≤ 1 / 10 ^ d / 2 := by
  have hpow : (10 : ℚ) ^ d ≤ 10 ^ e := pow_le_pow_right₀ (by norm_num) hd
  have hpow' : (10 : ℚ) ^ e ≤ 10 ^ 4 := pow_le_pow_right₀ (by norm_num) he
  have hpos : (0 : ℚ) < 10 ^ d := by positivity
  rw [halfUnit]
  constructor
  · have := one_div_le_one_div_of_le (by positivity : (0 : ℚ) < 10 ^ e) hpow'
    norm_num at this ⊢
    linarith
  · have := one_div_le_one_div_of_le hpos hpow
    linarith

/-- The Importe of a line: Cantidad times ValorUnitario, rounded half up to cents. -/
def lineAmount (cantidad valorUnitario : ℕ) : ℕ := (cantidad * valorUnitario + 500000) / 1000000

/-- **The rounded product is inside the limits of its concepto.** -/
theorem amount_inside (cantidad valorUnitario : ℕ) :
    outside (lineAmount cantidad valorUnitario)
      (conceptoImporteBounds (formatQuantity cantidad) (formatUnitValue valorUnitario)) = false := by
  obtain ⟨hq, -, hqd⟩ := value_formatTrimmed cantidad (m := 0) (by norm_num)
  obtain ⟨hv, hvd0, hvd⟩ := value_formatTrimmed valorUnitario (m := 2) (by norm_num)
  obtain ⟨hhq0, hhq⟩ := halfUnit_bounds (Nat.zero_le _) hqd
  obtain ⟨hhv0, hhv⟩ := halfUnit_bounds hvd0 hvd
  have hamount : 1000000 * lineAmount cantidad valorUnitario ≤ cantidad * valorUnitario + 500000 ∧
      cantidad * valorUnitario + 500000 < 1000000 * lineAmount cantidad valorUnitario + 1000000 := by
    rw [lineAmount]
    omega
  generalize lineAmount cantidad valorUnitario = b at hamount ⊢
  have hlow : (1000000 * b : ℚ) ≤ cantidad * valorUnitario + 500000 := by exact_mod_cast hamount.1
  have hhigh : (cantidad * valorUnitario + 500000 : ℚ) < 1000000 * b + 1000000 := by
    exact_mod_cast hamount.2
  rw [conceptoImporteBounds, formatQuantity, formatUnitValue, hq, hv, Int.cast_natCast,
    Int.cast_natCast]
  generalize halfUnit (formatTrimmed cantidad 0).decimals = hQ at hhq0 hhq ⊢
  generalize halfUnit (formatTrimmed valorUnitario 2).decimals = hV at hhv0 hhv ⊢
  have hq0 : (0 : ℚ) ≤ cantidad := Nat.cast_nonneg _
  have hv0 : (0 : ℚ) ≤ valorUnitario := Nat.cast_nonneg _
  generalize (cantidad : ℚ) = q at hlow hhigh hq0 ⊢
  generalize (valorUnitario : ℚ) = v at hlow hhigh hv0 ⊢
  norm_num at hhq hhv
  refine outside_eq_false ?_ ?_ <;> rw [EPSILON, Int.cast_natCast]
  · -- half a digit of each takes no more than a quarter of a cent back
    have hprod : hQ * hV ≤ 1 / 2 * (1 / 200) := mul_le_mul hhq hhv (by linarith) (by norm_num)
    have hqV : 0 ≤ q * hV := mul_nonneg hq0 (by linarith)
    have hvQ : 0 ≤ v * hQ := mul_nonneg hv0 (by linarith)
    have hexpand : (q / 10 ^ 4 - hQ) * (v / 10 ^ 4 - hV) =
        q * v / 10 ^ 8 - q * hV / 10 ^ 4 - v * hQ / 10 ^ 4 + hQ * hV := by ring
    rw [hexpand]
    linarith
  · have hqV : 0 ≤ q * (hV - 1 / 10 ^ 12) := mul_nonneg hq0 (by linarith)
    have hvQ : 0 ≤ v * (hQ - 1 / 10 ^ 12) := mul_nonneg hv0 (by linarith)
    have hprod : 0 ≤ (hQ - 1 / 10 ^ 12) * (hV - 1 / 10 ^ 12) :=
      mul_nonneg (by linarith) (by linarith)
    have hexpand : (q / 10 ^ 4 + hQ - 1 / 10 ^ 12) * (v / 10 ^ 4 + hV - 1 / 10 ^ 12) =
        q * v / 10 ^ 8 + q * (hV - 1 / 10 ^ 12) / 10 ^ 4 + v * (hQ - 1 / 10 ^ 12) / 10 ^ 4 +
          (hQ - 1 / 10 ^ 12) * (hV - 1 / 10 ^ 12) := by ring
    rw [hexpand]
    linarith

/-! ### The lines -/

theorem formatMoney_cents (b : ℤ) : formatMoney (100 * b) = b := by
  refine toDecimal_near ?_
  have hzero : ((100 * b : ℤ) : ℚ) / 10000 * 100 - b = 0 := by
    push_cast
    ring
  rw [hzero]
  norm_num

/-- A line with its part of the tax, at a rate in ten-thousandths. -/
def withTax (rate : ℕ) (c : Concepto) (part : ℤ) : Concepto :=
  { c with impuestos := [⟨false, c.importe, some (100 * rate), some (100 * part)⟩] }

/-- A line without taxes. -/
def withoutTaxes (c : Concepto) : Concepto := { c with impuestos := [] }

theorem lineViolations_withTax {rate b : ℕ} {part : ℤ} (h : RoundedEitherWay (b * rate) part)
    {c : Concepto} (hc : c.importe = 100 * b) (line : ℕ) :
    lineViolations line (withTax rate c part) = lineViolations line (withoutTaxes c) := by
  have hinside := part_inside h
  have hrate : ((100 * rate : ℤ) : ℚ) / 10 ^ 6 = rate / 10000 := by
    push_cast
    ring
  unfold lineViolations
  dsimp only [withTax, withoutTaxes]
  simp only [List.filter_cons, List.filter_nil, decide_true, if_true, List.flatMap_cons,
    List.flatMap_nil, Option.getD_some, hc, formatMoney_cents, hrate, hinside]
  rfl

theorem flatMap_withTax {rate : ℕ} {bases : List ℕ} {parts : List ℤ}
    (h : List.Forall₂ RoundedEitherWay (bases.map (· * rate)) parts) {cs : List Concepto}
    (hcs : List.Forall₂ (fun (c : Concepto) (b : ℕ) => c.importe = 100 * (b : ℤ)) cs bases) (k : ℕ) :
    ((List.zipWith (withTax rate) cs parts).zipIdx k).flatMap
        (fun x => lineViolations (x.2 + 1) x.1) =
      ((cs.map withoutTaxes).zipIdx k).flatMap fun x => lineViolations (x.2 + 1) x.1 := by
  induction hcs generalizing parts k with
  | nil => rfl
  | @cons c b cs bases hc _ ih =>
    rw [List.map_cons] at h
    obtain ⟨part, parts, hpart, hparts, rfl⟩ := List.forall₂_cons_left_iff.1 h
    rw [List.zipWith_cons_cons, List.zipIdx_cons, List.flatMap_cons, List.map_cons,
      List.zipIdx_cons, List.flatMap_cons, ih hparts]
    dsimp only
    rw [lineViolations_withTax hpart hc]

/-- A line whose Importe is the rounded product of its other amounts, `b` cents. -/
def IsProduct (c : Concepto) (b : ℕ) : Prop :=
  ∃ q v : ℕ, c.cantidad = q ∧ c.valor_unitario = v ∧ b = lineAmount q v ∧ c.importe = 100 * b

theorem exists_isProduct {cs : List Concepto} {bases : List ℕ}
    (h : List.Forall₂ IsProduct cs bases) : ∀ c ∈ cs, ∃ b, IsProduct c b := by
  induction h with
  | nil => exact List.forall_mem_nil _
  | cons hc _ ih => exact List.forall_mem_cons.2 ⟨⟨_, hc⟩, ih⟩

theorem lineViolations_withoutTaxes {c : Concepto} {b : ℕ} (h : IsProduct c b) (line : ℕ) :
    lineViolations line (withoutTaxes c) = [] := by
  obtain ⟨q, v, hq, hv, rfl, himporte⟩ := h
  have hinside := amount_inside q v
  unfold lineViolations
  dsimp only [withoutTaxes]
  simp only [List.filter_nil, List.flatMap_nil, List.append_nil, hq, hv, himporte,
    formatMoney_cents, hinside]
  rfl

/-- The tax of a document in cents: the sum of the bases times the rate, rounded half up. -/
def roundedTax (bases : List ℚ) (rate : ℚ) : ℤ := ⌊bases.sum * rate * 100 + 1 / 2⌋

theorem roundedTax_cents (bases : List ℕ) (rate : ℕ) :
    roundedTax (bases.map fun b : ℕ => (b : ℚ) / 100) (rate / 10000) =
      (((bases.map (· * rate)).sum + 5000) / 10000 : ℕ) := by
  have hsum : (bases.map fun b : ℕ => (b : ℚ) / 100).sum * (rate / 10000) * 100 =
      ((bases.map (· * rate)).sum : ℕ) / 10000 := by
    induction bases with
    | nil => simp
    | cons b bases ih =>
      rw [List.map_cons, List.sum_cons, List.map_cons, List.sum_cons, add_mul, add_mul, ih]
      push_cast
      ring
  rw [roundedTax, hsum]
  exact mathRound_natCast_add_half _

/-- **The tax of a document is split within the limits.**  For bases in cents and a rate in
ten-thousandths, the rounded tax is split into parts that sum to it, each the floor or the ceiling
of what its line owes; the parts add no violation to the lines, and lines whose Importe is the
rounded product of Cantidad and ValorUnitario have none. -/
theorem taxes_split_exactly (bases : List ℕ) (rate : ℕ) :
    ∃ parts : List ℤ,
      allocateLineTaxes (bases.map fun b : ℕ => (b : ℚ) / 100) (rate / 10000)
          (roundedTax (bases.map fun b : ℕ => (b : ℚ) / 100) (rate / 10000) / 100) =
        some (parts.map fun c : ℤ => (c / 100 : ℚ)) ∧
      parts.sum = roundedTax (bases.map fun b : ℕ => (b : ℚ) / 100) (rate / 10000) ∧
      List.Forall₂ (fun (b : ℕ) (part : ℤ) => part = ⌊(b : ℚ) / 100 * (rate / 10000) * 100⌋ ∨
        part = ⌈(b : ℚ) / 100 * (rate / 10000) * 100⌉) bases parts ∧
      (∀ cs : List Concepto,
        List.Forall₂ (fun (c : Concepto) (b : ℕ) => c.importe = 100 * (b : ℤ)) cs bases →
          anexo20Violations (List.zipWith (withTax rate) cs parts) =
            anexo20Violations (cs.map withoutTaxes)) ∧
      ∀ cs : List Concepto, List.Forall₂ IsProduct cs bases →
        anexo20Violations (List.zipWith (withTax rate) cs parts) = [] := by
  obtain ⟨parts, hsplit, hsum, hparts⟩ := allocateLineTaxes_rounded bases rate
  have hsame : ∀ cs : List Concepto,
      List.Forall₂ (fun (c : Concepto) (b : ℕ) => c.importe = 100 * (b : ℤ)) cs bases →
        anexo20Violations (List.zipWith (withTax rate) cs parts) =
          anexo20Violations (cs.map withoutTaxes) := fun cs hcs => flatMap_withTax hparts hcs 0
  refine ⟨parts, ?_, ?_, ?_, hsame, ?_⟩
  · rw [roundedTax_cents, Int.cast_natCast]
    exact hsplit
  · rw [roundedTax_cents]
    exact hsum
  · refine (List.forall₂_map_left_iff.1 hparts).imp fun b part h => ?_
    have hexact : (b : ℚ) / 100 * (rate / 10000) * 100 = ((b * rate : ℕ) : ℚ) / (10000 : ℕ) := by
      push_cast
      ring
    rw [hexact, Rat.floor_natCast_div_natCast, Rat.ceil_natCast_div_natCast]
    obtain rfl | ⟨hfrac, rfl⟩ := h
    · left
      norm_cast
    · right
      omega
  · intro cs hcs
    rw [hsame cs (hcs.imp fun c b h => h.choose_spec.choose_spec.2.2.2)]
    refine List.flatMap_eq_nil_iff.2 fun x hx => ?_
    have hmem := List.mem_zipIdx_iff_getElem?.1 hx
    obtain ⟨c, hc, hcx⟩ := List.mem_map.1 (List.mem_of_getElem? hmem)
    rw [← hcx]
    obtain ⟨b, hb⟩ := exists_isProduct hcs c hc
    exact lineViolations_withoutTaxes hb _

/-- Three lines of 0.10 at 16 %: 4.8 cents of tax, of which each line owes 1.6. -/
example : allocateLineTaxes [10 / 100, 10 / 100, 10 / 100] (1600 / 10000)
    (roundedTax [10 / 100, 10 / 100, 10 / 100] (1600 / 10000) / 100) =
      some [2 / 100, 2 / 100, 1 / 100] := by
  decide +kernel

end Vigabss.Cfdi.Exact
