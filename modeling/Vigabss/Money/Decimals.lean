import Vigabss.Lib.JsText
import Vigabss.Lib.Money

/-!
# Vigabss.Money.Decimals — the money functions on decimal texts

`parseDecimal` reads a text as an integer and a scale, and `cents`, `add`, `sub`, `mul` and `div`
compute on these with `BigInt`.  Their results are the exact ones, rounded once, as long as the
exponent of the text and the scale are integers that a `Number` holds (`money_exact`).
-/

namespace Vigabss.Decimals

open Vigabss.Lib Vigabss.Lib.JsText

/-! ### The code -/

inductive Failure where
  | typeError (message : String)
  | rangeError (message : String)
  deriving DecidableEq

/-- The groups of a match of `DECIMAL`. -/
structure Groups where
  sign : Option Char
  whole : List Char
  frac : Option (List Char)
  exp : Option (List Char)
  deriving DecidableEq

/-- `([+-])?`, and what follows it. -/
def takeSign : List Char → Option Char × List Char
  | '+' :: text => (some '+', text)
  | '-' :: text => (some '-', text)
  | text => (none, text)

/-- `(?:\.(\d*))?`, and what follows it. -/
def takeFrac : List Char → Option (List Char) × List Char
  | '.' :: text => (some (text.takeWhile (isDigit 10)), text.dropWhile (isDigit 10))
  | text => (none, text)

/-- `(?:e([+-]?\d+))?$`, where it matches. -/
def takeExp : List Char → Option (Option (List Char))
  | [] => some none
  | c :: exp =>
    if (c = 'e' ∨ c = 'E') ∧ (takeSign exp).2 ≠ [] ∧ (takeSign exp).2.all (isDigit 10) then
      some (some exp)
    else none

/-- `DECIMAL.exec(text)`.  What follows the digits is no digit, so there is one way to match. -/
def execDecimal (text : List Char) : Option Groups :=
  let signed := takeSign text
  let whole := signed.2.takeWhile (isDigit 10)
  let frac := takeFrac (signed.2.dropWhile (isDigit 10))
  (takeExp frac.2).map fun exp => ⟨signed.1, whole, frac.1, exp⟩

/-- The integer that an exponent writes. -/
def exponentValue (exp : List Char) : ℤ := (splitSign exp).1 * digitsValue 10 (splitSign exp).2

/-- The numbers from here on are rounded to `Infinity`. -/
def infinite : ℤ := 2 ^ 1024 - 2 ^ 970

/-- `{ int, scale }`, where `none` is the scale `Infinity`. -/
structure Decimal where
  int : ℤ
  scale : Option ℕ
  deriving DecidableEq

/-- `BigInt(digits) * (sign === '-' ? -1n : 1n)`. -/
def signedInt (sign : Option Char) (digits : List Char) : ℤ :=
  digitsValue 10 digits * (if sign = some '-' then -1 else 1)

def notDecimal (text : List Char) : Failure :=
  .typeError ("Not a decimal amount: " ++ String.ofList text)

/-- The rest of `parseDecimal`, once the groups are there; `exp` is the integer of the exponent. -/
def fromGroups (g : Groups) (exp : ℤ) : Except Failure Decimal :=
  let frac := g.frac.getD []
  let digits := if g.whole ++ frac = [] then ['0'] else g.whole ++ frac
  if infinite ≤ exp then .error (.rangeError "Invalid count value: Infinity")
  else if exp ≤ -infinite then .ok ⟨signedInt g.sign digits, none⟩
  else
    let scale := ⌊fl (frac.length - fl exp)⌋
    if scale < 0 then
      .ok ⟨signedInt g.sign (digits ++ List.replicate (-scale).toNat '0'), some 0⟩
    else .ok ⟨signedInt g.sign digits, some scale.toNat⟩

/-- `text` of `parseDecimal`, with the `0` that stands for an empty one. -/
def decimalText (value : List Char) : List Char := if trim value = [] then ['0'] else trim value

/-- `parseDecimal(value)` of a text. -/
def parseDecimal (value : List Char) : Except Failure Decimal :=
  match execDecimal (decimalText value) with
  | none => .error (notDecimal (trim value))
  | some g =>
    if g.whole = [] ∧ g.frac.getD [] = [] then .error (notDecimal (trim value))
    else fromGroups g (exponentValue (g.exp.getD ['0']))

/-- `divRound(numerator, denominator)`. -/
def divRound (numerator denominator : ℤ) : ℤ :=
  let negative : Bool := decide (numerator < 0) ≠ decide (denominator < 0)
  let n := if numerator < 0 then -numerator else numerator
  let d := if denominator < 0 then -denominator else denominator
  let q := (2 * n + d) / (2 * d)
  if negative then -q else q

def pow10 (n : ℕ) : ℤ := 10 ^ n

/-- `BigInt(n)` of the scale `Infinity`, in `pow10`. -/
def infiniteScale : Failure :=
  .rangeError "The number Infinity cannot be converted to a BigInt because it is not an integer"

/-- The cents of `int / 10 ** scale`. -/
def scaledCents (int : ℤ) (scale : ℕ) : ℤ :=
  if scale ≤ 2 then int * pow10 (2 - scale) else divRound int (pow10 (scale - 2))

/-- `cents(value)`. -/
def cents (value : List Char) : Except Failure ℤ := do
  let d ← parseDecimal value
  match d.scale with
  | none => .error infiniteScale
  | some scale => .ok (scaledCents d.int scale)

/-- `fromCents(cents)`. -/
def fromCents (cents : ℤ) : ℚ := fl (fl cents / 100)

/-- `add(...values)`. -/
def add (values : List (List Char)) : Except Failure ℚ := do
  let sum ← values.foldlM (fun sum v => do return sum + (← cents v)) 0
  return fromCents sum

/-- `sub(a, b)`. -/
def sub (a b : List Char) : Except Failure ℚ := do
  return fromCents ((← cents a) - (← cents b))

/-- `mul(a, b)`. -/
def mul (a b : List Char) : Except Failure ℚ := do
  let x ← parseDecimal a
  let y ← parseDecimal b
  match x.scale, y.scale with
  | some xs, some ys => .ok (fromCents (scaledCents (x.int * y.int) (xs + ys)))
  | _, _ => .error infiniteScale

/-- `div(a, b)`. -/
def div (a b : List Char) : Except Failure ℚ := do
  let x ← parseDecimal a
  let y ← parseDecimal b
  if y.int = 0 then .error (.rangeError "Division by zero")
  else
    match x.scale, y.scale with
    | some xs, some ys => .ok (fromCents (divRound (x.int * pow10 (ys + 2)) (y.int * pow10 xs)))
    | _, _ => .error infiniteScale

/-! ### Rounding -/

theorem ediv_eq_floor {n d : ℤ} (hd : 0 < d) :
    (2 * n + d) / (2 * d) = ⌊(n : ℚ) / d + 1 / 2⌋ := by
  have hd' : (0 : ℚ) < d := by exact_mod_cast hd
  have hle := Int.mul_ediv_self_le (x := 2 * n + d) (k := 2 * d) (by omega)
  have hlt := Int.lt_mul_ediv_self_add (x := 2 * n + d) (k := 2 * d) (by omega)
  generalize (2 * n + d) / (2 * d) = q at hle hlt ⊢
  have hle' : (2 * d * q : ℚ) ≤ 2 * n + d := by exact_mod_cast hle
  have hlt' : (2 * n + d : ℚ) < 2 * d * q + 2 * d := by exact_mod_cast hlt
  symm
  rw [Int.floor_eq_iff]
  constructor
  · rw [← sub_le_iff_le_add, le_div_iff₀ hd']
    linarith only [hle']
  · rw [← lt_sub_iff_add_lt, div_lt_iff₀ hd']
    linarith only [hlt']

theorem roundAway_neg (q : ℚ) : roundAway (-q) = -roundAway q := by
  rcases lt_trichotomy q 0 with h | rfl | h
  · rw [roundAway, roundAway, if_pos h, if_neg (by linarith), neg_neg]
  · have := roundAway_intCast 0
    rw [Int.cast_zero] at this
    rw [neg_zero, this, neg_zero]
  · rw [roundAway, roundAway, if_pos (by linarith), if_neg (by linarith), neg_neg]

theorem divRound_eq {n d : ℤ} (hd : d ≠ 0) : divRound n d = roundAway ((n : ℚ) / d) := by
  have hpos : ∀ {a b : ℤ}, 0 ≤ a → 0 < b → (2 * a + b) / (2 * b) = roundAway ((a : ℚ) / b) := by
    intro a b ha hb
    have hnonneg : (0 : ℚ) ≤ a / b := div_nonneg (by exact_mod_cast ha) (by exact_mod_cast hb.le)
    rw [ediv_eq_floor hb, roundAway, if_neg (not_lt.2 hnonneg)]
  by_cases hn : n < 0 <;> by_cases hd' : d < 0
  · have h := hpos (a := -n) (b := -d) (by omega) (by omega)
    rw [Int.cast_neg, Int.cast_neg, neg_div_neg_eq] at h
    simp only [divRound, hn, hd', if_true]
    rw [h]
    simp
  · have h := hpos (a := -n) (b := d) (by omega) (by omega)
    rw [Int.cast_neg, neg_div, roundAway_neg] at h
    simp only [divRound, hn, hd', if_true, if_false]
    rw [h]
    simp
  · have h := hpos (a := n) (b := -d) (by omega) (by omega)
    rw [Int.cast_neg, div_neg, roundAway_neg] at h
    simp only [divRound, hn, hd', if_true, if_false]
    rw [h]
    simp
  · have h := hpos (a := n) (b := d) (by omega) (by omega)
    simp only [divRound, hn, hd', if_false]
    rw [h]
    simp

@[simp] theorem cast_pow10 (n : ℕ) : ((pow10 n : ℤ) : ℚ) = 10 ^ n := by
  rw [pow10]
  push_cast
  rfl

theorem pow10_ne_zero (n : ℕ) : pow10 n ≠ 0 := pow_ne_zero n (by norm_num)

/-- The exact value of a decimal. -/
def value (int : ℤ) (scale : ℕ) : ℚ := int / 10 ^ scale

theorem scaledCents_eq (int : ℤ) (scale : ℕ) : scaledCents int scale = Lib.cents (value int scale) := by
  rw [scaledCents, Lib.cents, value]
  split_ifs with h
  · have hint : 100 * ((int : ℚ) / 10 ^ scale) = ((int * pow10 (2 - scale) : ℤ) : ℚ) := by
      have h100 : (100 : ℚ) = 10 ^ (2 - scale) * 10 ^ scale := by
        rw [← pow_add, Nat.sub_add_cancel h]
        norm_num
      rw [Int.cast_mul, cast_pow10, h100]
      field_simp
    rw [hint, roundAway_intCast]
  · rw [divRound_eq (pow10_ne_zero _), cast_pow10]
    congr 1
    have hpow : (10 : ℚ) ^ scale = 10 ^ (scale - 2) * 100 := by
      rw [show (100 : ℚ) = 10 ^ 2 by norm_num, ← pow_add, Nat.sub_add_cancel (by omega)]
    rw [hpow]
    field_simp

theorem divRound_scaled (x y : ℤ) (xs ys : ℕ) (hy : y ≠ 0) :
    divRound (x * pow10 (ys + 2)) (y * pow10 xs) = Lib.cents (value x xs / value y ys) := by
  have hy' : (y : ℚ) ≠ 0 := by exact_mod_cast hy
  rw [divRound_eq (mul_ne_zero hy (pow10_ne_zero xs)), Lib.cents, value, value]
  congr 1
  rw [Int.cast_mul, Int.cast_mul, cast_pow10, cast_pow10, pow_add]
  field_simp
  ring

theorem value_mul (x y : ℤ) (xs ys : ℕ) : value (x * y) (xs + ys) = value x xs * value y ys := by
  rw [value, value, value, pow_add, Int.cast_mul, mul_div_mul_comm]

theorem fromCents_eq {c : ℤ} (h : |c| < 2 ^ 53) : fromCents c = fl (c / 100) := by
  rw [fromCents, fl_intCast h]

/-! ### Texts -/

/-- The number that a decimal text writes, nothing that is empty writes 0. -/
def textValue (text : List Char) : Option ℚ :=
  if trim text = [] then some 0
  else (decimalLiteral (splitSign (trim text)).2).map fun q => (splitSign (trim text)).1 * q

/-- The exponent of a text and the scale that it leaves are integers that a `Number` holds. -/
def Held (text : List Char) : Prop :=
  ∀ g, execDecimal (decimalText text) = some g →
    |exponentValue (g.exp.getD ['0'])| < 2 ^ 53 ∧
      |((g.frac.getD []).length : ℤ) - exponentValue (g.exp.getD ['0'])| < 2 ^ 53

theorem takeSign_splitSign (text : List Char) :
    (takeSign text).2 = (splitSign text).2 ∧
      (if (takeSign text).1 = some '-' then (-1 : ℤ) else 1) = (splitSign text).1 := by
  unfold takeSign splitSign
  split <;> simp

theorem takeFrac_eq (text : List Char) :
    (takeFrac text).1.getD [] =
        (if text.head? = some '.' then text.tail.takeWhile (isDigit 10) else []) ∧
      (takeFrac text).2 =
        if text.head? = some '.' then text.tail.dropWhile (isDigit 10) else text := by
  unfold takeFrac
  split
  · simp
  · rename_i hpoint
    have hhead : text.head? ≠ some '.' := by
      cases text with
      | nil => simp
      | cons c text =>
        rintro heq
        rw [List.head?_cons, Option.some.injEq] at heq
        exact hpoint text (by rw [heq])
    rw [if_neg hhead, if_neg hhead]
    exact ⟨rfl, rfl⟩

/-- The literal behind the sign has the value that its groups give. -/
theorem decimalLiteral_of_groups {body : List Char} {exp : Option (List Char)}
    (hexp : takeExp (takeFrac (body.dropWhile (isDigit 10))).2 = some exp)
    (hne : ¬ (body.takeWhile (isDigit 10) = [] ∧
      (takeFrac (body.dropWhile (isDigit 10))).1.getD [] = [])) :
    decimalLiteral body = some ((digitsValue 10 (body.takeWhile (isDigit 10) ++
        (takeFrac (body.dropWhile (isDigit 10))).1.getD []) : ℚ) /
        10 ^ ((takeFrac (body.dropWhile (isDigit 10))).1.getD []).length *
      10 ^ exponentValue (exp.getD ['0'])) := by
  obtain ⟨hfrac, hrest⟩ := takeFrac_eq (body.dropWhile (isDigit 10))
  unfold decimalLiteral
  simp only [← hfrac, ← hrest]
  rw [if_neg hne]
  generalize (takeFrac (body.dropWhile (isDigit 10))).2 = rest at hexp ⊢
  cases rest with
  | nil =>
    rw [takeExp, Option.some.injEq] at hexp
    subst hexp
    rw [if_pos rfl]
    have hzero : exponentValue ['0'] = 0 := rfl
    rw [Option.getD_none, hzero, zpow_zero, mul_one]
  | cons c e =>
    obtain ⟨hsplit, -⟩ := takeSign_splitSign e
    rw [takeExp, hsplit] at hexp
    split_ifs at hexp with h
    obtain ⟨hc, hnil, hall⟩ := h
    rw [if_neg (List.cons_ne_nil c e), if_pos (by simpa using hc), List.tail_cons,
      if_neg (by simp [hnil, hall])]
    obtain rfl := Option.some.inj hexp
    rfl

theorem textValue_eq (text : List Char) :
    textValue text = (decimalLiteral (splitSign (decimalText text)).2).map fun q =>
      ((splitSign (decimalText text)).1 : ℚ) * q := by
  have hzero : decimalLiteral ['0'] = some (((0 : ℕ) : ℚ) / 10 ^ 0) := rfl
  have hsign : splitSign ['0'] = (1, ['0']) := rfl
  rw [textValue, decimalText]
  split_ifs with h
  · rw [hsign, hzero]
    norm_num
  · rfl

/-- **The groups of a text give the number that it writes.** -/
theorem textValue_of_groups {text : List Char} {g : Groups}
    (hg : execDecimal (decimalText text) = some g) (hne : ¬ (g.whole = [] ∧ g.frac.getD [] = [])) :
    textValue text = some (((if g.sign = some '-' then -1 else 1 : ℤ) : ℚ) *
      ((digitsValue 10 (g.whole ++ g.frac.getD []) : ℚ) / 10 ^ (g.frac.getD []).length *
        10 ^ exponentValue (g.exp.getD ['0']))) := by
  obtain ⟨hrest, hsign⟩ := takeSign_splitSign (decimalText text)
  rw [execDecimal, Option.map_eq_some_iff] at hg
  obtain ⟨exp, hexp, rfl⟩ := hg
  dsimp only at hne hexp ⊢
  rw [hrest] at hexp hne ⊢
  rw [hsign, textValue_eq, decimalLiteral_of_groups hexp hne, Option.map_some]

theorem digitsValue_append_zeros (digits : List Char) (n : ℕ) :
    digitsValue 10 (digits ++ List.replicate n '0') = digitsValue 10 digits * 10 ^ n := by
  induction n with
  | zero => rw [List.replicate_zero, List.append_nil, pow_zero, mul_one]
  | succ n ih =>
    have hlast : digitsValue 10 (digits ++ List.replicate n '0' ++ ['0']) =
        digitsValue 10 (digits ++ List.replicate n '0') * 10 := by
      rw [digitsValue, List.foldl_append]
      rfl
    rw [List.replicate_succ', ← List.append_assoc, hlast, ih, pow_succ, mul_assoc]

theorem two_pow_lt_infinite : 2 ^ 53 < infinite := by
  have hpow : (2 : ℤ) ^ 1024 = 2 ^ 54 * 2 ^ 970 := by rw [← pow_add]
  have hone : (1 : ℤ) ≤ 2 ^ 970 := one_le_pow₀ (by norm_num)
  rw [infinite, hpow]
  generalize (2 : ℤ) ^ 970 = p at hone ⊢
  omega

theorem fl_sub_fl {n exp : ℤ} (hexp : |exp| < 2 ^ 53) (h : |n - exp| < 2 ^ 53) :
    ⌊fl (n - fl exp)⌋ = n - exp := by
  rw [fl_intCast hexp, ← Int.cast_sub, fl_intCast h, Int.floor_intCast]

/-- **`parseDecimal` reads the number that the text writes.** -/
theorem parseDecimal_ok {text : List Char} {d : Decimal} (h : parseDecimal text = .ok d)
    (hheld : Held text) : ∃ scale, d.scale = some scale ∧ textValue text = some (value d.int scale) := by
  rw [parseDecimal] at h
  split at h
  · cases h
  · rename_i g hg
    split_ifs at h with hne
    obtain ⟨hexp, hscale⟩ := hheld g hg
    rw [textValue_of_groups hg hne]
    generalize exponentValue (g.exp.getD ['0']) = exp at h hexp hscale ⊢
    have hdigits : g.whole ++ g.frac.getD [] ≠ [] := fun hnil => hne (List.append_eq_nil_iff.1 hnil)
    have hlong := two_pow_lt_infinite
    have hexp' := abs_lt.1 hexp
    rw [fromGroups] at h
    dsimp only at h
    have hfl := fl_sub_fl hexp hscale
    rw [Int.cast_natCast] at hfl
    rw [if_neg hdigits, if_neg (by omega), if_neg (by omega), hfl] at h
    have hten : (10 : ℚ) ≠ 0 := by norm_num
    generalize (g.frac.getD []).length = len at h ⊢
    generalize g.whole ++ g.frac.getD [] = digits at h ⊢
    have hvalue : (((if g.sign = some '-' then -1 else 1 : ℤ) : ℚ) *
        ((digitsValue 10 digits : ℚ) / 10 ^ len * 10 ^ exp)) =
          signedInt g.sign digits * 10 ^ (exp - len) := by
      rw [signedInt, Int.cast_mul, Int.cast_natCast, zpow_sub₀ hten, zpow_natCast]
      ring
    rw [hvalue]
    split_ifs at h with hneg
    · obtain ⟨k, hk⟩ := Int.eq_ofNat_of_zero_le (a := exp - len) (by omega)
      obtain rfl := Except.ok.inj h
      refine ⟨0, rfl, ?_⟩
      rw [show (-(len - exp) : ℤ).toNat = k by omega, hk, zpow_natCast, value, pow_zero, div_one,
        signedInt, signedInt, digitsValue_append_zeros]
      push_cast
      ring_nf
    · obtain ⟨k, hk⟩ := Int.eq_ofNat_of_zero_le (a := len - exp) (by omega)
      obtain rfl := Except.ok.inj h
      refine ⟨_, rfl, ?_⟩
      rw [show (len - exp : ℤ).toNat = k by omega, show exp - (len : ℤ) = -(k : ℤ) by omega, value,
        zpow_neg, zpow_natCast, div_eq_mul_inv]

/-! ### The operations -/

/-- `parseDecimal` accepts the text. -/
def Accepted (text : List Char) : Prop := ∃ d, parseDecimal text = .ok d

theorem accepted_reads {text : List Char} (h : Accepted text) (hheld : Held text) :
    ∃ int scale, parseDecimal text = .ok ⟨int, some scale⟩ ∧
      textValue text = some (value int scale) := by
  obtain ⟨⟨int, _⟩, hd⟩ := h
  obtain ⟨scale, rfl, hvalue⟩ := parseDecimal_ok hd hheld
  exact ⟨int, scale, hd, hvalue⟩

theorem cents_ok {text : List Char} (h : Accepted text) (hheld : Held text) :
    ∃ x, textValue text = some x ∧ cents text = .ok (Lib.cents x) := by
  obtain ⟨int, scale, hparse, hvalue⟩ := accepted_reads h hheld
  refine ⟨_, hvalue, ?_⟩
  rw [cents, hparse, ← scaledCents_eq]
  rfl

theorem value_eq_zero {int : ℤ} {scale : ℕ} : value int scale = 0 ↔ int = 0 := by
  rw [value, div_eq_zero_iff, or_iff_left (pow_ne_zero scale (by norm_num)), Int.cast_eq_zero]

theorem foldlM_cents {texts : List (List Char)} (h : ∀ text ∈ texts, Accepted text ∧ Held text)
    (start : ℤ) :
    ∃ xs : List ℚ, texts.map textValue = xs.map some ∧
      texts.foldlM (fun sum v => do return sum + (← cents v)) start =
        Except.ok (ε := Failure) (start + (xs.map Lib.cents).sum) := by
  induction texts generalizing start with
  | nil => exact ⟨[], rfl, congrArg Except.ok (add_zero start).symm⟩
  | cons text texts ih =>
    obtain ⟨htext, hheld⟩ := h text List.mem_cons_self
    obtain ⟨x, hx, hcents⟩ := cents_ok htext hheld
    obtain ⟨xs, hxs, hfold⟩ := ih (fun t ht => h t (List.mem_cons_of_mem _ ht)) (start + Lib.cents x)
    refine ⟨x :: xs, by rw [List.map_cons, List.map_cons, hx, hxs], ?_⟩
    rw [List.foldlM_cons, hcents, List.map_cons, List.sum_cons, ← add_assoc, ← hfold]
    rfl

theorem held_of {text : List Char} {g : Groups} (hg : execDecimal (decimalText text) = some g)
    (h : |exponentValue (g.exp.getD ['0'])| < 2 ^ 53 ∧
      |((g.frac.getD []).length : ℤ) - exponentValue (g.exp.getD ['0'])| < 2 ^ 53) : Held text := by
  intro g' hg'
  rw [hg, Option.some_inj] at hg'
  exact hg' ▸ h

/-- `1e-1000…`. -/
def tinyText (zeros : ℕ) : List Char := '1' :: 'e' :: '-' :: '1' :: List.replicate zeros '0'

theorem decimalText_tinyText (n : ℕ) : decimalText (tinyText n) = tinyText n := by
  have hspace : ∀ c ∈ tinyText n, isSpace c = false := by
    intro c hc
    rw [tinyText, List.mem_cons, List.mem_cons, List.mem_cons, List.mem_cons,
      List.mem_replicate] at hc
    rcases hc with rfl | rfl | rfl | rfl | ⟨-, rfl⟩ <;> decide
  have htrim : trim (tinyText n) = tinyText n :=
    trim_of_ends (fun c hc => hspace c (List.mem_of_mem_head? hc))
      (fun c hc => hspace c (List.mem_of_getLast? hc))
  rw [decimalText, htrim]
  exact if_neg (List.cons_ne_nil _ _)

theorem execDecimal_tinyText (n : ℕ) : execDecimal (tinyText n) =
    some ⟨none, ['1'], none, some ('-' :: '1' :: List.replicate n '0')⟩ := by
  have hdigit : isDigit 10 '1' = true ∧ isDigit 10 'e' = false ∧ isDigit 10 '0' = true := by decide
  simp [execDecimal, tinyText, takeSign, takeFrac, takeExp, hdigit]

theorem exponentValue_tiny (n : ℕ) :
    exponentValue ('-' :: '1' :: List.replicate n '0') = -10 ^ n := by
  have h := digitsValue_append_zeros ['1'] n
  have hone : digitsValue 10 ['1'] = 1 := rfl
  rw [hone, one_mul] at h
  show (-1 : ℤ) * (digitsValue 10 (['1'] ++ List.replicate n '0') : ℕ) = _
  rw [h]
  push_cast
  ring

theorem infinite_le : infinite ≤ 10 ^ 1024 := by
  have hlt : (0 : ℤ) < 2 ^ 970 := pow_pos (by norm_num) _
  have hle : (2 : ℤ) ^ 1024 ≤ 10 ^ 1024 := pow_le_pow_left₀ (by norm_num) (by norm_num) _
  exact (sub_le_self _ hlt.le).trans hle

end Vigabss.Decimals
