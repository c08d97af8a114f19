import Mathlib.Data.List.Infix
import Mathlib.Data.List.SplitOn
import Mathlib.Data.List.TakeWhile
import Mathlib.Data.Nat.Bits
import Vigabss.Lib.Binary64

/-!
# Vigabss.Lib.JsText — JavaScript's numbers read from text

`parseInt(text, radix)` and `Number(text)`, on the characters of the text.  A value that a double
cannot hold is rounded by `fl`; `none` is the value that is not a number.
-/

namespace Vigabss.Lib.JsText

/-- White space, as `trim` takes it away. -/
def isSpace (c : Char) : Bool :=
  c.toNat ∈ [0x09, 0x0A, 0x0B, 0x0C, 0x0D, 0x20, 0xA0, 0x1680, 0x2028, 0x2029, 0x202F, 0x205F,
    0x3000, 0xFEFF] ∨ 0x2000 ≤ c.toNat ∧ c.toNat ≤ 0x200A

/-- `text.trim()`. -/
def trim (text : List Char) : List Char :=
  ((text.dropWhile isSpace).reverse.dropWhile isSpace).reverse

/-- The value of a digit. -/
def digitValue (c : Char) : ℕ :=
  if '0' ≤ c ∧ c ≤ '9' then c.toNat - '0'.toNat
  else if 'a' ≤ c ∧ c ≤ 'z' then c.toNat - 'a'.toNat + 10
  else if 'A' ≤ c ∧ c ≤ 'Z' then c.toNat - 'A'.toNat + 10
  else 36

def isDigit (radix : ℕ) (c : Char) : Bool := digitValue c < radix

/-- The number that digits write. -/
def digitsValue (radix : ℕ) (digits : List Char) : ℕ :=
  digits.foldl (fun n c => n * radix + digitValue c) 0

/-- A sign, and what follows it. -/
def splitSign : List Char → ℤ × List Char
  | '-' :: text => (-1, text)
  | '+' :: text => (1, text)
  | text => (1, text)

/-- `parseInt(text, radix)`, for radix 10 and 16. -/
def parseInt (radix : ℕ) (text : List Char) : Option ℤ :=
  let signed := splitSign (text.dropWhile isSpace)
  let body :=
    if radix = 16 ∧ (signed.2.take 2 = ['0', 'x'] ∨ signed.2.take 2 = ['0', 'X']) then
      signed.2.drop 2
    else signed.2
  let digits := body.takeWhile (isDigit radix)
  if digits = [] then none else some ⌊fl (signed.1 * digitsValue radix digits)⌋

/-- The value of a decimal literal without a sign: digits, a fraction, an exponent. -/
def decimalLiteral (text : List Char) : Option ℚ :=
  let whole := text.takeWhile (isDigit 10)
  let rest := text.dropWhile (isDigit 10)
  let point := rest.head? = some '.'
  let fraction := if point then rest.tail.takeWhile (isDigit 10) else []
  let rest := if point then rest.tail.dropWhile (isDigit 10) else rest
  let mantissa : ℚ := digitsValue 10 (whole ++ fraction) / 10 ^ fraction.length
  if whole = [] ∧ fraction = [] then none
  else if rest = [] then some mantissa
  else if rest.head? = some 'e' ∨ rest.head? = some 'E' then
    let exponent := splitSign rest.tail
    if exponent.2 = [] ∨ ¬ exponent.2.all (isDigit 10) then none
    else some (mantissa * 10 ^ (exponent.1 * digitsValue 10 exponent.2))
  else none

/-- The digits behind `0x`, `0o` and `0b`. -/
def radixLiteral (radix : ℕ) (digits : List Char) : Option ℚ :=
  if digits = [] ∨ ¬ digits.all (isDigit radix) then none else some (digitsValue radix digits)

/-- `Number(text)`; the infinite values are `none` too. -/
def number (text : List Char) : Option ℚ :=
  let body := trim text
  let radix :=
    if body.take 2 = ['0', 'x'] ∨ body.take 2 = ['0', 'X'] then 16
    else if body.take 2 = ['0', 'o'] ∨ body.take 2 = ['0', 'O'] then 8
    else if body.take 2 = ['0', 'b'] ∨ body.take 2 = ['0', 'B'] then 2
    else 10
  if body = [] then some 0
  else if radix ≠ 10 then (radixLiteral radix (body.drop 2)).map fl
  else (decimalLiteral (splitSign body).2).map fun q => fl ((splitSign body).1 * q)

/-- `value >>> 0`, where `none` gives 0 as `NaN` and the infinite values do. -/
def toUint32 : Option ℚ → ℕ
  | some q => ((if q < 0 then ⌈q⌉ else ⌊q⌋) % 2 ^ 32).toNat
  | none => 0

/-- `text.split(c)`. -/
def split (c : Char) (text : List Char) : List (List Char) := text.splitOn c

/-- `text.padStart(length, c)`. -/
def padStart (length : ℕ) (c : Char) (text : List Char) : List Char :=
  List.replicate (length - text.length) c ++ text

/-- A text of digits only, and the number that it writes. -/
def decimal (text : List Char) : Option ℕ :=
  if text ≠ [] ∧ text.all (isDigit 10) then some (digitsValue 10 text) else none

theorem toUint32_natCast {n : ℕ} (h : n < 2 ^ 32) : toUint32 (some n) = n := by
  have hpos : ¬ ((n : ℚ) < 0) := not_lt.2 n.cast_nonneg
  simp only [toUint32, if_neg hpos, Int.floor_natCast]
  omega

theorem trim_of_ends {text : List Char} (hhead : ∀ c, text.head? = some c → isSpace c = false)
    (hlast : ∀ c, text.getLast? = some c → isSpace c = false) : trim text = text := by
  have hdrop : ∀ xs : List Char, (∀ c, xs.head? = some c → isSpace c = false) →
      xs.dropWhile isSpace = xs := by
    intro xs h
    cases xs with
    | nil => rfl
    | cons c xs => rw [List.dropWhile_cons_of_neg (by simp [h c rfl])]
  rw [trim, hdrop text hhead, hdrop text.reverse, List.reverse_reverse]
  simpa [List.head?_reverse] using hlast

theorem trim_of_blank {text : List Char} (h : ∀ c ∈ text, isSpace c = true) : trim text = [] := by
  rw [trim, List.dropWhile_eq_nil_iff.mpr h]
  rfl

theorem trim_append_blank {blank : List Char} (h : ∀ c ∈ blank, isSpace c = true)
    (text : List Char) : trim (text ++ blank) = trim text := by
  have hreverse : ∀ c ∈ blank.reverse, isSpace c = true := fun c hc =>
    h c (List.mem_reverse.mp hc)
  by_cases htext : ∀ c ∈ text, isSpace c = true
  · rw [trim_of_blank htext, trim_of_blank]
    exact fun c hc => (List.mem_append.mp hc).elim (htext c) (h c)
  · have hdrop : (text ++ blank).dropWhile isSpace = text.dropWhile isSpace ++ blank := by
      rw [List.dropWhile_append, if_neg]
      rw [List.isEmpty_iff, List.dropWhile_eq_nil_iff]
      exact htext
    rw [trim, trim, hdrop, List.reverse_append, List.dropWhile_append_of_pos hreverse]

theorem trim_blank_append {blank : List Char} (h : ∀ c ∈ blank, isSpace c = true)
    (text : List Char) : trim (blank ++ text) = trim text := by
  rw [trim, trim, List.dropWhile_append_of_pos h]

theorem exists_trim (text : List Char) : ∃ left right, text = left ++ trim text ++ right ∧
    (∀ c ∈ left, isSpace c = true) ∧ ∀ c ∈ right, isSpace c = true := by
  have hblank : ∀ xs : List Char, ∀ c ∈ xs.takeWhile isSpace, isSpace c = true :=
    fun xs c hc => List.mem_takeWhile_imp hc
  refine ⟨text.takeWhile isSpace,
    ((text.dropWhile isSpace).reverse.takeWhile isSpace).reverse, ?_, hblank text, ?_⟩
  · rw [trim, List.append_assoc, ← List.reverse_append, List.takeWhile_append_dropWhile,
      List.reverse_reverse, List.takeWhile_append_dropWhile]
  · exact fun c hc => hblank _ c (List.mem_reverse.1 hc)

theorem not_isSpace_of_isDigit {radix : ℕ} (hradix : radix ≤ 16) {c : Char}
    (h : isDigit radix c = true) : isSpace c = false := by
  rw [isDigit, decide_eq_true_eq, digitValue] at h
  have h0 : '0'.toNat = 48 := rfl
  have ha : 'a'.toNat = 97 := rfl
  have hA : 'A'.toNat = 65 := rfl
  have hrange : 48 ≤ c.toNat ∧ c.toNat ≤ 127 := by
    split_ifs at h with hd hl hu
    · exact ⟨hd.1, le_trans (show c.toNat ≤ 57 from hd.2) (by omega)⟩
    · exact ⟨le_trans (by omega) (show 97 ≤ c.toNat from hl.1),
        le_trans (show c.toNat ≤ 122 from hl.2) (by omega)⟩
    · exact ⟨le_trans (by omega) (show 65 ≤ c.toNat from hu.1),
        le_trans (show c.toNat ≤ 90 from hu.2) (by omega)⟩
    · omega
  simp only [isSpace, List.mem_cons, List.not_mem_nil, or_false, decide_eq_false_iff_not]
  omega

theorem splitSign_of_isDigit {radix : ℕ} (hradix : radix ≤ 16) {c : Char}
    (hc : isDigit radix c = true) (rest : List Char) : splitSign (c :: rest) = (1, c :: rest) := by
  have hlt : digitValue c < 16 := lt_of_lt_of_le (of_decide_eq_true hc) hradix
  rw [splitSign]
  · intro text htext
    rw [(List.cons.inj htext).1] at hlt
    exact absurd hlt (by decide)
  · intro text htext
    rw [(List.cons.inj htext).1] at hlt
    exact absurd hlt (by decide)

/-- **Digits are read as the number they write**, up to what is no digit. -/
theorem parseInt_digits_append {radix : ℕ} (hradix : radix ≤ 16) {text rest : List Char}
    (hne : text ≠ []) (hall : text.all (isDigit radix) = true)
    (hrest : ∀ c, rest.head? = some c → isDigit radix c = false ∧ c ≠ 'x' ∧ c ≠ 'X')
    (hn : digitsValue radix text < 2 ^ 53) :
    parseInt radix (text ++ rest) = some (digitsValue radix text : ℤ) := by
  obtain ⟨c, more, rfl⟩ := List.exists_cons_of_ne_nil hne
  have hdigit : ∀ {d : Char}, d ∈ c :: more → digitValue d < 16 := fun hd =>
    lt_of_lt_of_le (of_decide_eq_true (List.all_eq_true.1 hall _ hd)) hradix
  have hc := List.all_eq_true.1 hall c List.mem_cons_self
  have hspace := not_isSpace_of_isDigit hradix hc
  have hhex : ∀ x : Char, 16 ≤ digitValue x → (rest.head? ≠ some x) →
      (c :: (more ++ rest)).take 2 ≠ ['0', x] := by
    intro x hx hxrest htake
    rw [List.take_succ_cons] at htake
    have htail := (List.cons.inj htake).2
    cases more with
    | nil =>
      cases rest with
      | nil => cases htail
      | cons d rest =>
        rw [List.nil_append, List.take_succ_cons] at htail
        exact hxrest (by rw [List.head?_cons, (List.cons.inj htail).1])
    | cons d more =>
      rw [List.cons_append, List.take_succ_cons] at htail
      have hlt := hdigit (List.mem_cons_of_mem c (List.mem_cons_self : d ∈ d :: more))
      rw [(List.cons.inj htail).1] at hlt
      omega
  have hnoDigit : rest.takeWhile (isDigit radix) = [] := by
    cases rest with
    | nil => rfl
    | cons d rest => rw [List.takeWhile_cons_of_neg (by rw [(hrest d rfl).1]; decide)]
  have htake : (c :: (more ++ rest)).takeWhile (isDigit radix) = c :: more := by
    rw [← List.cons_append, List.takeWhile_append_of_pos (List.all_eq_true.1 hall), hnoDigit,
      List.append_nil]
  have hx := hhex 'x' (by decide) fun h => (hrest 'x' h).2.1 rfl
  have hX := hhex 'X' (by decide) fun h => (hrest 'X' h).2.2 rfl
  rw [List.cons_append, parseInt, List.dropWhile_cons_of_neg (by rw [hspace]; decide),
    splitSign_of_isDigit hradix hc]
  simp only [hx, hX, or_self, and_false, if_false, htake, if_neg hne]
  rw [Int.cast_one, one_mul, fl_natCast hn, Int.floor_natCast]

/-- **A text of digits is read as the number it writes.** -/
theorem parseInt_digits {radix : ℕ} (hradix : radix ≤ 16) {text : List Char} (hne : text ≠ [])
    (hall : text.all (isDigit radix) = true) (hn : digitsValue radix text < 2 ^ 53) :
    parseInt radix text = some (digitsValue radix text : ℤ) := by
  have hread : parseInt radix (text ++ []) = some (digitsValue radix text : ℤ) :=
    parseInt_digits_append hradix hne hall (fun _ h => by cases h) hn
  rwa [List.append_nil] at hread

theorem parseInt_decimal {text : List Char} {n : ℕ} (h : decimal text = some n) (hn : n < 2 ^ 53) :
    parseInt 10 text = some (n : ℤ) := by
  rw [decimal] at h
  split_ifs at h with hdigits
  cases h
  exact parseInt_digits (by omega) hdigits.1 hdigits.2 hn

/-- **Decimal digits are a number's text.** -/
theorem number_digits {text : List Char} (hne : text ≠ []) (hall : text.all (isDigit 10) = true)
    (hn : digitsValue 10 text < 2 ^ 53) : number text = some (digitsValue 10 text : ℚ) := by
  have hdigit : ∀ c ∈ text, isDigit 10 c = true := List.all_eq_true.1 hall
  have htrim : trim text = text :=
    trim_of_ends
      (fun c hc => not_isSpace_of_isDigit (by omega) (hdigit c (List.mem_of_mem_head? hc)))
      (fun c hc => not_isSpace_of_isDigit (by omega) (hdigit c (List.mem_of_getLast? hc)))
  have hletter : ∀ x : Char, 10 ≤ digitValue x → text.take 2 ≠ ['0', x] := by
    intro x hx htake
    have hmem : x ∈ text.take 2 := htake ▸ by simp
    have hlt : digitValue x < 10 := of_decide_eq_true (hdigit x (List.mem_of_mem_take hmem))
    omega
  have hsign : splitSign text = (1, text) := by
    obtain ⟨c, rest, rfl⟩ := List.exists_cons_of_ne_nil hne
    exact splitSign_of_isDigit (by omega) (hdigit c List.mem_cons_self) rest
  have htake : text.takeWhile (isDigit 10) = text := List.takeWhile_eq_self_iff.2 hdigit
  have hdrop : text.dropWhile (isDigit 10) = [] := List.dropWhile_eq_nil_iff.2 hdigit
  have hliteral : decimalLiteral text = some (digitsValue 10 text : ℚ) := by
    simp [decimalLiteral, htake, hdrop, hne]
  simp only [number, htrim, hletter 'x' (by decide), hletter 'X' (by decide),
    hletter 'o' (by decide), hletter 'O' (by decide), hletter 'b' (by decide),
    hletter 'B' (by decide), or_self, if_false, if_neg hne, ne_eq, not_true_eq_false, hsign,
    hliteral, Option.map_some]
  rw [Int.cast_one, one_mul, fl_natCast hn]

end Vigabss.Lib.JsText

/-!
## JavaScript's integer numbers and 32-bit operators

`JsNum` is the part of the JavaScript numbers that index arithmetic reaches: the exact integers
and the value that is not a number.  The bit operators convert both operands to signed 32-bit
integers first (`toInt32`, where `undefined` and `NaN` give 0): `or32_four` is the value of a word
assembled from four bytes.
-/

namespace Vigabss.Lib

/-- A JavaScript number in index arithmetic.  `nan` also stands for `undefined`, which converts
to `NaN` in arithmetic and in comparisons. -/
inductive JsNum where
  | int (n : ℤ)
  | nan
  deriving DecidableEq, Repr

namespace JsNum

/-- `a + b`. -/
def add : JsNum → JsNum → JsNum
  | .int a, .int b => .int (a + b)
  | _, _ => .nan

instance : Add JsNum := ⟨add⟩

instance (n : ℕ) : OfNat JsNum n := ⟨.int n⟩

/-- `a < b`, false when either side is not a number. -/
def lt : JsNum → JsNum → Bool
  | .int a, .int b => decide (a < b)
  | _, _ => false

/-- `a >= b`, false when either side is not a number. -/
def ge : JsNum → JsNum → Bool
  | .int a, .int b => decide (b ≤ a)
  | _, _ => false

/-- The conversion of an operand of `&`, `|` and `<<`. -/
def toInt32 : JsNum → BitVec 32
  | .int a => BitVec.ofInt 32 a
  | .nan => 0

/-- `a & b`. -/
def and32 (a b : JsNum) : JsNum := .int (a.toInt32 &&& b.toInt32).toInt

/-- `a | b`. -/
def or32 (a b : JsNum) : JsNum := .int (a.toInt32 ||| b.toInt32).toInt

/-- `a << k`. -/
def shl32 (a : JsNum) (k : ℕ) : JsNum := .int (a.toInt32 <<< k).toInt

@[simp] theorem int_add_int (a b : ℤ) : JsNum.int a + JsNum.int b = .int (a + b) := rfl

@[simp] theorem int_lt_int (a b : ℤ) : (JsNum.int a).lt (.int b) = decide (a < b) := rfl

@[simp] theorem int_ge_int (a b : ℤ) : (JsNum.int a).ge (.int b) = decide (b ≤ a) := rfl

theorem ofNat_eq_int (n : ℕ) : (OfNat.ofNat n : JsNum) = .int n := rfl

@[simp] theorem toInt32_int_toInt (x : BitVec 32) : (JsNum.int x.toInt).toInt32 = x :=
  BitVec.ofInt_toInt

/-! ### Words assembled from bytes -/

/-- The value of a byte. -/
def ofByte (b : UInt8) : JsNum := .int b.toNat

@[simp] theorem toInt32_natCast (n : ℕ) : (JsNum.int n).toInt32 = BitVec.ofNat 32 n := by
  simp [toInt32]

@[simp] theorem toInt32_ofByte (b : UInt8) : (ofByte b).toInt32 = BitVec.ofNat 32 b.toNat := by
  simp [ofByte]

/-- The signed reading of a 32-bit pattern given by its unsigned value. -/
def signed32 (n : ℕ) : ℤ := if n < 2 ^ 31 then n else n - 2 ^ 32

theorem toInt_eq_signed32 (x : BitVec 32) : x.toInt = signed32 x.toNat := by
  rw [BitVec.toInt_eq_toNat_cond, signed32]
  split_ifs <;> omega

theorem signed32_of_lt {n : ℕ} (h : n < 2 ^ 31) : signed32 n = n := if_pos h

theorem and32_ofByte (b : UInt8) {m : ℕ} (hm : m < 2 ^ 8) :
    and32 (ofByte b) (.int m) = .int ((b.toNat &&& m : ℕ) : ℤ) := by
  have hb := b.toNat_lt
  have hle : b.toNat &&& m ≤ b.toNat := Nat.and_le_left
  rw [and32, toInt32_ofByte, toInt32_natCast, toInt_eq_signed32, BitVec.toNat_and,
    BitVec.toNat_ofNat, BitVec.toNat_ofNat, Nat.mod_eq_of_lt (by omega),
    Nat.mod_eq_of_lt (by omega), signed32_of_lt (by omega)]

theorem mul_two_pow_or {a b k : ℕ} (hb : b < 2 ^ k) : a * 2 ^ k ||| b = a * 2 ^ k + b := by
  rw [Nat.mul_comm, Nat.two_pow_add_eq_or_of_lt hb]

theorem toNat_shiftLeft_ofNat {n k : ℕ} (hn : n < 2 ^ 32) (hk : n * 2 ^ k < 2 ^ 32) :
    (BitVec.ofNat 32 n <<< k).toNat = n * 2 ^ k := by
  rw [BitVec.toNat_shiftLeft, BitVec.toNat_ofNat, Nat.mod_eq_of_lt hn, Nat.shiftLeft_eq,
    Nat.mod_eq_of_lt hk]

theorem or32_two (n : ℕ) (hn : n < 2 ^ 8) (b : UInt8) :
    or32 (shl32 (.int n) 8) (ofByte b) = .int (n * 2 ^ 8 + b.toNat : ℕ) := by
  have hb := b.toNat_lt
  rw [or32, shl32, toInt32_int_toInt, toInt32_natCast, toInt32_ofByte, toInt_eq_signed32,
    BitVec.toNat_or, toNat_shiftLeft_ofNat (by omega) (by omega), BitVec.toNat_ofNat,
    Nat.mod_eq_of_lt (by omega), mul_two_pow_or hb, signed32_of_lt (by omega)]

theorem or32_three (n : ℕ) (hn : n < 2 ^ 8) (b₁ b₂ : UInt8) :
    or32 (or32 (shl32 (.int n) 16) (shl32 (ofByte b₁) 8)) (ofByte b₂) =
      .int (n * 2 ^ 16 + b₁.toNat * 2 ^ 8 + b₂.toNat : ℕ) := by
  have h₁ := b₁.toNat_lt
  have h₂ := b₂.toNat_lt
  have e : n * 2 ^ 16 + b₁.toNat * 2 ^ 8 = (n * 2 ^ 8 + b₁.toNat) * 2 ^ 8 := by ring
  simp only [or32, shl32, toInt32_int_toInt, toInt32_natCast, toInt32_ofByte]
  rw [toInt_eq_signed32, BitVec.toNat_or, BitVec.toNat_or,
    toNat_shiftLeft_ofNat (by omega) (by omega), toNat_shiftLeft_ofNat (by omega) (by omega),
    BitVec.toNat_ofNat, Nat.mod_eq_of_lt (by omega), mul_two_pow_or (by omega), e,
    mul_two_pow_or h₂, signed32_of_lt (by omega)]

/-- **The value of a word of four bytes.**  `(n << 24) | (b₁ << 16) | (b₂ << 8) | b₃` is the
signed reading of the big-endian value. -/
theorem or32_four (n : ℕ) (hn : n < 2 ^ 8) (b₁ b₂ b₃ : UInt8) :
    or32 (or32 (or32 (shl32 (.int n) 24) (shl32 (ofByte b₁) 16)) (shl32 (ofByte b₂) 8))
        (ofByte b₃) =
      .int (signed32 (n * 2 ^ 24 + b₁.toNat * 2 ^ 16 + b₂.toNat * 2 ^ 8 + b₃.toNat)) := by
  have h₁ := b₁.toNat_lt
  have h₂ := b₂.toNat_lt
  have h₃ := b₃.toNat_lt
  have e₁ : n * 2 ^ 24 + b₁.toNat * 2 ^ 16 = (n * 2 ^ 8 + b₁.toNat) * 2 ^ 16 := by ring
  have e₂ : (n * 2 ^ 8 + b₁.toNat) * 2 ^ 16 + b₂.toNat * 2 ^ 8 =
      ((n * 2 ^ 8 + b₁.toNat) * 2 ^ 8 + b₂.toNat) * 2 ^ 8 := by ring
  simp only [or32, shl32, toInt32_int_toInt, toInt32_natCast, toInt32_ofByte]
  rw [toInt_eq_signed32, BitVec.toNat_or, BitVec.toNat_or, BitVec.toNat_or,
    toNat_shiftLeft_ofNat (by omega) (by omega), toNat_shiftLeft_ofNat (by omega) (by omega),
    toNat_shiftLeft_ofNat (by omega) (by omega), BitVec.toNat_ofNat,
    Nat.mod_eq_of_lt (by omega), mul_two_pow_or (by omega), e₁, mul_two_pow_or (by omega), e₂,
    mul_two_pow_or h₃]

end JsNum

end Vigabss.Lib

/-!
## The matches of an expression in a text

`text.replace(expression, ..)` with a global expression: the text is read from its beginning, a
match is taken where the expression matches, and reading goes on behind it.  An expression is given
by what it matches at the beginning of a text, with the characters of a match.
-/

namespace Vigabss.Lib.Replace

variable {M : Type} (read : List Char → Option M) (chars : M → List Char)

/-- The characters and the matches of a text; `skip` characters still belong to a match. -/
def pieces : ℕ → List Char → List (Char ⊕ M)
  | _, [] => []
  | skip + 1, _ :: text => pieces skip text
  | 0, c :: text =>
    match read (c :: text) with
    | some m => .inr m :: pieces ((chars m).length - 1) text
    | none => .inl c :: pieces 0 text

variable {read chars}

theorem pieces_skip (skip : ℕ) (text : List Char) :
    pieces read chars skip text = pieces read chars 0 (text.drop skip) := by
  induction text generalizing skip with
  | nil => simp [pieces]
  | cons c text ih =>
    cases skip with
    | zero => rfl
    | succ skip => rw [pieces, ih, List.drop_succ_cons]

theorem pieces_match {m : M} {rest : List Char} (hne : chars m ≠ [])
    (hread : read (chars m ++ rest) = some m) :
    pieces read chars 0 (chars m ++ rest) = .inr m :: pieces read chars 0 rest := by
  obtain ⟨c, cs, hcs⟩ := List.exists_cons_of_ne_nil hne
  have hdrop : (cs ++ rest).drop ((chars m).length - 1) = rest := by
    rw [hcs, List.length_cons, Nat.add_sub_cancel, List.drop_left]
  rw [hcs, List.cons_append] at hread ⊢
  rw [pieces, hread]
  show Sum.inr m :: pieces read chars ((chars m).length - 1) (cs ++ rest) = _
  rw [pieces_skip, hdrop]

theorem pieces_gap {gap rest : List Char}
    (hnone : ∀ s, s ≠ [] → s <:+ gap → read (s ++ rest) = none) :
    pieces read chars 0 (gap ++ rest) = gap.map .inl ++ pieces read chars 0 rest := by
  induction gap with
  | nil => rfl
  | cons c gap ih =>
    have hread : read (c :: (gap ++ rest)) = none :=
      hnone (c :: gap) (List.cons_ne_nil c gap) List.suffix_rfl
    rw [List.cons_append, pieces, hread, List.map_cons, List.cons_append]
    exact congrArg _ (ih fun s hne hs => hnone s hne (hs.trans (List.suffix_cons c gap)))

end Vigabss.Lib.Replace
