import Vigabss.Lib.JsText

/-!
# Vigabss.Billing.PostalCodes — the postal code in a free text

`normalizePostalCode` reads a postal code out of what an operator typed; a text that holds two codes
of five digits has none (`normalizePostalCode_two`).
-/

namespace Vigabss.Billing.Regions

open Vigabss.Lib Vigabss.Lib.JsText

/-! ### The code -/

/-- `c.toUpperCase()`, as far as it gives ASCII letters; other characters are left as they are,
since no code holds them in either form. -/
def upper (c : Char) : List Char :=
  if 'a' ≤ c ∧ c ≤ 'z' then [Char.ofNat (c.toNat - 32)]
  else match c.toNat with
    | 0xDF => ['S', 'S']
    | 0x131 => ['I']
    | 0x149 => [Char.ofNat 0x2BC, 'N']
    | 0x17F => ['S']
    | 0x1F0 => ['J', Char.ofNat 0x30C]
    | 0x1E96 => ['H', Char.ofNat 0x331]
    | 0x1E97 => ['T', Char.ofNat 0x308]
    | 0x1E98 => ['W', Char.ofNat 0x30A]
    | 0x1E99 => ['Y', Char.ofNat 0x30A]
    | 0x1E9A => ['A', Char.ofNat 0x2BE]
    | 0xFB00 => ['F', 'F']
    | 0xFB01 => ['F', 'I']
    | 0xFB02 => ['F', 'L']
    | 0xFB03 => ['F', 'F', 'I']
    | 0xFB04 => ['F', 'F', 'L']
    | 0xFB05 => ['S', 'T']
    | 0xFB06 => ['S', 'T']
    | _ => [c]

/-- `text.toUpperCase()`. -/
def toUpperCase (text : List Char) : List Char := text.flatMap upper

/-- The matches of `\d{5}`, with the digits of the run so far: each run of digits is cut into fives
from its start. -/
def fivesFrom : List Char → List Char → List (List Char)
  | _, [] => []
  | run, c :: text =>
    if isDigit 10 c then
      if run.length = 4 then (run ++ [c]) :: fivesFrom [] text else fivesFrom (run ++ [c]) text
    else fivesFrom [] text

/-- `text.match(/\d{5}/g)`. -/
def fives (text : List Char) : List (List Char) := fivesFrom [] text

/-- `/^\s*\d{5}\s*-\s*\d{4}\s*$/.test(text)`. -/
def zipPlusFour (text : List Char) : Bool :=
  let zip := text.dropWhile isSpace
  let dash := (zip.drop 5).dropWhile isSpace
  let four := dash.tail.dropWhile isSpace
  (zip.take 5).countP (isDigit 10) = 5 ∧ dash.head? = some '-' ∧
    (four.take 4).countP (isDigit 10) = 4 ∧ (four.drop 4).dropWhile isSpace = []

/-- `[A-Z0-9]`. -/
def isCodeChar (c : Char) : Bool := isDigit 10 c ∨ 'A' ≤ c ∧ c ≤ 'Z'

/-- `normalizePostalCode(raw)`. -/
def normalizePostalCode (raw : Option (List Char)) : Option (List Char) :=
  match raw with
  | none => none
  | some raw =>
    let str := toUpperCase (trim raw)
    if str = [] then none
    else
      match fives str with
      | five :: more => if more ≠ [] ∧ zipPlusFour str = false then none else some five
      | [] =>
        let cleaned := str.filter isCodeChar
        if cleaned.length < 3 ∨ 10 < cleaned.length then none
        else if cleaned.any (isDigit 10) = false then none
        else some cleaned
/-! ### Two codes in one text -/

theorem isDigit_iff (c : Char) : isDigit 10 c = true ↔ 48 ≤ c.toNat ∧ c.toNat ≤ 57 := by
  have hrange : ∀ a b : Char, (a ≤ c ∧ c ≤ b) ↔ a.toNat ≤ c.toNat ∧ c.toNat ≤ b.toNat := by
    intro a b
    exact Iff.rfl
  have h0 : '0'.toNat = 48 := rfl
  have h9 : '9'.toNat = 57 := rfl
  have ha : 'a'.toNat = 97 := rfl
  have hz : 'z'.toNat = 122 := rfl
  have hA : 'A'.toNat = 65 := rfl
  have hZ : 'Z'.toNat = 90 := rfl
  rw [isDigit, decide_eq_true_eq, digitValue]
  simp only [hrange, h0, h9, ha, hz, hA, hZ]
  split_ifs <;> omega

/-- How many fives a text completes, with the number of digits before it. -/
def completes : ℕ → List Char → ℕ
  | _, [] => 0
  | run, c :: text =>
    if isDigit 10 c then if run = 4 then completes 0 text + 1 else completes (run + 1) text
    else completes 0 text

theorem length_fivesFrom (run text : List Char) :
    (fivesFrom run text).length = completes run.length text := by
  induction text generalizing run with
  | nil => rfl
  | cons c text ih =>
    rw [fivesFrom, completes]
    split_ifs with hc hrun
    · rw [List.length_cons, ih, List.length_nil]
    · rw [ih, List.length_append, List.length_singleton]
    · rw [ih, List.length_nil]

theorem completes_mono {m n : ℕ} (hmn : m ≤ n) (hn : n ≤ 4) (text : List Char) :
    completes m text ≤ completes n text ∧ completes n text ≤ completes m text + 1 := by
  induction text generalizing m n with
  | nil => exact ⟨le_rfl, Nat.zero_le _⟩
  | cons c text ih =>
    rw [completes, completes]
    split_ifs with hc hm hn'
    · exact ⟨le_rfl, Nat.le_succ _⟩
    · omega
    · have := ih (m := 0) (n := m + 1) (Nat.zero_le _) (by omega)
      omega
    · exact ih (by omega) (by omega)
    · exact ⟨le_rfl, Nat.le_succ _⟩

theorem completes_append_five {five : List Char} (h5 : five.length = 5)
    (hdigits : ∀ c ∈ five, isDigit 10 c = true) {run : ℕ} (hrun : run ≤ 4) (text : List Char) :
    completes run (five ++ text) = completes run text + 1 := by
  obtain ⟨a, b, c, d, e, rfl⟩ : ∃ a b c d e, five = [a, b, c, d, e] := by
    match five, h5 with
    | [a, b, c, d, e], _ => exact ⟨a, b, c, d, e, rfl⟩
  simp only [List.forall_mem_cons] at hdigits
  obtain ⟨ha, hb, hc, hd, he, -⟩ := hdigits
  simp only [List.cons_append, List.nil_append, completes, ha, hb, hc, hd, he, if_true]
  obtain rfl | rfl | rfl | rfl | rfl : run = 0 ∨ run = 1 ∨ run = 2 ∨ run = 3 ∨ run = 4 := by omega
  all_goals rfl

theorem completes_le_append (front text : List Char) {run : ℕ} (hrun : run ≤ 4) :
    completes 0 text ≤ completes run (front ++ text) := by
  induction front generalizing run with
  | nil => exact (completes_mono (Nat.zero_le run) hrun text).1
  | cons c front ih =>
    rw [List.cons_append, completes]
    split_ifs with hc h4
    · exact (ih (Nat.zero_le _)).trans (Nat.le_succ _)
    · exact ih (by omega)
    · exact ih (Nat.zero_le _)

/-- The text holds two codes of five digits, one behind the other. -/
def HoldsTwoCodes (text : List Char) : Prop :=
  ∃ before first between second behind, text = before ++ first ++ between ++ second ++ behind ∧
    (first.length = 5 ∧ ∀ c ∈ first, isDigit 10 c = true) ∧
    (second.length = 5 ∧ ∀ c ∈ second, isDigit 10 c = true)

theorem two_le_length_fives {text : List Char} (h : HoldsTwoCodes text) :
    2 ≤ (fives text).length := by
  obtain ⟨before, first, between, second, behind, rfl, ⟨h1, hd1⟩, h2, hd2⟩ := h
  have houter : ∀ run ≤ 4, 2 ≤ completes run
      (first ++ between ++ second ++ behind) := by
    intro run hrun
    have hinner : 1 ≤ completes run (between ++ (second ++ behind)) := by
      have := completes_le_append between (second ++ behind) hrun
      rw [completes_append_five h2 hd2 (Nat.zero_le 4)] at this
      omega
    rw [List.append_assoc, List.append_assoc, completes_append_five h1 hd1 hrun]
    omega
  rw [fives, length_fivesFrom, List.append_assoc before, List.append_assoc before,
    List.append_assoc before]
  exact (houter 0 (Nat.zero_le _)).trans (completes_le_append before _ (Nat.zero_le _))

theorem ne_nil_of_mem_fivesFrom {run text five : List Char} (h : five ∈ fivesFrom run text) :
    five ≠ [] := by
  induction text generalizing run with
  | nil => cases h
  | cons c text ih =>
    rw [fivesFrom] at h
    split_ifs at h with hc hrun
    · rcases List.mem_cons.1 h with rfl | h
      · simp
      · exact ih h
    · exact ih h
    · exact ih h

theorem ne_nil_of_normalizePostalCode {raw : Option (List Char)} {cp : List Char}
    (h : normalizePostalCode raw = some cp) : cp ≠ [] := by
  cases raw with
  | none => cases h
  | some raw =>
    unfold normalizePostalCode at h
    dsimp only at h
    by_cases hstr : toUpperCase (trim raw) = []
    · rw [if_pos hstr] at h
      cases h
    · rw [if_neg hstr] at h
      cases hfives : fives (toUpperCase (trim raw)) with
      | nil =>
        rw [hfives] at h
        dsimp only at h
        split_ifs at h with hlength hdigit
        obtain rfl := Option.some.inj h
        intro hnil
        rw [hnil, List.length_nil] at hlength
        omega
      | cons five more =>
        have hmem : five ∈ fivesFrom [] (toUpperCase (trim raw)) := by
          rw [← fives, hfives]
          exact List.mem_cons_self
        rw [hfives] at h
        dsimp only at h
        split_ifs at h
        obtain rfl := Option.some.inj h
        exact ne_nil_of_mem_fivesFrom hmem

/-! ### Trimming and capitals leave the digits -/

theorem fivesFrom_of_not_digits {text : List Char} (h : ∀ c ∈ text, isDigit 10 c = false)
    (run : List Char) : fivesFrom run text = [] := by
  induction text generalizing run with
  | nil => rfl
  | cons c text ih =>
    rw [fivesFrom, if_neg (by rw [h c List.mem_cons_self]; decide)]
    exact ih (fun d hd => h d (List.mem_cons_of_mem _ hd)) []

theorem fivesFrom_append_blank {blank : List Char} (h : ∀ c ∈ blank, isDigit 10 c = false)
    (run text : List Char) : fivesFrom run (text ++ blank) = fivesFrom run text := by
  induction text generalizing run with
  | nil => exact fivesFrom_of_not_digits h run
  | cons c text ih => simp only [List.cons_append, fivesFrom, ih]

theorem not_isDigit_of_isSpace {c : Char} (h : isSpace c = true) : isDigit 10 c = false := by
  rw [← Bool.not_eq_true]
  intro hdigit
  rw [not_isSpace_of_isDigit (by omega) hdigit] at h
  exact absurd h (by decide)

theorem fives_dropWhile_space (text : List Char) : fives (text.dropWhile isSpace) = fives text := by
  induction text with
  | nil => rfl
  | cons c text ih =>
    by_cases hc : isSpace c = true
    · rw [List.dropWhile_cons_of_pos hc, ih, fives, fives, fivesFrom, not_isDigit_of_isSpace hc]
      rfl
    · rw [List.dropWhile_cons_of_neg hc]

theorem fives_trim (text : List Char) : fives (trim text) = fives text := by
  have hsplit := List.takeWhile_append_dropWhile (p := isSpace)
    (l := (text.dropWhile isSpace).reverse)
  have hrev : text.dropWhile isSpace = trim text ++
      ((text.dropWhile isSpace).reverse.takeWhile isSpace).reverse := by
    rw [trim, ← List.reverse_append, hsplit, List.reverse_reverse]
  have hblank : ∀ c ∈ ((text.dropWhile isSpace).reverse.takeWhile isSpace).reverse,
      isDigit 10 c = false := by
    intro c hc
    exact not_isDigit_of_isSpace (List.mem_takeWhile_imp (List.mem_reverse.1 hc))
  have := fivesFrom_append_blank hblank [] (trim text)
  rw [← hrev] at this
  exact (this.symm.trans (fives_dropWhile_space text))

theorem not_digit_of_lt {n : ℕ} (h : n < 48 ∨ 57 < n) (c : Char) (hc : c.toNat = n) :
    isDigit 10 c = false := by
  rw [← Bool.not_eq_true, isDigit_iff]
  omega

theorem no_digits {text : List Char} (h : text.countP (isDigit 10) = 0) :
    ∀ c ∈ text, isDigit 10 c = false := by
  intro c hc
  rw [← Bool.not_eq_true]
  exact List.countP_eq_zero.1 h c hc

theorem upper_digits (c : Char) :
    isDigit 10 c = true ∧ upper c = [c] ∨
      isDigit 10 c = false ∧ upper c ≠ [] ∧ ∀ d ∈ upper c, isDigit 10 d = false := by
  unfold upper
  split_ifs with hlower
  · have hrange : 97 ≤ c.toNat ∧ c.toNat ≤ 122 := hlower
    have hvalid : (c.toNat - 32).isValidChar := Or.inl (by omega)
    refine .inr ⟨not_digit_of_lt (.inr (by omega)) c rfl, List.cons_ne_nil _ _, ?_⟩
    rw [List.forall_mem_singleton]
    refine not_digit_of_lt (n := c.toNat - 32) (.inr (by omega)) _ ?_
    rw [Char.ofNat, dif_pos hvalid]
    rfl
  · by_cases hc : isDigit 10 c = true
    · have hrange := (isDigit_iff c).1 hc
      left
      refine ⟨hc, ?_⟩
      split <;> first | omega | rfl
    · right
      rw [Bool.not_eq_true] at hc
      refine ⟨hc, ?_⟩
      split
      all_goals first
        | exact ⟨List.cons_ne_nil _ _, no_digits rfl⟩
        | exact ⟨List.cons_ne_nil _ _, by rwa [List.forall_mem_singleton]⟩

theorem fivesFrom_toUpperCase (run text : List Char) :
    fivesFrom run (toUpperCase text) = fivesFrom run text := by
  induction text generalizing run with
  | nil => rfl
  | cons c text ih =>
    rw [toUpperCase, List.flatMap_cons, ← toUpperCase]
    obtain ⟨hc, hupper⟩ | ⟨hc, hne, hupper⟩ := upper_digits c
    · rw [hupper]
      simp only [List.singleton_append, fivesFrom, ih]
    · have hskip : ∀ (front : List Char) (run : List Char), front ≠ [] →
          (∀ d ∈ front, isDigit 10 d = false) →
          fivesFrom run (front ++ toUpperCase text) = fivesFrom [] text := by
        intro front
        induction front with
        | nil => exact fun _ h => absurd rfl h
        | cons d front ihf =>
          intro run _ hd
          rw [List.cons_append, fivesFrom, if_neg (by rw [hd d List.mem_cons_self]; decide)]
          cases front with
          | nil => exact ih []
          | cons e front =>
            exact ihf [] (List.cons_ne_nil _ _) fun x hx => hd x (List.mem_cons_of_mem _ hx)
      rw [hskip _ run hne hupper, fivesFrom, hc]
      rfl

theorem completes_le_digits (run : ℕ) (text : List Char) :
    5 * completes run text ≤ run + text.countP (isDigit 10) := by
  induction text generalizing run with
  | nil => exact Nat.zero_le _
  | cons c text ih =>
    rw [completes, List.countP_cons]
    split_ifs with hc hrun
    · have := ih 0
      omega
    · have := ih (run + 1)
      omega
    · have := ih 0
      omega

theorem countP_dropWhile_space (text : List Char) :
    (text.dropWhile isSpace).countP (isDigit 10) = text.countP (isDigit 10) := by
  induction text with
  | nil => rfl
  | cons c text ih =>
    by_cases hc : isSpace c = true
    · have hdigit : ¬ isDigit 10 c = true := by
        rw [not_isDigit_of_isSpace hc]
        decide
      rw [List.dropWhile_cons_of_pos hc, ih, List.countP_cons_of_neg hdigit]
    · rw [List.dropWhile_cons_of_neg hc]

theorem digits_zipPlusFour {text : List Char} (h : zipPlusFour text = true) :
    text.countP (isDigit 10) = 9 := by
  unfold zipPlusFour at h
  simp only [decide_eq_true_eq] at h
  obtain ⟨hfive, hdash, hfour, hend⟩ := h
  have hsplit : ∀ (n : ℕ) (l : List Char), l.countP (isDigit 10) =
      (l.take n).countP (isDigit 10) + (l.drop n).countP (isDigit 10) := by
    intro n l
    rw [← List.countP_append, List.take_append_drop]
  have hafter := countP_dropWhile_space
    ((((((text.dropWhile isSpace).drop 5).dropWhile isSpace).tail).dropWhile isSpace).drop 4)
  rw [hend, List.countP_nil] at hafter
  have htail : ∀ l : List Char, l.head? = some '-' →
      l.countP (isDigit 10) = l.tail.countP (isDigit 10) := by
    intro l hl
    cases l with
    | nil => rfl
    | cons c l =>
      obtain rfl := Option.some.inj hl
      exact List.countP_cons_of_neg (by decide)
  rw [← countP_dropWhile_space, hsplit 5, hfive, ← countP_dropWhile_space (List.drop 5 _),
    htail _ hdash, ← countP_dropWhile_space (List.tail _), hsplit 4, hfour, ← hafter]

/-- **Two codes in one text are none.** -/
theorem normalizePostalCode_two {raw : List Char} (h : HoldsTwoCodes raw) :
    normalizePostalCode (some raw) = none := by
  have htwo := two_le_length_fives h
  have hfives : fives (toUpperCase (trim raw)) = fives raw :=
    (fivesFrom_toUpperCase [] (trim raw)).trans (fives_trim raw)
  have hzip : zipPlusFour (toUpperCase (trim raw)) = false := by
    by_contra hzip
    have hdigits := digits_zipPlusFour (by simpa using hzip)
    have hle := completes_le_digits 0 (toUpperCase (trim raw))
    have hlength := length_fivesFrom [] (toUpperCase (trim raw))
    rw [List.length_nil] at hlength
    rw [← hlength, hdigits, ← fives, hfives] at hle
    omega
  rw [normalizePostalCode, hfives, hzip]
  dsimp only
  match hlist : fives raw, htwo with
  | five :: six :: more, _ => simp
end Vigabss.Billing.Regions
