import Mathlib.Data.List.Sort
import Vigabss.Billing.PostalCodes

/-!
# Vigabss.Billing.RegionRates — the tax rule of a postal code

`postalSpecMatch` looks for the narrowest entry of a rule that covers a postal code, and
`resolveRegionRate` takes the rule with the narrowest entry of all (`region_rate_narrowest`).
-/

namespace Vigabss.Billing.Regions

open Vigabss.Lib Vigabss.Lib.JsText

/-! ### The code -/

/-- The groups of `/^(\d+)-(\d+)$/`. -/
def rangeOf (part : List Char) : Option (List Char × List Char) :=
  let first := part.takeWhile (isDigit 10)
  match part.dropWhile (isDigit 10) with
  | '-' :: last =>
    if first ≠ [] ∧ last ≠ [] ∧ last.all (isDigit 10) then some (first, last) else none
  | _ => none

/-- What an entry of `postal_codes` stands for. -/
inductive Entry where
  | range (first last : List Char)
  | startingWith (start : List Char)
  | exact (code : List Char)
  deriving DecidableEq

/-- The kind of an entry, in the order in which `postalSpecMatch` looks for them. -/
def entryOf (part : List Char) : Entry :=
  match rangeOf part with
  | some (first, last) => .range first last
  | none => if part.getLast? = some '*' then .startingWith part.dropLast else .exact part

/-- The number of an entry's digits. -/
def code (digits : List Char) : ℕ := digitsValue 10 digits

/-- The width that an entry is considered with, if it covers the code. -/
def Entry.width (cp : List Char) : Entry → Option ℕ
  | .range first last =>
    if first.length ≠ last.length ∨ cp.length ≠ first.length ∨ cp.all (isDigit 10) = false then
      none
    else
      let lo := if code first ≤ code last then first else last
      let hi := if code first ≤ code last then last else first
      if ¬ cp < lo ∧ ¬ hi < cp then some (code hi - code lo + 1) else none
  | .startingWith start =>
    if start ≠ [] ∧ start <+: cp then some (10 ^ max 1 (10 - start.length)) else none
  | .exact code => if code = cp then some 1 else none

/-- The entries of a rule: the parts between commas, in capitals and without spaces. -/
def entries (spec : List Char) : List (List Char) :=
  ((split ',' spec).map fun part => (toUpperCase (trim part)).filter fun c => ¬ isSpace c).filter
    (· ≠ [])

/-- `consider(width)`. -/
def consider (best : Option ℕ) (width : ℕ) : Option ℕ :=
  match best with
  | none => some width
  | some b => if width < b then some width else some b

/-- `postalSpecMatch(spec, cp)`. -/
def postalSpecMatch (spec cp : List Char) : Option ℕ :=
  if spec = [] ∨ cp = [] then none
  else (entries spec).foldl (fun best part =>
    match (entryOf part).width cp with
    | none => best
    | some width => consider best width) none

inductive RuleStatus where
  | active | inactive
  deriving DecidableEq

/-- The columns of `tax_rules` that `resolveRegionRate` reads. -/
structure TaxRule where
  id : ℕ
  organization_id : Option ℕ
  rate : ℚ
  postal_codes : Option (List Char)
  status : RuleStatus
  deleted : Bool

/-- `winner`. -/
structure Winner where
  id : ℕ
  rate : ℚ
  width : ℕ
  deriving DecidableEq

/-- The condition of the query. -/
def TaxRule.Applies (orgId : ℕ) (r : TaxRule) : Prop :=
  r.organization_id = some orgId ∧ r.status = .active ∧ r.deleted = false ∧ r.postal_codes.isSome

instance (orgId : ℕ) (r : TaxRule) : Decidable (r.Applies orgId) :=
  inferInstanceAs (Decidable (_ ∧ _))

/-- The rows of the query, `ORDER BY id`. -/
def activeRules (rules : List TaxRule) (orgId : ℕ) : List TaxRule :=
  (rules.filter fun r => r.Applies orgId).insertionSort fun a b => a.id ≤ b.id

/-- One round of the loop over the rules. -/
def better (cp : List Char) (winner : Option Winner) (r : TaxRule) : Option Winner :=
  match postalSpecMatch (r.postal_codes.getD []) cp with
  | none => winner
  | some width =>
    match winner with
    | none => some ⟨r.id, r.rate, width⟩
    | some w => if width < w.width then some ⟨r.id, r.rate, width⟩ else some w

/-- `resolveRegionRate(exec, orgId, rawZip)`. -/
def resolveRegionRate (rules : List TaxRule) (orgId : ℕ) (rawZip : Option (List Char)) :
    Option Winner :=
  match normalizePostalCode rawZip with
  | none => none
  | some cp => (activeRules rules orgId).foldl (better cp) none
/-! ### The narrowest entry -/

/-- The widths of the entries of a rule that cover the code. -/
def widths (spec cp : List Char) : Set ℕ :=
  {n | ∃ part ∈ entries spec, (entryOf part).width cp = some n}

theorem isLeast_consider (b width n : ℕ) (P : ℕ → Prop) :
    IsLeast {w | consider (some b) width = some w ∨ P w} n ↔
      IsLeast {w | some b = some w ∨ some width = some w ∨ P w} n := by
  have hmin : consider (some b) width = some (min b width) := by
    rw [consider]
    split_ifs with h
    · rw [min_eq_right h.le]
    · rw [min_eq_left (not_lt.1 h)]
  rw [hmin]
  simp only [IsLeast, lowerBounds, Set.mem_ofPred_eq, Option.some.injEq]
  constructor
  · rintro ⟨hmem, hle⟩
    refine ⟨?_, ?_⟩
    · rcases hmem with rfl | hP
      · rcases min_choice b width with h | h <;> rw [h] <;> simp
      · exact .inr (.inr hP)
    · rintro w (rfl | rfl | hP)
      · exact (hle (.inl rfl)).trans (min_le_left _ _)
      · exact (hle (.inl rfl)).trans (min_le_right _ _)
      · exact hle (.inr hP)
  · rintro ⟨hmem, hle⟩
    have hb := hle (.inl rfl)
    have hwidth := hle (.inr (.inl rfl))
    refine ⟨?_, ?_⟩
    · rcases hmem with rfl | rfl | hP
      · exact .inl (min_eq_left hwidth)
      · exact .inl (min_eq_right hb)
      · exact .inr hP
    · rintro w (rfl | hP)
      · exact le_min hb hwidth
      · exact hle (.inr (.inr hP))

theorem foldl_consider (cp : List Char) (parts : List (List Char)) (best : Option ℕ) (n : ℕ) :
    parts.foldl (fun best part =>
        match (entryOf part).width cp with
        | none => best
        | some width => consider best width) best = some n ↔
      IsLeast {w | best = some w ∨ ∃ part ∈ parts, (entryOf part).width cp = some w} n := by
  induction parts generalizing best with
  | nil =>
    simp only [List.foldl_nil, List.not_mem_nil, false_and, exists_false, or_false]
    constructor
    · rintro rfl
      exact ⟨rfl, fun w hw => (Option.some.inj hw).le⟩
    · exact fun h => h.1
  | cons part parts ih =>
    rw [List.foldl_cons, ih]
    simp only [List.exists_mem_cons_iff]
    cases hwidth : (entryOf part).width cp with
    | none => simp
    | some width =>
      cases best with
      | none => simp [consider]
      | some b => exact isLeast_consider b width n _

/-- **The width of a rule is that of its narrowest entry.** -/
theorem postalSpecMatch_eq_some {spec cp : List Char} {n : ℕ} (hcp : cp ≠ []) :
    postalSpecMatch spec cp = some n ↔ IsLeast (widths spec cp) n := by
  have hset : widths spec cp =
      {w | none = some w ∨ ∃ part ∈ entries spec, (entryOf part).width cp = some w} := by
    ext w
    simp [widths]
  rw [hset, ← foldl_consider, postalSpecMatch]
  by_cases hspec : spec = []
  · subst hspec
    rw [if_pos (.inl rfl)]
    rfl
  · rw [if_neg (not_or.2 ⟨hspec, hcp⟩)]

theorem postalSpecMatch_eq_none {spec cp : List Char} (hcp : cp ≠ []) :
    postalSpecMatch spec cp = none ↔ widths spec cp = ∅ := by
  constructor
  · intro h
    by_contra hne
    obtain ⟨n, hn⟩ := Set.nonempty_iff_ne_empty.2 hne
    classical
    have hleast := (postalSpecMatch_eq_some hcp).2 (Nat.isLeast_find ⟨n, hn⟩)
    rw [h] at hleast
    cases hleast
  · intro h
    cases hmatch : postalSpecMatch spec cp with
    | none => rfl
    | some n =>
      have hmem := ((postalSpecMatch_eq_some hcp).1 hmatch).1
      rw [h] at hmem
      exact hmem.elim

theorem postalSpecMatch_congr {spec spec' : List Char}
    (h : ∀ part, part ∈ entries spec ↔ part ∈ entries spec') (cp : List Char) :
    postalSpecMatch spec cp = postalSpecMatch spec' cp := by
  by_cases hcp : cp = []
  · rw [postalSpecMatch, postalSpecMatch, if_pos (.inr hcp), if_pos (.inr hcp)]
  · have hwidths : widths spec cp = widths spec' cp := by
      ext n
      simp only [widths, Set.mem_ofPred_eq, h]
    refine Option.ext fun n => ?_
    rw [postalSpecMatch_eq_some hcp, postalSpecMatch_eq_some hcp, hwidths]

/-! ### The kinds of entries -/

theorem ten_le_width {start cp : List Char} {n : ℕ}
    (h : (Entry.startingWith start).width cp = some n) : 10 ≤ n := by
  rw [Entry.width] at h
  split_ifs at h
  obtain rfl := Option.some.inj h
  exact Nat.le_self_pow (by omega) 10

theorem width_lt_width {start start' cp : List Char} {n n' : ℕ}
    (h : (Entry.startingWith start).width cp = some n)
    (h' : (Entry.startingWith start').width cp = some n') (hlt : start.length < start'.length)
    (hnine : start'.length ≤ 9) : n' < n := by
  rw [Entry.width] at h h'
  split_ifs at h h'
  obtain rfl := Option.some.inj h
  obtain rfl := Option.some.inj h'
  exact Nat.pow_lt_pow_right (by norm_num) (by omega)

theorem digitsValue_cons (c : Char) (digits : List Char) :
    code (c :: digits) = digitValue c * 10 ^ digits.length + code digits := by
  have hfold : ∀ (start : ℕ) (l : List Char), l.foldl (fun n c => n * 10 + digitValue c) start =
      start * 10 ^ l.length + l.foldl (fun n c => n * 10 + digitValue c) 0 := by
    intro start l
    induction l generalizing start with
    | nil => simp
    | cons d l ih =>
      rw [List.foldl_cons, List.foldl_cons, ih, ih (0 * 10 + digitValue d), List.length_cons,
        pow_succ]
      ring
  rw [code, code, digitsValue, List.foldl_cons, hfold, digitsValue, zero_mul, zero_add]

theorem code_lt {digits : List Char} (h : ∀ c ∈ digits, isDigit 10 c = true) :
    code digits < 10 ^ digits.length := by
  induction digits with
  | nil => exact Nat.one_pos
  | cons c digits ih =>
    have hc : digitValue c < 10 := of_decide_eq_true (h c List.mem_cons_self)
    have hrest := ih fun d hd => h d (List.mem_cons_of_mem c hd)
    rw [digitsValue_cons, List.length_cons, pow_succ]
    nlinarith

theorem digitValue_of_isDigit {c : Char} (h : isDigit 10 c = true) :
    digitValue c = c.toNat - 48 ∧ 48 ≤ c.toNat := by
  have hrange := (isDigit_iff c).1 h
  refine ⟨?_, hrange.1⟩
  rw [digitValue, if_pos (show '0' ≤ c ∧ c ≤ '9' from hrange)]
  rfl

/-- Texts of as many digits are ordered as the numbers that they write. -/
theorem lt_iff_code_lt {a b : List Char} (hlen : a.length = b.length)
    (ha : ∀ c ∈ a, isDigit 10 c = true) (hb : ∀ c ∈ b, isDigit 10 c = true) :
    a < b ↔ code a < code b := by
  induction a generalizing b with
  | nil =>
    obtain rfl := List.length_eq_zero_iff.1 hlen.symm
    simp
  | cons c a ih =>
    cases b with
    | nil => cases hlen
    | cons d b =>
      have hlen' : a.length = b.length := Nat.succ.inj hlen
      obtain ⟨hc, hc0⟩ := digitValue_of_isDigit (ha c List.mem_cons_self)
      obtain ⟨hd, hd0⟩ := digitValue_of_isDigit (hb d List.mem_cons_self)
      have ha' := code_lt fun x hx => ha x (List.mem_cons_of_mem c hx)
      have hb' := code_lt fun x hx => hb x (List.mem_cons_of_mem d hx)
      have hrest := ih hlen' (fun x hx => ha x (List.mem_cons_of_mem c hx))
        fun x hx => hb x (List.mem_cons_of_mem d hx)
      rw [hlen'] at ha'
      rw [digitsValue_cons, digitsValue_cons, hc, hd, List.cons_lt_cons_iff, hrest, hlen']
      have hchar : c < d ↔ c.toNat < d.toNat := Iff.rfl
      have hsame : c = d ↔ c.toNat = d.toNat := ⟨fun h => by rw [h], Char.toNat_inj.1⟩
      rw [hchar, hsame]
      obtain hcd | hcd | hcd := lt_trichotomy c.toNat d.toNat
      · have hstep := Nat.mul_le_mul_right (10 ^ b.length)
          (show c.toNat - 48 + 1 ≤ d.toNat - 48 by omega)
        rw [Nat.add_mul, Nat.one_mul] at hstep
        omega
      · rw [hcd]
        omega
      · have hstep := Nat.mul_le_mul_right (10 ^ b.length)
          (show d.toNat - 48 + 1 ≤ c.toNat - 48 by omega)
        rw [Nat.add_mul, Nat.one_mul] at hstep
        omega

/-- **A range covers the codes between its ends**, in whatever order these are given, and its width
is how many there are. -/
theorem range_width_eq_some {first last cp : List Char} {n : ℕ}
    (hfirst : ∀ c ∈ first, isDigit 10 c = true) (hlast : ∀ c ∈ last, isDigit 10 c = true) :
    (Entry.range first last).width cp = some n ↔
      first.length = last.length ∧ cp.length = first.length ∧ (∀ c ∈ cp, isDigit 10 c = true) ∧
        min (code first) (code last) ≤ code cp ∧ code cp ≤ max (code first) (code last) ∧
        n = max (code first) (code last) - min (code first) (code last) + 1 := by
  rw [Entry.width]
  by_cases hform : first.length ≠ last.length ∨ cp.length ≠ first.length ∨
      cp.all (isDigit 10) = false
  · rw [if_pos hform]
    constructor
    · exact nofun
    · rintro ⟨hlen, hcp, hdigits, -⟩
      rcases hform with h | h | h
      · exact absurd hlen h
      · exact absurd hcp h
      · rw [List.all_eq_true.2 hdigits] at h
        cases h
  · rw [if_neg hform]
    simp only [not_or, not_not, ne_eq, Bool.not_eq_false] at hform
    obtain ⟨hlen, hcp, hdigits⟩ := hform
    rw [List.all_eq_true] at hdigits
    have hcpf := lt_iff_code_lt hcp hdigits hfirst
    have hcpl := lt_iff_code_lt (hcp.trans hlen) hdigits hlast
    have hfcp := lt_iff_code_lt hcp.symm hfirst hdigits
    have hlcp := lt_iff_code_lt (hcp.trans hlen).symm hlast hdigits
    dsimp only
    by_cases hle : code first ≤ code last
    · rw [if_pos hle, if_pos hle, min_eq_left hle, max_eq_right hle]
      simp only [hcpf, hlcp]
      by_cases hin : ¬ code cp < code first ∧ ¬ code last < code cp
      · rw [if_pos hin, Option.some_inj]
        have := hin
        constructor
        · exact fun h => ⟨hlen, hcp, hdigits, by omega, by omega, h.symm⟩
        · exact fun h => h.2.2.2.2.2.symm
      · rw [if_neg hin]
        constructor
        · exact nofun
        · rintro ⟨-, -, -, h1, h2, -⟩
          exact absurd ⟨not_lt.2 h1, not_lt.2 h2⟩ hin
    · have hge := (not_le.1 hle).le
      rw [if_neg hle, if_neg hle, min_eq_right hge, max_eq_left hge]
      simp only [hcpl, hfcp]
      by_cases hin : ¬ code cp < code last ∧ ¬ code first < code cp
      · rw [if_pos hin, Option.some_inj]
        constructor
        · exact fun h => ⟨hlen, hcp, hdigits, not_lt.1 hin.1, not_lt.1 hin.2, h.symm⟩
        · exact fun h => h.2.2.2.2.2.symm
      · rw [if_neg hin]
        constructor
        · exact nofun
        · rintro ⟨-, -, -, h1, h2, -⟩
          exact absurd ⟨not_lt.2 h1, not_lt.2 h2⟩ hin

theorem rangeOf_digits {part first last : List Char} (h : rangeOf part = some (first, last)) :
    (∀ c ∈ first, isDigit 10 c = true) ∧ ∀ c ∈ last, isDigit 10 c = true := by
  unfold rangeOf at h
  dsimp only at h
  split at h
  · split_ifs at h with hform
    obtain ⟨rfl, rfl⟩ := Prod.mk.inj (Option.some.inj h)
    exact ⟨fun c hc => List.mem_takeWhile_imp hc, List.all_eq_true.1 hform.2.2⟩
  · cases h

theorem entryOf_range {part first last : List Char} (h : entryOf part = .range first last) :
    rangeOf part = some (first, last) := by
  unfold entryOf at h
  split at h
  · next heq =>
    obtain ⟨rfl, rfl⟩ := Entry.range.inj h
    exact heq
  · split_ifs at h

theorem eq_of_code_eq {a b : List Char} (hlen : a.length = b.length)
    (ha : ∀ c ∈ a, isDigit 10 c = true) (hb : ∀ c ∈ b, isDigit 10 c = true)
    (h : code a = code b) : a = b := by
  have hab := lt_iff_code_lt hlen ha hb
  have hba := lt_iff_code_lt hlen.symm hb ha
  rw [h] at hab hba
  refine List.le_antisymm (List.not_lt.1 ?_) (List.not_lt.1 ?_)
  · exact fun hlt => absurd (hba.1 hlt) (lt_irrefl _)
  · exact fun hlt => absurd (hab.1 hlt) (lt_irrefl _)

/-- **The narrowest entries**: the code itself, and the range of that code alone. -/
theorem width_eq_one {part cp : List Char} {n : ℕ} (h : (entryOf part).width cp = some n) :
    1 ≤ n ∧ (n = 1 ↔ entryOf part = .exact cp ∨ entryOf part = .range cp cp) := by
  cases hentry : entryOf part with
  | range first last =>
    rw [hentry] at h
    obtain ⟨hfirst, hlast⟩ := rangeOf_digits (entryOf_range hentry)
    obtain ⟨hlen, hcplen, hcp, hlo, hhi, rfl⟩ := (range_width_eq_some hfirst hlast).1 h
    refine ⟨Nat.succ_pos _, ?_⟩
    simp only [reduceCtorEq, Entry.range.injEq, false_or]
    constructor
    · intro hone
      have hf := eq_of_code_eq hcplen.symm hfirst hcp (by omega)
      have hl := eq_of_code_eq (hlen.symm.trans hcplen.symm) hlast hcp (by omega)
      exact ⟨hf, hl⟩
    · rintro ⟨rfl, rfl⟩
      omega
  | startingWith start =>
    rw [hentry] at h
    have := ten_le_width h
    simp only [reduceCtorEq, or_self, iff_false]
    omega
  | exact code =>
    rw [hentry, Entry.width] at h
    split_ifs at h with hcode
    obtain rfl := Option.some.inj h
    simp [hcode]

/-! ### The loop over the rules -/

/-- The rule's text of postal codes. -/
def TaxRule.spec (r : TaxRule) : List Char := r.postal_codes.getD []

/-- The winner is one of the rules, as narrow as its narrowest entry, and every entry of every rule
that covers the code is broader, or as broad in a rule of no lower id. -/
structure Narrowest (rules : List TaxRule) (cp : List Char) (w : Winner) : Prop where
  rule : ∃ r ∈ rules, w.id = r.id ∧ w.rate = r.rate ∧ IsLeast (widths r.spec cp) w.width
  least : ∀ r ∈ rules, ∀ n ∈ widths r.spec cp, w.width < n ∨ w.width = n ∧ w.id ≤ r.id

/-- What the loop has found after the rules. -/
def Found (rules : List TaxRule) (cp : List Char) : Option Winner → Prop
  | none => ∀ r ∈ rules, widths r.spec cp = ∅
  | some w => Narrowest rules cp w

/-- One round more: the next rule has no lower id than those before it. -/
theorem found_better {rules : List TaxRule} {cp : List Char} {winner : Option Winner} {r : TaxRule}
    (hcp : cp ≠ []) (hid : ∀ r' ∈ rules, r'.id ≤ r.id) (h : Found rules cp winner) :
    Found (rules ++ [r]) cp (better cp winner r) := by
  unfold better
  cases hmatch : postalSpecMatch (r.postal_codes.getD []) cp with
  | none =>
    have hnone : widths r.spec cp = ∅ := (postalSpecMatch_eq_none hcp).1 hmatch
    cases winner with
    | none =>
      intro r' hr'
      rcases List.mem_append.1 hr' with hr' | hr'
      · exact h r' hr'
      · rw [List.mem_singleton.1 hr', hnone]
    | some w =>
      obtain ⟨r₀, hr₀, hw⟩ := h.rule
      refine ⟨⟨r₀, List.mem_append_left _ hr₀, hw⟩, fun r' hr' n hn => ?_⟩
      rcases List.mem_append.1 hr' with hr' | hr'
      · exact h.least r' hr' n hn
      · rw [List.mem_singleton.1 hr', hnone] at hn
        exact hn.elim
  | some width =>
    have hleast : IsLeast (widths r.spec cp) width := (postalSpecMatch_eq_some hcp).1 hmatch
    have hnew : (∀ r' ∈ rules, ∀ n ∈ widths r'.spec cp, width < n) →
        Narrowest (rules ++ [r]) cp ⟨r.id, r.rate, width⟩ := by
      intro hbefore
      refine ⟨⟨r, by simp, rfl, rfl, hleast⟩, fun r' hr' n hn => ?_⟩
      rcases List.mem_append.1 hr' with hr' | hr'
      · exact .inl (hbefore r' hr' n hn)
      · obtain rfl := List.mem_singleton.1 hr'
        exact (hleast.2 hn).lt_or_eq.imp_right fun heq => ⟨heq, le_rfl⟩
    cases winner with
    | none =>
      refine hnew fun r' hr' n hn => ?_
      rw [h r' hr'] at hn
      exact hn.elim
    | some w =>
      dsimp only
      split_ifs with hlt
      · refine hnew fun r' hr' n hn => ?_
        rcases h.least r' hr' n hn with hn | ⟨hn, -⟩ <;> omega
      · obtain ⟨r₀, hr₀, hw⟩ := h.rule
        refine ⟨⟨r₀, List.mem_append_left _ hr₀, hw⟩, fun r' hr' n hn => ?_⟩
        rcases List.mem_append.1 hr' with hr' | hr'
        · exact h.least r' hr' n hn
        · obtain rfl := List.mem_singleton.1 hr'
          have hwidth := hleast.2 hn
          have hid₀ := hid r₀ hr₀
          have := hw.1
          omega

theorem found_foldl {rules : List TaxRule} {cp : List Char} (hcp : cp ≠ [])
    (hsorted : rules.Pairwise fun a b => a.id ≤ b.id) :
    Found rules cp (rules.foldl (better cp) none) := by
  induction rules using List.reverseRecOn with
  | nil => exact fun r hr => absurd hr (List.not_mem_nil)
  | append_singleton rules r ih =>
    rw [List.pairwise_append] at hsorted
    rw [List.foldl_append, List.foldl_cons, List.foldl_nil]
    refine found_better hcp (fun r' hr' => ?_) (ih hsorted.1)
    exact hsorted.2.2 r' hr' r (List.mem_singleton_self r)

theorem mem_activeRules {rules : List TaxRule} {orgId : ℕ} {r : TaxRule} :
    r ∈ activeRules rules orgId ↔ r ∈ rules ∧ r.Applies orgId := by
  rw [activeRules, List.mem_insertionSort, List.mem_filter, decide_eq_true_eq]

theorem activeRules_sorted (rules : List TaxRule) (orgId : ℕ) :
    (activeRules rules orgId).Pairwise fun a b => a.id ≤ b.id := by
  have : Std.Total fun a b : TaxRule => a.id ≤ b.id := ⟨fun a b => Nat.le_total a.id b.id⟩
  have : IsTrans TaxRule fun a b => a.id ≤ b.id := ⟨fun _ _ _ => Nat.le_trans⟩
  exact List.pairwise_insertionSort _ _

theorem found_resolveRegionRate {rules : List TaxRule} {orgId : ℕ} {rawZip : Option (List Char)}
    {cp : List Char} (h : normalizePostalCode rawZip = some cp) :
    Found (rules.filter fun r => r.Applies orgId) cp (resolveRegionRate rules orgId rawZip) := by
  have hfound := found_foldl (ne_nil_of_normalizePostalCode h) (activeRules_sorted rules orgId)
  have hmem : ∀ r, r ∈ activeRules rules orgId ↔ r ∈ rules.filter fun r => r.Applies orgId := by
    intro r
    rw [mem_activeRules, List.mem_filter, decide_eq_true_eq]
  rw [resolveRegionRate, h]
  dsimp only
  generalize (activeRules rules orgId).foldl (better cp) none = winner at hfound
  cases winner with
  | none => exact fun r hr => hfound r ((hmem r).2 hr)
  | some w =>
    obtain ⟨r, hr, hw⟩ := hfound.rule
    exact ⟨⟨r, (hmem r).1 hr, hw⟩, fun r' hr' => hfound.least r' ((hmem r').2 hr')⟩

/-! ### Entries in another order -/

/-- The two rules differ in the order and the repetition of their entries at most. -/
structure SameEntries (r r' : TaxRule) : Prop where
  id : r.id = r'.id
  organization_id : r.organization_id = r'.organization_id
  rate : r.rate = r'.rate
  status : r.status = r'.status
  deleted : r.deleted = r'.deleted
  isSome : r.postal_codes.isSome = r'.postal_codes.isSome
  entries : ∀ part, part ∈ entries r.spec ↔ part ∈ Regions.entries r'.spec

theorem SameEntries.applies {r r' : TaxRule} (h : SameEntries r r') (orgId : ℕ) :
    r.Applies orgId ↔ r'.Applies orgId := by
  rw [TaxRule.Applies, TaxRule.Applies, h.organization_id, h.status, h.deleted, h.isSome]

theorem forall₂_orderedInsert {rules rules' : List TaxRule} {r r' : TaxRule}
    (hr : SameEntries r r') (h : List.Forall₂ SameEntries rules rules') :
    List.Forall₂ SameEntries (rules.orderedInsert (fun a b => a.id ≤ b.id) r)
      (rules'.orderedInsert (fun a b => a.id ≤ b.id) r') := by
  induction h with
  | nil => exact .cons hr .nil
  | @cons s s' rules rules' hs hrules ih =>
    rw [List.orderedInsert_cons, List.orderedInsert_cons, hr.id, hs.id]
    split_ifs
    · exact .cons hr (.cons hs hrules)
    · exact .cons hs ih

theorem forall₂_activeRules {rules rules' : List TaxRule}
    (h : List.Forall₂ SameEntries rules rules') (orgId : ℕ) :
    List.Forall₂ SameEntries (activeRules rules orgId) (activeRules rules' orgId) := by
  unfold activeRules
  induction h with
  | nil => exact .nil
  | @cons r r' rules rules' hr hrules ih =>
    by_cases happlies : r.Applies orgId
    · rw [List.filter_cons_of_pos (by simpa using happlies),
        List.filter_cons_of_pos (by simpa using (hr.applies orgId).1 happlies)]
      exact forall₂_orderedInsert hr ih
    · rw [List.filter_cons_of_neg (by simpa using happlies),
        List.filter_cons_of_neg (by simpa using mt (hr.applies orgId).2 happlies)]
      exact ih

theorem SameEntries.better {r r' : TaxRule} (h : SameEntries r r') (cp : List Char)
    (winner : Option Winner) : better cp winner r = Regions.better cp winner r' := by
  rw [Regions.better, Regions.better, h.id, h.rate]
  exact congrArg (fun width => match width with
    | none => winner
    | some width =>
      match winner with
      | none => some ⟨r'.id, r'.rate, width⟩
      | some w => if width < w.width then some ⟨r'.id, r'.rate, width⟩ else some w)
    (postalSpecMatch_congr h.entries cp)

/-- **The order of a rule's entries and their repetition change nothing.** -/
theorem resolveRegionRate_congr {rules rules' : List TaxRule}
    (h : List.Forall₂ SameEntries rules rules') (orgId : ℕ) (rawZip : Option (List Char)) :
    resolveRegionRate rules orgId rawZip = resolveRegionRate rules' orgId rawZip := by
  rw [resolveRegionRate, resolveRegionRate]
  cases normalizePostalCode rawZip with
  | none => rfl
  | some cp =>
    dsimp only
    generalize (none : Option Winner) = winner
    have hactive := forall₂_activeRules h orgId
    generalize activeRules rules orgId = found at hactive
    generalize activeRules rules' orgId = found' at hactive
    induction hactive generalizing winner with
    | nil => rfl
    | cons hr _ ih => rw [List.foldl_cons, List.foldl_cons, hr.better cp winner, ih]

/-! ### The rule of a client -/

/-- **The tax rule of a postal code.** The rule found is the active rule of the organization with
the narrowest entry that covers the code, and of rules as narrow the one with the lowest id. An
entry of width one is the code alone, a prefix is the narrower the longer it is; the order and the
repetition of entries change nothing, and a text with two codes of five digits finds no rule. -/
theorem region_rate_narrowest :
    (∀ (rules : List TaxRule) (orgId : ℕ) (rawZip : Option (List Char)),
      match normalizePostalCode rawZip with
      | none => resolveRegionRate rules orgId rawZip = none
      | some cp =>
        Found (rules.filter fun r => r.Applies orgId) cp (resolveRegionRate rules orgId rawZip)) ∧
    (∀ (part cp : List Char) (n : ℕ), (entryOf part).width cp = some n →
      1 ≤ n ∧ (n = 1 ↔ entryOf part = .exact cp ∨ entryOf part = .range cp cp)) ∧
    (∀ (start start' cp : List Char) (n n' : ℕ), (Entry.startingWith start).width cp = some n →
      (Entry.startingWith start').width cp = some n' → start.length < start'.length →
      start'.length ≤ 9 → n' < n) ∧
    (∀ (rules rules' : List TaxRule) (orgId : ℕ) (rawZip : Option (List Char)),
      List.Forall₂ SameEntries rules rules' →
      resolveRegionRate rules orgId rawZip = resolveRegionRate rules' orgId rawZip) ∧
    ∀ (rules : List TaxRule) (orgId : ℕ) (raw : List Char), HoldsTwoCodes raw →
      resolveRegionRate rules orgId (some raw) = none := by
  refine ⟨fun rules orgId rawZip => ?_, fun part cp n => width_eq_one,
    fun start start' cp n n' => width_lt_width,
    fun rules rules' orgId rawZip h => resolveRegionRate_congr h orgId rawZip,
    fun rules orgId raw h => ?_⟩
  · cases hcp : normalizePostalCode rawZip with
    | none =>
      dsimp only
      rw [resolveRegionRate, hcp]
    | some cp => exact found_resolveRegionRate hcp
  · rw [resolveRegionRate, normalizePostalCode_two h]

/-- A rule of the range `22000-22000` and a rule of the code `22000`. -/
def oneCodeRange : List TaxRule :=
  [⟨1, some 1, 8 / 100, some ['2', '2', '0', '0', '0', '-', '2', '2', '0', '0', '0'], .active,
    false⟩,
   ⟨2, some 1, 16 / 100, some ['2', '2', '0', '0', '0'], .active, false⟩]

/-- A range of one code is as narrow as the code, so the lower id wins over the exact code. -/
theorem one_code_range_wins :
    resolveRegionRate oneCodeRange 1 (some ['2', '2', '0', '0', '0']) = some ⟨1, 8 / 100, 1⟩ ∧
      entryOf ['2', '2', '0', '0', '0'] = .exact ['2', '2', '0', '0', '0'] ∧
      (entryOf ['2', '2', '0', '0', '0', '-', '2', '2', '0', '0', '0']).width
        ['2', '2', '0', '0', '0'] = some 1 :=
  ⟨rfl, rfl, by decide⟩

end Vigabss.Billing.Regions
