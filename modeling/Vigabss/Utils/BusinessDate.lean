import Vigabss.Lib.Calendar
import Vigabss.Lib.JsText

/-!
# Vigabss.Utils.BusinessDate — the business day of an instant, and the instant a day begins

`businessDate`, `offsetMinutes` and `businessDayStartUtc`, over zones whose clocks change at least
two days apart.  `day_start_iff` says for which days the start is found.
-/

namespace Vigabss.Utils.BusinessDate

open Vigabss.Lib

/-! ### The code -/

/-- A time zone: what it is ahead of UTC at an instant, in seconds. -/
structure Zone where
  offset : ℤ → ℤ
  bounded : ∀ t, -50400 ≤ offset t ∧ offset t ≤ 50400
  apart : ∀ s t, offset (s - 1) ≠ offset s → offset (t - 1) ≠ offset t → s < t →
    s + 2 * msPerDay ≤ t

variable (z : Zone)

/-- The clock of the zone. -/
def Zone.clock (t : ℤ) : ℤ := t + 1000 * z.offset t

/-- `businessDate(instant, tz)`. -/
def businessDate (t : ℤ) : Civil := civil (utcDay (z.clock t))

def two (n : ℕ) : List Char := [Nat.digitChar (n / 10), Nat.digitChar (n % 10)]

/-- The `longOffset` name of an offset: `GMT`, or `GMT-06:00`, with the seconds if there are any. -/
def longOffset (offset : ℤ) : List Char :=
  let n := offset.natAbs
  'G' :: 'M' :: 'T' ::
    if n = 0 then []
    else (if offset < 0 then '-' else '+') :: (two (n / 3600) ++ ':' :: (two (n / 60 % 60) ++
      if n % 60 = 0 then [] else ':' :: two (n % 60)))

/-- `:?(\d{2})?$`, with the minutes. -/
def minutesPart (text : List Char) : Option ℕ :=
  match (if text.head? = some ':' then text.tail else text) with
  | [] => some 0
  | [m₁, m₂] =>
    if JsText.isDigit 10 m₁ ∧ JsText.isDigit 10 m₂ then some (JsText.digitsValue 10 [m₁, m₂])
    else none
  | _ => none

/-- What `offsetMinutes` makes of a name. -/
def nameMinutes : List Char → ℤ
  | 'G' :: 'M' :: 'T' :: sign :: h₁ :: h₂ :: rest =>
    if (sign = '+' ∨ sign = '-') ∧ JsText.isDigit 10 h₁ ∧ JsText.isDigit 10 h₂ then
      match minutesPart rest with
      | some minutes =>
        (if sign = '-' then -1 else 1) * (JsText.digitsValue 10 [h₁, h₂] * 60 + minutes : ℕ)
      | none => 0
    else 0
  | _ => 0

/-- `offsetMinutes(instant, tz)`. -/
def offsetMinutes (t : ℤ) : ℤ := nameMinutes (longOffset (z.offset t))

/-- `Date.UTC(y, m - 1, d)`. -/
def dateUtc (y m d : ℤ) : ℤ :=
  dayNumber (if 0 ≤ y ∧ y ≤ 99 then 1900 + y else y) m d * msPerDay

/-- `businessDayStartUtc(ymd, tz)`. -/
def businessDayStartUtc (ymd : Civil) : ℤ :=
  let wall := dateUtc ymd.year ymd.month ymd.day
  let instant := wall - offsetMinutes z wall * 60000
  wall - offsetMinutes z instant * 60000

/-! ### Names of offsets -/

theorem two_spec {n : ℕ} (hn : n < 100) : ∃ c d, two n = [c, d] ∧ JsText.isDigit 10 c = true ∧
    JsText.isDigit 10 d = true ∧ JsText.digitsValue 10 [c, d] = n := by
  refine ⟨_, _, rfl, ?_⟩
  revert n
  decide

theorem minutesPart_two {n : ℕ} (hn : n < 100) : minutesPart (':' :: two n) = some n := by
  obtain ⟨c, d, htwo, hc, hd, hvalue⟩ := two_spec hn
  rw [minutesPart, List.head?_cons, if_pos rfl, List.tail_cons, htwo]
  dsimp only
  rw [if_pos ⟨hc, hd⟩, hvalue]

theorem minutesPart_seconds (m s : ℕ) : minutesPart (':' :: (two m ++ ':' :: two s)) = none := by
  rw [minutesPart, List.head?_cons, if_pos rfl, List.tail_cons]
  rfl

/-- **Which names are read**: those of offsets without seconds; the others count as UTC. -/
theorem nameMinutes_longOffset {offset : ℤ} (hlow : -50400 ≤ offset) (hhigh : offset ≤ 50400) :
    60 * nameMinutes (longOffset offset) = if offset % 60 = 0 then offset else 0 := by
  unfold longOffset
  dsimp only
  have habs := Int.natAbs_eq offset
  generalize offset.natAbs = n at habs
  by_cases hzero : n = 0
  · have hoffset : offset = 0 := by omega
    rw [if_pos hzero, hoffset]
    rfl
  rw [if_neg hzero]
  obtain ⟨h₁, h₂, hhours, hh₁, hh₂, hvalue⟩ := two_spec (show n / 3600 < 100 by omega)
  have hsign : (if offset < 0 then '-' else '+') = '+' ∨
      (if offset < 0 then '-' else '+') = '-' := by
    split_ifs
    · exact .inr rfl
    · exact .inl rfl
  have hneg : (if (if offset < 0 then '-' else '+') = '-' then (-1 : ℤ) else 1) =
      if offset < 0 then -1 else 1 := by
    by_cases hlt : offset < 0
    · rw [if_pos hlt, if_pos rfl, if_pos hlt]
    · rw [if_neg hlt, if_neg (by decide), if_neg hlt]
  rw [hhours]
  simp only [List.cons_append, List.nil_append, nameMinutes]
  rw [if_pos ⟨hsign, hh₁, hh₂⟩, hvalue, hneg]
  by_cases hseconds : n % 60 = 0
  · have hmod : offset % 60 = 0 := by omega
    rw [if_pos hseconds, List.append_nil, minutesPart_two (by omega), if_pos hmod]
    dsimp only
    push_cast
    split_ifs <;> omega
  · have hmod : ¬offset % 60 = 0 := by omega
    rw [if_neg hseconds, minutesPart_seconds, if_neg hmod]
    dsimp only
    omega

end Vigabss.Utils.BusinessDate

/-!
## The start of a business day is its first instant

A midnight is found where the clock passes it once and the offsets that are read there are those
that hold (`start_crosses_iff`); a day is found where both of its midnights are (`day_start_iff`).
-/

namespace Vigabss.Utils.BusinessDate

open Vigabss.Lib

variable (z : Zone)

/-! ### The law -/

/-- What the zone is ahead of UTC, in milliseconds. -/
def Zone.ahead (t : ℤ) : ℤ := 1000 * z.offset t

def Whole (ahead : ℤ) : Prop := ahead % 60000 = 0

/-- From `start` on, and never before, the clock shows `wall` or later. -/
def Crosses (wall start : ℤ) : Prop := ∀ t, wall ≤ z.clock t ↔ start ≤ t

/-- The start of a day is its first instant, and its range holds just the instants of the day. -/
structure DayFound (day : ℤ) : Prop where
  least : IsLeast {t | businessDate z t = civil day} (businessDayStartUtc z (civil day))
  range : ∀ t, businessDate z t = civil day ↔
    businessDayStartUtc z (civil day) ≤ t ∧ t < businessDayStartUtc z (civil (day + 1))

/-- What a midnight must meet.  A change that skips it starts from it, not after midnight UTC; one
that repeats it ends on it, after midnight UTC; and the offsets at midnight UTC and at its first
instant are whole minutes. -/
structure MidnightFound (wall : ℤ) : Prop where
  skipped : ∀ t, t + z.ahead (t - 1) ≤ wall → wall < t + z.ahead t →
    (t + z.ahead (t - 1) = wall ∧ t ≤ wall ∧ Whole (z.ahead (t - 1)) ∧
      (Whole (z.ahead t) ∨ t = wall)) ∨
    (t = wall ∧ ¬(Whole (z.ahead (t - 1)) ∧ Whole (z.ahead t)))
  repeated : ∀ t, t + z.ahead t ≤ wall → wall < t + z.ahead (t - 1) →
    t + z.ahead t = wall ∧ wall < t
  whole : ∀ t, t + z.ahead t = wall → (∀ s < t, s + z.ahead s < wall) →
    Whole (z.ahead t) ∧ Whole (z.ahead wall)

/-- Neither midnight is in the years 0 to 99, both are found, and no change skips the day. -/
structure DayKept (day : ℤ) : Prop where
  year : ¬(0 ≤ (civil day).year ∧ (civil day).year ≤ 99)
  nextYear : ¬(0 ≤ (civil (day + 1)).year ∧ (civil (day + 1)).year ≤ 99)
  first : MidnightFound z (day * msPerDay)
  last : MidnightFound z ((day + 1) * msPerDay)
  shown : ∀ t, t + z.ahead (t - 1) ≤ day * msPerDay → t + z.ahead t < (day + 1) * msPerDay

/-! ### Zones -/

variable {z}

theorem clock_eq (t : ℤ) : z.clock t = t + z.ahead t := rfl

theorem ahead_bounds (t : ℤ) : -50400000 ≤ z.ahead t ∧ z.ahead t ≤ 50400000 := by
  have := z.bounded t
  unfold Zone.ahead
  omega

theorem offsetMinutes_eq (t : ℤ) :
    (Whole (z.ahead t) ∧ offsetMinutes z t * 60000 = z.ahead t) ∨
      (¬Whole (z.ahead t) ∧ offsetMinutes z t * 60000 = 0) := by
  have hread := nameMinutes_longOffset (z.bounded t).1 (z.bounded t).2
  unfold Whole Zone.ahead offsetMinutes
  split_ifs at hread <;> omega

theorem ahead_const (lo hi : ℤ) (hsame : ∀ t, lo < t → t ≤ hi → z.offset (t - 1) = z.offset t)
    {t : ℤ} (hlo : lo ≤ t) (hhi : t ≤ hi) : z.ahead t = z.ahead lo := by
  induction t, hlo using Int.leInduction with
  | base => rfl
  | succ t hlo ih =>
    rw [← ih (by omega), Zone.ahead, Zone.ahead, ← hsame (t + 1) (by omega) hhi,
      Int.add_sub_cancel]

/-- **Two days have one change at most.** -/
theorem exists_change (lo : ℤ) : ∃ change before after,
    (-50400000 ≤ before ∧ before ≤ 50400000) ∧ (-50400000 ≤ after ∧ after ≤ 50400000) ∧
      ∀ t, lo ≤ t → t < lo + 2 * msPerDay → z.ahead t = if t < change then before else after := by
  by_cases hchange : ∃ t, lo < t ∧ t < lo + 2 * msPerDay ∧ z.offset (t - 1) ≠ z.offset t
  · obtain ⟨change, hlo, hhi, hne⟩ := hchange
    refine ⟨change, z.ahead lo, z.ahead change, ahead_bounds _, ahead_bounds _, fun t ht ht' => ?_⟩
    split_ifs with hbefore
    · refine ahead_const lo (change - 1) (fun s hs hs' => ?_) ht (by omega)
      by_contra hother
      have := z.apart s change hother hne (by omega)
      omega
    · refine ahead_const change (lo + 2 * msPerDay - 1) (fun s hs hs' => ?_) (by omega) (by omega)
      by_contra hother
      have := z.apart change s hne hother hs
      omega
  · refine ⟨lo, z.ahead lo, z.ahead lo, ahead_bounds _, ahead_bounds _, fun t ht ht' => ?_⟩
    rw [ite_self]
    refine ahead_const lo (lo + 2 * msPerDay - 1) (fun s hs hs' => ?_) ht (by omega)
    by_contra hother
    exact hchange ⟨s, hs, by omega, hother⟩

/-! ### Midnights -/

section Midnight

variable {wall change before after : ℤ}

/-- The instants around a midnight, with their one change. -/
structure Around (z : Zone) (wall change before after : ℤ) : Prop where
  boundBefore : -50400000 ≤ before ∧ before ≤ 50400000
  boundAfter : -50400000 ≤ after ∧ after ≤ 50400000
  ahead : ∀ t, wall - 50400001 ≤ t → t ≤ wall + 50400000 →
    z.ahead t = if t < change then before else after

theorem exists_around (z : Zone) (wall : ℤ) :
    ∃ change before after, Around z wall change before after := by
  obtain ⟨change, before, after, hbefore, hafter, hahead⟩ :=
    exists_change (z := z) (wall - 50400001)
  refine ⟨change, before, after, hbefore, hafter, fun t hlo hhi => hahead t hlo ?_⟩
  unfold msPerDay
  omega

/-- The instant at which the clock crosses midnight for good. -/
theorem Around.crosses_iff (h : Around z wall change before after) {start : ℤ}
    (hlo : wall - 50400000 ≤ start) (hhi : start ≤ wall + 50400000) :
    Crosses z wall start ↔
      (wall < change + before → wall ≤ change + after ∧ start = wall - before) ∧
        (change + before ≤ wall → start = max change (wall - after)) := by
  obtain ⟨hbefore, hafter, hahead⟩ := h
  unfold Crosses
  simp only [clock_eq]
  constructor
  · intro hcrosses
    refine ⟨fun hlt => ?_, fun hle => ?_⟩
    · have hat := hcrosses (wall - before)
      have hprev := hcrosses (wall - before - 1)
      rw [hahead _ (by omega) (by omega), if_pos (by omega)] at hat hprev
      have hstart : start = wall - before := by omega
      refine ⟨?_, hstart⟩
      by_cases hfar : change ≤ wall + 50400000
      · have hchange := hcrosses change
        rw [hahead _ (by omega) hfar, if_neg (by omega)] at hchange
        omega
      · omega
    · have hat := hcrosses (max change (wall - after))
      have hprev := hcrosses (max change (wall - after) - 1)
      rw [hahead _ (by omega) (by omega)] at hat hprev
      rw [if_neg (by omega)] at hat
      split_ifs at hprev <;> omega
  · rintro ⟨hfirst, hsecond⟩ t
    by_cases hbelow : t < wall - 50400001
    · have := ahead_bounds (z := z) t
      omega
    by_cases habove : wall + 50400000 < t
    · have := ahead_bounds (z := z) t
      omega
    rw [hahead t (by omega) (by omega)]
    split_ifs <;> omega

/-- What a midnight must meet, in terms of the change around it. -/
theorem Around.found_iff (h : Around z wall change before after) :
    MidnightFound z wall ↔
      (change + before ≤ wall → wall < change + after →
        (change + before = wall ∧ change ≤ wall ∧ Whole before ∧ (Whole after ∨ change = wall)) ∨
        (change = wall ∧ ¬(Whole before ∧ Whole after))) ∧
      (change + after ≤ wall → wall < change + before →
        change + after = wall ∧ wall < change) ∧
      (wall < change + before → Whole before ∧ Whole (if wall < change then before else after)) ∧
      (change + before ≤ wall → change + after ≤ wall →
        Whole after ∧ Whole (if wall < change then before else after)) := by
  obtain ⟨hbefore, hafter, hahead⟩ := h
  have hwall := hahead wall (by omega) (by omega)
  constructor
  · rintro ⟨hskipped, hrepeated, hwhole⟩
    refine ⟨fun hle hlt => ?_, fun hle hlt => ?_, fun hlt => ?_, fun hle hle' => ?_⟩
    · have hat := hahead change (by omega) (by omega)
      have hprev := hahead (change - 1) (by omega) (by omega)
      rw [if_neg (by omega)] at hat
      rw [if_pos (by omega)] at hprev
      have := hskipped change
      rw [hat, hprev] at this
      exact this hle hlt
    · have hat := hahead change (by omega) (by omega)
      have hprev := hahead (change - 1) (by omega) (by omega)
      rw [if_neg (by omega)] at hat
      rw [if_pos (by omega)] at hprev
      have := hrepeated change
      rw [hat, hprev] at this
      exact this hle hlt
    · have hat := hahead (wall - before) (by omega) (by omega)
      rw [if_pos (by omega)] at hat
      have := hwhole (wall - before) (by omega) fun s hs => by
        by_cases hbelow : s < wall - 50400001
        · have := ahead_bounds (z := z) s
          omega
        · rw [hahead s (by omega) (by omega), if_pos (by omega)]
          omega
      rwa [hat, hwall] at this
    · have hat := hahead (wall - after) (by omega) (by omega)
      rw [if_neg (by omega)] at hat
      have := hwhole (wall - after) (by omega) fun s hs => by
        by_cases hbelow : s < wall - 50400001
        · have := ahead_bounds (z := z) s
          omega
        · rw [hahead s (by omega) (by omega)]
          split_ifs <;> omega
      rwa [hat, hwall] at this
  · rintro ⟨hskipped, hrepeated, hfirst, hsecond⟩
    refine ⟨fun t hle hlt => ?_, fun t hle hlt => ?_, fun t ht hbefore' => ?_⟩
    · have hb := ahead_bounds (z := z) t
      have hb' := ahead_bounds (z := z) (t - 1)
      have ht := hahead t (by omega) (by omega)
      have ht' := hahead (t - 1) (by omega) (by omega)
      obtain rfl : t = change := by
        rw [ht] at hlt
        rw [ht'] at hle
        split_ifs at hlt hle <;> omega
      rw [if_neg (by omega)] at ht
      rw [if_pos (by omega)] at ht'
      rw [ht] at hlt ⊢
      rw [ht'] at hle ⊢
      exact hskipped hle hlt
    · have hb := ahead_bounds (z := z) t
      have hb' := ahead_bounds (z := z) (t - 1)
      have ht := hahead t (by omega) (by omega)
      have ht' := hahead (t - 1) (by omega) (by omega)
      obtain rfl : t = change := by
        rw [ht] at hle
        rw [ht'] at hlt
        split_ifs at hlt hle <;> omega
      rw [if_neg (by omega)] at ht
      rw [if_pos (by omega)] at ht'
      rw [ht] at hle ⊢
      rw [ht'] at hlt
      exact hrepeated hle hlt
    · have hb := ahead_bounds (z := z) t
      have hat := hahead t (by omega) (by omega)
      rw [hwall]
      by_cases hlt : t < change
      · rw [if_pos hlt] at hat
        rw [hat]
        exact hfirst (by omega)
      · rw [if_neg hlt] at hat
        rw [hat]
        by_cases hover : wall < change + before
        · -- midnight is shown before the change, too
          have hearlier := hbefore' (wall - before) (by omega)
          rw [hahead _ (by omega) (by omega), if_pos (by omega)] at hearlier
          omega
        · exact hsecond (by omega) (by omega)

end Midnight

/-- What `businessDayStartUtc` computes from a midnight. -/
def startOf (z : Zone) (wall : ℤ) : ℤ :=
  wall - offsetMinutes z (wall - offsetMinutes z wall * 60000) * 60000

theorem startOf_bounds (wall : ℤ) :
    wall - 50400000 ≤ startOf z wall ∧ startOf z wall ≤ wall + 50400000 := by
  have hb := ahead_bounds (z := z) (wall - offsetMinutes z wall * 60000)
  unfold startOf
  rcases offsetMinutes_eq (z := z) (wall - offsetMinutes z wall * 60000) with ⟨-, h⟩ | ⟨-, h⟩ <;>
    omega

/-- **Which midnights are found.** -/
theorem start_crosses_iff (wall : ℤ) :
    Crosses z wall (startOf z wall) ↔ MidnightFound z wall := by
  obtain ⟨change, before, after, h⟩ := exists_around z wall
  rw [h.crosses_iff (startOf_bounds wall).1 (startOf_bounds wall).2, h.found_iff]
  obtain ⟨hbefore, hafter, hahead⟩ := h
  have hwall := hahead wall (by omega) (by omega)
  have hguess := offsetMinutes_eq (z := z) wall
  have hread := offsetMinutes_eq (z := z) (wall - offsetMinutes z wall * 60000)
  have hnear := hahead (wall - offsetMinutes z wall * 60000)
  rw [hwall] at hguess
  unfold startOf
  generalize hg : offsetMinutes z wall * 60000 = guess at *
  have hguessBounds : -50400000 ≤ guess ∧ guess ≤ 50400000 := by
    split_ifs at hguess <;> omega
  rw [hnear (by omega) (by omega)] at hread
  generalize offsetMinutes z (wall - guess) * 60000 = final at *
  have hsplit : ∀ ahead : ℤ, Whole ahead ∨ ¬Whole ahead ∧ ahead ≠ 0 := by
    intro ahead
    by_cases hwhole : Whole ahead
    · exact .inl hwhole
    · refine .inr ⟨hwhole, ?_⟩
      rintro rfl
      exact hwhole rfl
  rcases hsplit before with hb | ⟨hb, hbz⟩ <;> rcases hsplit after with ha | ⟨ha, haz⟩ <;>
    by_cases hw : wall < change <;> by_cases hi : wall - guess < change <;>
    simp only [hb, ha, hw, hi, if_true, if_false, true_and, and_true, false_and, and_false,
      or_false, false_or, true_or, not_true_eq_false, not_false_eq_true, implies_true,
      imp_false] at hguess hread ⊢ <;>
    omega

/-! ### Days -/

theorem no_change_near {t u : ℤ} (hu : z.offset (u - 1) ≠ z.offset u)
    (ht : t ≠ u) (hlo : u - 2 * msPerDay < t) (hhi : t < u + 2 * msPerDay) :
    z.offset (t - 1) = z.offset t := by
  by_contra hchange
  rcases lt_or_gt_of_ne ht with hlt | hgt
  · have := z.apart t u hchange hu hlt
    omega
  · have := z.apart u t hu hchange hgt
    omega

theorem clock_le_before {u : ℤ} (hu : z.offset (u - 1) ≠ z.offset u) {s : ℤ} (hs : s < u) :
    z.clock s ≤ z.clock (u - 1) := by
  rw [clock_eq, clock_eq]
  by_cases hnear : u - 2 * msPerDay < s
  · have hconst := ahead_const (z := z) s (u - 1)
      (fun t hlo hhi => no_change_near hu (by omega) (by omega) (by unfold msPerDay; omega))
      (show s ≤ u - 1 by omega) le_rfl
    omega
  · have hb := ahead_bounds (z := z) s
    have hb' := ahead_bounds (z := z) (u - 1)
    unfold msPerDay at hnear
    omega

theorem clock_le_after {u : ℤ} (hu : z.offset (u - 1) ≠ z.offset u) {t : ℤ} (ht : u ≤ t) :
    z.clock u ≤ z.clock t := by
  rw [clock_eq, clock_eq]
  by_cases hnear : t < u + 2 * msPerDay
  · have hconst := ahead_const (z := z) u t
      (fun s hlo hhi => no_change_near hu (by omega) (by unfold msPerDay; omega) (by omega))
      ht le_rfl
    omega
  · have hb := ahead_bounds (z := z) u
    have hb' := ahead_bounds (z := z) t
    unfold msPerDay at hnear
    omega

theorem exists_reach (lo wall : ℤ) : ∃ u, lo ≤ u ∧ wall ≤ z.clock u ∧
    ∀ t, lo ≤ t → wall ≤ z.clock t → u ≤ t := by
  have hreach : ∃ t, lo ≤ t ∧ wall ≤ z.clock t := by
    refine ⟨max lo (wall + 50400000), le_max_left _ _, ?_⟩
    have := ahead_bounds (z := z) (max lo (wall + 50400000))
    rw [clock_eq]
    omega
  obtain ⟨u, ⟨hlo, hu⟩, hleast⟩ :=
    Int.exists_least_of_bdd (P := fun t => lo ≤ t ∧ wall ≤ z.clock t) ⟨lo, fun _ h => h.1⟩ hreach
  exact ⟨u, hlo, hu, fun t ht ht' => hleast t ⟨ht, ht'⟩⟩

theorem change_of_jump {u wall : ℤ} (hprev : z.clock (u - 1) < wall)
    (hu : wall + msPerDay ≤ z.clock u) : z.offset (u - 1) ≠ z.offset u := by
  intro hsame
  unfold Zone.clock at hprev hu
  rw [hsame] at hprev
  unfold msPerDay at hu
  omega

section Day

variable {wall start next : ℤ}

/-- **A range holds just the instants of a day** when it runs from one midnight to the next, each
crossed for good, and no change skips the day. -/
theorem range_iff : (IsLeast {t | wall ≤ z.clock t ∧ z.clock t < wall + msPerDay} start ∧
      ∀ t, (wall ≤ z.clock t ∧ z.clock t < wall + msPerDay) ↔ start ≤ t ∧ t < next) ↔
    Crosses z wall start ∧ Crosses z (wall + msPerDay) next ∧
      ∀ t, t + z.ahead (t - 1) ≤ wall → t + z.ahead t < wall + msPerDay := by
  have hday : 0 < msPerDay := by decide
  constructor
  · rintro ⟨⟨hstart, hleast⟩, hrange⟩
    have hfirst : Crosses z wall start := by
      refine fun t => ⟨fun ht => ?_, fun ht => ?_⟩
      · by_contra hlt
        obtain ⟨u, hlo, hu, hmin⟩ := exists_reach (z := z) (min t (wall - 50400001)) wall
        have hut := hmin t (min_le_left _ _) ht
        -- the first instant at or after midnight would be after the day, and the day never shown
        have hover : wall + msPerDay ≤ z.clock u := by
          by_contra hin
          have := hleast (show wall ≤ z.clock u ∧ z.clock u < wall + msPerDay from ⟨hu, by omega⟩)
          omega
        have hprev : z.clock (u - 1) < wall := by
          by_contra hge
          by_cases hedge : min t (wall - 50400001) ≤ u - 1
          · have := hmin (u - 1) hedge (by omega)
            omega
          · have hb := ahead_bounds (z := z) u
            rw [clock_eq] at hu
            omega
        have := clock_le_after (change_of_jump hprev hover) (show u ≤ start by omega)
        have := hstart.2
        omega
      · by_contra hback
        obtain ⟨u, hlo, hu, hmin⟩ := exists_reach (z := z) t wall
        have hlate : next ≤ t := by
          by_contra hin
          have := (hrange t).2 ⟨ht, by omega⟩
          omega
        have hover : wall + msPerDay ≤ z.clock u := by
          by_contra hin
          have := (hrange u).1 ⟨hu, by omega⟩
          omega
        have hne : u ≠ t := by
          rintro rfl
          exact hback hu
        have hprev : z.clock (u - 1) < wall := by
          by_contra hge
          have := hmin (u - 1) (by omega) (by omega)
          omega
        have := clock_le_before (change_of_jump hprev hover) (show start < u by omega)
        have := hstart.1
        omega
    refine ⟨hfirst, fun t => ?_, fun t hle => ?_⟩
    · have hin := hrange t
      have hge := hfirst t
      have hstarts := (hrange start).1 hstart
      constructor
      · intro ht
        by_contra hlt
        have := hin.2 ⟨hge.1 (by omega), by omega⟩
        omega
      · intro ht
        by_contra hlt
        have := hin.1 ⟨hge.2 (by omega), by omega⟩
        omega
    · by_contra hover
      have hprev := hfirst (t - 1)
      have hat := hfirst t
      rw [clock_eq] at hprev hat
      obtain rfl : t = start := by omega
      have := hstart.2
      rw [clock_eq] at this
      omega
  · rintro ⟨hfirst, hlast, hshown⟩
    have hlt : start < next := by
      have hnext := (hlast next).2 le_rfl
      have hle := (hfirst next).1 (by omega)
      refine lt_of_le_of_ne hle ?_
      rintro rfl
      have hprev := hfirst (start - 1)
      have := hshown start
      rw [clock_eq] at hprev hnext
      omega
    have hrange : ∀ t, (wall ≤ z.clock t ∧ z.clock t < wall + msPerDay) ↔ start ≤ t ∧ t < next := by
      intro t
      have := hfirst t
      have := hlast t
      omega
    exact ⟨⟨(hrange start).2 ⟨le_rfl, hlt⟩, fun t ht => ((hrange t).1 ht).1⟩, hrange⟩

end Day

theorem businessDate_eq_iff {t day : ℤ} : businessDate z t = civil day ↔
    day * msPerDay ≤ z.clock t ∧ z.clock t < day * msPerDay + msPerDay := by
  have hpos : (0 : ℤ) < msPerDay := by decide
  have hdiv : utcDay (z.clock t) = day ↔
      day * msPerDay ≤ z.clock t ∧ z.clock t < day * msPerDay + msPerDay := by
    unfold utcDay msPerDay
    omega
  rw [businessDate, ← hdiv]
  exact ⟨civil_injective, congrArg civil⟩

theorem businessDayStartUtc_eq (ymd : Civil) :
    businessDayStartUtc z ymd = startOf z (dateUtc ymd.year ymd.month ymd.day) := rfl

theorem dateUtc_civil {day : ℤ} (h : ¬(0 ≤ (civil day).year ∧ (civil day).year ≤ 99)) :
    dateUtc (civil day).year (civil day).month (civil day).day = day * msPerDay := by
  rw [dateUtc, if_neg h, dayNumber_civil]

theorem dayNumber_add_1900 (y m d : ℤ) : dayNumber y m d + 10 ≤ dayNumber (1900 + y) m d := by
  unfold dayNumber
  dsimp only
  generalize (if m ≤ 2 then (1 : ℤ) else 0) = early
  omega

theorem le_dateUtc {day : ℤ} (h : 0 ≤ (civil day).year ∧ (civil day).year ≤ 99) :
    day * msPerDay + 10 * msPerDay ≤
      dateUtc (civil day).year (civil day).month (civil day).day := by
  have hlater := dayNumber_add_1900 (civil day).year (civil day).month (civil day).day
  rw [dayNumber_civil] at hlater
  rw [dateUtc, if_pos h, ← Int.add_mul]
  exact Int.mul_le_mul_of_nonneg_right hlater (by decide)

/-- **Which days are found**: those of the year 100 and later that the clock shows, where it crosses
both midnights once and by offsets that are read right. -/
theorem day_start_iff (z : Zone) (day : ℤ) : DayFound z day ↔ DayKept z day := by
  have hstart := startOf_bounds (z := z)
    (dateUtc (civil day).year (civil day).month (civil day).day)
  have hnext := startOf_bounds (z := z)
    (dateUtc (civil (day + 1)).year (civil (day + 1)).month (civil (day + 1)).day)
  have hsucc : (day + 1) * msPerDay = day * msPerDay + msPerDay := by
    rw [Int.add_mul, Int.one_mul]
  by_cases hyear : 0 ≤ (civil day).year ∧ (civil day).year ≤ 99
  · refine iff_of_false (fun hfound => ?_) fun hkept => hkept.year hyear
    have hin := businessDate_eq_iff.1 hfound.least.1
    rw [businessDayStartUtc_eq, clock_eq] at hin
    have hlate := le_dateUtc hyear
    have hb := ahead_bounds (z := z)
      (startOf z (dateUtc (civil day).year (civil day).month (civil day).day))
    unfold msPerDay at *
    omega
  have hwall := dateUtc_civil hyear
  by_cases hnextYear : 0 ≤ (civil (day + 1)).year ∧ (civil (day + 1)).year ≤ 99
  · refine iff_of_false (fun hfound => ?_) fun hkept => hkept.nextYear hnextYear
    have hlate := le_dateUtc hnextYear
    have hrange := hfound.range (day * msPerDay + 3 * msPerDay)
    rw [businessDate_eq_iff, clock_eq, businessDayStartUtc_eq, businessDayStartUtc_eq] at hrange
    have hb := ahead_bounds (z := z) (day * msPerDay + 3 * msPerDay)
    rw [hwall] at hstart hrange
    have := hrange.2 ⟨by unfold msPerDay at *; omega, by unfold msPerDay at *; omega⟩
    unfold msPerDay at *
    omega
  have hwall' := dateUtc_civil hnextYear
  have hfound : DayFound z day ↔
      (IsLeast {t | day * msPerDay ≤ z.clock t ∧ z.clock t < day * msPerDay + msPerDay}
        (startOf z (day * msPerDay)) ∧
      ∀ t, (day * msPerDay ≤ z.clock t ∧ z.clock t < day * msPerDay + msPerDay) ↔
        startOf z (day * msPerDay) ≤ t ∧ t < startOf z (day * msPerDay + msPerDay)) := by
    simp only [← businessDate_eq_iff]
    rw [← hwall, ← businessDayStartUtc_eq]
    constructor
    · rintro ⟨hleast, hrange⟩
      rw [businessDayStartUtc_eq (civil (day + 1)), hwall', hsucc] at hrange
      rw [hwall]
      exact ⟨hleast, hrange⟩
    · rintro ⟨hleast, hrange⟩
      rw [hwall, ← hsucc, ← hwall', ← businessDayStartUtc_eq] at hrange
      exact ⟨hleast, hrange⟩
  rw [hfound, range_iff, start_crosses_iff, start_crosses_iff, ← hsucc]
  exact ⟨fun ⟨hfirst, hlast, hshown⟩ => ⟨hyear, hnextYear, hfirst, hlast, hshown⟩,
    fun h => ⟨h.first, h.last, h.shown⟩⟩

/-- A zone three hours behind UTC that goes to two hours at the midnight of 2018-11-04. -/
def springZone : Zone where
  offset t := if t < 17839 * msPerDay + 10800000 then -10800 else -7200
  bounded t := by split_ifs <;> omega
  apart s t hs ht hlt := by
    split_ifs at hs ht <;> omega

/-- The start of the day whose midnight that change skips is in the day before. -/
theorem skipped_midnight : ¬ ∀ z day, DayFound z day := by
  intro h
  have hin : businessDate springZone (businessDayStartUtc springZone (civil 17839)) = civil 17839 :=
    (h springZone 17839).least.1
  exact absurd hin (by decide)

end Vigabss.Utils.BusinessDate
