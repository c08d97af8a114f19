import Mathlib.Data.Int.Basic

/-!
# Vigabss.Lib.Calendar — UTC days and months

Instants are milliseconds since 1970-01-01T00:00:00Z.  `civil` gives the Gregorian date of a day
counted from there, by eras of 400 years that start on the first of March.
-/

namespace Vigabss.Lib

/-- A Gregorian date. -/
structure Civil where
  year : ℤ
  month : ℤ
  day : ℤ
  deriving DecidableEq, Repr

/-- The date of a day counted from 1970-01-01. -/
def civil (days : ℤ) : Civil :=
  let z := days + 719468
  let era := z / 146097
  let dayOfEra := z % 146097
  let yearOfEra := (dayOfEra - dayOfEra / 1460 + dayOfEra / 36524 - dayOfEra / 146096) / 365
  let dayOfYear := dayOfEra - (365 * yearOfEra + yearOfEra / 4 - yearOfEra / 100)
  let monthFromMarch := (5 * dayOfYear + 2) / 153
  let month := if monthFromMarch < 10 then monthFromMarch + 3 else monthFromMarch - 9
  ⟨yearOfEra + era * 400 + (if month ≤ 2 then 1 else 0), month,
    dayOfYear - (153 * monthFromMarch + 2) / 5 + 1⟩

def msPerDay : ℤ := 86400000

/-- The UTC day of an instant, counted from 1970-01-01. -/
def utcDay (t : ℤ) : ℤ := t / msPerDay

/-- The first instant of the UTC month of an instant. -/
def monthStart (t : ℤ) : ℤ := (utcDay t - ((civil (utcDay t)).day - 1)) * msPerDay

/-- The day of a Gregorian date, counted from 1970-01-01. -/
def dayNumber (year month day : ℤ) : ℤ :=
  let y := year - if month ≤ 2 then 1 else 0
  let yearOfEra := y % 400
  let dayOfYear := (153 * ((month + 9) % 12) + 2) / 5 + day - 1
  y / 400 * 146097 + (365 * yearOfEra + yearOfEra / 4 - yearOfEra / 100 + dayOfYear) - 719468

/-- The year of a day of an era, and what it leaves of the year. -/
theorem yearOfEra_bounds {dayOfEra : ℤ} (h0 : 0 ≤ dayOfEra) (h1 : dayOfEra < 146097) :
    let yearOfEra :=
      (dayOfEra - dayOfEra / 1460 + dayOfEra / 36524 - dayOfEra / 146096) / 365
    0 ≤ yearOfEra ∧ yearOfEra < 400 ∧
      0 ≤ dayOfEra - (365 * yearOfEra + yearOfEra / 4 - yearOfEra / 100) ∧
      dayOfEra - (365 * yearOfEra + yearOfEra / 4 - yearOfEra / 100) ≤ 365 := by
  intro yearOfEra
  by_cases hlast : dayOfEra = 146096
  · subst hlast
    decide
  have hera : dayOfEra / 146096 = 0 := by omega
  have hdef : yearOfEra = (dayOfEra - dayOfEra / 1460 + dayOfEra / 36524) / 365 := by
    show (dayOfEra - dayOfEra / 1460 + dayOfEra / 36524 - dayOfEra / 146096) / 365 = _
    rw [hera, Int.sub_zero]
  clear_value yearOfEra
  have hcenturies : dayOfEra / 36524 = 0 ∨ dayOfEra / 36524 = 1 ∨ dayOfEra / 36524 = 2 ∨
      dayOfEra / 36524 = 3 := by omega
  -- the leap days of the centuries, and those of the years of four
  have hcentury : yearOfEra / 100 = dayOfEra / 36524 := by
    rcases hcenturies with h | h | h | h <;> rw [h] at hdef ⊢ <;> omega
  have hfour : yearOfEra / 4 ≤ dayOfEra / 1460 ∧ dayOfEra / 1460 ≤ yearOfEra / 4 + 1 := by
    rcases hcenturies with h | h | h | h <;> rw [h] at hdef <;> omega
  omega

theorem dayNumber_parts (era : ℤ) {yearOfEra dayOfYear : ℤ} (hy0 : 0 ≤ yearOfEra)
    (hy1 : yearOfEra < 400) (hd0 : 0 ≤ dayOfYear) (hd1 : dayOfYear ≤ 365) :
    let monthFromMarch := (5 * dayOfYear + 2) / 153
    let month := if monthFromMarch < 10 then monthFromMarch + 3 else monthFromMarch - 9
    dayNumber (yearOfEra + era * 400 + (if month ≤ 2 then 1 else 0)) month
        (dayOfYear - (153 * monthFromMarch + 2) / 5 + 1) =
      era * 146097 + (365 * yearOfEra + yearOfEra / 4 - yearOfEra / 100 + dayOfYear) - 719468 := by
  intro monthFromMarch month
  have hmonth : (month + 9) % 12 = monthFromMarch := by
    simp only [month, monthFromMarch]
    split_ifs <;> omega
  simp only [dayNumber]
  rw [hmonth, Int.add_sub_cancel]
  have hyear : (yearOfEra + era * 400) / 400 = era := by omega
  have hrest : (yearOfEra + era * 400) % 400 = yearOfEra := by omega
  rw [hyear, hrest]
  omega

/-- **A date gives back its day.** -/
theorem dayNumber_civil (n : ℤ) :
    dayNumber (civil n).year (civil n).month (civil n).day = n := by
  obtain ⟨h0, h1, h2, h3⟩ := yearOfEra_bounds (Int.emod_nonneg (n + 719468) (by decide))
    (Int.emod_lt_of_pos (n + 719468) (by decide : (0 : ℤ) < 146097))
  refine (dayNumber_parts ((n + 719468) / 146097) h0 h1 h2 h3).trans ?_
  omega

theorem civil_injective {m n : ℤ} (h : civil m = civil n) : m = n := by
  rw [← dayNumber_civil m, h, dayNumber_civil]

example : [civil 0, civil 11016, civil 24855] = [⟨1970, 1, 1⟩, ⟨2000, 2, 29⟩, ⟨2038, 1, 19⟩] := by
  decide

end Vigabss.Lib

/-!
## Gregorian dates and month arithmetic

A date is a month, counted from January of year 0, and a day of that month.  A day past the end of
its month runs over into the next one (`ofOverflow`), as JavaScript's `Date` does; `clamp` stays in
the month instead.
-/

namespace Vigabss.Lib

/-- A leap year of the Gregorian calendar. -/
def IsLeap (year : ℤ) : Prop := year % 4 = 0 ∧ year % 100 ≠ 0 ∨ year % 400 = 0

instance (year : ℤ) : Decidable (IsLeap year) := inferInstanceAs (Decidable (_ ∨ _))

/-- The days of a month, counted from January of year 0. -/
def daysIn (month : ℤ) : ℤ :=
  if month % 12 = 1 then if IsLeap (month / 12) then 29 else 28
  else if month % 12 = 3 ∨ month % 12 = 5 ∨ month % 12 = 8 ∨ month % 12 = 10 then 30
  else 31

theorem daysIn_bounds (month : ℤ) : 28 ≤ daysIn month ∧ daysIn month ≤ 31 := by
  unfold daysIn
  split_ifs <;> omega

/-- A date of the calendar. -/
structure Date where
  month : ℤ
  day : ℤ
  valid : 1 ≤ day ∧ day ≤ daysIn month
  deriving DecidableEq

namespace Date

theorem ext_iff' {a b : Date} : a = b ↔ a.month = b.month ∧ a.day = b.day := by
  cases a
  cases b
  simp

/-- The order of the calendar. -/
def Before (a b : Date) : Prop := a.month < b.month ∨ a.month = b.month ∧ a.day < b.day

instance (a b : Date) : Decidable (Before a b) := inferInstanceAs (Decidable (_ ∨ _))

/-- A day of a month, or of the month after it when the month has no such day. -/
def ofOverflow (month day : ℤ) (h : 1 ≤ day ∧ day ≤ 31) : Date :=
  if hlate : daysIn month < day then
    ⟨month + 1, day - daysIn month, by
      have := daysIn_bounds month
      have := daysIn_bounds (month + 1)
      omega⟩
  else ⟨month, day, by omega⟩

/-- A day of a month, or the last day of the month when the month has no such day. -/
def clamp (month day : ℤ) (h : 1 ≤ day) : Date :=
  ⟨month, min day (daysIn month), by
    have := daysIn_bounds month
    omega⟩

theorem day_le (d : Date) : 1 ≤ d.day ∧ d.day ≤ 31 := by
  have := d.valid
  have := daysIn_bounds d.month
  omega

/-- `date.setMonth(date.getMonth() + 1)`. -/
def addMonth (d : Date) : Date := ofOverflow (d.month + 1) d.day d.day_le

/-- `date.setDate(date.getDate() + 1)`. -/
def succ (d : Date) : Date :=
  if h : d.day < daysIn d.month then ⟨d.month, d.day + 1, by have := d.valid; omega⟩
  else ⟨d.month + 1, 1, by have := daysIn_bounds (d.month + 1); omega⟩

/-- `date.setDate(date.getDate() - 1)`. -/
def pred (d : Date) : Date :=
  if h : 1 < d.day then ⟨d.month, d.day - 1, by have := d.valid; omega⟩
  else ⟨d.month - 1, daysIn (d.month - 1), by have := daysIn_bounds (d.month - 1); omega⟩

@[simp] theorem succ_pred (d : Date) : d.pred.succ = d := by
  have hvalid := d.valid
  by_cases h : 1 < d.day
  · rw [pred, dif_pos h, succ, dif_pos (by dsimp only; omega), ext_iff']
    dsimp only
    omega
  · rw [pred, dif_neg h, succ, dif_neg (by dsimp only; omega), ext_iff']
    dsimp only
    omega

theorem before_addMonth (d : Date) : d.Before d.addMonth := by
  left
  rw [addMonth, ofOverflow]
  split_ifs <;> dsimp only <;> omega

theorem before_irrefl (a : Date) : ¬ a.Before a := by
  unfold Before
  omega

theorem Before.trans {a b c : Date} (hab : a.Before b) (hbc : b.Before c) : a.Before c := by
  unfold Before at *
  omega

theorem pred_before_pred {a b : Date} (h : a.Before b) : a.pred.Before b.pred := by
  have ha := a.valid
  have hb := b.valid
  unfold Before at *
  unfold pred
  by_cases heq : a.month = b.month - 1
  · rw [heq] at ha
    split_ifs <;> dsimp only <;> omega
  · split_ifs <;> dsimp only <;> omega

theorem not_pred_before {a b : Date} (h : a.Before b) : ¬ b.pred.Before a := by
  have ha := a.valid
  have hb := b.valid
  unfold Before at *
  unfold pred
  split_ifs <;> dsimp only <;> rcases h with h | h
  · omega
  · omega
  · intro hlt
    have hmonth : a.month = b.month - 1 := by omega
    rw [hmonth] at ha
    omega
  · omega

theorem before_succ (d : Date) : d.Before d.succ := by
  have hvalid := d.valid
  unfold Before succ
  split_ifs <;> dsimp only <;> omega

theorem not_before_succ {a b : Date} (h : a.Before b) : ¬ b.Before a.succ := by
  have ha := a.valid
  have hb := b.valid
  unfold Before at *
  unfold succ
  by_cases heq : a.month = b.month
  · have hdays : daysIn a.month = daysIn b.month := by rw [heq]
    split_ifs <;> dsimp only <;> omega
  · split_ifs <;> dsimp only <;> omega

theorem addMonth_of_le {d : Date} (h : d.day ≤ 28) :
    d.addMonth.month = d.month + 1 ∧ d.addMonth.day = d.day := by
  have := daysIn_bounds (d.month + 1)
  rw [addMonth, ofOverflow, dif_neg (by omega)]
  exact ⟨rfl, rfl⟩

theorem addMonth_of_lt {d : Date} (h : daysIn (d.month + 1) < d.day) :
    d.addMonth.month = d.month + 2 := by
  rw [addMonth, ofOverflow, dif_pos h]
  dsimp only
  omega

end Date

theorem daysIn_of_succ {month : ℤ} (h : daysIn (month + 1) = 28) : daysIn month = 31 := by
  have hmod : (month + 1) % 12 = 1 := by
    by_contra hne
    rw [daysIn, if_neg hne] at h
    split_ifs at h <;> omega
  rw [daysIn, if_neg (by omega), if_neg (by omega)]

theorem exists_common_february (month : ℤ) : ∃ n : ℕ, daysIn (month + 1 + n) = 28 := by
  have hfeb : ∀ year : ℤ, ¬ IsLeap year → daysIn (12 * year + 1) = 28 := by
    intro year hyear
    have hdiv : (12 * year + 1) / 12 = year := by omega
    rw [daysIn, if_pos (by omega), hdiv, if_neg hyear]
  by_cases h : IsLeap (month / 12 + 1)
  · refine ⟨(12 * (month / 12 + 2) + 1 - (month + 1)).toNat, ?_⟩
    have heq : month + 1 + ((12 * (month / 12 + 2) + 1 - (month + 1)).toNat : ℤ) =
        12 * (month / 12 + 2) + 1 := by omega
    rw [heq]
    refine hfeb _ ?_
    unfold IsLeap at *
    omega
  · refine ⟨(12 * (month / 12 + 1) + 1 - (month + 1)).toNat, ?_⟩
    have heq : month + 1 + ((12 * (month / 12 + 1) + 1 - (month + 1)).toNat : ℤ) =
        12 * (month / 12 + 1) + 1 := by omega
    rw [heq]
    exact hfeb _ h

end Vigabss.Lib
