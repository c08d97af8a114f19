import Mathlib.Data.List.Induction
import Vigabss.Lib.Calendar
import Vigabss.Lib.Run

/-!
# Vigabss.Billing.Periods — the billing periods of a contract

`generateBillingPeriod`, and the runs in which it takes turns with the invoicing of the period that
it has created.  Each period starts one overflowing month after the one before it, so the periods
keep their day of the month exactly when the service started on a day that every month has
(`periods_regular_iff`).
-/

namespace Vigabss.Billing

open Vigabss.Lib

/-! ### The code -/

/-- The columns of a contract that its billing periods come from. -/
structure Schedule where
  first_activated_at : Option Date
  start_date : Date
  billing_day : ℤ
  billing_day_valid : 1 ≤ billing_day ∧ billing_day ≤ 28

inductive PeriodStatus where
  | pending | invoiced | skipped
  deriving DecidableEq, Repr

/-- A row of `billing_periods` of the contract; `period_start` tells its rows apart. -/
structure BillingPeriod where
  period_start : Date
  period_end : Date
  status : PeriodStatus
  scheduled_at : Date
  deriving DecidableEq

/-- `serviceStartDate(contract)`. -/
def serviceStartDate (contract : Schedule) : Date :=
  contract.first_activated_at.getD contract.start_date

/-- `ORDER BY period_end DESC LIMIT 1`. -/
def latest (rows : List BillingPeriod) : Option BillingPeriod :=
  rows.foldl (fun best row => match best with
    | none => some row
    | some b => if b.period_end.Before row.period_end then some row else some b) none

/-- The row that `generateBillingPeriod` inserts for a start. -/
def newPeriod (contract : Schedule) (periodStart : Date) : BillingPeriod where
  period_start := periodStart
  period_end := periodStart.addMonth.pred
  status := .pending
  scheduled_at := ⟨periodStart.month, contract.billing_day, by
    have := contract.billing_day_valid
    have := daysIn_bounds periodStart.month
    omega⟩

/-- `generateBillingPeriod(contract)`, on the rows of the contract. -/
def generateBillingPeriod (contract : Schedule) (rows : List BillingPeriod) : List BillingPeriod :=
  match latest (rows.filter fun row => row.status = .pending) with
  | some _ => rows
  | none =>
    let periodStart := match latest (rows.filter fun row => row.status = .invoiced) with
      | some last => last.period_end.succ
      | none => serviceStartDate contract
    -- the unique key on the start answers a second insert with the row that is there
    if rows.any fun row => row.period_start = periodStart then rows
    else rows ++ [newPeriod contract periodStart]

/-- What `generateInvoice` writes to the period that it is given. -/
def markInvoiced (periodStart : Date) (row : BillingPeriod) : BillingPeriod :=
  if row.period_start = periodStart ∧ row.status = .pending then { row with status := .invoiced }
  else row

/-- A call on the contract. -/
inductive PeriodCall where
  | generate
  | invoice (periodStart : Date)

def periodStep (contract : Schedule) (rows : List BillingPeriod) :
    PeriodCall → List BillingPeriod
  | .generate => generateBillingPeriod contract rows
  | .invoice periodStart => rows.map (markInvoiced periodStart)

/-! ### The latest row -/

theorem latest_concat (rows : List BillingPeriod) (row : BillingPeriod) :
    latest (rows ++ [row]) = match latest rows with
      | none => some row
      | some b => if b.period_end.Before row.period_end then some row else some b := by
  rw [latest, List.foldl_append]
  rfl

theorem latest_mem {rows : List BillingPeriod} {b : BillingPeriod} (h : latest rows = some b) :
    b ∈ rows := by
  induction rows using List.reverseRecOn generalizing b with
  | nil => cases h
  | append_singleton rows row ih =>
    rw [latest_concat] at h
    cases hl : latest rows with
    | none =>
      rw [hl] at h
      cases h
      simp
    | some c =>
      rw [hl] at h
      dsimp only at h
      split_ifs at h <;> cases h
      · simp
      · exact List.mem_append_left _ (ih hl)

theorem latest_concat_of_before {rows : List BillingPeriod} {row : BillingPeriod}
    (h : ∀ b ∈ rows, b.period_end.Before row.period_end) : latest (rows ++ [row]) = some row := by
  rw [latest_concat]
  cases hl : latest rows with
  | none => rfl
  | some b => exact if_pos (h b (latest_mem hl))

/-! ### The periods of a run -/

/-- The start of the period with index `n`. -/
def startOf (contract : Schedule) : ℕ → Date
  | 0 => serviceStartDate contract
  | n + 1 => (startOf contract n).addMonth

/-- The period with index `n`, once it is invoiced. -/
def closedPeriod (contract : Schedule) (n : ℕ) : BillingPeriod :=
  { newPeriod contract (startOf contract n) with status := .invoiced }

/-- The first `n` periods, invoiced. -/
def closedPeriods (contract : Schedule) (n : ℕ) : List BillingPeriod :=
  (List.range n).map (closedPeriod contract)

variable {contract : Schedule}

theorem closedPeriods_succ (n : ℕ) :
    closedPeriods contract (n + 1) = closedPeriods contract n ++ [closedPeriod contract n] := by
  rw [closedPeriods, List.range_succ, List.map_append]
  rfl

theorem startOf_before {m n : ℕ} (h : m < n) :
    (startOf contract m).Before (startOf contract n) := by
  induction h with
  | refl => exact Date.before_addMonth _
  | step _ ih => exact ih.trans (Date.before_addMonth _)

theorem startOf_injective {m n : ℕ} (h : startOf contract m = startOf contract n) : m = n := by
  rcases Nat.lt_trichotomy m n with hlt | heq | hgt
  · exact absurd (h ▸ startOf_before hlt) (Date.before_irrefl _)
  · exact heq
  · exact absurd (h ▸ startOf_before hgt) (Date.before_irrefl _)

theorem mem_closedPeriods {row : BillingPeriod} {n : ℕ} (h : row ∈ closedPeriods contract n) :
    ∃ m < n, row = closedPeriod contract m := by
  obtain ⟨m, hm, rfl⟩ := List.mem_map.1 h
  exact ⟨m, List.mem_range.1 hm, rfl⟩

theorem closedPeriods_pending (n : ℕ) :
    (closedPeriods contract n).filter (fun row => row.status = .pending) = [] := by
  rw [List.filter_eq_nil_iff]
  intro row hrow
  obtain ⟨m, _, rfl⟩ := mem_closedPeriods hrow
  simp [closedPeriod]

theorem closedPeriods_invoiced (n : ℕ) :
    (closedPeriods contract n).filter (fun row => row.status = .invoiced) =
      closedPeriods contract n := by
  rw [List.filter_eq_self]
  intro row hrow
  obtain ⟨m, _, rfl⟩ := mem_closedPeriods hrow
  simp [closedPeriod]

theorem latest_closedPeriods_succ (n : ℕ) :
    latest (closedPeriods contract (n + 1)) = some (closedPeriod contract n) := by
  rw [closedPeriods_succ]
  refine latest_concat_of_before ?_
  intro row hrow
  obtain ⟨m, hm, rfl⟩ := mem_closedPeriods hrow
  have hlt : (startOf contract (m + 1)).Before (startOf contract (n + 1)) :=
    startOf_before (Nat.succ_lt_succ hm)
  exact Date.pred_before_pred hlt

/-- The rows that a run leaves: some periods that are invoiced, and perhaps one that is not. -/
def Chain (contract : Schedule) (rows : List BillingPeriod) : Prop :=
  ∃ n, rows = closedPeriods contract n ∨
    rows = closedPeriods contract n ++ [newPeriod contract (startOf contract n)]

theorem generateBillingPeriod_closed (n : ℕ) :
    generateBillingPeriod contract (closedPeriods contract n) =
      closedPeriods contract n ++ [newPeriod contract (startOf contract n)] := by
  have hstart : (match latest (closedPeriods contract n) with
      | some last => last.period_end.succ
      | none => serviceStartDate contract) = startOf contract n := by
    cases n with
    | zero => rfl
    | succ n =>
      rw [latest_closedPeriods_succ]
      exact Date.succ_pred _
  rw [generateBillingPeriod, closedPeriods_pending, closedPeriods_invoiced]
  dsimp only [latest, List.foldl_nil] at hstart ⊢
  rw [hstart, if_neg]
  rw [List.any_eq_true]
  rintro ⟨row, hrow, heq⟩
  obtain ⟨m, hm, rfl⟩ := mem_closedPeriods hrow
  have := startOf_injective (of_decide_eq_true heq)
  omega

theorem generateBillingPeriod_open (n : ℕ) :
    generateBillingPeriod contract
        (closedPeriods contract n ++ [newPeriod contract (startOf contract n)]) =
      closedPeriods contract n ++ [newPeriod contract (startOf contract n)] := by
  rw [generateBillingPeriod, List.filter_append, closedPeriods_pending]
  rfl

theorem markInvoiced_closed (periodStart : Date) (n : ℕ) :
    (closedPeriods contract n).map (markInvoiced periodStart) = closedPeriods contract n := by
  refine (List.map_congr_left ?_).trans (List.map_id _)
  intro row hrow
  obtain ⟨m, _, rfl⟩ := mem_closedPeriods hrow
  refine if_neg ?_
  rintro ⟨_, habs⟩
  cases habs

theorem markInvoiced_new (n : ℕ) :
    markInvoiced (startOf contract n) (newPeriod contract (startOf contract n)) =
      closedPeriod contract n := if_pos ⟨rfl, rfl⟩

theorem chain_step {rows : List BillingPeriod} (h : Chain contract rows) (call : PeriodCall) :
    Chain contract (periodStep contract rows call) := by
  obtain ⟨n, rfl | rfl⟩ := h
  · cases call with
    | generate => exact ⟨n, Or.inr (generateBillingPeriod_closed n)⟩
    | invoice periodStart => exact ⟨n, Or.inl (markInvoiced_closed periodStart n)⟩
  · cases call with
    | generate => exact ⟨n, Or.inr (generateBillingPeriod_open n)⟩
    | invoice periodStart =>
      rw [periodStep, List.map_append, markInvoiced_closed]
      by_cases hstart : startOf contract n = periodStart
      · refine ⟨n + 1, Or.inl ?_⟩
        rw [closedPeriods_succ, ← hstart, List.map_singleton, markInvoiced_new]
      · refine ⟨n, Or.inr ?_⟩
        rw [List.map_singleton, markInvoiced, if_neg]
        exact fun habs => hstart habs.1

theorem chain_run (calls : List PeriodCall) :
    Chain contract (run (periodStep contract) [] calls) :=
  run_invariant (P := Chain contract) (fun _ call h => chain_step h call) ⟨0, Or.inl rfl⟩ calls

/-- Taking turns `n` times leaves `n` periods that are invoiced. -/
def turns (contract : Schedule) : ℕ → List PeriodCall
  | 0 => []
  | n + 1 => turns contract n ++ [.generate, .invoice (startOf contract n)]

theorem run_turns (n : ℕ) :
    run (periodStep contract) [] (turns contract n) = closedPeriods contract n := by
  induction n with
  | zero => rfl
  | succ n ih =>
    rw [turns, run_append, ih, run_cons, run_cons, run_nil]
    show ((generateBillingPeriod contract (closedPeriods contract n)).map _) = _
    rw [generateBillingPeriod_closed, List.map_append, markInvoiced_closed, List.map_singleton,
      markInvoiced_new, closedPeriods_succ]

/-! ### Regular periods -/

/-- **Regular periods**: each starts the day after the one before it ends, and on the day of the
month of the first, or on the last day of a month that has no such day; so twelve of them end in
the month of the first, a year later. -/
structure Regular (contract : Schedule) (rows : List BillingPeriod) : Prop where
  proper : ∀ row ∈ rows, ¬ row.period_end.Before row.period_start
  contiguous : ∀ i p q, rows[i]? = some p → rows[i + 1]? = some q →
    q.period_start = p.period_end.succ
  anniversary : ∀ (i : ℕ) p, rows[i]? = some p →
    p.period_start = Date.clamp ((serviceStartDate contract).month + i)
      (serviceStartDate contract).day (serviceStartDate contract).valid.1
  year : ∀ i p q, rows[i]? = some p → rows[i + 12]? = some q →
    q.period_start = Date.clamp (p.period_start.month + 12) (serviceStartDate contract).day
      (serviceStartDate contract).valid.1

theorem Chain.getElem? {rows : List BillingPeriod} (h : Chain contract rows) {i : ℕ}
    {row : BillingPeriod} (hrow : rows[i]? = some row) :
    row.period_start = startOf contract i ∧ row.period_end = (startOf contract (i + 1)).pred := by
  obtain ⟨n, h⟩ := h
  have hclosed : ∀ {row}, (closedPeriods contract n)[i]? = some row →
      row = closedPeriod contract i := by
    intro row hget
    rw [closedPeriods, List.getElem?_map, Option.map_eq_some_iff] at hget
    obtain ⟨m, hm, rfl⟩ := hget
    obtain ⟨hlt, rfl⟩ := List.getElem?_eq_some_iff.1 hm
    rw [List.getElem_range]
  rcases h with rfl | rfl
  · rw [hclosed hrow]
    exact ⟨rfl, rfl⟩
  · have hlen : (closedPeriods contract n).length = n := by
      rw [closedPeriods, List.length_map, List.length_range]
    rcases Nat.lt_trichotomy i n with hlt | rfl | hgt
    · rw [List.getElem?_append_left (by omega)] at hrow
      rw [hclosed hrow]
      exact ⟨rfl, rfl⟩
    · rw [List.getElem?_append_right (by omega), hlen, Nat.sub_self] at hrow
      cases hrow
      exact ⟨rfl, rfl⟩
    · rw [List.getElem?_eq_none (by simp [hlen]; omega)] at hrow
      cases hrow

theorem startOf_eq (h : (serviceStartDate contract).day ≤ 28) (n : ℕ) :
    (startOf contract n).month = (serviceStartDate contract).month + n ∧
      (startOf contract n).day = (serviceStartDate contract).day := by
  induction n with
  | zero => exact ⟨(Int.add_zero _).symm, rfl⟩
  | succ n ih =>
    obtain ⟨hmonth, hday⟩ := Date.addMonth_of_le (d := startOf contract n) (by omega)
    rw [startOf, hmonth, hday, ih.1, ih.2]
    refine ⟨?_, rfl⟩
    push_cast
    omega

theorem Chain.regular {rows : List BillingPeriod} (h : Chain contract rows)
    (hday : (serviceStartDate contract).day ≤ 28) : Regular contract rows where
  proper := by
    intro row hrow
    obtain ⟨i, hi⟩ := List.mem_iff_getElem?.1 hrow
    obtain ⟨hstart, hend⟩ := h.getElem? hi
    rw [hstart, hend]
    exact Date.not_pred_before (Date.before_addMonth _)
  contiguous := by
    intro i p q hp hq
    rw [(h.getElem? hp).2, (h.getElem? hq).1, Date.succ_pred]
  anniversary := by
    intro i p hp
    obtain ⟨hmonth, hsame⟩ := startOf_eq hday i
    have := daysIn_bounds ((serviceStartDate contract).month + i)
    rw [(h.getElem? hp).1, Date.ext_iff', Date.clamp]
    dsimp only
    omega
  year := by
    intro i p q hp hq
    obtain ⟨hmonth, hsame⟩ := startOf_eq hday i
    obtain ⟨hmonth', hsame'⟩ := startOf_eq hday (i + 12)
    have := daysIn_bounds (p.period_start.month + 12)
    rw [(h.getElem? hq).1, Date.ext_iff', Date.clamp]
    rw [(h.getElem? hp).1] at this ⊢
    dsimp only
    push_cast at hmonth'
    omega

/-- **The periods of every run are regular** exactly when the service started on one of the first
28 days of a month. -/
theorem periods_regular_iff (contract : Schedule) :
    (∀ calls, Regular contract (run (periodStep contract) [] calls)) ↔
      (serviceStartDate contract).day ≤ 28 := by
  constructor
  · intro hall
    by_contra hlate
    obtain ⟨n, hn⟩ := exists_common_february (serviceStartDate contract).month
    have hregular := hall (turns contract (n + 2))
    rw [run_turns] at hregular
    have hget : ∀ i < n + 2,
        (closedPeriods contract (n + 2))[i]? = some (closedPeriod contract i) := by
      intro i hi
      rw [closedPeriods, List.getElem?_map, List.getElem?_range hi]
      rfl
    -- the period before starts on the anchor's day in January, and runs over February
    obtain ⟨hmonth, hday⟩ :=
      Date.ext_iff'.1 (hregular.anniversary n _ (hget n (by omega)))
    obtain ⟨hnext, _⟩ :=
      Date.ext_iff'.1 (hregular.anniversary (n + 1) _ (hget (n + 1) (by omega)))
    change (startOf contract n).month = (serviceStartDate contract).month + n at hmonth
    change (startOf contract n).day = min (serviceStartDate contract).day
      (daysIn ((serviceStartDate contract).month + n)) at hday
    change (startOf contract n).addMonth.month =
      (serviceStartDate contract).month + ((n + 1 : ℕ) : ℤ) at hnext
    rw [show (serviceStartDate contract).month + 1 + n =
      (serviceStartDate contract).month + n + 1 by omega] at hn
    have hjanuary := daysIn_of_succ hn
    have hbound := (serviceStartDate contract).day_le
    have hover := Date.addMonth_of_lt (d := startOf contract n) (by
      rw [hmonth, hn]
      omega)
    push_cast at hnext
    omega
  · exact fun hday calls => (chain_run calls).regular hday

/-- A contract whose service started on 31 January 2025. -/
def endOfJanuary : Schedule where
  first_activated_at := none
  start_date := ⟨12 * 2025, 31, by decide⟩
  billing_day := 1
  billing_day_valid := by decide

/-- Its second period starts on 3 March. -/
theorem periods_drift :
    ¬ Regular endOfJanuary (run (periodStep endOfJanuary) []
      [.generate, .invoice ⟨12 * 2025, 31, by decide⟩, .generate]) := by
  intro h
  have hsecond := h.anniversary 1 (newPeriod endOfJanuary ⟨12 * 2025 + 2, 3, by decide⟩)
    (by decide)
  have hmonth := congrArg Date.month hsecond
  revert hmonth
  decide

end Vigabss.Billing
