import Mathlib.Order.Interval.Finset.Nat
import Vigabss.Retries.Schedule

/-!
# Vigabss.Retries.Charges — the charges of a retry schedule

The runner that marked the row as `processing` has the attempt to itself, as long as every runner
marks the row only as it read it and nothing is cancelled in between.  Each attempt is then charged
once, and the first charge that succeeds ends the schedule.
-/

namespace Vigabss.Retries

open Vigabss.Lib

/-! ### The invariant -/

/-- The runner is between its mark and its last update. -/
def Stage.holds : Stage → Bool
  | .checking _ | .sending _ | .recording _ _ | .settling _ | .failing _ => true
  | .reading | .executing _ | .cancelling | .marking _ | .done => false

/-- Nothing has ended the schedule. -/
def Ongoing (s : Schedule) : Prop := ∀ e ∈ s.history, e.isEnd = false

/-- No charge succeeded, and no attempt after the `n`-th was made. -/
structure Clean (s : Schedule) (n : ℕ) : Prop where
  sent : ∀ m ∈ s.history.filterMap Event.sentAttempt, m ≤ n
  keys : ∀ x ∈ s.keys, x.1 ≤ n
  gateway : ∀ x ∈ s.gateway, x.1 ≤ n
  uncharged : s.history.filterMap Event.chargedAttempt = []
  ongoing : Ongoing s

/-- The row is processing the attempt after the one that was read. -/
structure Busy (s : Schedule) (retry : PaymentRetry) : Prop where
  processing : s.row.status = .processing
  attempt : s.row.attempt_number = retry.attempt_number
  below : retry.attempt_number < s.row.max_attempts
  limit : retry.max_attempts = s.row.max_attempts
  ongoing : Ongoing s

structure ScheduleInv (s : Schedule) : Prop where
  bounds : ∀ m ∈ s.history.filterMap Event.sentAttempt, 1 ≤ m ∧ m ≤ s.row.max_attempts
  single : (s.history.filterMap Event.chargedAttempt).length ≤ 1
  inTime : ∀ attempt result older, (Event.sent attempt result :: older).IsSuffix s.history →
    ∀ e ∈ older, e.isEnd = false
  pending : s.row.status = .pending →
    s.row.attempt_number < s.row.max_attempts ∧ Clean s s.row.attempt_number

/-- What a runner relies on. -/
def Relies (s : Schedule) : Stage → Prop
  | .executing retry | .marking retry => retry.max_attempts = s.row.max_attempts
  | .checking retry | .sending retry => Busy s retry ∧ Clean s retry.attempt_number
  | .recording retry .failed | .failing retry => Busy s retry ∧ Clean s (retry.attempt_number + 1)
  | .recording retry .charged | .settling retry => Busy s retry
  | .reading | .cancelling | .done => True

theorem Clean.mono {s : Schedule} {m n : ℕ} (h : Clean s m) (hmn : m ≤ n) : Clean s n where
  sent x hx := (h.sent x hx).trans hmn
  keys x hx := (h.keys x hx).trans hmn
  gateway x hx := (h.gateway x hx).trans hmn
  uncharged := h.uncharged
  ongoing := h.ongoing

theorem Clean.lookup_none {entries : List (ℕ × ChargeResult)} {n : ℕ}
    (h : ∀ x ∈ entries, x.1 ≤ n) : lookup entries (n + 1) = none := by
  unfold lookup
  rw [Option.map_eq_none_iff, List.find?_eq_none]
  intro x hx
  have := h x hx
  simp
  omega

theorem ScheduleInv.lawful {s : Schedule} (h : ScheduleInv s) : Lawful s where
  few := by
    have hsub : (s.history.filterMap Event.sentAttempt).toFinset ⊆
        Finset.Icc 1 s.row.max_attempts := by
      intro m hm
      rw [List.mem_toFinset] at hm
      exact Finset.mem_Icc.2 (h.bounds m hm)
    have hcard := Finset.card_le_card hsub
    rw [Nat.card_Icc] at hcard
    omega
  once := (List.toFinset_card_le _).trans h.single
  inTime := h.inTime

theorem Relies.busy {s : Schedule} {t : Stage} (h : Relies s t) (ht : t.holds = true) :
    s.row.status = .processing := by
  cases t with
  | checking retry => exact h.1.processing
  | sending retry => exact h.1.processing
  | recording retry result =>
    cases result with
    | charged => exact Busy.processing h
    | failed => exact h.1.processing
  | settling retry => exact Busy.processing h
  | failing retry => exact h.1.processing
  | _ => cases ht

theorem Relies.idle {s s' : Schedule} {t : Stage} (h : Relies s t) (ht : t.holds = false)
    (hmax : s'.row.max_attempts = s.row.max_attempts) : Relies s' t := by
  cases t with
  | executing retry => exact Eq.trans h hmax.symm
  | marking retry => exact Eq.trans h hmax.symm
  | reading => trivial
  | cancelling => trivial
  | done => trivial
  | _ => cases ht

/-! ### The updates -/

@[simp] theorem max_attempts_cancel (s : Schedule) :
    s.cancel.row.max_attempts = s.row.max_attempts := by
  unfold Schedule.cancel
  split_ifs <;> rfl

@[simp] theorem max_attempts_fail (retry : PaymentRetry) (n : ℕ) (now : ℤ) (s : Schedule) :
    (s.fail retry n now).row.max_attempts = s.row.max_attempts := by
  unfold Schedule.fail
  split_ifs <;> rfl

theorem max_attempts_effect (e : SqlEnd) {f : Schedule → Schedule} (s : Schedule)
    (h : (f s).row.max_attempts = s.row.max_attempts) :
    (effect e f s).row.max_attempts = s.row.max_attempts := by
  unfold effect
  split_ifs
  · rfl
  · exact h

theorem effect_cases (P : Schedule → Prop) (e : SqlEnd) {f : Schedule → Schedule} {s : Schedule}
    (hs : P s) (hf : P (f s)) : P (effect e f s) := by
  unfold effect
  split_ifs
  · exact hs
  · exact hf

theorem ScheduleInv.ofRow {s s' : Schedule} (h : ScheduleInv s) (hhistory : s'.history = s.history)
    (hmax : s'.row.max_attempts = s.row.max_attempts) (hstatus : s'.row.status ≠ .pending) :
    ScheduleInv s' := by
  refine ⟨?_, ?_, ?_, fun hp => absurd hp hstatus⟩
  · rw [hhistory, hmax]
    exact h.bounds
  · rw [hhistory]
    exact h.single
  · rw [hhistory]
    exact h.inTime

theorem ScheduleInv.ends {s s' : Schedule} {status : RetryStatus} (h : ScheduleInv s)
    (hhistory : s'.history = .ended status :: s.history)
    (hmax : s'.row.max_attempts = s.row.max_attempts) (hstatus : s'.row.status ≠ .pending) :
    ScheduleInv s' := by
  refine ⟨?_, ?_, ?_, fun hp => absurd hp hstatus⟩
  · rw [hhistory, hmax]
    exact h.bounds
  · rw [hhistory]
    exact h.single
  · intro attempt result older hsuffix
    rw [hhistory] at hsuffix
    rcases List.suffix_cons_iff.1 hsuffix with heq | hold
    · cases heq
    · exact h.inTime attempt result older hold

theorem ScheduleInv.cancel {s : Schedule} (h : ScheduleInv s) : ScheduleInv s.cancel := by
  unfold Schedule.cancel
  split_ifs
  · exact h.ends rfl rfl (by simp)
  · exact h

theorem ScheduleInv.succeed {s : Schedule} (h : ScheduleInv s) (n : ℕ) :
    ScheduleInv (s.succeed n) :=
  h.ends rfl rfl (by simp [Schedule.succeed, Schedule.setStatus])

theorem ScheduleInv.fail {s : Schedule} {retry : PaymentRetry} (h : ScheduleInv s)
    (hbusy : Busy s retry) (hclean : Clean s (retry.attempt_number + 1)) (now : ℤ) :
    ScheduleInv (s.fail retry (retry.attempt_number + 1) now) := by
  unfold Schedule.fail
  by_cases hlimit : retry.max_attempts ≤ retry.attempt_number + 1
  · rw [if_pos hlimit]
    exact h.ends rfl rfl (by simp [Schedule.setStatus])
  · rw [if_neg hlimit]
    refine ⟨h.bounds, h.single, h.inTime, fun _ => ⟨?_, hclean.sent, hclean.keys, hclean.gateway,
      hclean.uncharged, hclean.ongoing⟩⟩
    show retry.attempt_number + 1 < s.row.max_attempts
    rw [← hbusy.limit]
    exact not_le.1 hlimit

theorem send_clean {s : Schedule} {n : ℕ} (h : Clean s n) (charges : ChargeResult) :
    (s.send (n + 1) charges).history = .sent (n + 1) charges :: s.history ∧
      lookup (s.send (n + 1) charges).gateway (n + 1) = some charges ∧
      ∀ x ∈ (s.send (n + 1) charges).gateway, x.1 ≤ n + 1 := by
  have hnone := Clean.lookup_none h.gateway
  unfold Schedule.send
  rw [hnone]
  refine ⟨rfl, ?_, ?_⟩
  · simp [lookup]
  · intro x hx
    simp only [Option.isSome_none, Bool.false_eq_true, if_false, Option.getD_none,
      List.mem_cons] at hx
    rcases hx with rfl | hx
    · exact le_rfl
    · exact (h.gateway x hx).trans (Nat.le_succ n)

theorem ScheduleInv.send {s : Schedule} {retry : PaymentRetry} (h : ScheduleInv s)
    (hbusy : Busy s retry) (hclean : Clean s retry.attempt_number) (charges : ChargeResult) :
    ScheduleInv (s.send (retry.attempt_number + 1) charges) ∧
      Busy (s.send (retry.attempt_number + 1) charges) retry ∧
      (charges = .failed →
        Clean (s.send (retry.attempt_number + 1) charges) (retry.attempt_number + 1)) := by
  obtain ⟨hhistory, -, hgateway⟩ := send_clean hclean charges
  have hongoing : Ongoing (s.send (retry.attempt_number + 1) charges) := by
    intro e he
    rw [hhistory] at he
    rcases List.mem_cons.1 he with rfl | he
    · rfl
    · exact hclean.ongoing e he
  have hsent : (s.send (retry.attempt_number + 1) charges).history.filterMap Event.sentAttempt =
      (retry.attempt_number + 1) :: s.history.filterMap Event.sentAttempt := by
    rw [hhistory]
    rfl
  refine ⟨⟨?_, ?_, ?_, ?_⟩, ⟨hbusy.processing, hbusy.attempt, hbusy.below, hbusy.limit, hongoing⟩,
    ?_⟩
  · intro m hm
    rw [hsent] at hm
    rcases List.mem_cons.1 hm with rfl | hm
    · exact ⟨Nat.le_add_left 1 _, hbusy.below⟩
    · exact h.bounds m hm
  · rw [hhistory]
    cases charges with
    | charged =>
      show (_ :: s.history.filterMap Event.chargedAttempt).length ≤ 1
      rw [hclean.uncharged]
      exact le_rfl
    | failed => exact h.single
  · intro attempt result older hsuffix
    rw [hhistory] at hsuffix
    rcases List.suffix_cons_iff.1 hsuffix with heq | hold
    · cases heq
      exact hclean.ongoing
    · exact h.inTime attempt result older hold
  · intro hp
    have hstatus : s.row.status = .pending := hp
    rw [hbusy.processing] at hstatus
    cases hstatus
  · rintro rfl
    refine ⟨?_, fun x hx => (hclean.keys x hx).trans (Nat.le_succ _), hgateway, ?_, hongoing⟩
    · intro m hm
      rw [hsent] at hm
      rcases List.mem_cons.1 hm with rfl | hm
      · exact le_rfl
      · exact (hclean.sent m hm).trans (Nat.le_succ _)
    · rw [hhistory]
      exact hclean.uncharged

/-! ### The turns -/

/-- What the rule for an exclusive claim asks of one statement. -/
def Keeps (s : Schedule) (t : Stage) (r : Schedule × Stage) : Prop :=
  ScheduleInv r.1 ∧ Relies r.1 r.2 ∧
    (∀ u, Relies s u → (t.holds = true → u.holds = false) → Relies r.1 u) ∧
    (r.2.holds = true → t.holds = true ∨ ∀ u, Relies s u → u.holds = false)

theorem keeps_read {s : Schedule} {t t' : Stage} (hs : ScheduleInv s) (ht' : Relies s t')
    (hhold : t'.holds = true → t.holds = true) : Keeps s t (s, t') :=
  ⟨hs, ht', fun _ hu _ => hu, fun h => .inl (hhold h)⟩

theorem keeps_holder {s s' : Schedule} {t t' : Stage} (ht : t.holds = true) (hs : ScheduleInv s')
    (ht' : Relies s' t') (hmax : s'.row.max_attempts = s.row.max_attempts) :
    Keeps s t (s', t') :=
  ⟨hs, ht', fun _ hu hidle => hu.idle (hidle ht) hmax, fun _ => .inl ht⟩

theorem idle_of_not_processing {s : Schedule} (h : s.row.status ≠ .processing) (u : Stage)
    (hu : Relies s u) : u.holds = false := by
  rw [← Bool.not_eq_true]
  exact fun hhold => h (hu.busy hhold)

theorem keeps_marking {s : Schedule} {retry : PaymentRetry} {a : Answer} (hs : ScheduleInv s)
    (ht : Relies s (.marking retry)) (hgood : Covered s (.marking retry) a) :
    Keeps s (.marking retry) (next s (.marking retry) a) := by
  obtain ⟨hpending, hattempt⟩ := hgood
  obtain ⟨hbelow, hclean⟩ := hs.pending hpending
  have hidle : ∀ u, Relies s u → u.holds = false :=
    idle_of_not_processing (by rw [hpending]; decide)
  have hmarked : ScheduleInv (s.setStatus .processing) :=
    hs.ofRow rfl rfl (by simp [Schedule.setStatus])
  have hbusy : Busy (s.setStatus .processing) retry :=
    ⟨rfl, hattempt, hattempt ▸ hbelow, ht, hclean.ongoing⟩
  rw [hattempt] at hclean
  refine ⟨effect_cases ScheduleInv a.sql hs hmarked, ?_, ?_, fun _ => .inr hidle⟩
  · by_cases ha : a.sql = .ok
    · simp only [next, effect, ha, if_true, reduceCtorEq, if_false]
      exact ⟨hbusy, hclean.sent, hclean.keys, hclean.gateway, hclean.uncharged, hclean.ongoing⟩
    · simp only [next, if_neg ha]
      trivial
  · intro u hu _
    exact hu.idle (hidle u hu) (max_attempts_effect a.sql s rfl)

theorem keeps_sending {s : Schedule} {retry : PaymentRetry} {a : Answer} (hs : ScheduleInv s)
    (ht : Relies s (.sending retry)) (hgood : Covered s (.sending retry) a) :
    Keeps s (.sending retry) (next s (.sending retry) a) := by
  obtain ⟨hbusy, hclean⟩ := ht
  -- a request that reaches the gateway, under a new key
  have hsend : ∀ charges : ChargeResult, (charges = .charged → a.heard = true) →
      Keeps s (.sending retry) (s.send (retry.attempt_number + 1) charges,
        .recording retry (if a.heard then
          (lookup (s.send (retry.attempt_number + 1) charges).gateway
            (retry.attempt_number + 1)).getD .failed else .failed)) := by
    intro charges hheard
    obtain ⟨hinv, hbusy', hfailed⟩ := hs.send hbusy hclean charges
    refine keeps_holder rfl hinv ?_ rfl
    rw [(send_clean hclean charges).2.1, Option.getD_some]
    cases charges with
    | charged =>
      rw [if_pos (hheard rfl)]
      exact hbusy'
    | failed =>
      rw [ite_self]
      exact ⟨hbusy', hfailed rfl⟩
  show Keeps s (.sending retry) (sendCharge s retry a)
  unfold sendCharge
  cases hreply : a.reply with
  | unsent => exact keeps_read hs ⟨hbusy, hclean.mono (Nat.le_succ _)⟩ fun h => h
  | charged => exact hsend .charged fun _ => hgood hreply
  | declined => exact hsend .failed nofun

theorem keeps_recording {s : Schedule} {retry : PaymentRetry} {result : ChargeResult} {a : Answer}
    (hs : ScheduleInv s) (ht : Relies s (.recording retry result))
    (hgood : Covered s (.recording retry result) a) :
    Keeps s (.recording retry result) (next s (.recording retry result) a) := by
  have hstored : ∀ r, ScheduleInv (s.storeKey (retry.attempt_number + 1) r) := by
    intro r
    refine ⟨hs.bounds, hs.single, hs.inTime, ?_⟩
    intro hp
    have hstatus : s.row.status = .pending := hp
    rw [ht.busy rfl] at hstatus
    cases hstatus
  -- the key of a failed attempt
  have hfailed : ∀ r, Relies s (.failing retry) →
      Relies (s.storeKey (retry.attempt_number + 1) r) (.failing retry) := by
    rintro r ⟨hbusy, hclean⟩
    refine ⟨⟨hbusy.processing, hbusy.attempt, hbusy.below, hbusy.limit, hbusy.ongoing⟩, hclean.sent,
      ?_, hclean.gateway, hclean.uncharged, hclean.ongoing⟩
    intro x hx
    rcases List.mem_cons.1 hx with rfl | hx
    · exact le_rfl
    · exact hclean.keys x hx
  by_cases ha : a.sql = .ok
  · simp only [next, if_pos ha]
    refine keeps_holder rfl (hstored result) ?_ rfl
    cases result with
    | charged =>
      have hbusy : Busy s retry := ht
      exact ⟨hbusy.processing, hbusy.attempt, hbusy.below, hbusy.limit, hbusy.ongoing⟩
    | failed => exact hfailed .failed ht
  · simp only [next, if_neg ha]
    cases result with
    | charged => exact absurd (hgood rfl) ha
    | failed =>
      exact keeps_holder rfl (effect_cases ScheduleInv a.sql hs (hstored .failed))
        (effect_cases (Relies · (.failing retry)) a.sql ht (hfailed .failed ht))
        (max_attempts_effect a.sql s rfl)

/-- **One statement**, of any runner or cancellation, keeps the invariant. -/
theorem turn_keeps (s : Schedule) (t : Stage) (a : Answer) (hs : ScheduleInv s) (ht : Relies s t)
    (hgood : Covered s t a) : Keeps s t (next s t a) := by
  cases t with
  | reading =>
    simp only [next]
    split_ifs
    · exact keeps_read hs rfl nofun
    · exact keeps_read hs trivial nofun
  | executing retry =>
    simp only [next]
    split_ifs
    · exact keeps_read hs trivial nofun
    · exact keeps_read hs trivial nofun
    · exact keeps_read hs trivial nofun
    · exact keeps_read hs ht nofun
  | cancelling =>
    refine ⟨effect_cases ScheduleInv a.sql hs hs.cancel, trivial, ?_, nofun⟩
    intro u hu _
    exact hu.idle (idle_of_not_processing hgood u hu)
      (max_attempts_effect a.sql s (max_attempts_cancel s))
  | marking retry => exact keeps_marking hs ht hgood
  | checking retry =>
    obtain ⟨hbusy, hclean⟩ := ht
    simp only [next, Clean.lookup_none hclean.keys]
    split_ifs
    · exact keeps_read hs ⟨hbusy, hclean.mono (Nat.le_succ _)⟩ fun h => h
    · exact keeps_read hs ⟨hbusy, hclean⟩ fun h => h
  | sending retry => exact keeps_sending hs ht hgood
  | recording retry result => exact keeps_recording hs ht hgood
  | settling retry =>
    simp only [next, effect, show a.sql = .ok from hgood, if_true, reduceCtorEq, if_false]
    exact keeps_holder rfl (hs.succeed _) trivial rfl
  | failing retry =>
    exact keeps_holder rfl (effect_cases ScheduleInv a.sql hs (hs.fail ht.1 ht.2 a.now)) trivial
      (max_attempts_effect a.sql s (max_attempts_fail retry _ a.now s))
  | done => exact keeps_read hs trivial nofun

/-! ### The law -/

theorem scheduleInv_scheduled (now : ℤ) : ScheduleInv (scheduleRetry now) := by
  refine ⟨nofun, Nat.zero_le 1, ?_, fun _ => ⟨Nat.zero_lt_succ 2, nofun, nofun, nofun,
    rfl, nofun⟩⟩
  intro attempt result older hsuffix
  cases List.suffix_nil.1 hsuffix

/-- **The charges of a retry schedule**: in every run whose statements are covered there are at most
`max_attempts` of them, at most one succeeds, and none goes out after the schedule ended. -/
theorem retries_lawful (now : ℤ) (is : List (Turn Call Answer))
    (h : StepsMeet step (Threads.Meets Covered) (Threads.idle (scheduleRetry now)) is) :
    Always step (fun s => Lawful s.shared) (Threads.idle (scheduleRetry now)) is := by
  have hkept := @Threads.always_exclusive _ _ _ _ start next ScheduleInv Relies Covered Stage.holds
    (fun s c => by cases c <;> exact ⟨trivial, rfl⟩) turn_keeps _ (scheduleInv_scheduled now) is h
  exact hkept.mono fun s hs => hs.lawful

/-! ### Two runs -/

/-- An answer at the time of the first retry: everything goes well and the charge succeeds. -/
def goesWell : Answer := ⟨.ok, 4 * 60 * 60 * 1000, true, true, true, .charged, true⟩

/-- One runner, to the end. -/
def chargedOnce : List (Turn Call Answer) :=
  .call .processPendingRetries :: List.replicate 7 (.turn 0 goesWell)

/-- The law at a run of one runner. -/
theorem retries_lawful_charged :
    StepsMeet step (Threads.Meets Covered) (Threads.idle (scheduleRetry 0)) chargedOnce ∧
      Always step (fun s => Lawful s.shared) (Threads.idle (scheduleRetry 0)) chargedOnce := by
  have hgood : StepsMeet step (Threads.Meets Covered) (Threads.idle (scheduleRetry 0))
      chargedOnce := by decide
  exact ⟨hgood, retries_lawful 0 chargedOnce hgood⟩

/-- A batch reads the row, the schedule is cancelled, and the batch executes what it read. -/
def cancelledBehind : List (Turn Call Answer) :=
  [.call .processPendingRetries, .turn 0 goesWell, .call .cancelRetries, .turn 1 goesWell,
    .turn 0 goesWell, .turn 0 goesWell, .turn 0 goesWell, .turn 0 goesWell]

/-- The charge goes out after the cancellation. -/
theorem cancelled_schedule_charged :
    ¬ Always step (fun s => Lawful s.shared) (Threads.idle (scheduleRetry 0)) cancelledBehind := by
  intro h
  have hlate := h.last.inTime 1 .charged [.ended .cancelled] List.suffix_rfl
    (.ended .cancelled) List.mem_cons_self
  cases hlate

end Vigabss.Retries
