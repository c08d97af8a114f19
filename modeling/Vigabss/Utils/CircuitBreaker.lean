import Mathlib.Algebra.Order.Ring.Int
import Mathlib.Data.List.Nodup
import Vigabss.Lib.Run

/-!
# Vigabss.Utils.CircuitBreaker — calls through a circuit breaker

`createCircuitBreaker` with the calls that are in flight through it.  A call is let through or
refused by the counter and the time of the last failure, and its result is recorded when it
completes, in any order.  The law of a breaker is told on the history of its calls alone;
`probes_iff` says which runs keep it.
-/

namespace Vigabss.Utils.CircuitBreaker

open Vigabss.Lib

/-! ### The code -/

/-- `threshold` and `resetMs`. -/
structure Options where
  threshold : ℕ
  resetMs : ℤ
  deriving DecidableEq, Repr

inductive CircuitState where
  | closed | opened | halfOpen
  deriving DecidableEq, Repr

structure Breaker where
  failures : ℕ
  lastFailure : ℤ
  state : CircuitState
  deriving DecidableEq, Repr

/-- `createCircuitBreaker(opts)`. -/
def createCircuitBreaker : Breaker := ⟨0, 0, .closed⟩

namespace Breaker

/-- `isOpen()`, and the breaker it leaves. -/
def isOpen (o : Options) (now : ℤ) (b : Breaker) : Bool × Breaker :=
  if b.failures < o.threshold then (false, { b with state := .closed })
  else if o.resetMs < now - b.lastFailure then (false, { b with state := .halfOpen })
  else (true, { b with state := .opened })

def recordSuccess (b : Breaker) : Breaker := { b with failures := 0, state := .closed }

def recordFailure (o : Options) (now : ℤ) (b : Breaker) : Breaker :=
  { failures := b.failures + 1
    lastFailure := now
    state := if o.threshold ≤ b.failures + 1 then .opened else b.state }

end Breaker

/-! ### The calls -/

/-- What happened to a call, and when. -/
inductive Event where
  | letThrough (id : ℕ) (time : ℤ)
  | refused (time : ℤ)
  | succeeded (id : ℕ)
  | failed (id : ℕ) (time : ℤ)
  deriving DecidableEq, Repr

/-- A call in flight; `probe` when the breaker was half-open as it was let through. -/
structure InFlight where
  id : ℕ
  probe : Bool
  deriving DecidableEq, Repr

/-- The breaker, the clock, the calls in flight and the history, the newest first. -/
structure System where
  breaker : Breaker
  now : ℤ
  inFlight : List InFlight
  started : ℕ
  history : List Event
  deriving DecidableEq, Repr

/-- A call comes in, a call in flight completes, or time goes by. -/
inductive Input where
  | call
  | complete (id : ℕ) (ok : Bool)
  | wait (ms : ℕ)
  deriving DecidableEq, Repr

def initial (now : ℤ) : System := ⟨createCircuitBreaker, now, [], 0, []⟩

variable (o : Options)

/-- `call(fn)`, up to where `fn` runs. -/
def System.call (s : System) : System :=
  match s.breaker.isOpen o s.now with
  | (true, b) => { s with breaker := b, history := .refused s.now :: s.history }
  | (false, b) =>
    { s with
      breaker := b
      inFlight := ⟨s.started, b.state = .halfOpen⟩ :: s.inFlight
      started := s.started + 1
      history := .letThrough s.started s.now :: s.history }

/-- `call(fn)`, from where `fn` ends. -/
def System.complete (id : ℕ) (ok : Bool) (s : System) : System :=
  if s.inFlight.any fun c => c.id = id then
    { s with
      breaker := if ok then s.breaker.recordSuccess else s.breaker.recordFailure o s.now
      inFlight := s.inFlight.filter fun c => c.id ≠ id
      history := (if ok then .succeeded id else .failed id s.now) :: s.history }
  else s

def step (s : System) : Input → System
  | .call => s.call o
  | .complete id ok => s.complete o id ok
  | .wait ms => { s with now := s.now + ms }

/-! ### The law -/

/-- The failures since the last success. -/
def fails : List Event → ℕ
  | [] => 0
  | .failed _ _ :: older => fails older + 1
  | .succeeded _ :: _ => 0
  | .letThrough _ _ :: older | .refused _ :: older => fails older

/-- The time of the last failure. -/
def lastFailed : List Event → ℤ
  | [] => 0
  | .failed _ time :: _ => time
  | .succeeded _ :: older | .letThrough _ _ :: older | .refused _ :: older => lastFailed older

/-- The circuit is not closed. -/
def Tripped (history : List Event) : Prop := o.threshold ≤ fails history

instance (history : List Event) : Decidable (Tripped o history) :=
  inferInstanceAs (Decidable (_ ≤ _))

/-- The calls in flight that were let through while the circuit was not closed. -/
def probes : List Event → List ℕ
  | [] => []
  | .letThrough id _ :: older => if Tripped o older then id :: probes older else probes older
  | .succeeded id :: older | .failed id _ :: older => (probes older).filter (· ≠ id)
  | .refused _ :: older => probes older

/-- What the law says of an event: while the circuit is not closed, a call is let through after the
cooldown, when no probe is in flight, and refused otherwise, and only a probe may succeed. -/
def Event.Lawful : Event → List Event → Prop
  | .letThrough _ time, older =>
    Tripped o older → o.resetMs < time - lastFailed older ∧ probes o older = []
  | .refused time, older =>
    Tripped o older ∧ (time - lastFailed older ≤ o.resetMs ∨ probes o older ≠ [])
  | .succeeded id, older => Tripped o older → id ∈ probes o older
  | .failed _ _, _ => True

def Lawful : List Event → Prop
  | [] => True
  | e :: older => e.Lawful o older ∧ Lawful older

/-- What the code would have to make sure of: a call that comes after the cooldown finds no probe in
flight, and a call that succeeds while the counter is at the threshold is a probe. -/
def Covered (s : System) : Input → Prop
  | .call => o.threshold ≤ s.breaker.failures → o.resetMs < s.now - s.breaker.lastFailure →
    ∀ c ∈ s.inFlight, c.probe = false
  | .complete id true => o.threshold ≤ s.breaker.failures →
    ∀ c ∈ s.inFlight, c.id = id → c.probe = true
  | .complete _ false | .wait _ => True

/-! ### The breaker and its history -/

/-- The breaker is what its history makes of it. -/
structure Sound (s : System) : Prop where
  failures : s.breaker.failures = fails s.history
  lastFailure : s.breaker.lastFailure = lastFailed s.history
  probes : probes o s.history = (s.inFlight.filter InFlight.probe).map InFlight.id
  fresh : ∀ c ∈ s.inFlight, c.id < s.started
  once : (s.inFlight.map InFlight.id).Nodup

theorem sound_initial (now : ℤ) : Sound o (initial now) where
  failures := rfl
  lastFailure := rfl
  probes := rfl
  fresh _ hc := absurd hc List.not_mem_nil
  once := List.nodup_nil

variable {o}

theorem isOpen_cases (now : ℤ) (b : Breaker) :
    (b.failures < o.threshold ∧ b.isOpen o now = (false, { b with state := .closed })) ∨
      (o.threshold ≤ b.failures ∧ o.resetMs < now - b.lastFailure ∧
        b.isOpen o now = (false, { b with state := .halfOpen })) ∨
      (o.threshold ≤ b.failures ∧ now - b.lastFailure ≤ o.resetMs ∧
        b.isOpen o now = (true, { b with state := .opened })) := by
  unfold Breaker.isOpen
  by_cases hfew : b.failures < o.threshold
  · exact .inl ⟨hfew, if_pos hfew⟩
  · rw [if_neg hfew]
    by_cases hcooled : o.resetMs < now - b.lastFailure
    · exact .inr (.inl ⟨not_lt.1 hfew, hcooled, if_pos hcooled⟩)
    · exact .inr (.inr ⟨not_lt.1 hfew, not_lt.1 hcooled, if_neg hcooled⟩)

theorem Sound.probes_eq_nil {s : System} (h : Sound o s) :
    CircuitBreaker.probes o s.history = [] ↔ ∀ c ∈ s.inFlight, c.probe = false := by
  rw [h.probes, List.map_eq_nil_iff, List.filter_eq_nil_iff]
  exact forall₂_congr fun c _ => Bool.not_eq_true c.probe ▸ Iff.rfl

theorem Sound.letThrough {s : System} (h : Sound o s) {b : Breaker} {probe : Bool}
    (hb : b.failures = s.breaker.failures ∧ b.lastFailure = s.breaker.lastFailure)
    (hprobe : probe = true ↔ o.threshold ≤ s.breaker.failures) :
    Sound o { s with
      breaker := b
      inFlight := ⟨s.started, probe⟩ :: s.inFlight
      started := s.started + 1
      history := .letThrough s.started s.now :: s.history } where
  failures := hb.1.trans h.failures
  lastFailure := hb.2.trans h.lastFailure
  probes := by
    have htripped : Tripped o s.history ↔ probe = true := by
      rw [hprobe, h.failures]
      exact Iff.rfl
    show (if Tripped o s.history then _ else _) = _
    by_cases hp : probe = true
    · rw [if_pos (htripped.2 hp), List.filter_cons_of_pos hp, List.map_cons, h.probes]
    · rw [if_neg (mt htripped.1 hp), List.filter_cons_of_neg hp, h.probes]
  fresh c hc := by
    show c.id < s.started + 1
    rcases List.mem_cons.1 hc with rfl | hc
    · exact Nat.lt_succ_self _
    · exact Nat.lt_succ_of_lt (h.fresh c hc)
  once := by
    rw [List.map_cons, List.nodup_cons]
    refine ⟨fun hmem => ?_, h.once⟩
    obtain ⟨c, hc, hid⟩ := List.mem_map.1 hmem
    exact absurd (h.fresh c hc) (by rw [hid]; exact lt_irrefl _)

/-- **A call** keeps the breaker and its history together. -/
theorem Sound.call {s : System} (h : Sound o s) : Sound o (s.call o) := by
  unfold System.call
  rcases isOpen_cases (o := o) s.now s.breaker with
    ⟨hfew, hopen⟩ | ⟨hmany, -, hopen⟩ | ⟨hmany, -, hopen⟩
  · rw [hopen]
    exact h.letThrough ⟨rfl, rfl⟩ (iff_of_false (by simp) (not_le.2 hfew))
  · rw [hopen]
    exact h.letThrough ⟨rfl, rfl⟩ (iff_of_true (by simp) hmany)
  · rw [hopen]
    exact ⟨h.failures, h.lastFailure, h.probes, h.fresh, h.once⟩

/-- **A completion** does. -/
theorem Sound.complete {s : System} (h : Sound o s) (id : ℕ) (ok : Bool) :
    Sound o (s.complete o id ok) := by
  have hprobes : ((CircuitBreaker.probes o s.history).filter (· ≠ id)) =
      ((s.inFlight.filter fun c => c.id ≠ id).filter InFlight.probe).map InFlight.id := by
    rw [h.probes, List.filter_map, List.filter_filter, List.filter_filter]
    congr 2
    ext c
    exact Bool.and_comm _ _
  have hfresh : ∀ c ∈ s.inFlight.filter fun c => c.id ≠ id, c.id < s.started := fun c hc =>
    h.fresh c (List.mem_of_mem_filter hc)
  have honce : ((s.inFlight.filter fun c => c.id ≠ id).map InFlight.id).Nodup :=
    (List.filter_sublist.map _).nodup h.once
  unfold System.complete
  by_cases hany : (s.inFlight.any fun c => c.id = id) = true
  · rw [if_pos hany]
    cases ok with
    | true => exact ⟨rfl, h.lastFailure, hprobes, hfresh, honce⟩
    | false =>
      refine ⟨?_, rfl, hprobes, hfresh, honce⟩
      show s.breaker.failures + 1 = fails s.history + 1
      rw [h.failures]
  · rw [if_neg hany]
    exact h

theorem Sound.step {s : System} (h : Sound o s) (i : Input) : Sound o (step o s i) := by
  cases i with
  | call => exact h.call
  | complete id ok => exact h.complete id ok
  | wait ms => exact ⟨h.failures, h.lastFailure, h.probes, h.fresh, h.once⟩

/-! ### The law of one step -/

/-- **When a call keeps the law.** -/
theorem Sound.lawful_call {s : System} (h : Sound o s) (hlaw : Lawful o s.history) :
    Lawful o (s.call o).history ↔ Covered o s .call := by
  have htripped : Tripped o s.history ↔ o.threshold ≤ s.breaker.failures := by
    rw [h.failures]
    exact Iff.rfl
  have hlast := h.lastFailure
  unfold System.call
  rcases isOpen_cases (o := o) s.now s.breaker with
    ⟨hfew, hopen⟩ | ⟨hmany, hcooled, hopen⟩ | ⟨hmany, hcool, hopen⟩
  · rw [hopen]
    refine iff_of_true ⟨fun ht => ?_, hlaw⟩ fun hmany => ?_
    · exact absurd (htripped.1 ht) (not_le.2 hfew)
    · exact absurd hmany (not_le.2 hfew)
  · rw [hopen]
    constructor
    · intro hnew _ _
      exact h.probes_eq_nil.1 (hnew.1 (htripped.2 hmany)).2
    · intro hcovered
      refine ⟨fun _ => ⟨by rw [← hlast]; exact hcooled, ?_⟩, hlaw⟩
      exact h.probes_eq_nil.2 (hcovered hmany hcooled)
  · rw [hopen]
    refine iff_of_true ⟨⟨htripped.2 hmany, .inl ?_⟩, hlaw⟩ fun _ hcooled => ?_
    · rw [← hlast]
      exact hcool
    · exact absurd hcooled (not_lt.2 hcool)

/-- **When a completion keeps the law.** -/
theorem Sound.lawful_complete {s : System} (h : Sound o s) (hlaw : Lawful o s.history) (id : ℕ)
    (ok : Bool) : Lawful o (s.complete o id ok).history ↔ Covered o s (.complete id ok) := by
  unfold System.complete
  by_cases hany : (s.inFlight.any fun c => c.id = id) = true
  · rw [if_pos hany]
    cases ok with
    | false => exact iff_of_true ⟨trivial, hlaw⟩ trivial
    | true =>
      obtain ⟨c, hc, hid⟩ := List.any_eq_true.1 hany
      obtain rfl : c.id = id := of_decide_eq_true hid
      have hprobe : c.id ∈ CircuitBreaker.probes o s.history ↔
          ∀ d ∈ s.inFlight, d.id = c.id → d.probe = true := by
        rw [h.probes, List.mem_map]
        constructor
        · rintro ⟨d, hd, hdid⟩ e he heid
          rw [List.mem_filter] at hd
          have hsame : e = d := List.inj_on_of_nodup_map h.once he hd.1 (heid.trans hdid.symm)
          rw [hsame]
          exact hd.2
        · intro hall
          exact ⟨c, List.mem_filter.2 ⟨hc, hall c hc rfl⟩, rfl⟩
      show (_ ∧ _) ↔ (o.threshold ≤ s.breaker.failures → _)
      rw [and_iff_left hlaw, h.failures, ← hprobe]
      exact Iff.rfl
  · rw [if_neg hany]
    refine iff_of_true hlaw ?_
    cases ok with
    | false => trivial
    | true =>
      intro _ c hc hid
      exact absurd (List.any_eq_true.2 ⟨c, hc, decide_eq_true hid⟩) hany

theorem Sound.lawful_step {s : System} (h : Sound o s) (hlaw : Lawful o s.history) (i : Input) :
    Lawful o (CircuitBreaker.step o s i).history ↔ Covered o s i := by
  cases i with
  | call => exact h.lawful_call hlaw
  | complete id ok => exact h.lawful_complete hlaw id ok
  | wait ms => exact iff_of_true hlaw trivial

/-! ### The runs -/

/-- **Which runs keep the law of a breaker**: the runs in which no call comes after the cooldown
while a probe is in flight, and no call but a probe succeeds while the circuit is not closed. -/
theorem probes_iff (o : Options) (now : ℤ) (is : List Input) :
    Always (step o) (fun s => Lawful o s.history) (initial now) is ↔
      StepsMeet (step o) (Covered o) (initial now) is :=
  always_iff_stepsMeet (I := fun s => Sound o s ∧ Lawful o s.history) (fun _ h => h.2)
    (fun _ i h hcovered => ⟨h.1.step i, (h.1.lawful_step h.2 i).2 hcovered⟩)
    (fun _ i h hbad hlaw => hbad ((h.1.lawful_step h.2 i).1 hlaw))
    ⟨sound_initial o now, trivial⟩ is

/-- One failure opens the circuit, and two calls come after the cooldown. -/
theorem two_probes : ¬ ∀ o now is,
    Always (step o) (fun s => Lawful o s.history) (initial now) is := by
  intro h
  have hlaw := (h ⟨1, 10⟩ 1000 [.call, .complete 0 false, .wait 11, .call, .call]).last
  have hsecond := hlaw.1 (by decide)
  exact absurd hsecond.2 (by decide)

end Vigabss.Utils.CircuitBreaker
