import Mathlib.Data.Finset.Card
import Vigabss.Lib.Run

/-!
# Vigabss.Lib.FirstFit — the first place that is accepted

`firstFit` tries the places `start`, `start + step`, … below `stop`.  An allocator takes the first
one that its state accepts, and does not accept the label of a place again that it has taken.  Over
all runs, the places that it hands out are just the ones that it accepts at the start.
-/

namespace Vigabss.Lib

/-- The places between `start` and `stop`. -/
def Place (start stop step p : ℕ) : Prop := start ≤ p ∧ p + step ≤ stop ∧ step ∣ p - start

/-- The first place that is accepted, from `start` on. -/
def firstFit (accept : ℕ → Bool) (stop step : ℕ) (hstep : 0 < step) (start : ℕ) : Option ℕ :=
  if start + step ≤ stop then
    if accept start then some start else firstFit accept stop step hstep (start + step)
  else none
termination_by stop - start

section FirstFit

variable {accept : ℕ → Bool} {stop step : ℕ} {hstep : 0 < step} {start : ℕ}

theorem Place.cases {p : ℕ} (h : Place start stop step p) :
    p = start ∨ Place (start + step) stop step p := by
  obtain ⟨hstart, hstop, ⟨k, hk⟩⟩ := h
  rcases k with _ | k
  · left
    omega
  · right
    rw [Nat.mul_succ] at hk
    exact ⟨by omega, hstop, ⟨k, by omega⟩⟩

theorem Place.behind {p : ℕ} (h : Place (start + step) stop step p) :
    Place start stop step p := by
  obtain ⟨hstart, hstop, ⟨k, hk⟩⟩ := h
  refine ⟨by omega, hstop, ⟨k + 1, ?_⟩⟩
  rw [Nat.mul_succ]
  omega

theorem firstFit_some {p : ℕ} (h : firstFit accept stop step hstep start = some p) :
    Place start stop step p ∧ accept p = true ∧
      ∀ q, Place start stop step q → accept q = true → p ≤ q := by
  induction hn : stop - start using Nat.strong_induction_on generalizing start with
  | _ n ih =>
    rw [firstFit] at h
    split_ifs at h with hroom haccept
    · cases h
      exact ⟨⟨le_rfl, hroom, by simp⟩, haccept, fun q hq _ => hq.1⟩
    · obtain ⟨hplace, hp, hfirst⟩ := ih (stop - (start + step)) (by omega) h rfl
      refine ⟨hplace.behind, hp, ?_⟩
      intro q hq hqaccept
      rcases hq.cases with rfl | hbehind
      · exact absurd hqaccept haccept
      · exact hfirst q hbehind hqaccept

theorem firstFit_none (h : firstFit accept stop step hstep start = none) {q : ℕ}
    (hq : Place start stop step q) : accept q = false := by
  induction hn : stop - start using Nat.strong_induction_on generalizing start with
  | _ n ih =>
    rw [firstFit] at h
    split_ifs at h with hroom haccept
    · rcases hq.cases with rfl | hbehind
      · exact Bool.eq_false_iff.2 haccept
      · exact ih (stop - (start + step)) (by omega) h hbehind rfl
    · obtain ⟨hstart, hstop, _⟩ := hq
      omega

end FirstFit

/-! ### Allocators -/

/-- An allocator of labelled places. -/
structure Allocator (σ ι L : Type*) where
  start : ℕ
  stop : ℕ
  step : ℕ
  step_pos : 0 < step
  accept : σ → ℕ → Bool
  label : ℕ → L
  take : σ → ι → ℕ → σ

namespace Allocator

variable {σ ι L : Type*} (a : Allocator σ ι L)

/-- The place that is taken next. -/
def pick (s : σ) : Option ℕ := firstFit (a.accept s) a.stop a.step a.step_pos a.start

/-- A request. -/
def next (s : σ) (i : ι) : σ :=
  match a.pick s with
  | some p => a.take s i p
  | none => s

/-- The places of the allocator. -/
def Has (p : ℕ) : Prop := Place a.start a.stop a.step p

variable (Clean : σ → L → Prop)

/-- Taking a place bars its label, and leaves what is said of the others. -/
structure Lawful : Prop where
  accept_take : ∀ s i p q, a.Has p → a.Has q →
    (a.accept (a.take s i p) q = true ↔ a.accept s q = true ∧ a.label q ≠ a.label p)
  clean_take : ∀ s i p q, a.Has p → a.Has q → a.label q ≠ a.label p →
    (Clean (a.take s i p) (a.label q) ↔ Clean s (a.label q))

variable {a Clean}

theorem Lawful.next (h : a.Lawful Clean) {s : σ}
    (hs : ∀ q, a.Has q → a.accept s q = true → Clean s (a.label q)) (i : ι) (q : ℕ) (hq : a.Has q)
    (haccept : a.accept (a.next s i) q = true) : Clean (a.next s i) (a.label q) := by
  unfold Allocator.next at haccept ⊢
  cases hpick : a.pick s with
  | none =>
    rw [hpick] at haccept
    exact hs q hq haccept
  | some p =>
    rw [hpick] at haccept
    obtain ⟨hp, _, _⟩ := firstFit_some hpick
    obtain ⟨hold, hlabel⟩ := (h.accept_take s i p q hp hq).1 haccept
    exact (h.clean_take s i p q hp hq hlabel).2 (hs q hq hold)

/-- Where all that is handed out is clean, so is every accepted place: it is handed out when those
before it are taken. -/
theorem Lawful.clean_of_always [Inhabited ι] (h : a.Lawful Clean) {s : σ}
    (hs : ∀ is p, a.pick (run a.next s is) = some p → Clean (run a.next s is) (a.label p))
    {q : ℕ} (hq : a.Has q) (haccept : a.accept s q = true) : Clean s (a.label q) := by
  classical
  induction hn : ((Finset.range q).filter fun p => a.Has p ∧ a.accept s p).card using
    Nat.strong_induction_on generalizing s with
  | _ n ih =>
    cases hpick : a.pick s with
    | none =>
      have hno := firstFit_none hpick hq
      rw [hno] at haccept
      exact absurd haccept Bool.false_ne_true
    | some p =>
      obtain ⟨hp, hpaccept, hfirst⟩ := firstFit_some hpick
      have hclean : Clean s (a.label p) := hs [] p hpick
      by_cases hlabel : a.label q = a.label p
      · rw [hlabel]
        exact hclean
      have hlt : p < q := by
        refine lt_of_le_of_ne (hfirst q hq haccept) ?_
        rintro rfl
        exact hlabel rfl
      have hnext : a.next s default = a.take s default p := by
        unfold Allocator.next
        rw [hpick]
      have htake : a.accept (a.take s default p) q = true :=
        (h.accept_take s default p q hp hq).2 ⟨haccept, hlabel⟩
      refine (h.clean_take s default p q hp hq hlabel).1
        (ih _ ?_ (s := a.take s default p) ?_ htake rfl)
      · -- the place that was taken is not accepted any more
        subst hn
        refine Finset.card_lt_card (Finset.ssubset_iff_of_subset ?_ |>.2 ⟨p, ?_, ?_⟩)
        · intro r hr
          simp only [Finset.mem_filter] at hr ⊢
          exact ⟨hr.1, hr.2.1, ((h.accept_take s default p r hp hr.2.1).1 hr.2.2).1⟩
        · simp only [Finset.mem_filter, Finset.mem_range]
          exact ⟨hlt, hp, hpaccept⟩
        · simp only [Finset.mem_filter, not_and]
          intro _ _ hagain
          exact ((h.accept_take s default p p hp hp).1 hagain).2 rfl
      · intro is r hr
        rw [← hnext] at hr ⊢
        exact hs (default :: is) r hr

/-- **All that is handed out is clean**, over every run, just when all that is accepted at the start
is. -/
theorem Lawful.always_clean_iff [Inhabited ι] (h : a.Lawful Clean) (s : σ) :
    (∀ is p, a.pick (run a.next s is) = some p → Clean (run a.next s is) (a.label p)) ↔
      ∀ q, a.Has q → a.accept s q = true → Clean s (a.label q) := by
  constructor
  · intro hs q hq haccept
    exact h.clean_of_always hs hq haccept
  · intro hs is
    induction is generalizing s with
    | nil =>
      intro p hpick
      obtain ⟨hp, haccept, _⟩ := firstFit_some hpick
      exact hs p hp haccept
    | cons i is ih => exact ih (a.next s i) (h.next hs i)

end Allocator

end Vigabss.Lib
