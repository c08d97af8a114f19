import Mathlib.Data.List.Basic
import Mathlib.Data.Nat.Basic

/-!
# Vigabss.Lib.Run — runs of a deterministic step function

A system is a total step function `step : σ → ι → σ` on states and inputs.  `run` folds it over
a list of inputs, `Always P` says that `P` holds in every state of a run, and `StepsMeet good`
that every step of it is taken from a state and with an input that meet `good`.  The invariant
rule is `always_of_step`.
-/

namespace Vigabss.Lib

variable {σ ι : Type*} (step : σ → ι → σ)

/-- The state after the inputs `is`, in order. -/
def run (s : σ) (is : List ι) : σ := is.foldl step s

/-- `P` holds in every state of the run, the first and the last included. -/
def Always (P : σ → Prop) : σ → List ι → Prop
  | s, [] => P s
  | s, i :: is => P s ∧ Always P (step s i) is

/-- Every step of the run is taken from a state and with an input that meet `good`. -/
def StepsMeet (good : σ → ι → Prop) : σ → List ι → Prop
  | _, [] => True
  | s, i :: is => good s i ∧ StepsMeet good (step s i) is

instance StepsMeet.decide (good : σ → ι → Prop) [∀ s i, Decidable (good s i)] :
    (s : σ) → (is : List ι) → Decidable (StepsMeet step good s is)
  | _, [] => .isTrue trivial
  | s, i :: is =>
    have := StepsMeet.decide good (step s i) is
    inferInstanceAs (Decidable (good s i ∧ StepsMeet step good (step s i) is))

@[simp] theorem run_nil (s : σ) : run step s [] = s := rfl

@[simp] theorem run_cons (s : σ) (i : ι) (is : List ι) :
    run step s (i :: is) = run step (step s i) is := rfl

theorem run_append (s : σ) (is js : List ι) :
    run step s (is ++ js) = run step (run step s is) js := List.foldl_append ..

variable {step}

theorem Always.head {P : σ → Prop} {s : σ} {is : List ι} (h : Always step P s is) : P s := by
  cases is with
  | nil => exact h
  | cons i is => exact h.1

theorem Always.last {P : σ → Prop} {s : σ} {is : List ι} (h : Always step P s is) :
    P (run step s is) := by
  induction is generalizing s with
  | nil => exact h
  | cons i is ih => exact ih h.2

theorem Always.mono {P Q : σ → Prop} (hPQ : ∀ s, P s → Q s) {s : σ} {is : List ι}
    (h : Always step P s is) : Always step Q s is := by
  induction is generalizing s with
  | nil => exact hPQ s h
  | cons i is ih => exact ⟨hPQ s h.1, ih h.2⟩

theorem Always.and {P Q : σ → Prop} {s : σ} {is : List ι} (h : Always step P s is)
    (h' : Always step Q s is) : Always step (fun s => P s ∧ Q s) s is := by
  induction is generalizing s with
  | nil => exact ⟨h, h'⟩
  | cons i is ih => exact ⟨⟨h.1, h'.1⟩, ih h.2 h'.2⟩

theorem stepsMeet_true (s : σ) (is : List ι) : StepsMeet step (fun _ _ => True) s is := by
  induction is generalizing s with
  | nil => trivial
  | cons i is ih => exact ⟨trivial, ih _⟩

theorem stepsMeet_append {good : σ → ι → Prop} {s : σ} {is js : List ι} :
    StepsMeet step good s (is ++ js) ↔
      StepsMeet step good s is ∧ StepsMeet step good (run step s is) js := by
  induction is generalizing s with
  | nil => simp [StepsMeet]
  | cons i is ih => simp [StepsMeet, ih, and_assoc]

/-- **The invariant rule**: what holds at the start and is kept by every step that meets `good`
holds in every state of a run whose steps all meet `good`. -/
theorem always_of_step {good : σ → ι → Prop} {P : σ → Prop}
    (hstep : ∀ s i, P s → good s i → P (step s i)) {s : σ} {is : List ι} (hs : P s)
    (hgood : StepsMeet step good s is) : Always step P s is := by
  induction is generalizing s with
  | nil => exact hs
  | cons i is ih => exact ⟨hs, ih (hstep s i hs hgood.1) hgood.2⟩

/-- Where an invariant `I` of the good steps gives `P`, and every other step leads out of `P`, a
run stays in `P` just when all its steps are good. -/
theorem always_iff_stepsMeet {good : σ → ι → Prop} {I P : σ → Prop} (hP : ∀ s, I s → P s)
    (hgood : ∀ s i, I s → good s i → I (step s i))
    (hbad : ∀ s i, I s → ¬ good s i → ¬ P (step s i)) {s : σ} (hs : I s) (is : List ι) :
    Always step P s is ↔ StepsMeet step good s is := by
  induction is generalizing s with
  | nil => exact ⟨fun _ => trivial, fun _ => hP s hs⟩
  | cons i is ih =>
    by_cases h : good s i
    · exact ⟨fun ha => ⟨h, (ih (hgood s i hs h)).1 ha.2⟩,
        fun hm => ⟨hP s hs, (ih (hgood s i hs h)).2 hm.2⟩⟩
    · exact ⟨fun ha => absurd ha.2.head (hbad s i hs h), fun hm => absurd hm.1 h⟩

/-- Two conditions that agree at each step, under an invariant that the steps keep, agree on every
run. -/
theorem stepsMeet_congr {good good' : σ → ι → Prop} {I : σ → Prop}
    (h : ∀ s i, I s → (good s i ↔ good' s i)) (hkeep : ∀ s i, I s → good s i → I (step s i)) {s : σ}
    (hs : I s) (is : List ι) : StepsMeet step good s is ↔ StepsMeet step good' s is := by
  induction is generalizing s with
  | nil => exact Iff.rfl
  | cons i is ih =>
    by_cases hi : good s i
    · exact and_congr (h s i hs) (ih (hkeep s i hs hi))
    · have hi' : ¬ good' s i := fun hgood => hi ((h s i hs).2 hgood)
      exact ⟨fun hm => absurd hm.1 hi, fun hm => absurd hm.1 hi'⟩

theorem run_invariant {P : σ → Prop} (hstep : ∀ s i, P s → P (step s i)) {s : σ} (hs : P s)
    (is : List ι) : P (run step s is) :=
  (always_of_step (fun s i h _ => hstep s i h) hs (stepsMeet_true s is)).last

/-! ### What an observer sees -/

section Observer

variable {α ο ω : Type*} (step : σ → ι → σ × α)

/-- The state after an input, which `step` answers. -/
def after (s : σ) (i : ι) : σ := (step s i).1

/-- The inputs of a run with their answers. -/
def answers : σ → List ι → List (ι × α)
  | _, [] => []
  | s, i :: is => (i, (step s i).2) :: answers (after step s i) is

variable {step} [DecidableEq ο] {who : ι → ο} {o : ο} {view : σ → ω}

/-- **The unwinding rule**: where the inputs of `o` change what `o` sees as what it sees tells, and
other inputs leave it, `o` gets the answers of the run of its own inputs. -/
theorem answers_own
    (hown : ∀ s t i, who i = o → view s = view t →
      (step s i).2 = (step t i).2 ∧ view (after step s i) = view (after step t i))
    (hother : ∀ s i, who i ≠ o → view (after step s i) = view s) {s t : σ} (h : view s = view t)
    (is : List ι) :
    (answers step s is).filter (who ·.1 = o) = answers step t (is.filter (who · = o)) ∧
      view (run (after step) s is) = view (run (after step) t (is.filter (who · = o))) := by
  induction is generalizing s t with
  | nil => exact ⟨rfl, h⟩
  | cons i is ih =>
    rw [answers]
    by_cases hi : who i = o
    · obtain ⟨hanswer, hview⟩ := hown s t i hi h
      obtain ⟨hrest, hlast⟩ := ih hview
      rw [List.filter_cons_of_pos (by simpa using hi), List.filter_cons_of_pos (by simpa using hi),
        answers, hanswer, hrest]
      exact ⟨rfl, hlast⟩
    · rw [List.filter_cons_of_neg (by simpa using hi), List.filter_cons_of_neg (by simpa using hi)]
      exact ih ((hother s i hi).trans h)

end Observer

end Vigabss.Lib

/-!
## Unbounded loops

A `for (;;)` loop is a body that either goes round again or leaves with a result.  `loop` runs
it for at most a given number of passes, `Halts` says that some number is enough, and `Visits`
collects the states at which the body is entered.
-/

namespace Vigabss.Lib

variable {σ β : Type*}

/-- What one pass through the body of a `for (;;)` loop does. -/
inductive Pass (σ β : Type*) where
  | again (s : σ)
  | leave (r : β)

/-- At most `n` passes through the body; `none` if the loop is still going. -/
def loop (body : σ → Pass σ β) : ℕ → σ → Option β
  | 0, _ => none
  | n + 1, s =>
    match body s with
    | .leave r => some r
    | .again s' => loop body n s'

/-- The loop entered at `s` is left after finitely many passes. -/
def Halts (body : σ → Pass σ β) (s : σ) : Prop := ∃ n r, loop body n s = some r

/-- The states at which the body is entered, starting from `s`. -/
inductive Visits (body : σ → Pass σ β) (s : σ) : σ → Prop where
  | start : Visits body s s
  | next {t u : σ} : Visits body s t → body t = .again u → Visits body s u

theorem Halts.of_leave {body : σ → Pass σ β} {s : σ} {r : β} (h : body s = .leave r) :
    Halts body s := ⟨1, r, by simp [loop, h]⟩

theorem Halts.of_again {body : σ → Pass σ β} {s s' : σ} (h : body s = .again s')
    (hs' : Halts body s') : Halts body s := by
  obtain ⟨n, r, hr⟩ := hs'
  exact ⟨n + 1, r, by simp [loop, h, hr]⟩

/-- **Measure rule**: an invariant `I` that every further pass keeps while a measure falls. -/
theorem Halts.of_measure {body : σ → Pass σ β} (I : σ → Prop) (μ : σ → ℕ)
    (hstep : ∀ s s', I s → body s = .again s' → I s' ∧ μ s' < μ s) :
    ∀ s, I s → Halts body s := by
  have key : ∀ n s, μ s = n → I s → Halts body s := by
    intro n
    induction n using Nat.strong_induction_on with
    | _ n ih =>
      intro s hμ hs
      cases hb : body s with
      | leave r => exact .of_leave hb
      | again s' =>
        obtain ⟨hI, hlt⟩ := hstep s s' hs hb
        exact .of_again hb (ih (μ s') (by omega) s' rfl hI)
  exact fun s hs => key (μ s) s rfl hs

theorem Visits.inv {body : σ → Pass σ β} (I : σ → Prop)
    (hstep : ∀ s s', I s → body s = .again s' → I s') {s t : σ} (hs : I s)
    (h : Visits body s t) : I t := by
  induction h with
  | start => exact hs
  | next _ hb ih => exact hstep _ _ ih hb

/-- A loop whose passes keep an invariant `I` under which the body never leaves goes on for
ever. -/
theorem not_halts_of_inv {body : σ → Pass σ β} (I : σ → Prop)
    (hstep : ∀ s, I s → ∃ s', body s = .again s' ∧ I s') {s : σ} (hs : I s) :
    ¬ Halts body s := by
  rintro ⟨n, r, hr⟩
  induction n generalizing s with
  | zero => simp [loop] at hr
  | succ n ih =>
    obtain ⟨s', hb, hI⟩ := hstep s hs
    rw [loop, hb] at hr
    exact ih hI hr

end Vigabss.Lib
