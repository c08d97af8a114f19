import Mathlib.Logic.Function.Iterate

/-!
# Vigabss.Lib.Atomic — transactions whose statements may fail

A transaction is a sequence of statements on its own view of the database.  Any statement may fail,
as a stream of faults decides; `atomically` then leaves the database as it was.  `Ensures` is the
rule for what a transaction that goes through leaves, `Succeeds` for one that meets no fault.
-/

namespace Vigabss.Lib

/-- The error of each statement that fails, counted from the start of the transaction. -/
abbrev Faults := ℕ → Option String

/-- No statement fails. -/
def noFaults : Faults := fun _ => none

/-- Statements, from the number of statements so far and the view of the database. -/
def Txn (σ α : Type) : Type := Faults → ℕ → σ → Except String (α × ℕ × σ)

namespace Txn

variable {σ α β : Type}

instance : Monad (Txn σ) where
  pure a := fun _ n s => .ok (a, n, s)
  bind x f := fun faults n s =>
    match x faults n s with
    | .error e => .error e
    | .ok r => f r.1 faults r.2.1 r.2.2

/-- One statement, which answers with a value and changes the view. -/
def statement (f : σ → α × σ) : Txn σ α := fun faults n s =>
  match faults n with
  | some e => .error e
  | none => .ok ((f s).1, n + 1, (f s).2)

/-- `SELECT`. -/
def read (f : σ → α) : Txn σ α := statement fun s => (f s, s)

/-- `INSERT`, `UPDATE` or `DELETE`. -/
def write (f : σ → σ) : Txn σ Unit := statement fun s => ((), f s)

/-- A transaction: its view is stored when all statements go through, and dropped otherwise. -/
def atomically (x : Txn σ α) (faults : Faults) (s : σ) : Except String α × σ :=
  match x faults 0 s with
  | .error e => (.error e, s)
  | .ok r => (.ok r.1, r.2.2)

/-- What the statements leave when they go through. -/
def Ensures (P : σ → Prop) (x : Txn σ α) (Q : α → σ → Prop) : Prop :=
  ∀ faults n s, P s → ∀ r, x faults n s = .ok r → Q r.1 r.2.2

theorem ensures_pure {P : σ → Prop} {a : α} {Q : α → σ → Prop} (h : ∀ s, P s → Q a s) :
    Ensures P (pure a) Q := by
  intro faults n s hs r hr
  cases hr
  exact h s hs

theorem ensures_statement {P : σ → Prop} {f : σ → α × σ} {Q : α → σ → Prop}
    (h : ∀ s, P s → Q (f s).1 (f s).2) : Ensures P (statement f) Q := by
  intro faults n s hs r hr
  rw [statement] at hr
  split at hr
  · cases hr
  · cases hr
    exact h s hs

theorem ensures_read {P : σ → Prop} {f : σ → α} {Q : α → σ → Prop}
    (h : ∀ s, P s → Q (f s) s) : Ensures P (read f) Q :=
  ensures_statement h

theorem ensures_keep {P : σ → Prop} (f : σ → α) : Ensures P (read f) fun _ => P :=
  ensures_read fun _ hs => hs

theorem ensures_write {P : σ → Prop} {f : σ → σ} {Q : Unit → σ → Prop}
    (h : ∀ s, P s → Q () (f s)) : Ensures P (write f) Q :=
  ensures_statement h

/-- **The rule for sequences.** -/
theorem Ensures.bind {P : σ → Prop} {x : Txn σ α} {f : α → Txn σ β} {Q : α → σ → Prop}
    {R : β → σ → Prop} (hx : Ensures P x Q) (hf : ∀ a, Ensures (Q a) (f a) R) :
    Ensures P (x >>= f) R := by
  intro faults n s hs r hr
  change (match x faults n s with
    | .error e => .error e
    | .ok r => f r.1 faults r.2.1 r.2.2) = Except.ok r at hr
  cases hstep : x faults n s with
  | error e =>
    rw [hstep] at hr
    cases hr
  | ok mid =>
    rw [hstep] at hr
    exact hf mid.1 faults mid.2.1 mid.2.2 (hx faults n s hs mid hstep) r hr

theorem ensures_of_fact {p : Prop} {P : σ → Prop} {x : Txn σ α} {Q : α → σ → Prop}
    (h : p → Ensures P x Q) : Ensures (fun s => p ∧ P s) x Q :=
  fun faults n s hs => h hs.1 faults n s hs.2

theorem atomically_cases {x : Txn σ α} {Q : α → σ → Prop} {s : σ} (h : Ensures (· = s) x Q)
    (faults : Faults) :
    (∃ e, atomically x faults s = (.error e, s)) ∨
      ∃ a s', atomically x faults s = (.ok a, s') ∧ Q a s' := by
  rw [atomically]
  cases hrun : x faults 0 s with
  | error e => exact Or.inl ⟨e, rfl⟩
  | ok r => exact Or.inr ⟨r.1, r.2.2, rfl, h faults 0 s rfl r hrun⟩

/-- The statements go through when none fails. -/
def Succeeds (x : Txn σ α) : Prop := ∀ n s, ∃ r, x noFaults n s = .ok r

theorem succeeds_pure (a : α) : Succeeds (pure a : Txn σ α) := fun _ _ => ⟨_, rfl⟩

theorem succeeds_statement (f : σ → α × σ) : Succeeds (statement f) := fun _ _ => ⟨_, rfl⟩

theorem Succeeds.bind {x : Txn σ α} {f : α → Txn σ β} (hx : Succeeds x)
    (hf : ∀ a, Succeeds (f a)) : Succeeds (x >>= f) := by
  intro n s
  obtain ⟨mid, hmid⟩ := hx n s
  obtain ⟨r, hr⟩ := hf mid.1 mid.2.1 mid.2.2
  refine ⟨r, ?_⟩
  change (match x noFaults n s with
    | .error e => .error e
    | .ok r => f r.1 noFaults r.2.1 r.2.2) = Except.ok r
  rw [hmid]
  exact hr

end Txn

end Vigabss.Lib
