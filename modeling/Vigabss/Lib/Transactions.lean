import Vigabss.Lib.Table

/-!
# Vigabss.Lib.Transactions — transactions that run side by side

A store with the transactions in flight on it.  A transaction has written a list of `ω`s that
nobody else sees yet: its `view` is the stored state with them applied.  What it writes it locks
(`locks`) until it ends, so that no other transaction writes under the same lock.  `commit` makes
the view the stored state and `rollback` drops the writes.

`Isolated` says that `P` holds of the stored state and of every view.  A client has to show that one
write keeps `P` in its view, and that two transactions with different locks can be merged.
-/

namespace Vigabss.Lib

/-- A transaction in flight, with what it has written, in order, and what it is doing. -/
structure Transaction (ω τ : Type*) where
  id : ℕ
  writes : List ω
  task : τ

instance {ω τ : Type*} : Keyed (Transaction ω τ) := ⟨Transaction.id⟩

/-- The stored state and the transactions in flight. -/
structure Shared (σ ω τ : Type*) where
  stored : σ
  inFlight : Table (Transaction ω τ)

section Definitions

variable {σ ω κ τ : Type*} (apply : σ → ω → σ) (locks : ω → List κ)

/-- The stored state as a transaction sees it. -/
def Transaction.view (t : Transaction ω τ) (s : σ) : σ := t.writes.foldl apply s

/-- The locks that the writes hold. -/
def locksOf (ws : List ω) : List κ := ws.flatMap locks

namespace Shared

/-- No other transaction holds one of the locks. -/
def free [DecidableEq κ] (s : Shared σ ω τ) (id : ℕ) (ks : List κ) : Bool :=
  s.inFlight.rows.all fun t => t.id = id ∨ ks.all (· ∉ locksOf locks t.writes) = true

/-- Start a transaction. -/
def begin (s : Shared σ ω τ) (task : τ) : Shared σ ω τ :=
  { s with inFlight := s.inFlight.insert (fun id => ⟨id, [], task⟩) fun _ => rfl }

/-- A transaction writes and goes on. -/
def advance (s : Shared σ ω τ) (id : ℕ) (ws : List ω) (task : τ) : Shared σ ω τ :=
  { s with
    inFlight := s.inFlight.modify id (fun t => { t with writes := t.writes ++ ws, task := task })
      fun _ => rfl }

/-- The writes of a transaction are stored. -/
def commit (s : Shared σ ω τ) (t : Transaction ω τ) : Shared σ ω τ :=
  ⟨t.view apply s.stored, s.inFlight.remove t.id⟩

/-- A transaction of these writes alone, begun and committed at once. -/
def write (s : Shared σ ω τ) (ws : List ω) : Shared σ ω τ :=
  { s with stored := ws.foldl apply s.stored }

/-- The writes of a transaction are undone. -/
def rollback (s : Shared σ ω τ) (id : ℕ) : Shared σ ω τ :=
  { s with inFlight := s.inFlight.remove id }

end Shared

/-- `P` holds of the stored state and of every view; `Owned` relates what a transaction has
written to the stored state; and no two transactions hold one lock. -/
structure Isolated (P : σ → Prop) (Owned : σ → List ω → Prop) (s : Shared σ ω τ) : Prop where
  stored : P s.stored
  views : ∀ t ∈ s.inFlight.rows, P (t.view apply s.stored)
  owned : ∀ t ∈ s.inFlight.rows, Owned s.stored t.writes
  apart : ∀ t ∈ s.inFlight.rows, ∀ u ∈ s.inFlight.rows, t.id ≠ u.id →
    List.Disjoint (locksOf locks t.writes) (locksOf locks u.writes)

/-- Storing `ws` is no obstacle to a transaction with other locks. -/
def MergesAfter (P : σ → Prop) (Owned : σ → List ω → Prop) (s : σ) (ws : List ω) : Prop :=
  ∀ us : List ω, P (us.foldl apply s) → Owned s us →
    List.Disjoint (locksOf locks ws) (locksOf locks us) →
    P (us.foldl apply (ws.foldl apply s)) ∧ Owned (ws.foldl apply s) us

/-- What one transaction stores is no obstacle to another with other locks. -/
def Merges (P : σ → Prop) (Owned : σ → List ω → Prop) : Prop :=
  ∀ (s : σ) (ws : List ω), P (ws.foldl apply s) → Owned s ws →
    MergesAfter apply locks P Owned s ws

end Definitions

section Rules

variable {σ ω κ τ : Type*} {apply : σ → ω → σ} {locks : ω → List κ} {P : σ → Prop}
  {Owned : σ → List ω → Prop} {s : Shared σ ω τ}

theorem mem_locksOf {ws : List ω} {k : κ} : k ∈ locksOf locks ws ↔ ∃ w ∈ ws, k ∈ locks w := by
  simp [locksOf]

@[simp] theorem locksOf_append (ws us : List ω) :
    locksOf locks (ws ++ us) = locksOf locks ws ++ locksOf locks us := by
  simp [locksOf]

theorem free_iff [DecidableEq κ] {id : ℕ} {ks : List κ} :
    s.free locks id ks = true ↔
      ∀ t ∈ s.inFlight.rows, t.id ≠ id → List.Disjoint ks (locksOf locks t.writes) := by
  simp only [Shared.free, List.all_eq_true, decide_eq_true_eq, List.Disjoint]
  constructor
  · intro h t ht hid k hk hkt
    exact ((h t ht).resolve_left hid) k hk hkt
  · intro h t ht
    by_cases hid : t.id = id
    · exact .inl hid
    · exact .inr fun k hk hkt => h t ht hid hk hkt

theorem Isolated.begin (h : Isolated apply locks P Owned s) (hnil : Owned s.stored [])
    (task : τ) : Isolated apply locks P Owned (s.begin task) where
  stored := h.stored
  views t ht := by
    rcases Table.mem_insert.1 ht with ht | rfl
    · exact h.views t ht
    · exact h.stored
  owned t ht := by
    rcases Table.mem_insert.1 ht with ht | rfl
    · exact h.owned t ht
    · exact hnil
  apart t ht u hu hne := by
    rcases Table.mem_insert.1 ht with ht | rfl
    · rcases Table.mem_insert.1 hu with hu | rfl
      · exact h.apart t ht u hu hne
      · simp [locksOf]
    · simp [locksOf]

theorem Isolated.rollback (h : Isolated apply locks P Owned s) (id : ℕ) :
    Isolated apply locks P Owned (s.rollback id) where
  stored := h.stored
  views t ht := h.views t (Table.mem_remove.1 ht).1
  owned t ht := h.owned t (Table.mem_remove.1 ht).1
  apart t ht u hu := h.apart t (Table.mem_remove.1 ht).1 u (Table.mem_remove.1 hu).1

/-- A transaction may write what it holds the locks for and what keeps `P` in its view. -/
theorem Isolated.advance [DecidableEq κ] (h : Isolated apply locks P Owned s)
    {t : Transaction ω τ} (ht : t ∈ s.inFlight.rows) {ws : List ω} {task : τ}
    (hfree : s.free locks t.id (locksOf locks ws) = true)
    (hview : P ((t.writes ++ ws).foldl apply s.stored))
    (howned : Owned s.stored (t.writes ++ ws)) :
    Isolated apply locks P Owned (s.advance t.id ws task) := by
  have hfind := Table.find?_key ht
  have key : ∀ u ∈ (s.advance t.id ws task).inFlight.rows,
      (u ∈ s.inFlight.rows ∧ u.id ≠ t.id) ∨ u = ⟨t.id, t.writes ++ ws, task⟩ := by
    intro u hu
    simp only [Shared.advance, Table.mem_modify] at hu
    rcases hu with hu | ⟨b, hb, rfl⟩
    · exact .inl hu
    · obtain rfl : t = b := Option.some.inj (hfind.symm.trans hb)
      exact .inr rfl
  have hapart : ∀ u ∈ s.inFlight.rows, u.id ≠ t.id →
      List.Disjoint (locksOf locks (t.writes ++ ws)) (locksOf locks u.writes) := by
    intro u hu hne
    rw [locksOf_append, List.disjoint_append_left]
    exact ⟨h.apart t ht u hu hne.symm, free_iff.1 hfree u hu hne⟩
  refine ⟨h.stored, fun u hu => ?_, fun u hu => ?_, fun u hu v hv hne => ?_⟩
  · rcases key u hu with ⟨hu, -⟩ | rfl
    · exact h.views u hu
    · exact hview
  · rcases key u hu with ⟨hu, -⟩ | rfl
    · exact h.owned u hu
    · exact howned
  · rcases key u hu with ⟨hu, hun⟩ | rfl
    · rcases key v hv with ⟨hv, hvn⟩ | rfl
      · exact h.apart u hu v hv hne
      · exact fun k hku hkt => hapart u hu hun hkt hku
    · rcases key v hv with ⟨hv, hvn⟩ | rfl
      · exact hapart v hv hvn
      · exact absurd rfl hne

theorem Isolated.skip (h : Isolated apply locks P Owned s) {t : Transaction ω τ}
    (ht : t ∈ s.inFlight.rows) (task : τ) :
    Isolated apply locks P Owned (s.advance t.id [] task) := by
  classical
  exact h.advance ht (free_iff.2 fun u _ _ => by simp [locksOf]) (by
    rw [List.append_nil]
    exact h.views t ht) (by
    rw [List.append_nil]
    exact h.owned t ht)

/-- **The commit rule**: the other transactions go on upon what was stored. -/
theorem Isolated.commit (hmerge : Merges apply locks P Owned)
    (h : Isolated apply locks P Owned s) {t : Transaction ω τ} (ht : t ∈ s.inFlight.rows) :
    Isolated apply locks P Owned (s.commit apply t) := by
  have key : ∀ u ∈ s.inFlight.rows, u.id ≠ t.id →
      P (u.view apply (t.view apply s.stored)) ∧ Owned (t.view apply s.stored) u.writes :=
    fun u hu hne => hmerge s.stored t.writes (h.views t ht) (h.owned t ht) u.writes
      (h.views u hu) (h.owned u hu) (h.apart t ht u hu hne.symm)
  refine ⟨h.views t ht, fun u hu => ?_, fun u hu => ?_, fun u hu v hv => ?_⟩
  · obtain ⟨hu, hne⟩ := Table.mem_remove.1 hu
    exact (key u hu hne).1
  · obtain ⟨hu, hne⟩ := Table.mem_remove.1 hu
    exact (key u hu hne).2
  · exact h.apart u (Table.mem_remove.1 hu).1 v (Table.mem_remove.1 hv).1

theorem Isolated.write [DecidableEq κ] (h : Isolated apply locks P Owned s) {ws : List ω}
    (hmerge : MergesAfter apply locks P Owned s.stored ws) (id : ℕ)
    (hid : ∀ t ∈ s.inFlight.rows, t.id ≠ id)
    (hfree : s.free locks id (locksOf locks ws) = true) (hview : P (ws.foldl apply s.stored)) :
    Isolated apply locks P Owned (s.write apply ws) := by
  have key : ∀ u ∈ s.inFlight.rows,
      P (u.view apply (ws.foldl apply s.stored)) ∧ Owned (ws.foldl apply s.stored) u.writes :=
    fun u hu => hmerge u.writes (h.views u hu) (h.owned u hu) (free_iff.1 hfree u hu (hid u hu))
  exact ⟨hview, fun u hu => (key u hu).1, fun u hu => (key u hu).2, h.apart⟩

end Rules

end Vigabss.Lib
