import Mathlib.Algebra.Order.BigOperators.Group.List
import Mathlib.Algebra.Order.Ring.Int
import Vigabss.Lib.Run

/-!
# Vigabss.Lib.Threads — calls that interleave over one shared state

A thread of type `τ` is a call and where it stands; `next` runs its next statement, which is atomic,
with what the environment answers.  A call `κ` begins as `start c`.  The rule `always_holds` keeps
an invariant `G` of the shared state, one `L` of each thread against it, and one `X` of any two
threads; `always_total` counts the threads by a weight.
-/

namespace Vigabss.Lib

/-- A shared state and the threads that run over it. -/
structure Threads (σ τ : Type*) where
  shared : σ
  threads : List τ

/-- A call comes in, or a thread takes a turn. -/
inductive Turn (κ ε : Type*) where
  | call (c : κ)
  | turn (i : ℕ) (answer : ε)

variable {σ τ κ ε : Type*} (start : κ → τ) (next : σ → τ → ε → σ × τ)

/-- One turn of the system. -/
def Threads.step (s : Threads σ τ) : Turn κ ε → Threads σ τ
  | .call c => ⟨s.shared, s.threads ++ [start c]⟩
  | .turn i answer =>
    match s.threads[i]? with
    | none => s
    | some t => ⟨(next s.shared t answer).1, s.threads.set i (next s.shared t answer).2⟩

/-- A condition on the statements that threads run. -/
def Threads.Meets (good : σ → τ → ε → Prop) (s : Threads σ τ) : Turn κ ε → Prop
  | .call _ => True
  | .turn i answer => ∀ t ∈ s.threads[i]?, good s.shared t answer

instance Threads.Meets.decide (good : σ → τ → ε → Prop) [∀ s t e, Decidable (good s t e)]
    (s : Threads σ τ) : (e : Turn κ ε) → Decidable (s.Meets good e)
  | .call _ => .isTrue trivial
  | .turn i answer => inferInstanceAs (Decidable (∀ t ∈ s.threads[i]?, good s.shared t answer))

/-- The shared state alone, before any call. -/
def Threads.idle (s : σ) : Threads σ τ := ⟨s, []⟩

/-- `G` holds of the shared state, `L` of each thread, `X` of any two. -/
structure Threads.Holds (G : σ → Prop) (L : σ → τ → Prop) (X : τ → τ → Prop)
    (s : Threads σ τ) : Prop where
  shared : G s.shared
  each : ∀ (i : ℕ) t, s.threads[i]? = some t → L s.shared t
  pairs : ∀ (i j : ℕ) t u, i ≠ j → s.threads[i]? = some t → s.threads[j]? = some u → X t u

variable {start next} {G : σ → Prop} {L : σ → τ → Prop} {X : τ → τ → Prop}

theorem Threads.Holds.idle {s : σ} (h : G s) : (Threads.idle s : Threads σ τ).Holds G L X where
  shared := h
  each i t ht := by simp [Threads.idle] at ht
  pairs i j t u _ ht := by simp [Threads.idle] at ht

theorem Threads.Holds.call {s : Threads σ τ} (h : s.Holds G L X) (c : κ)
    (hL : L s.shared (start c)) (hX : ∀ u, X (start c) u ∧ X u (start c)) :
    (s.step start next (.call c)).Holds G L X := by
  have hcases : ∀ {i : ℕ} {t}, (s.threads ++ [start c])[i]? = some t →
      s.threads[i]? = some t ∨ t = start c ∧ i = s.threads.length := by
    intro i t ht
    rw [List.getElem?_append] at ht
    split_ifs at ht with hi
    · exact Or.inl ht
    · have hget := List.getElem?_eq_some_iff.1 ht
      obtain ⟨hlt, hval⟩ := hget
      simp only [List.length_cons, List.length_nil, Nat.zero_add] at hlt
      refine Or.inr ⟨?_, by omega⟩
      rw [← hval]
      simp
  refine ⟨h.shared, ?_, ?_⟩
  · intro i t ht
    rcases hcases ht with ht | ⟨rfl, _⟩
    · exact h.each i t ht
    · exact hL
  · intro i j t u hij ht hu
    rcases hcases ht with ht | ⟨rfl, hi⟩
    · rcases hcases hu with hu | ⟨rfl, _⟩
      · exact h.pairs i j t u hij ht hu
      · exact (hX t).2
    · exact (hX u).1

theorem Threads.Holds.turn {s : Threads σ τ} (h : s.Holds G L X) (hsymm : ∀ t u, X t u → X u t)
    {i : ℕ} {t : τ} (ht : s.threads[i]? = some t) {s' : σ} {t' : τ} (hG : G s') (hL : L s' t')
    (hothers : ∀ u, L s.shared u → X t u → L s' u ∧ X t' u) :
    (⟨s', s.threads.set i t'⟩ : Threads σ τ).Holds G L X := by
  have hcases : ∀ {j : ℕ} {u}, (s.threads.set i t')[j]? = some u →
      (i = j ∧ u = t') ∨ (i ≠ j ∧ s.threads[j]? = some u ∧ L s' u ∧ X t' u) := by
    intro j u hu
    by_cases hij : i = j
    · subst hij
      rw [List.getElem?_set_self (List.getElem?_eq_some_iff.1 ht).1] at hu
      exact Or.inl ⟨rfl, (Option.some.inj hu).symm⟩
    · rw [List.getElem?_set_ne hij] at hu
      exact Or.inr ⟨hij, hu, hothers u (h.each j u hu) (h.pairs i j t u hij ht hu)⟩
  refine ⟨hG, ?_, ?_⟩
  · intro j u hu
    rcases hcases hu with ⟨_, rfl⟩ | ⟨_, _, hLu, _⟩
    · exact hL
    · exact hLu
  · intro j k u v hjk hu hv
    rcases hcases hu with ⟨rfl, rfl⟩ | ⟨_, hu', _, hXu⟩
    · rcases hcases hv with ⟨rfl, _⟩ | ⟨_, _, _, hXv⟩
      · exact absurd rfl hjk
      · exact hXv
    · rcases hcases hv with ⟨rfl, rfl⟩ | ⟨_, hv', _, _⟩
      · exact hsymm _ _ hXu
      · exact h.pairs j k u v hjk hu' hv'

theorem stepsMeet_meets (s : Threads σ τ) (is : List (Turn κ ε)) :
    StepsMeet (Threads.step start next) (Threads.Meets fun _ _ _ => True) s is := by
  induction is generalizing s with
  | nil => trivial
  | cons e is ih =>
    refine ⟨?_, ih _⟩
    cases e <;> simp [Threads.Meets]

/-- **The rule for threads**: where every statement that meets `good` keeps `G`, its own thread's
`L`, and the `L` and `X` of every other thread, all three hold all along. -/
theorem Threads.holds_always {good : σ → τ → ε → Prop} (hsymm : ∀ t u, X t u → X u t)
    (hstart : ∀ s c, L s (start c)) (hpair : ∀ c u, X (start c) u)
    (hnext : ∀ s t e, G s → L s t → good s t e → G (next s t e).1 ∧
      L (next s t e).1 (next s t e).2 ∧
      ∀ u, L s u → X t u → L (next s t e).1 u ∧ X (next s t e).2 u)
    {s : Threads σ τ} (hs : s.Holds G L X) {is : List (Turn κ ε)}
    (hgood : StepsMeet (Threads.step start next) (Threads.Meets good) s is) :
    Always (Threads.step start next) (fun s => s.Holds G L X) s is := by
  refine always_of_step ?_ hs hgood
  intro s e h hmeets
  cases e with
  | call c => exact h.call c (hstart s.shared c) fun u => ⟨hpair c u, hsymm _ _ (hpair c u)⟩
  | turn i answer =>
    cases ht : s.threads[i]? with
    | none => simpa [Threads.step, ht] using h
    | some t =>
      obtain ⟨hG, hL, hothers⟩ := hnext s.shared t answer h.shared (h.each i t ht) (hmeets t ht)
      have hstep := h.turn hsymm ht hG hL hothers
      simpa [Threads.step, ht] using hstep

theorem Threads.always_holds {good : σ → τ → ε → Prop} (hsymm : ∀ t u, X t u → X u t)
    (hstart : ∀ s c, L s (start c)) (hpair : ∀ c u, X (start c) u)
    (hnext : ∀ s t e, G s → L s t → good s t e → G (next s t e).1 ∧
      L (next s t e).1 (next s t e).2 ∧
      ∀ u, L s u → X t u → L (next s t e).1 u ∧ X (next s t e).2 u)
    {s : Threads σ τ} (hs : s.Holds G L X) {is : List (Turn κ ε)}
    (hgood : StepsMeet (Threads.step start next) (Threads.Meets good) s is) :
    Always (Threads.step start next) (fun s => G s.shared) s is :=
  (Threads.holds_always hsymm hstart hpair hnext hs hgood).mono fun _ h => h.shared

/-- The rule for threads that need nothing of each other, where a turn moves the shared state
along `Grows` only and `L` is kept along it. -/
theorem Threads.always_grows {good : σ → τ → ε → Prop} {Grows : σ → σ → Prop}
    (hkeep : ∀ s s' u, Grows s s' → L s u → L s' u) (hstart : ∀ s c, L s (start c))
    (hnext : ∀ s t e, G s → L s t → good s t e → G (next s t e).1 ∧
      L (next s t e).1 (next s t e).2 ∧ Grows s (next s t e).1)
    {s : σ} (hs : G s) {is : List (Turn κ ε)}
    (hgood : StepsMeet (Threads.step start next) (Threads.Meets good) (Threads.idle s) is) :
    Always (Threads.step start next) (fun s => G s.shared ∧ ∀ t ∈ s.threads, L s.shared t)
      (Threads.idle s) is := by
  have hall := @Threads.holds_always _ _ _ _ start next G L (fun _ _ => True) good
    (fun _ _ _ => trivial) hstart (fun _ _ => trivial) ?_ _ (Threads.Holds.idle hs) is hgood
  · refine hall.mono fun s h => ⟨h.shared, fun t ht => ?_⟩
    obtain ⟨i, hi⟩ := List.getElem?_of_mem ht
    exact h.each i t hi
  · intro s t e hG hL hmeets
    obtain ⟨hG', hL', hgrows⟩ := hnext s t e hG hL hmeets
    exact ⟨hG', hL', fun u hu _ => ⟨hkeep s _ u hgrows hu, trivial⟩⟩

/-- **The rule for what is owed**: a debt of the shared state is covered by a thread that owes it,
where a statement that leaves a debt owes it itself, or finds it there and leaves it to the thread
that owes it. -/
theorem Threads.always_owed {good : σ → τ → ε → Prop} {debt : σ → Prop} {owes : τ → Prop}
    (hdebt : ∀ s t e, G s → L s t → good s t e → debt (next s t e).1 →
      owes (next s t e).2 ∨ debt s ∧ ¬ owes t)
    {s : Threads σ τ} {is : List (Turn κ ε)}
    (hall : Always (Threads.step start next) (fun s => s.Holds G L X) s is)
    (hgood : StepsMeet (Threads.step start next) (Threads.Meets good) s is)
    (howed : debt s.shared → ∃ t ∈ s.threads, owes t) :
    Always (Threads.step start next)
      (fun s => s.Holds G L X ∧ (debt s.shared → ∃ t ∈ s.threads, owes t)) s is := by
  induction is generalizing s with
  | nil => exact ⟨hall, howed⟩
  | cons e is ih =>
    refine ⟨⟨hall.1, howed⟩, ih hall.2 hgood.2 fun h => ?_⟩
    cases e with
    | call c =>
      obtain ⟨t, ht, hower⟩ := howed h
      exact ⟨t, List.mem_append_left _ ht, hower⟩
    | turn i answer =>
      cases ht : s.threads[i]? with
      | none =>
        simp only [Threads.step, ht] at h ⊢
        exact howed h
      | some t =>
        have hstep : s.step start next (.turn i answer) =
            ⟨(next s.shared t answer).1, s.threads.set i (next s.shared t answer).2⟩ := by
          simp only [Threads.step, ht]
        rw [hstep] at h ⊢
        obtain ⟨hlt, hget⟩ := List.getElem?_eq_some_iff.1 ht
        rcases hdebt s.shared t answer hall.1.shared (hall.1.each i t ht) (hgood.1 t ht) h with
          hower | ⟨hold, hnot⟩
        · refine ⟨_, List.mem_of_getElem? (i := i) ?_, hower⟩
          exact List.getElem?_set_self hlt
        · obtain ⟨u, hu, hower⟩ := howed hold
          obtain ⟨j, hj, rfl⟩ := List.getElem_of_mem hu
          have hne : i ≠ j := by
            rintro rfl
            exact hnot (hget ▸ hower)
          refine ⟨_, List.mem_of_getElem? (i := j) ?_, hower⟩
          rw [List.getElem?_set_ne hne]
          exact List.getElem?_eq_getElem hj

/-! ### Conditions on single statements -/

theorem Threads.Holds.step {s : Threads σ τ} (h : s.Holds G L X)
    (hall : ∀ (s : Threads σ τ) (is : List (Turn κ ε)), s.Holds G L X →
      Always (Threads.step start next) (fun s => s.Holds G L X) s is) (e : Turn κ ε) :
    (s.step start next e).Holds G L X := (hall s [e] h).last

/-- Where the threads keep an invariant in every run, and a statement leaves a property `own` of the
shared state just when it meets `good`, a run has the property all along just when all its
statements meet `good`. -/
theorem Threads.always_iff_meets {good : σ → τ → ε → Prop} {own : σ → Prop}
    (hall : ∀ (s : Threads σ τ) (is : List (Turn κ ε)), s.Holds G L X →
      Always (Threads.step start next) (fun s => s.Holds G L X) s is)
    (hkeep : ∀ s t e, G s → L s t → own s → good s t e → own (next s t e).1)
    (hbreak : ∀ s t e, G s → L s t → ¬ good s t e → ¬ own (next s t e).1)
    {s : Threads σ τ} (hs : s.Holds G L X) (hown : own s.shared) (is : List (Turn κ ε)) :
    Always (Threads.step start next) (fun s => own s.shared) s is ↔
      StepsMeet (Threads.step start next) (Threads.Meets good) s is := by
  refine always_iff_stepsMeet (I := fun s : Threads σ τ => s.Holds G L X ∧ own s.shared)
    (fun s h => h.2) ?_ ?_ ⟨hs, hown⟩ is
  · rintro s e ⟨h, hown⟩ hmeets
    refine ⟨h.step hall e, ?_⟩
    cases e with
    | call c => exact hown
    | turn i answer =>
      cases ht : s.threads[i]? with
      | none => simpa [Threads.step, ht] using hown
      | some t =>
        have hnext := hkeep s.shared t answer h.shared (h.each i t ht) hown (hmeets t ht)
        simpa [Threads.step, ht] using hnext
  · rintro s e ⟨h, _⟩ hbad
    cases e with
    | call c => exact absurd trivial hbad
    | turn i answer =>
      cases ht : s.threads[i]? with
      | none =>
        refine absurd (fun t hget => ?_) hbad
        rw [ht] at hget
        cases hget
      | some t =>
        have hgood : ¬ good s.shared t answer := by
          intro hgood
          refine hbad fun u hget => ?_
          rw [ht] at hget
          cases hget
          exact hgood
        have hnext := hbreak s.shared t answer h.shared (h.each i t ht) hgood
        simpa [Threads.step, ht] using hnext

/-! ### Row locks -/

/-- What a statement does to the locks: its call takes none that is taken, has what it took, and
leaves the others theirs. -/
structure Threads.KeepsLocks {ρ : Type*} (holds : τ → ρ → Prop) (locked : σ → ρ → Prop) (s : σ)
    (t : τ) (s' : σ) (t' : τ) : Prop where
  taken : ∀ k, holds t' k → holds t k ∨ ¬ locked s k
  held : (∀ k, holds t k → locked s k) → ∀ k, holds t' k → locked s' k
  kept : ∀ k, locked s k → ¬ holds t k → locked s' k

/-- **The rule for row locks**: no two calls hold the lock of one row, and a call may rely on what
only the holders of its locks change. -/
theorem Threads.holds_locked {ρ : Type*} {good : σ → τ → ε → Prop} (holds : τ → ρ → Prop)
    (locked : σ → ρ → Prop) (hstart : ∀ s c, L s (start c)) (hfree : ∀ c k, ¬ holds (start c) k)
    (hnext : ∀ s t e, G s → L s t → (∀ k, holds t k → locked s k) → good s t e →
      G (next s t e).1 ∧ L (next s t e).1 (next s t e).2 ∧
      Threads.KeepsLocks holds locked s t (next s t e).1 (next s t e).2 ∧
      ∀ u, L s u → (∀ k, holds t k → ¬ holds u k) → L (next s t e).1 u)
    {s : Threads σ τ}
    (hs : s.Holds G (fun s t => L s t ∧ ∀ k, holds t k → locked s k)
      fun t u => ∀ k, holds t k → ¬ holds u k)
    {is : List (Turn κ ε)}
    (hgood : StepsMeet (Threads.step start next) (Threads.Meets good) s is) :
    Always (Threads.step start next)
      (fun s => s.Holds G (fun s t => L s t ∧ ∀ k, holds t k → locked s k)
        fun t u => ∀ k, holds t k → ¬ holds u k) s is := by
  refine Threads.holds_always (fun t u h k hu ht => h k ht hu) ?_ ?_ ?_ hs hgood
  · exact fun s c => ⟨hstart s c, fun k hk => absurd hk (hfree c k)⟩
  · exact fun c u k hk => absurd hk (hfree c k)
  · rintro s t e hG ⟨hL, hlocked⟩ hmeets
    obtain ⟨hG', hL', hlocks, hothers⟩ := hnext s t e hG hL hlocked hmeets
    refine ⟨hG', ⟨hL', hlocks.held hlocked⟩, ?_⟩
    rintro u ⟨hu, hulocked⟩ hapart
    refine ⟨⟨hothers u hu hapart, fun k hk => ?_⟩, fun k hk huk => ?_⟩
    · exact hlocks.kept k (hulocked k hk) fun ht => hapart k ht hk
    · rcases hlocks.taken k hk with ht | hfree
      · exact hapart k ht huk
      · exact hfree (hulocked k huk)

/-! ### Totals -/

/-- The sum of a weight over the threads. -/
def Threads.total (weight : τ → ℤ) (s : Threads σ τ) : ℤ := (s.threads.map weight).sum

@[simp] theorem Threads.total_idle (weight : τ → ℤ) (s : σ) :
    (Threads.idle s : Threads σ τ).total weight = 0 := rfl

theorem Threads.total_call (weight : τ → ℤ) (s : Threads σ τ) (c : κ) :
    (s.step start next (.call c)).total weight = s.total weight + weight (start c) := by
  simp [Threads.total, Threads.step]

theorem Threads.total_turn (weight : τ → ℤ) {s : Threads σ τ} {i : ℕ} {t : τ}
    (ht : s.threads[i]? = some t) (answer : ε) :
    (s.step start next (.turn i answer)).total weight =
      s.total weight - weight t + weight (next s.shared t answer).2 := by
  obtain ⟨hlt, hget⟩ := List.getElem?_eq_some_iff.1 ht
  simp only [Threads.total, Threads.step, ht, List.map_set]
  rw [List.sum_set', dif_pos (by simpa using hlt)]
  simp only [List.getElem_map, hget]
  omega

theorem Threads.weight_le_total {weight : τ → ℤ} (hweight : ∀ t, 0 ≤ weight t)
    {s : Threads σ τ} {i : ℕ} {t : τ} (ht : s.threads[i]? = some t) :
    weight t ≤ s.total weight := by
  refine List.single_le_sum ?_ (weight t)
    (List.mem_map_of_mem (List.mem_of_getElem? ht))
  intro w hw
  obtain ⟨u, _, rfl⟩ := List.mem_map.1 hw
  exact hweight u

/-- **The rule for totals**: where every turn moves a quantity of the shared state by as much as the
weight of its thread, the quantity is the total all along, and an invariant may rely on it. -/
theorem Threads.always_total {good : σ → τ → ε → Prop} (weight : τ → ℤ) (quantity : σ → ℤ)
    (hweight : ∀ t, 0 ≤ weight t) (hstart : ∀ c, weight (start c) = 0)
    (hmove : ∀ s t e, quantity (next s t e).1 =
      quantity s - weight t + weight (next s t e).2)
    (hnext : ∀ s t e, G s → weight t ≤ quantity s → good s t e → G (next s t e).1)
    {s : σ} (hs : G s) (hzero : quantity s = 0) {is : List (Turn κ ε)}
    (hgood : StepsMeet (Threads.step start next) (Threads.Meets good) (Threads.idle s) is) :
    Always (Threads.step start next) (fun s => G s.shared ∧ quantity s.shared = s.total weight)
      (Threads.idle s) is := by
  refine always_of_step ?_ ⟨hs, hzero.trans (Threads.total_idle weight s).symm⟩ hgood
  intro s e h hmeets
  cases e with
  | call c => exact ⟨h.1, by rw [Threads.total_call, hstart c, ← h.2]; simp [Threads.step]⟩
  | turn i answer =>
    cases ht : s.threads[i]? with
    | none => simpa [Threads.step, ht] using h
    | some t =>
      have hle : weight t ≤ quantity s.shared := h.2 ▸ Threads.weight_le_total hweight ht
      refine ⟨?_, ?_⟩
      · simpa [Threads.step, ht] using hnext s.shared t answer h.1 hle (hmeets t ht)
      · rw [Threads.total_turn weight ht, ← h.2, ← hmove]
        simp [Threads.step, ht]

/-! ### One holder -/

/-- **The rule for an exclusive claim**: at most one thread `holds` it.  A statement may rely on no
other thread holding the claim when its own does, and takes it only when nobody has it. -/
theorem Threads.always_exclusive {good : σ → τ → ε → Prop} (holds : τ → Bool)
    (hstart : ∀ s c, L s (start c) ∧ holds (start c) = false)
    (hnext : ∀ s t e, G s → L s t → good s t e → G (next s t e).1 ∧
      L (next s t e).1 (next s t e).2 ∧
      (∀ u, L s u → (holds t = true → holds u = false) → L (next s t e).1 u) ∧
      (holds (next s t e).2 = true → holds t = true ∨ ∀ u, L s u → holds u = false))
    {s : σ} (hs : G s) {is : List (Turn κ ε)}
    (hgood : StepsMeet (Threads.step start next) (Threads.Meets good) (Threads.idle s) is) :
    Always (Threads.step start next) (fun s => G s.shared) (Threads.idle s) is := by
  refine @Threads.always_holds σ τ κ ε start next G L
    (fun t u => ¬ (holds t = true ∧ holds u = true)) good ?_ ?_ ?_ ?_ _ (Threads.Holds.idle hs) is
    hgood
  · exact fun t u h hut => h hut.symm
  · exact fun s c => (hstart s c).1
  · intro c u h
    rw [(hstart s c).2] at h
    exact Bool.false_ne_true h.1
  · intro s t e hG hL hmeets
    obtain ⟨hG', hL', hothers, htakes⟩ := hnext s t e hG hL hmeets
    refine ⟨hG', hL', ?_⟩
    intro u hu hapart
    refine ⟨hothers u hu ?_, ?_⟩
    · intro ht
      rw [← Bool.not_eq_true]
      exact fun hhold => hapart ⟨ht, hhold⟩
    · rintro ⟨ht', hhold⟩
      rcases htakes ht' with ht | hnone
      · exact hapart ⟨ht, hhold⟩
      · rw [hnone u hu] at hhold
        exact Bool.false_ne_true hhold

end Vigabss.Lib
