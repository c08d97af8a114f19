import Mathlib.Algebra.Order.BigOperators.Group.List
import Mathlib.Tactic.Linarith
import Mathlib.Tactic.Ring

/-!
# Vigabss.Lib.LargestRemainder — one more for some of the parts

Units that are handed out one by one to chosen positions of a list, and what the remainders of a
division say about how many there are to hand out.
-/

namespace Vigabss.Lib

/-! ### Handing out -/

/-- One more at each of the positions. -/
def bump (parts : List ℤ) (positions : List ℕ) : List ℤ :=
  positions.foldl (fun parts i => parts.modify i (· + 1)) parts

@[simp] theorem bump_nil (parts : List ℤ) : bump parts [] = parts := rfl

theorem bump_cons (parts : List ℤ) (i : ℕ) (positions : List ℕ) :
    bump parts (i :: positions) = bump (parts.modify i (· + 1)) positions := rfl

@[simp] theorem length_bump (parts : List ℤ) (positions : List ℕ) :
    (bump parts positions).length = parts.length := by
  induction positions generalizing parts with
  | nil => rfl
  | cons i positions ih => rw [bump_cons, ih, List.length_modify]

theorem getElem?_bump {positions : List ℕ} (hnodup : positions.Nodup) (parts : List ℤ) (j : ℕ) :
    (bump parts positions)[j]? = parts[j]?.map (· + if j ∈ positions then 1 else 0) := by
  induction positions generalizing parts with
  | nil => simp
  | cons i positions ih =>
    obtain ⟨hnot, hnodup⟩ := List.nodup_cons.1 hnodup
    rw [bump_cons, ih hnodup, List.getElem?_modify]
    by_cases hij : i = j
    · subst hij
      simp [hnot, Function.comp_def]
    · have hji : ¬ j = i := fun h => hij h.symm
      simp [hij, hji]

theorem sum_modify_succ {parts : List ℤ} {i : ℕ} (hi : i < parts.length) :
    (parts.modify i (· + 1)).sum = parts.sum + 1 := by
  induction parts generalizing i with
  | nil => exact absurd hi (Nat.not_lt_zero i)
  | cons x parts ih =>
    cases i with
    | zero =>
      rw [List.modify_zero_cons, List.sum_cons, List.sum_cons]
      ring
    | succ i =>
      rw [List.modify_succ_cons, List.sum_cons, List.sum_cons, ih (Nat.lt_of_succ_lt_succ hi)]
      ring

theorem sum_bump {parts : List ℤ} {positions : List ℕ} (h : ∀ i ∈ positions, i < parts.length) :
    (bump parts positions).sum = parts.sum + positions.length := by
  induction positions generalizing parts with
  | nil => simp
  | cons i positions ih =>
    rw [List.forall_mem_cons] at h
    rw [bump_cons, ih fun k hk => by rw [List.length_modify]; exact h.2 k hk,
      sum_modify_succ h.1, List.length_cons]
    push_cast
    ring

theorem forall₂_iff_getElem? {α β : Type*} {R : α → β → Prop} {l : List α} {m : List β} :
    List.Forall₂ R l m ↔ l.length = m.length ∧
      ∀ (j : ℕ) a b, l[j]? = some a → m[j]? = some b → R a b := by
  rw [List.forall₂_iff_get]
  refine and_congr_right fun hlen => ⟨fun h j a b ha hb => ?_, fun h j hj hj' => ?_⟩
  · obtain ⟨hj, rfl⟩ := List.getElem?_eq_some_iff.1 ha
    obtain ⟨hj', rfl⟩ := List.getElem?_eq_some_iff.1 hb
    exact h j hj hj'
  · exact h j _ _ (List.getElem?_eq_getElem hj) (List.getElem?_eq_getElem hj')

/-! ### Remainders -/

theorem abs_sum_le {S : ℤ} {l : List ℤ} (h : ∀ r ∈ l, |r| < |S|) : |l.sum| ≤ l.length * |S| := by
  induction l with
  | nil => simp
  | cons r l ih =>
    rw [List.forall_mem_cons] at h
    have htail := ih h.2
    have habs := abs_add_le r l.sum
    rw [List.sum_cons, List.length_cons]
    push_cast
    linarith [h.1]

theorem take_pos {S : ℤ} (hS : 0 < S) {l : List ℤ} (hsorted : l.Pairwise fun a b => b ≤ a)
    (hlt : ∀ r ∈ l, r < S) (k : ℕ) (hsum : S * (k - 1) < l.sum) : ∀ r ∈ l.take k, 0 < r := by
  induction l generalizing k with
  | nil => simp
  | cons r l ih =>
    cases k with
    | zero => simp
    | succ k =>
      rw [List.pairwise_cons] at hsorted
      rw [List.forall_mem_cons] at hlt
      rw [List.sum_cons] at hsum
      push_cast at hsum
      have hnonneg : 0 ≤ S * (k : ℤ) := mul_nonneg hS.le (Int.natCast_nonneg k)
      have hr : 0 < r := by
        by_contra hneg
        have hrest : l.sum ≤ l.length • 0 := List.sum_le_card_nsmul l 0 fun a ha => by
          have := hsorted.1 a ha
          omega
        rw [nsmul_zero] at hrest
        have : S * ((k : ℤ) + 1 - 1) = S * k := by ring
        omega
      rw [List.take_succ_cons, List.forall_mem_cons]
      refine ⟨hr, ih hsorted.2 hlt.2 k ?_⟩
      have h₁ : S * ((k : ℤ) + 1 - 1) = S * k := by ring
      have h₂ : S * ((k : ℤ) - 1) = S * k - S := by ring
      have := hlt.1
      omega

/-- A part that is rounded the other way is within one of its exact share just when the remainder
has the sign of the divisor. -/
theorem abs_sub_lt_iff {S r : ℤ} (h : |r| < |S|) : |S - r| < |S| ↔ 0 < S * r := by
  rcases lt_trichotomy S 0 with hS | rfl | hS
  · rw [abs_of_neg hS, abs_lt] at *
    constructor
    · exact fun hdiff => mul_pos_of_neg_of_neg hS (by omega)
    · intro hpos
      have := neg_of_mul_pos_right hpos hS.le
      omega
  · simp at h
    have := abs_nonneg r
    omega
  · rw [abs_of_pos hS, abs_lt] at *
    constructor
    · exact fun hdiff => mul_pos hS (by omega)
    · intro hpos
      have := pos_of_mul_pos_right hpos hS.le
      omega

end Vigabss.Lib
