import Mathlib.Algebra.BigOperators.Ring.List
import Mathlib.Data.List.Sort
import Vigabss.Lib.LargestRemainder
import Vigabss.Lib.Money

/-!
# Vigabss.Billing.Shares — a total split in proportion

`money.allocate` rounds each share toward zero and hands the cents that are left to the shares with
the largest remainders.  Shares that are rounded up toward zero leave less than nothing, which
nobody takes back.
-/

namespace Vigabss.Billing

open Vigabss.Lib

/-! ### The split -/

/-- A share's remainder, with the place of the share. -/
structure Remainder where
  i : ℕ
  rem : ℤ

/-- `b.rem > a.rem ? 1 : b.rem < a.rem ? -1 : a.i - b.i`. -/
def largerFirst (a b : Remainder) : Prop := b.rem < a.rem ∨ b.rem = a.rem ∧ a.i ≤ b.i

instance : DecidableRel largerFirst := fun _ _ => inferInstanceAs (Decidable (_ ∨ _))

/-- The loop over `order`. -/
def handOut : List Remainder → ℤ → List ℤ → List ℤ
  | [], _, parts => parts
  | x :: order, left, parts =>
    if left ≤ 0 then parts else handOut order (left - 1) (parts.modify x.i (· + 1))

/-- The remainders of the shares, largest first. -/
def remainderOrder (shares : List ℤ) (sum : ℤ) : List Remainder :=
  (shares.zipIdx.map fun s => ⟨s.2, s.1.tmod sum⟩).insertionSort largerFirst

/-- `money.allocate(total, weights)`, in cents. -/
def Money.allocate (total : ℚ) (weights : List ℚ) : List ℤ :=
  let totalCents := cents total
  let w := weights.map cents
  let sum := w.sum
  if sum = 0 then weights.map fun _ => 0
  else
    let shares := w.map (totalCents * ·)
    let floors := shares.map (·.tdiv sum)
    handOut (remainderOrder shares sum) (totalCents - floors.sum) floors

/-! ### What a split should be -/

/-- The parts add up to the total, and each is less than a cent from its exact share. -/
structure FairSplit (total : ℚ) (weights : List ℚ) (parts : List ℤ) : Prop where
  adds : parts.sum = cents total
  near : List.Forall₂ (fun (part : ℤ) weight =>
    |(part : ℚ) - cents total * cents weight / (weights.map cents).sum| < 1) parts weights

/-- What the exact shares have beyond their whole cents does not add up to less than nothing; where
the weights add up to less than nothing, it is nothing, or each share has some. -/
def RemaindersFit (total : ℚ) (weights : List ℚ) : Prop :=
  let sum := (weights.map cents).sum
  let rems := weights.map fun x => (cents total * cents x).tmod sum
  if 0 < sum then 0 ≤ rems.sum else rems.sum = 0 ∨ ∀ r ∈ rems, r < 0

/-! ### The loop -/

section Loop

theorem handOut_eq (order : List Remainder) (left : ℤ) (parts : List ℤ) :
    handOut order left parts = bump parts ((order.take left.toNat).map Remainder.i) := by
  induction order generalizing left parts with
  | nil => simp [handOut]
  | cons x order ih =>
    rw [handOut]
    split_ifs with hleft
    · rw [Int.toNat_of_nonpos hleft]
      rfl
    · obtain ⟨n, rfl⟩ : ∃ n : ℕ, left = n + 1 := ⟨(left - 1).toNat, by omega⟩
      rw [ih, show ((n : ℤ) + 1).toNat = n + 1 by omega, List.take_succ_cons, List.map_cons,
        bump_cons]
      congr 3
      omega

theorem remainderOrder_perm (shares : List ℤ) (sum : ℤ) :
    (remainderOrder shares sum).Perm (shares.zipIdx.map fun s => ⟨s.2, s.1.tmod sum⟩) :=
  List.perm_insertionSort _ _

theorem places_perm (shares : List ℤ) (sum : ℤ) :
    ((remainderOrder shares sum).map Remainder.i).Perm (List.range shares.length) := by
  refine ((remainderOrder_perm shares sum).map _).trans (List.Perm.of_eq ?_)
  rw [List.map_map, List.range_eq_range', ← List.zipIdx_map_snd 0 shares]
  rfl

theorem rems_perm (shares : List ℤ) (sum : ℤ) :
    ((remainderOrder shares sum).map Remainder.rem).Perm (shares.map (·.tmod sum)) := by
  refine ((remainderOrder_perm shares sum).map _).trans (List.Perm.of_eq ?_)
  rw [List.map_map]
  conv_rhs => rw [← List.zipIdx_map_fst 0 shares, List.map_map]
  rfl

theorem rem_of_mem {shares : List ℤ} {sum : ℤ} {x : Remainder}
    (hx : x ∈ remainderOrder shares sum) : ∃ s, shares[x.i]? = some s ∧ x.rem = s.tmod sum := by
  obtain ⟨⟨s, i⟩, hs, rfl⟩ := List.mem_map.1 ((remainderOrder_perm shares sum).mem_iff.1 hx)
  exact ⟨s, List.mem_zipIdx_iff_getElem?.1 hs, rfl⟩

theorem rems_sorted (shares : List ℤ) (sum : ℤ) :
    ((remainderOrder shares sum).map Remainder.rem).Pairwise fun a b => b ≤ a := by
  have htotal : Std.Total largerFirst := ⟨fun a b => by
    simp only [largerFirst]
    omega⟩
  have htrans : IsTrans Remainder largerFirst := ⟨fun a b c hab hbc => by
    simp only [largerFirst] at *
    omega⟩
  refine List.pairwise_map.2 ((List.pairwise_insertionSort largerFirst _).imp fun {a b} h => ?_)
  rcases h with h | h
  · exact h.le
  · exact h.1.le

end Loop

/-! ### The parts -/

section Parts

variable {shares : List ℤ} {sum total : ℤ}

theorem sum_tmod (shares : List ℤ) (sum : ℤ) :
    (shares.map (·.tmod sum)).sum = shares.sum - sum * (shares.map (·.tdiv sum)).sum := by
  induction shares with
  | nil => simp
  | cons s shares ih =>
    have hs := Int.mul_tdiv_add_tmod s sum
    rw [List.map_cons, List.map_cons, List.sum_cons, List.sum_cons, List.sum_cons, ih, mul_add]
    omega

theorem abs_tmod_lt (hsum : sum ≠ 0) (s : ℤ) : |s.tmod sum| < |sum| := by
  rw [Int.abs_eq_natAbs, Int.abs_eq_natAbs, Int.natAbs_tmod]
  exact_mod_cast Nat.mod_lt _ (Int.natAbs_pos.2 hsum)

theorem mul_left_eq (hshares : shares.sum = total * sum) :
    sum * (total - (shares.map (·.tdiv sum)).sum) = (shares.map (·.tmod sum)).sum := by
  rw [sum_tmod, hshares]
  ring

theorem left_le (hsum : sum ≠ 0) (hshares : shares.sum = total * sum) :
    |total - (shares.map (·.tdiv sum)).sum| ≤ shares.length := by
  have hle : |(shares.map (·.tmod sum)).sum| ≤ (shares.map (·.tmod sum)).length * |sum| := by
    refine abs_sum_le fun r hr => ?_
    obtain ⟨s, -, rfl⟩ := List.mem_map.1 hr
    exact abs_tmod_lt hsum s
  rw [← mul_left_eq hshares, abs_mul, List.length_map, mul_comm] at hle
  exact le_of_mul_le_mul_right hle (abs_pos.2 hsum)

/-- What the loop makes of the shares. -/
def partsOf (shares : List ℤ) (sum total : ℤ) : List ℤ :=
  handOut (remainderOrder shares sum) (total - (shares.map (·.tdiv sum)).sum)
    (shares.map (·.tdiv sum))

/-- The shares that get a cent more. -/
def taken (shares : List ℤ) (sum total : ℤ) : List Remainder :=
  (remainderOrder shares sum).take (total - (shares.map (·.tdiv sum)).sum).toNat

theorem partsOf_eq (shares : List ℤ) (sum total : ℤ) : partsOf shares sum total =
    bump (shares.map (·.tdiv sum)) ((taken shares sum total).map Remainder.i) :=
  handOut_eq _ _ _

theorem taken_sublist (shares : List ℤ) (sum total : ℤ) :
    ((taken shares sum total).map Remainder.i).Sublist
      ((remainderOrder shares sum).map Remainder.i) :=
  (List.take_sublist _ _).map _

theorem taken_nodup (shares : List ℤ) (sum total : ℤ) :
    ((taken shares sum total).map Remainder.i).Nodup :=
  (taken_sublist shares sum total).nodup
    ((places_perm shares sum).nodup_iff.2 List.nodup_range)

theorem length_taken (hsum : sum ≠ 0) (hshares : shares.sum = total * sum) :
    (taken shares sum total).length = (total - (shares.map (·.tdiv sum)).sum).toNat := by
  have hle := left_le hsum hshares
  have hlen : (remainderOrder shares sum).length = shares.length := by
    rw [(remainderOrder_perm shares sum).length_eq, List.length_map, List.length_zipIdx]
  rw [taken, List.length_take, hlen]
  have := abs_le.1 hle
  omega

theorem sum_partsOf (hsum : sum ≠ 0) (hshares : shares.sum = total * sum) :
    (partsOf shares sum total).sum = total ↔ 0 ≤ total - (shares.map (·.tdiv sum)).sum := by
  rw [partsOf_eq, sum_bump, List.length_map, length_taken hsum hshares]
  · omega
  · intro i hi
    rw [List.length_map]
    exact List.mem_range.1
      ((places_perm shares sum).mem_iff.1 ((taken_sublist shares sum total).mem hi))

theorem getElem?_partsOf (shares : List ℤ) (sum total : ℤ) (j : ℕ) :
    (partsOf shares sum total)[j]? = shares[j]?.map fun s => s.tdiv sum +
      if j ∈ (taken shares sum total).map Remainder.i then 1 else 0 := by
  rw [partsOf_eq, getElem?_bump (taken_nodup shares sum total), List.getElem?_map, Option.map_map]
  rfl

/-- Every part is near its share just when those that get a cent more have a remainder of the sign
of the sum. -/
theorem near_iff (hsum : sum ≠ 0) (shares : List ℤ) (total : ℤ) :
    (∀ (j : ℕ) s p, shares[j]? = some s → (partsOf shares sum total)[j]? = some p →
      |sum * p - s| < |sum|) ↔ ∀ x ∈ taken shares sum total, 0 < sum * x.rem := by
  have hdiff : ∀ s k : ℤ, sum * (s.tdiv sum + k) - s = sum * k - s.tmod sum := by
    intro s k
    have := Int.mul_tdiv_add_tmod s sum
    rw [mul_add]
    omega
  constructor
  · intro h x hx
    obtain ⟨s, hs, hrem⟩ := rem_of_mem (List.mem_of_mem_take hx)
    have hnear := h x.i s (s.tdiv sum + 1) hs (by
      rw [getElem?_partsOf, hs, Option.map_some, if_pos (List.mem_map_of_mem hx)])
    rw [hdiff, mul_one, abs_sub_lt_iff (abs_tmod_lt hsum s)] at hnear
    rw [hrem]
    exact hnear
  · intro h j s p hs hp
    rw [getElem?_partsOf, hs, Option.map_some, Option.some.injEq] at hp
    obtain rfl := hp
    rw [hdiff]
    split_ifs with hj
    · obtain ⟨x, hx, rfl⟩ := List.mem_map.1 hj
      obtain ⟨s', hs', hrem⟩ := rem_of_mem (List.mem_of_mem_take hx)
      obtain rfl : s = s' := Option.some.inj (hs.symm.trans hs')
      rw [mul_one, abs_sub_lt_iff (abs_tmod_lt hsum s), ← hrem]
      exact h x hx
    · rw [mul_zero, zero_sub, abs_neg]
      exact abs_tmod_lt hsum s

/-- The cents that are left are handed out well just when the remainders fit. -/
theorem handed_iff (hsum : sum ≠ 0) (hshares : shares.sum = total * sum) :
    (0 ≤ total - (shares.map (·.tdiv sum)).sum ∧
        ∀ x ∈ taken shares sum total, 0 < sum * x.rem) ↔
      if 0 < sum then 0 ≤ (shares.map (·.tmod sum)).sum
      else (shares.map (·.tmod sum)).sum = 0 ∨ ∀ r ∈ shares.map (·.tmod sum), r < 0 := by
  have hmul := mul_left_eq hshares
  rw [taken]
  generalize total - (shares.map (·.tdiv sum)).sum = left at hmul ⊢
  have hperm := rems_perm shares sum
  rw [← hmul]
  split_ifs with hpos
  · rw [mul_nonneg_iff_of_pos_left hpos]
    refine and_iff_left_of_imp fun hleft x hx => mul_pos hpos ?_
    refine take_pos hpos (rems_sorted shares sum) (fun r hr => ?_) left.toNat ?_ x.rem ?_
    · obtain ⟨s, -, rfl⟩ := List.mem_map.1 (hperm.mem_iff.1 hr)
      exact Int.tmod_lt_of_pos s hpos
    · rw [hperm.sum_eq, ← hmul, Int.toNat_of_nonneg hleft]
      have : sum * (left - 1) = sum * left - sum := by ring
      omega
    · rw [← List.map_take]
      exact List.mem_map_of_mem hx
  · have hneg : sum < 0 := by omega
    rw [mul_eq_zero, or_iff_right hsum]
    constructor
    · rintro ⟨hleft, htaken⟩
      rcases hleft.eq_or_lt with rfl | hleft
      · exact .inl rfl
      · refine .inr fun r hr => ?_
        obtain ⟨y, hy, rfl⟩ := List.mem_map.1 (hperm.mem_iff.2 hr)
        obtain ⟨n, hn⟩ : ∃ n, left.toNat = n + 1 := ⟨left.toNat - 1, by omega⟩
        rw [hn] at htaken
        have hsorted := rems_sorted shares sum
        generalize remainderOrder shares sum = order at htaken hsorted hy
        cases order with
        | nil => cases hy
        | cons x order =>
          rw [List.map_cons, List.pairwise_cons] at hsorted
          have hx : x.rem < 0 := neg_of_mul_pos_right
            (htaken x (by rw [List.take_succ_cons]; exact List.mem_cons_self)) hneg.le
          rcases List.mem_cons.1 hy with rfl | hy
          · exact hx
          · exact (hsorted.1 y.rem (List.mem_map_of_mem hy)).trans_lt hx
    · rintro (rfl | hall)
      · exact ⟨le_rfl, fun x hx => absurd hx (by simp)⟩
      · have hrem : ∀ x ∈ remainderOrder shares sum, x.rem < 0 := fun x hx =>
          hall x.rem (hperm.mem_iff.1 (List.mem_map_of_mem hx))
        refine ⟨?_, fun x hx => mul_pos_of_neg_of_neg hneg (hrem x (List.mem_of_mem_take hx))⟩
        have hle := List.sum_le_card_nsmul _ 0 fun r hr => (hall r hr).le
        rw [nsmul_zero, ← hmul] at hle
        exact nonneg_of_mul_nonpos_right hle hneg

end Parts

/-! ### Fair splits -/

section Fair

variable {total : ℚ} {weights : List ℚ}

theorem near_share_iff {S : ℤ} (hS : S ≠ 0) (p s : ℤ) :
    |(p : ℚ) - s / S| < 1 ↔ |S * p - s| < |S| := by
  have hS' : (S : ℚ) ≠ 0 := Int.cast_ne_zero.2 hS
  have hdiff : (p : ℚ) - s / S = (S * p - s) / S := by
    rw [sub_div, mul_div_cancel_left₀ _ hS']
  rw [hdiff, abs_div, div_lt_one (abs_pos.2 hS')]
  exact_mod_cast Iff.rfl

theorem length_partsOf (shares : List ℤ) (sum total : ℤ) :
    (partsOf shares sum total).length = shares.length := by
  rw [partsOf_eq, length_bump, List.length_map]

/-- The shares of the code. -/
def sharesOf (total : ℚ) (weights : List ℚ) : List ℤ :=
  (weights.map cents).map (cents total * ·)

theorem sum_sharesOf (total : ℚ) (weights : List ℚ) :
    (sharesOf total weights).sum = cents total * (weights.map cents).sum :=
  by rw [sharesOf, List.sum_map_mul_left, List.map_id']

theorem allocate_eq (h : (weights.map cents).sum ≠ 0) : Money.allocate total weights =
    partsOf (sharesOf total weights) (weights.map cents).sum (cents total) :=
  if_neg h

theorem forall₂_near_iff (h : (weights.map cents).sum ≠ 0) :
    List.Forall₂ (fun (part : ℤ) weight =>
        |(part : ℚ) - cents total * cents weight / (weights.map cents).sum| < 1)
      (Money.allocate total weights) weights ↔
    ∀ (j : ℕ) s p, (sharesOf total weights)[j]? = some s →
      (partsOf (sharesOf total weights) (weights.map cents).sum (cents total))[j]? = some p →
        |(weights.map cents).sum * p - s| < |(weights.map cents).sum| := by
  rw [forall₂_iff_getElem?, allocate_eq h]
  refine (and_iff_right ?_).trans ?_
  · rw [length_partsOf, sharesOf, List.length_map, List.length_map]
  · have hshare : ∀ (j : ℕ) s, (sharesOf total weights)[j]? = some s ↔
        ∃ weight, weights[j]? = some weight ∧ cents total * cents weight = s := by
      intro j s
      rw [sharesOf, List.getElem?_map, List.getElem?_map, Option.map_map,
        Option.map_eq_some_iff]
      rfl
    constructor
    · intro hnear j s p hs hp
      obtain ⟨weight, hweight, rfl⟩ := (hshare j s).1 hs
      rw [← near_share_iff h]
      exact_mod_cast hnear j p weight hp hweight
    · intro hnear j p weight hp hweight
      have := (near_share_iff h _ _).2
        (hnear j _ p ((hshare j _).2 ⟨weight, hweight, rfl⟩) hp)
      exact_mod_cast this

end Fair

end Vigabss.Billing
