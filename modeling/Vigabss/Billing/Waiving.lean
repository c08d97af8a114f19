import Mathlib.Algebra.BigOperators.Ring.Finset
import Mathlib.Algebra.Order.BigOperators.Group.List
import Vigabss.Billing.Overage
import Vigabss.Lib.Run

/-!
# Vigabss.Billing.Waiving — how often a gigabyte is waived

A contract buys packs, accrues rollover and is invoiced period by period.  No invoice records which
gigabytes it has waived, so a pack that is valid in two periods and the rollover of the last three
months are counted again.  `waived_le_granted`: while no invoice counts what an earlier one has
counted, no more is waived than was bought and accrued.
-/

namespace Vigabss.Billing

open Vigabss.Lib

/-! ### Runs -/

/-- The packs and the rollover of a contract, and a record beside them: what the invoices have
waived, which packs and months they counted for it, and the most that each month has held. -/
structure Allowances where
  purchases : List Purchase
  rollover : List RolloverRow
  waived : ℤ
  drawnPacks : List ℕ
  drawnMonths : List ℤ
  accrued : ℤ → ℕ

/-- An event in the life of a contract; an invoice comes with the usage of its period. -/
inductive AllowanceEvent where
  | purchase (id : ℕ) (activatedAt validityMs : ℤ) (dataGb : ℕ)
  | cancel (purchaseId : ℕ)
  | accrue (billingMonth : ℤ) (rolloverGb : ℕ)
  | consume (currentMonth : ℤ) (gb : ℕ)
  | invoice (windowStart windowEnd : ℤ) (usage : Option UsageRow)

/-- The packs that an invoice counts. -/
def countedPacks (s : Allowances) (windowStart windowEnd : ℤ) : List ℕ :=
  (s.purchases.filter fun p => p.counts windowStart windowEnd).map Purchase.id

/-- The months of rollover that an invoice counts. -/
def countedMonths (s : Allowances) : List ℤ :=
  ((rolloverHistory s.rollover).filter fun r => 0 < r.available_gb).map RolloverRow.billing_month

def allowanceStep (s : Allowances) : AllowanceEvent → Allowances
  | .purchase id activatedAt validityMs dataGb =>
    { s with purchases := s.purchases ++ [newPurchase id activatedAt validityMs dataGb] }
  | .cancel purchaseId => { s with purchases := s.purchases.map (cancelPurchase purchaseId) }
  | .accrue billingMonth rolloverGb =>
    { s with
      rollover := accrueRollover s.rollover billingMonth rolloverGb
      accrued := Function.update s.accrued billingMonth
        (max (s.accrued billingMonth) rolloverGb) }
  | .consume currentMonth gb =>
    { s with rollover := s.rollover.map (consumeRollover currentMonth gb) }
  | .invoice windowStart windowEnd usage =>
    match usage with
    | none => s
    | some r =>
      let extra := extraAllowanceGb s.purchases s.rollover windowStart windowEnd
      { s with
        waived := s.waived + waivedGb r (extra / 1000)
        drawnPacks := if r.Over then countedPacks s windowStart windowEnd ++ s.drawnPacks
          else s.drawnPacks
        drawnMonths := if r.Over then countedMonths s ++ s.drawnMonths else s.drawnMonths }

/-- A contract without packs and rollover. -/
def noAllowances : Allowances := ⟨[], [], 0, [], [], fun _ => 0⟩

/-- The gigabytes bought, in thousandths. -/
def bought (s : Allowances) : ℕ := (s.purchases.map Purchase.gb_applied).sum

/-- The gigabytes accrued, in thousandths. -/
def accruedTotal (s : Allowances) : ℕ := (s.rollover.map fun r => s.accrued r.billing_month).sum

/-- An invoice of a period whose usage goes beyond the cap counts no pack and no month that an
earlier such invoice has counted. -/
def CountsFresh (s : Allowances) : AllowanceEvent → Prop
  | .invoice windowStart windowEnd (some r) => r.Over →
    (∀ id ∈ countedPacks s windowStart windowEnd, id ∉ s.drawnPacks) ∧
      ∀ month ∈ countedMonths s, month ∉ s.drawnMonths
  | _ => True

/-! ### What has been drawn -/

/-- The gigabytes of some packs. -/
def gbOfPacks (purchases : List Purchase) (ids : List ℕ) : ℕ :=
  ((purchases.filter fun p => p.id ∈ ids).map Purchase.gb_applied).sum

/-- The gigabytes that some months have accrued. -/
def gbOfMonths (rollover : List RolloverRow) (accrued : ℤ → ℕ) (months : List ℤ) : ℕ :=
  ((rollover.filter fun r => r.billing_month ∈ months).map fun r => accrued r.billing_month).sum

/-- The gigabytes of the packs that have been counted. -/
def drawnPackGb (s : Allowances) : ℕ := gbOfPacks s.purchases s.drawnPacks

/-- The gigabytes of the months that have been counted. -/
def drawnRolloverGb (s : Allowances) : ℕ := gbOfMonths s.rollover s.accrued s.drawnMonths

/-- **The invariant**: what was waived has been drawn, and no month holds more than it accrued. -/
structure Drawn (s : Allowances) : Prop where
  waived_le : s.waived ≤ drawnPackGb s + drawnRolloverGb s
  held : ∀ r ∈ s.rollover, r.rollover_gb ≤ s.accrued r.billing_month

theorem sum_filter_le {α : Type} {l : List α} {p q : α → Bool} (f : α → ℕ)
    (h : ∀ a ∈ l, p a → q a) : ((l.filter p).map f).sum ≤ ((l.filter q).map f).sum := by
  induction l with
  | nil => exact le_rfl
  | cons a l ih =>
    have ih' := ih fun b hb => h b (List.mem_cons_of_mem _ hb)
    have ha := h a List.mem_cons_self
    rw [List.filter_cons, List.filter_cons]
    by_cases hp : p a
    · rw [if_pos hp, if_pos (ha hp), List.map_cons, List.map_cons, List.sum_cons, List.sum_cons]
      omega
    · rw [if_neg hp]
      split_ifs
      · rw [List.map_cons, List.sum_cons]
        omega
      · exact ih'

theorem sum_filter_add {α : Type} (l : List α) (p q r : α → Bool) (f : α → ℕ)
    (hpq : ∀ a ∈ l, p a → ¬ q a) (hp : ∀ a ∈ l, p a → r a) (hq : ∀ a ∈ l, q a → r a) :
    ((l.filter p).map f).sum + ((l.filter q).map f).sum ≤ ((l.filter r).map f).sum := by
  induction l with
  | nil => exact le_rfl
  | cons a l ih =>
    have ih' := ih (fun b hb => hpq b (List.mem_cons_of_mem _ hb))
      (fun b hb => hp b (List.mem_cons_of_mem _ hb)) (fun b hb => hq b (List.mem_cons_of_mem _ hb))
    have hpq' := hpq a List.mem_cons_self
    have hp' := hp a List.mem_cons_self
    have hq' := hq a List.mem_cons_self
    cases hpa : p a <;> cases hqa : q a <;> cases hra : r a <;>
      simp only [hpa, hqa, hra, List.filter_cons, List.map_cons, List.sum_cons, if_true,
        Bool.false_eq_true, if_false] at * <;> first | omega | simp at *

theorem sum_le_of_subperm {α : Type} {l l' : List α} (h : l.Subperm l') (f : α → ℕ) :
    (l.map f).sum ≤ (l'.map f).sum := by
  obtain ⟨l₁, hperm, hsub⟩ := h
  rw [← (hperm.map f).sum_eq]
  exact (hsub.map f).sum_le_sum fun _ _ => Nat.zero_le _

theorem rolloverHistory_subperm (rows : List RolloverRow) :
    (rolloverHistory rows).Subperm rows :=
  (List.take_sublist _ _).subperm.trans (List.mergeSort_perm _ _).subperm

theorem packGb_le (s : Allowances) (windowStart windowEnd : ℤ) :
    packGb s.purchases windowStart windowEnd ≤
      gbOfPacks s.purchases (countedPacks s windowStart windowEnd) := by
  have hcast : packGb s.purchases windowStart windowEnd =
      (((s.purchases.filter fun p => p.counts windowStart windowEnd).map
        Purchase.gb_applied).sum : ℕ) := by
    rw [packGb, Nat.cast_list_sum, List.map_map]
    rfl
  rw [hcast]
  refine Int.ofNat_le.2 (sum_filter_le _ ?_)
  intro p hp hcounts
  exact decide_eq_true (List.mem_map_of_mem (List.mem_filter.2 ⟨hp, hcounts⟩))

/-- What the rollover allows is on the months that are counted. -/
theorem totalAvailableGb_le {s : Allowances}
    (hheld : ∀ r ∈ s.rollover, r.rollover_gb ≤ s.accrued r.billing_month) :
    totalAvailableGb s.rollover ≤ gbOfMonths s.rollover s.accrued (countedMonths s) := by
  have hsub := rolloverHistory_subperm s.rollover
  -- a month without anything left adds nothing
  have hpos : ∀ rows : List RolloverRow,
      (∀ r ∈ rows, r.rollover_gb ≤ s.accrued r.billing_month) →
      (rows.map RolloverRow.available_gb).sum ≤
        ((rows.filter fun r => 0 < r.available_gb).map fun r => s.accrued r.billing_month).sum := by
    intro rows hrows
    induction rows with
    | nil => exact le_rfl
    | cons r rows ih =>
      have ih' := ih fun b hb => hrows b (List.mem_cons_of_mem _ hb)
      have hr := hrows r List.mem_cons_self
      rw [List.map_cons, List.sum_cons, List.filter_cons]
      have havail : r.available_gb ≤ r.rollover_gb := by
        unfold RolloverRow.available_gb
        omega
      split_ifs with hleft
      · rw [List.map_cons, List.sum_cons, Nat.cast_add]
        omega
      · have : r.available_gb ≤ 0 := by simpa using hleft
        omega
  refine (hpos _ fun r hr => hheld r (hsub.subset hr)).trans (Int.ofNat_le.2 ?_)
  have hcounted : (rolloverHistory s.rollover).filter (fun r => 0 < r.available_gb) =
      ((rolloverHistory s.rollover).filter fun r => 0 < r.available_gb).filter
        fun r => r.billing_month ∈ countedMonths s := by
    symm
    rw [List.filter_eq_self]
    intro r hr
    exact decide_eq_true (List.mem_map_of_mem hr)
  rw [hcounted]
  exact sum_le_of_subperm (((List.filter_sublist).subperm.trans hsub).filter _) _

theorem waived_invoice_le {s : Allowances} (h : Drawn s) (windowStart windowEnd : ℤ)
    (r : UsageRow) :
    waivedGb r (extraAllowanceGb s.purchases s.rollover windowStart windowEnd / 1000) ≤
      gbOfPacks s.purchases (countedPacks s windowStart windowEnd) +
        gbOfMonths s.rollover s.accrued (countedMonths s) := by
  have hpack := packGb_le s windowStart windowEnd
  have hrollover := totalAvailableGb_le h.held
  have hwaived :=
    waivedGb_le r (extraAllowanceGb s.purchases s.rollover windowStart windowEnd)
  rw [extraAllowanceGb] at *
  omega

theorem drawn_invoice {s : Allowances} (h : Drawn s) {windowStart windowEnd : ℤ} {r : UsageRow}
    (hfresh : CountsFresh s (.invoice windowStart windowEnd (some r))) :
    Drawn (allowanceStep s (.invoice windowStart windowEnd (some r))) := by
  have hinvoice := waived_invoice_le h windowStart windowEnd r
  have hwaived := h.waived_le
  by_cases hover : r.Over
  · obtain ⟨hpacks, hmonths⟩ := hfresh hover
    refine ⟨?_, h.held⟩
    have hpackGb : gbOfPacks s.purchases (countedPacks s windowStart windowEnd) +
        gbOfPacks s.purchases s.drawnPacks ≤
          gbOfPacks s.purchases (countedPacks s windowStart windowEnd ++ s.drawnPacks) :=
      sum_filter_add s.purchases _ _ _ _
        (fun p _ hp => by simpa using hpacks p.id (of_decide_eq_true hp)) (by simp +contextual)
        (by simp +contextual)
    have hrolloverGb : gbOfMonths s.rollover s.accrued (countedMonths s) +
        gbOfMonths s.rollover s.accrued s.drawnMonths ≤
          gbOfMonths s.rollover s.accrued (countedMonths s ++ s.drawnMonths) :=
      sum_filter_add s.rollover _ _ _ _
        (fun r _ hr => by simpa using hmonths r.billing_month (of_decide_eq_true hr))
        (by simp +contextual) (by simp +contextual)
    simp only [allowanceStep, drawnPackGb, drawnRolloverGb, if_pos hover]
    rw [drawnPackGb, drawnRolloverGb] at hwaived
    omega
  · have hnone := waivedGb_of_not_over hover
      (extraAllowanceGb s.purchases s.rollover windowStart windowEnd / 1000)
    refine ⟨?_, h.held⟩
    simp only [allowanceStep, drawnPackGb, drawnRolloverGb, if_neg hover]
    rw [drawnPackGb, drawnRolloverGb] at hwaived
    omega

theorem cancelPurchase_id (purchaseId : ℕ) (p : Purchase) :
    (cancelPurchase purchaseId p).id = p.id ∧
      (cancelPurchase purchaseId p).gb_applied = p.gb_applied := by
  rw [cancelPurchase]
  split_ifs <;> exact ⟨rfl, rfl⟩

theorem consumeRollover_month (currentMonth : ℤ) (gb : ℕ) (r : RolloverRow) :
    (consumeRollover currentMonth gb r).billing_month = r.billing_month ∧
      (consumeRollover currentMonth gb r).rollover_gb = r.rollover_gb := by
  rw [consumeRollover]
  split_ifs <;> exact ⟨rfl, rfl⟩

theorem sum_filter_map {α : Type} (l : List α) (g : α → α) (p : α → Bool) (f : α → ℕ)
    (hp : ∀ a, p (g a) = p a) (hf : ∀ a, f (g a) = f a) :
    (((l.map g).filter p).map f).sum = ((l.filter p).map f).sum := by
  have hpg : p ∘ g = p := funext hp
  have hfg : f ∘ g = f := funext hf
  rw [List.filter_map, List.map_map, hpg, hfg]

theorem mem_accrueRollover {rows : List RolloverRow} {billingMonth : ℤ} {rolloverGb : ℕ}
    {r : RolloverRow} (h : r ∈ accrueRollover rows billingMonth rolloverGb) :
    r ∈ rows ∧ r.billing_month ≠ billingMonth ∨
      r.billing_month = billingMonth ∧ r.rollover_gb = rolloverGb := by
  rw [accrueRollover] at h
  split_ifs at h with hany
  · obtain ⟨r', hr', rfl⟩ := List.mem_map.1 h
    rw [setRollover]
    split_ifs with hmonth
    · exact Or.inr ⟨hmonth, rfl⟩
    · exact Or.inl ⟨hr', hmonth⟩
  · rcases List.mem_append.1 h with h | h
    · refine Or.inl ⟨h, fun habs => hany ?_⟩
      exact List.any_eq_true.2 ⟨r, h, decide_eq_true habs⟩
    · rw [List.mem_singleton.1 h]
      exact Or.inr ⟨rfl, rfl⟩

/-- A month that accrues more leaves no less drawn. -/
theorem drawnRolloverGb_accrue (s : Allowances) (billingMonth : ℤ) (rolloverGb : ℕ) :
    drawnRolloverGb s ≤ drawnRolloverGb (allowanceStep s (.accrue billingMonth rolloverGb)) := by
  have hmore : ∀ month, s.accrued month ≤
      Function.update s.accrued billingMonth (max (s.accrued billingMonth) rolloverGb) month := by
    intro month
    by_cases h : month = billingMonth
    · rw [h, Function.update_self]
      exact le_max_left _ _
    · rw [Function.update_of_ne h]
  have hsum : ∀ rows : List RolloverRow, (rows.map fun r => s.accrued r.billing_month).sum ≤
      (rows.map fun r => Function.update s.accrued billingMonth
        (max (s.accrued billingMonth) rolloverGb) r.billing_month).sum :=
    fun rows => List.sum_le_sum fun r _ => hmore r.billing_month
  show gbOfMonths s.rollover s.accrued s.drawnMonths ≤
    gbOfMonths (accrueRollover s.rollover billingMonth rolloverGb) _ s.drawnMonths
  rw [gbOfMonths, gbOfMonths, accrueRollover]
  split_ifs with hany
  · have hmonth : ∀ r, (setRollover billingMonth rolloverGb r).billing_month = r.billing_month := by
      intro r
      rw [setRollover]
      split_ifs <;> rfl
    rw [sum_filter_map s.rollover (setRollover billingMonth rolloverGb) _ _
      (fun r => by rw [hmonth]) (fun r => by rw [hmonth])]
    exact hsum _
  · rw [List.filter_append, List.map_append, List.sum_append]
    exact (hsum _).trans (Nat.le_add_right _ _)

/-- **A step keeps the invariant** when its invoice counts nothing twice. -/
theorem drawn_step {s : Allowances} (h : Drawn s) {e : AllowanceEvent} (hfresh : CountsFresh s e) :
    Drawn (allowanceStep s e) := by
  have hwaived := h.waived_le
  cases e with
  | purchase id activatedAt validityMs dataGb =>
    refine ⟨?_, h.held⟩
    have hmore : drawnPackGb s ≤
        drawnPackGb (allowanceStep s (.purchase id activatedAt validityMs dataGb)) := by
      show gbOfPacks s.purchases s.drawnPacks ≤ gbOfPacks (s.purchases ++ _) s.drawnPacks
      rw [gbOfPacks, gbOfPacks, List.filter_append, List.map_append, List.sum_append]
      exact Nat.le_add_right _ _
    have hsame : drawnRolloverGb
        (allowanceStep s (.purchase id activatedAt validityMs dataGb)) = drawnRolloverGb s := rfl
    have hkept : (allowanceStep s (.purchase id activatedAt validityMs dataGb)).waived =
        s.waived := rfl
    omega
  | cancel purchaseId =>
    refine ⟨?_, h.held⟩
    have hsame : drawnPackGb (allowanceStep s (.cancel purchaseId)) = drawnPackGb s :=
      sum_filter_map s.purchases (cancelPurchase purchaseId) (fun p => p.id ∈ s.drawnPacks)
        Purchase.gb_applied (fun p => by rw [(cancelPurchase_id purchaseId p).1])
        (fun p => (cancelPurchase_id purchaseId p).2)
    have hrollover : drawnRolloverGb (allowanceStep s (.cancel purchaseId)) =
        drawnRolloverGb s := rfl
    rw [hsame, hrollover]
    exact hwaived
  | accrue billingMonth rolloverGb =>
    have hmore := drawnRolloverGb_accrue s billingMonth rolloverGb
    refine ⟨?_, ?_⟩
    · have hsame : drawnPackGb (allowanceStep s (.accrue billingMonth rolloverGb)) =
          drawnPackGb s := rfl
      have hkept : (allowanceStep s (.accrue billingMonth rolloverGb)).waived = s.waived := rfl
      omega
    · intro r hr
      change r.rollover_gb ≤ Function.update s.accrued billingMonth
        (max (s.accrued billingMonth) rolloverGb) r.billing_month
      rcases mem_accrueRollover hr with ⟨hr, hne⟩ | ⟨hmonth, hgb⟩
      · rw [Function.update_of_ne hne]
        exact h.held r hr
      · rw [hmonth, Function.update_self, hgb]
        exact le_max_right _ _
  | consume currentMonth gb =>
    refine ⟨?_, ?_⟩
    · have hsame : drawnRolloverGb (allowanceStep s (.consume currentMonth gb)) =
          drawnRolloverGb s :=
        sum_filter_map s.rollover (consumeRollover currentMonth gb)
          (fun r => r.billing_month ∈ s.drawnMonths) (fun r => s.accrued r.billing_month)
          (fun r => by rw [(consumeRollover_month currentMonth gb r).1])
          (fun r => by rw [(consumeRollover_month currentMonth gb r).1])
      have hpacks : drawnPackGb (allowanceStep s (.consume currentMonth gb)) = drawnPackGb s := rfl
      rw [hsame, hpacks]
      exact hwaived
    · intro r hr
      obtain ⟨r', hr', rfl⟩ := List.mem_map.1 hr
      rw [(consumeRollover_month currentMonth gb r').1, (consumeRollover_month currentMonth gb r').2]
      exact h.held r' hr'
  | invoice windowStart windowEnd usage =>
    cases usage with
    | none => exact h
    | some r => exact drawn_invoice h hfresh

theorem Drawn.le_granted {s : Allowances} (h : Drawn s) : s.waived ≤ bought s + accruedTotal s := by
  have hwaived := h.waived_le
  have hpacks : drawnPackGb s ≤ bought s :=
    sum_le_of_subperm List.filter_sublist.subperm _
  have hrollover : drawnRolloverGb s ≤ accruedTotal s :=
    sum_le_of_subperm List.filter_sublist.subperm _
  omega

/-- The usage of a period that goes 10 GB beyond a cap of 100 GB. -/
def tenOver : UsageRow where
  data_cap_gb := some 100
  overage_mode := .per_gb
  overage_price_per_gb := some 2
  bytes_used := 118111600640
  incomplete_rows := 0
  observed_rows := 30
  unverifiable_session_rows := 0

end Vigabss.Billing
