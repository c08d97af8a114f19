import Vigabss.Cfdi.Complements

/-!
# Vigabss.Cfdi.Parcialidades — the chain of the REPs

Numbering counts the live REPs and the balance sums them, so the chain of parcialidades stands as
long as it is shortened at its end only.  A run keeps it just when every REP that is cancelled or
discarded is the last of the chain (`one_chain_iff`).
-/

namespace Vigabss.Cfdi

open Vigabss.Lib Vigabss.Billing

/-! ### The law -/

/-- Each REP starts from the balance the one before it leaves, the first from `saldo`. -/
def Linked : ℤ → List RepItem → Prop
  | _, [] => True
  | saldo, r :: rs => r.imp_saldo_ant = saldo ∧ Linked r.imp_saldo_insoluto rs

def byNumber (r q : RepItem) : Prop := r.num_parcialidad ≤ q.num_parcialidad

instance (r q : RepItem) : Decidable (byNumber r q) :=
  inferInstanceAs (Decidable (r.num_parcialidad ≤ q.num_parcialidad))

/-- The live REPs of one CFDI: different numbers, no more than the total, one for each payment, and
linked in the order of their numbers. -/
structure OneChain (total : CfdiTotal) (t : Table Rep) : Prop where
  numbers : ((liveItems t).map RepItem.num_parcialidad).Nodup
  covered : ((liveItems t).map RepItem.imp_pagado).sum ≤ total.cents
  payments : ((liveItems t).map RepItem.payment_id).Nodup
  linked : Linked total.cents ((liveItems t).insertionSort byNumber)

/-- The live REP that an event takes out of the chain. -/
def takesOut (t : Table Rep) : RepEvent → Option Rep
  | .cancelled id => (t.find? id).filter fun r =>
      r.sat_status = .vigente ∨ r.sat_status = .cancel_pending
  | .discarded id => (t.find? id).filter fun r => r.sat_status = .draft
  | _ => none

/-- A REP is taken out only if no live one has a higher number. -/
def FromTheEnd (t : Table Rep) (e : RepEvent) : Prop :=
  ∀ r, takesOut t e = some r → ∀ q ∈ liveItems t, q.num_parcialidad ≤ r.item.num_parcialidad

/-! ### Chains -/

/-- REPs numbered from `n` on, each paying part of what the ones before it leave of `saldo`. -/
def ChainFrom : ℕ → ℤ → List RepItem → Prop
  | _, _, [] => True
  | n, saldo, r :: rs =>
    (r.num_parcialidad = n ∧ r.imp_saldo_ant = saldo ∧ r.imp_saldo_insoluto = saldo - r.imp_pagado ∧
      0 < r.imp_pagado ∧ r.imp_pagado ≤ saldo) ∧ ChainFrom (n + 1) (saldo - r.imp_pagado) rs

def paidBy (rs : List RepItem) : ℤ := (rs.map RepItem.imp_pagado).sum

theorem paidBy_cons (r : RepItem) (rs : List RepItem) :
    paidBy (r :: rs) = r.imp_pagado + paidBy rs := by
  simp [paidBy]

theorem chainFrom_append {n : ℕ} {saldo : ℤ} {rs qs : List RepItem} :
    ChainFrom n saldo (rs ++ qs) ↔
      ChainFrom n saldo rs ∧ ChainFrom (n + rs.length) (saldo - paidBy rs) qs := by
  induction rs generalizing n saldo with
  | nil => simp [ChainFrom, paidBy]
  | cons r rs ih =>
    have hn : n + 1 + rs.length = n + (r :: rs).length := by
      rw [List.length_cons]
      omega
    have hs : saldo - r.imp_pagado - paidBy rs = saldo - paidBy (r :: rs) := by
      rw [paidBy_cons]
      omega
    simp only [List.cons_append, ChainFrom, ih, hn, hs, and_assoc]

theorem ChainFrom.numbers {n : ℕ} {saldo : ℤ} {rs : List RepItem} (h : ChainFrom n saldo rs) :
    rs.map RepItem.num_parcialidad = List.range' n rs.length := by
  induction rs generalizing n saldo with
  | nil => rfl
  | cons r rs ih =>
    rw [List.map_cons, List.length_cons, List.range'_succ, ih h.2, h.1.1]

theorem ChainFrom.linked {n : ℕ} {saldo : ℤ} {rs : List RepItem} (h : ChainFrom n saldo rs) :
    Linked saldo rs := by
  induction rs generalizing n saldo with
  | nil => trivial
  | cons r rs ih =>
    obtain ⟨⟨-, hant, hins, -, -⟩, htail⟩ := h
    refine ⟨hant, ?_⟩
    rw [hins]
    exact ih htail

theorem ChainFrom.paid {n : ℕ} {saldo : ℤ} {rs : List RepItem} (h : ChainFrom n saldo rs)
    (h0 : 0 ≤ saldo) : 0 ≤ paidBy rs ∧ paidBy rs ≤ saldo := by
  induction rs generalizing n saldo with
  | nil => exact ⟨le_rfl, h0⟩
  | cons r rs ih =>
    obtain ⟨⟨-, -, -, hpos, hle⟩, htail⟩ := h
    have := ih htail (by omega)
    rw [paidBy_cons]
    omega

theorem ChainFrom.sorted {n : ℕ} {saldo : ℤ} {rs : List RepItem} (h : ChainFrom n saldo rs) :
    rs.Pairwise fun r q => r.num_parcialidad < q.num_parcialidad := by
  have hrange : (rs.map RepItem.num_parcialidad).Pairwise (· < ·) := by
    rw [h.numbers]
    exact List.pairwise_lt_range'
  exact List.pairwise_map.1 hrange

theorem insertionSort_of_increasing {rs : List RepItem}
    (h : rs.Pairwise fun r q => r.num_parcialidad < q.num_parcialidad) :
    rs.insertionSort byNumber = rs :=
  List.Pairwise.insertionSort_eq (h.imp fun hlt => (Nat.le_of_lt hlt : _ ≤ _))

/-! ### The invariant -/

structure ChainInv (total : CfdiTotal) (t : Table Rep) : Prop where
  chain : ChainFrom 1 total.cents (liveItems t)
  payments : ((liveItems t).map RepItem.payment_id).Nodup

theorem ChainInv.oneChain {total : CfdiTotal} {t : Table Rep} (h : ChainInv total t) :
    OneChain total t := by
  refine ⟨?_, (h.chain.paid total.nonneg).2, h.payments, ?_⟩
  · rw [h.chain.numbers]
    exact List.nodup_range'
  · rw [insertionSort_of_increasing h.chain.sorted]
    exact h.chain.linked

/-! ### What an event does to the live REPs -/

theorem liveReps_moveRep (id : ℕ) (source : List SatStatus) (target : SatStatus) (t : Table Rep) :
    liveReps (moveRep id source target t) =
      (t.rows.map fun r => if Keyed.key r = id then r.move source target else r).filter
        fun r => r.sat_status.live := rfl

theorem liveItems_moveRep {id : ℕ} {source : List SatStatus} {target : SatStatus} (t : Table Rep)
    (hsource : ∀ s ∈ source, s.live = true) (htarget : target.live = true) :
    liveItems (moveRep id source target t) = liveItems t := by
  have hmove : ∀ r : Rep, (r.move source target).sat_status.live = r.sat_status.live ∧
      (r.move source target).item = r.item := by
    intro r
    unfold Rep.move
    split_ifs with h
    · exact ⟨htarget.trans (hsource _ h).symm, rfl⟩
    · exact ⟨rfl, rfl⟩
  unfold liveItems
  rw [liveReps_moveRep, liveReps]
  induction t.rows with
  | nil => rfl
  | cons r rows ih =>
    by_cases hid : Keyed.key r = id
    · by_cases hl : r.sat_status.live = true
      · simp [hid, hl, hmove, ih]
      · simp [hid, hl, hmove, ih]
    · by_cases hl : r.sat_status.live = true
      · simp [hid, hl, ih]
      · simp [hid, hl, ih]

/-- A cancelled REP leaves the live ones, the others stay. -/
theorem liveReps_cancelled {t : Table Rep} {id : ℕ} {r : Rep} (hr : t.find? id = some r)
    (hstatus : r.sat_status = .vigente ∨ r.sat_status = .cancel_pending) :
    liveReps (moveRep id [.vigente, .cancel_pending] .cancelado t) =
      (liveReps t).filter fun q => q.id ≠ id := by
  have huniq : ∀ q ∈ t.rows, Keyed.key q = id → q = r := fun q hq hid =>
    Table.eq_of_key_eq hq (Table.find?_eq_some.1 hr).1 (hid.trans (Table.find?_eq_some.1 hr).2.symm)
  rw [liveReps_moveRep, liveReps]
  generalize t.rows = rows at huniq
  induction rows with
  | nil => rfl
  | cons q rows ih =>
    have ih' := ih fun q' hq' => huniq q' (List.mem_cons_of_mem q hq')
    by_cases hid : Keyed.key q = id
    · have hq := huniq q List.mem_cons_self hid
      subst hq
      have hmoved : (q.move [.vigente, .cancel_pending] .cancelado).sat_status.live = false := by
        have hmem : q.sat_status ∈ [SatStatus.vigente, SatStatus.cancel_pending] := by
          simpa using hstatus
        rw [Rep.move, if_pos hmem]
        rfl
      have hlive : q.sat_status.live = true := by
        rcases hstatus with h | h <;> rw [h] <;> rfl
      have hid' : q.id = id := hid
      simp only [List.map_cons, if_pos hid, List.filter_cons, hmoved, hlive]
      simpa [hid'] using ih'
    · have hid' : q.id ≠ id := hid
      by_cases hl : q.sat_status.live = true
      · simp only [List.map_cons, if_neg hid, List.filter_cons, hl]
        simpa [hid'] using ih'
      · simp only [List.map_cons, if_neg hid, List.filter_cons, hl]
        simpa using ih'

theorem moveRep_eq_self {t : Table Rep} {id : ℕ} {source : List SatStatus} {target : SatStatus}
    (h : ∀ r, t.find? id = some r → r.sat_status ∉ source) : moveRep id source target t = t := by
  apply Table.ext
  show (t.rows.map fun r => if Keyed.key r = id then r.move source target else r) = t.rows
  conv_rhs => rw [← List.map_id t.rows]
  refine List.map_congr_left fun r hr => ?_
  by_cases hid : Keyed.key r = id
  · rw [if_pos hid, Rep.move, if_neg (h r (Table.find?_eq_some.2 ⟨hr, hid⟩))]
    rfl
  · rw [if_neg hid]
    rfl

theorem liveReps_remove (t : Table Rep) (id : ℕ) :
    liveReps (t.remove id) = (liveReps t).filter fun q => q.id ≠ id := by
  show (t.rows.filter fun q => Keyed.key q ≠ id).filter _ = _
  rw [liveReps, List.filter_comm]
  rfl

theorem liveReps_split {t : Table Rep} {r : Rep} (hr : r ∈ liveReps t) :
    ∃ before after, liveReps t = before ++ r :: after ∧
      (liveReps t).filter (fun q => q.id ≠ r.id) = before ++ after := by
  obtain ⟨before, after, hsplit⟩ := List.append_of_mem hr
  refine ⟨before, after, hsplit, ?_⟩
  have hnodup : ((liveReps t).map Rep.id).Nodup :=
    (List.filter_sublist.map Rep.id).nodup t.nodup
  rw [hsplit, List.map_append, List.map_cons, List.nodup_append] at hnodup
  obtain ⟨-, htail, hdisj⟩ := hnodup
  have hbefore : ∀ q ∈ before, q.id ≠ r.id := fun q hq =>
    hdisj q.id (List.mem_map_of_mem hq) r.id List.mem_cons_self
  have hafter : ∀ q ∈ after, q.id ≠ r.id := fun q hq heq =>
    (List.nodup_cons.1 htail).1 (heq ▸ List.mem_map_of_mem hq)
  rw [hsplit, List.filter_append, List.filter_cons,
    List.filter_eq_self.2 fun q hq => by simpa using hbefore q hq,
    List.filter_eq_self.2 fun q hq => by simpa using hafter q hq]
  simp

/-- What an event does to the items of the live REPs. -/
inductive LiveStep (total : CfdiTotal) (t : Table Rep) (e : RepEvent) : Prop
  | kept (hout : takesOut t e = none) (h : liveItems (repStep total t e) = liveItems t)
  | added (hout : takesOut t e = none) (cfg : RepReads) (paymentId : ℕ) (allocated : Allocated)
    (item : RepItem)
    (hitem : chainItem total.cents (liveItems t) paymentId allocated.cents = .generated item)
    (h : liveItems (repStep total t e) = liveItems t ++ [item])
  | removed (r : Rep) (before after : List Rep) (hout : takesOut t e = some r)
    (hbefore : liveItems t = before.map Rep.item ++ r.item :: after.map Rep.item)
    (hafter : liveItems (repStep total t e) = before.map Rep.item ++ after.map Rep.item)

theorem mem_liveReps {t : Table Rep} {id : ℕ} {r : Rep} (hr : t.find? id = some r)
    (hlive : r.sat_status.live = true) : r ∈ liveReps t ∧ r.id = id :=
  ⟨List.mem_filter.2 ⟨(Table.find?_eq_some.1 hr).1, hlive⟩, (Table.find?_eq_some.1 hr).2⟩

theorem liveStep_removed {total : CfdiTotal} {t : Table Rep} {e : RepEvent} {id : ℕ} {r : Rep}
    (hout : takesOut t e = some r) (hr : t.find? id = some r) (hlive : r.sat_status.live = true)
    (h : liveReps (repStep total t e) = (liveReps t).filter fun q => q.id ≠ id) :
    LiveStep total t e := by
  obtain ⟨hmem, rfl⟩ := mem_liveReps hr hlive
  obtain ⟨before, after, hsplit, hfilter⟩ := liveReps_split hmem
  refine .removed r before after hout ?_ ?_
  · rw [liveItems, hsplit, List.map_append, List.map_cons]
  · rw [liveItems, h, hfilter, List.map_append]

theorem generateRep_generated {total : ℤ} {cfg : RepReads} {live : List RepItem} {paymentId : ℕ}
    {allocated : ℤ} {item : RepItem}
    (h : generateRep total cfg live paymentId allocated = .ok (.generated item)) :
    chainItem total live paymentId allocated = .generated item := by
  unfold generateRep at h
  split at h
  · cases h
  split at h
  · cases h
  split at h
  · cases h
  split at h
  · cases h
  split at h
  · cases h
  split at h
  · cases h
  · exact Except.ok.inj h

theorem liveStep (total : CfdiTotal) (t : Table Rep) (e : RepEvent) : LiveStep total t e := by
  cases e with
  | generate cfg paymentId allocated =>
    cases hgen : generateRep total.cents cfg (liveItems t) paymentId allocated.cents with
    | error err => exact .kept rfl (by simp only [repStep, hgen])
    | ok g =>
      cases g with
      | skipped reason => exact .kept rfl (by simp only [repStep, hgen])
      | generated item =>
        refine .added rfl cfg paymentId allocated item ?_ ?_
        · exact generateRep_generated hgen
        · simp only [repStep, hgen]
          show ((t.rows ++ [newRep item t.nextId]).filter _).map Rep.item = _
          rw [List.filter_append, List.map_append]
          rfl
  | stamped id =>
    exact .kept rfl (liveItems_moveRep t (by simp [SatStatus.live]) rfl)
  | cancelRequested id =>
    exact .kept rfl (liveItems_moveRep t (by simp [SatStatus.live]) rfl)
  | cancelRefused id =>
    exact .kept rfl (liveItems_moveRep t (by simp [SatStatus.live]) rfl)
  | cancelled id =>
    cases hout : takesOut t (.cancelled id) with
    | none =>
      have hnone : ∀ r, t.find? id = some r →
          r.sat_status ∉ [SatStatus.vigente, SatStatus.cancel_pending] := by
        intro r hr hmem
        have hstatus : ¬ r.sat_status = .vigente ∧ ¬ r.sat_status = .cancel_pending := by
          simpa [takesOut, hr] using hout
        rcases List.mem_cons.1 hmem with h | h
        · exact hstatus.1 h
        · exact hstatus.2 (List.mem_singleton.1 h)
      refine .kept hout ?_
      show liveItems (moveRep id [.vigente, .cancel_pending] .cancelado t) = _
      rw [moveRep_eq_self hnone]
    | some r =>
      obtain ⟨hr, hstatus⟩ := Option.filter_eq_some_iff.1 hout
      have hstatus' := of_decide_eq_true hstatus
      refine liveStep_removed hout hr ?_ (liveReps_cancelled hr hstatus')
      rcases hstatus' with h | h <;> rw [h] <;> rfl
  | discarded id =>
    cases hfind : t.find? id with
    | none => exact .kept (by simp [takesOut, hfind]) (by simp only [repStep, hfind])
    | some r =>
      by_cases hdraft : r.sat_status = .draft
      · refine liveStep_removed (by simp [takesOut, hfind, hdraft]) hfind (by rw [hdraft]; rfl) ?_
        simp only [repStep, hfind, if_pos hdraft]
        exact liveReps_remove t id
      · exact .kept (by simp [takesOut, hfind, hdraft])
          (by simp only [repStep, hfind, if_neg hdraft])

/-! ### Runs -/

theorem chainInv_step {total : CfdiTotal} {t : Table Rep} {e : RepEvent} (ht : ChainInv total t)
    (hend : FromTheEnd t e) : ChainInv total (repStep total t e) := by
  cases liveStep total t e with
  | kept hout h => exact ⟨by rw [h]; exact ht.chain, by rw [h]; exact ht.payments⟩
  | added hout cfg paymentId allocated item hitem h =>
    obtain ⟨h0, hle⟩ := ht.chain.paid total.nonneg
    rw [chainItem_eq total paymentId allocated h0 hle] at hitem
    dsimp only at hitem
    split_ifs at hitem with hdup hfull hover
    cases hitem
    refine ⟨?_, ?_⟩
    · rw [h, chainFrom_append]
      have ha := allocated.positive
      refine ⟨ht.chain, ⟨by dsimp only; omega, rfl, rfl, ha, ?_⟩, trivial⟩
      show allocated.cents ≤ total.cents - paidBy (liveItems t)
      exact not_lt.1 hover
    · rw [h, List.map_append, List.nodup_append]
      refine ⟨ht.payments, List.nodup_singleton _, ?_⟩
      intro p hp q hq heq
      obtain ⟨r, hr, rfl⟩ := List.mem_map.1 hp
      have hq' : q = paymentId := by simpa using hq
      exact hdup (List.any_eq_true.2 ⟨r, hr, by simp [heq, hq']⟩)
  | removed r before after hout hbefore hafter =>
    have hchain := ht.chain
    rw [hbefore, chainFrom_append] at hchain
    obtain ⟨hfirst, hrest⟩ := hchain
    have hnil : after = [] := by
      by_contra hne
      obtain ⟨q, hq⟩ := List.exists_mem_of_ne_nil after hne
      have hmem : q.item ∈ after.map Rep.item := List.mem_map_of_mem hq
      have hlt := (List.pairwise_cons.1 (ChainFrom.sorted hrest)).1 q.item hmem
      have hle := hend r hout q.item (by rw [hbefore]; simp [hmem])
      omega
    subst hnil
    refine ⟨?_, ?_⟩
    · rw [hafter]
      simpa using hfirst
    · have hpay := ht.payments
      rw [hbefore, List.map_append] at hpay
      rw [hafter]
      simpa using hpay.sublist (List.sublist_append_left _ _)

theorem not_linked_of_gap {n : ℕ} {saldo : ℤ} {rs qs : List RepItem} {r q : RepItem}
    (h : ChainFrom n saldo (rs ++ r :: q :: qs)) : ¬ Linked saldo (rs ++ q :: qs) := by
  induction rs generalizing n saldo with
  | nil =>
    obtain ⟨⟨-, -, -, hpos, -⟩, ⟨⟨-, hant, -, -, -⟩, -⟩⟩ := h
    intro hlinked
    have hq : q.imp_saldo_ant = saldo := hlinked.1
    omega
  | cons p rs ih =>
    obtain ⟨⟨-, -, hins, -, -⟩, htail⟩ := h
    intro hlinked
    have htail' : Linked p.imp_saldo_insoluto (rs ++ q :: qs) := hlinked.2
    rw [hins] at htail'
    exact ih htail htail'

theorem not_oneChain_step {total : CfdiTotal} {t : Table Rep} {e : RepEvent}
    (ht : ChainInv total t) (hend : ¬ FromTheEnd t e) : ¬ OneChain total (repStep total t e) := by
  intro hlaw
  apply hend
  intro r hout
  cases liveStep total t e with
  | kept hout' h => rw [hout] at hout'; cases hout'
  | added hout' cfg paymentId allocated item hitem h => rw [hout] at hout'; cases hout'
  | removed r' before after hout' hbefore hafter =>
    rw [hout] at hout'
    cases hout'
    have hchain := ht.chain
    have hsorted := hchain.sorted
    rw [hbefore] at hchain hsorted ⊢
    cases hnext : after.map Rep.item with
    | nil =>
      rw [hnext] at hsorted
      intro q hq
      rcases List.mem_append.1 hq with hq | hq
      · exact ((List.pairwise_append.1 hsorted).2.2 q hq r.item List.mem_cons_self).le
      · rw [List.mem_singleton.1 hq]
    | cons q qs =>
      rw [hnext] at hchain hsorted
      have hlinked := hlaw.linked
      rw [hafter, hnext, insertionSort_of_increasing] at hlinked
      · exact absurd hlinked (not_linked_of_gap hchain)
      · exact hsorted.sublist ((List.sublist_cons_self r.item (q :: qs)).append_left _)

theorem chainInv_empty (total : CfdiTotal) : ChainInv total .empty := ⟨trivial, List.nodup_nil⟩

/-- **One chain.**  In a run of REP generations and cancellations against one CFDI, the live REPs
form one chain in every state just when each REP taken out is the last one. -/
theorem one_chain_iff (total : CfdiTotal) (events : List RepEvent) :
    Always (repStep total) (OneChain total) .empty events ↔
      StepsMeet (repStep total) FromTheEnd .empty events :=
  always_iff_stepsMeet (I := ChainInv total) (fun _ ht => ht.oneChain)
    (fun _ _ ht hend => chainInv_step ht hend) (fun _ _ ht hend => not_oneChain_step ht hend)
    (chainInv_empty total) events

/-! ### A REP cancelled at the head of the chain -/

def settled : RepReads := ⟨true, some (.completed, some "MXN"), true, some "XAXX010101000"⟩

def thousand : CfdiTotal := ⟨100000, by norm_num, by norm_num⟩

def hundred : Allocated := ⟨10000, by norm_num, by norm_num [decimalMax]⟩

/-- Two payments are reported, the first REP is cancelled, and a third payment is reported. -/
def firstCancelled : List RepEvent :=
  [.generate settled 1 hundred, .stamped 1, .generate settled 2 hundred, .stamped 2,
    .cancelled 1, .generate settled 3 hundred]

theorem parcialidad_numbered_twice :
    ¬ Always (repStep thousand) (OneChain thousand) .empty firstCancelled := by
  intro h
  have hnumbers : (liveItems (run (repStep thousand) .empty firstCancelled)).map
      RepItem.num_parcialidad = [2, 2] := by decide +kernel
  have hnodup := h.last.numbers
  rw [hnumbers] at hnodup
  exact absurd hnodup (by decide)

end Vigabss.Cfdi
