import Vigabss.Billing.CreditLedger
import Vigabss.Cfdi.Stamping

/-!
# Vigabss.Cfdi.Complements — payment complements of one invoice CFDI

`generateRepForAllocation` on the REPs (tipo P) that report payments against one PPD CFDI, and what
stamping, cancelling and discarding a REP do to it.  A REP is its document joined with its
`cfdi_payment_complement_items` row; amounts are whole cents, as the columns store them.
-/

namespace Vigabss.Cfdi

open Vigabss.Lib Vigabss.Billing

/-! ### Rows -/

/-- The payment a REP reports and its item row. -/
structure RepItem where
  payment_id : ℕ
  num_parcialidad : ℕ
  imp_saldo_ant : ℤ
  imp_pagado : ℤ
  imp_saldo_insoluto : ℤ
  deriving DecidableEq

structure Rep where
  id : ℕ
  sat_status : SatStatus
  item : RepItem
  deriving DecidableEq

instance : Keyed Rep := ⟨Rep.id⟩

/-- `sat_status IN ('draft', 'vigente', 'cancel_pending')`. -/
def SatStatus.live : SatStatus → Bool
  | draft => true
  | vigente => true
  | cancel_pending => true
  | cancelado => false

def liveReps (t : Table Rep) : List Rep := t.rows.filter fun r => r.sat_status.live

def liveItems (t : Table Rep) : List RepItem := (liveReps t).map Rep.item

/-- What the amounts of a REP are derived from: the total of the invoice's CFDI, which fits its
`DECIMAL(12, 2)` column. -/
structure CfdiTotal where
  cents : ℤ
  nonneg : 0 ≤ cents
  fits : cents < 10 ^ 12

/-- The amount of a live allocation, which is positive and fits its `DECIMAL(10, 2)` column. -/
structure Allocated where
  cents : ℤ
  positive : 0 < cents
  fits : cents ≤ decimalMax

/-! ### `generateRepForAllocation` -/

/-- What the generation reads besides the REPs. -/
structure RepReads where
  ppdCfdi : Bool
  payment : Option (PaymentStatus × Option String)
  invoice : Bool
  receptorRfc : Option String

inductive Generation where
  | skipped (reason : String)
  | generated (item : RepItem)
  deriving DecidableEq

/-- `Math.round((a - b) * 100) / 100`, in cents. -/
def roundedDifference (a b : ℚ) : ℤ := mathRound (fl (fl (a - b) * 100))

/-- The REP that reports the allocation against what the live REPs leave of the CFDI. -/
def chainItem (total : ℤ) (live : List RepItem) (paymentId : ℕ) (allocated : ℤ) : Generation :=
  if live.any fun r => r.payment_id = paymentId then .skipped "REP_ALREADY_EXISTS"
  else
    let saldoAnt := max 0 (number (roundedDifference (number total)
      (number (live.map RepItem.imp_pagado).sum)))
    if saldoAnt ≤ 0 then .skipped "CFDI_FULLY_REPORTED"
    else
      let impPagado := number (mathRound (fl (number allocated * 100)))
      if fl (saldoAnt + fl (5 / 1000)) < impPagado then .skipped "REP_EXCEEDS_BALANCE"
      else
        let saldoInsoluto := number (roundedDifference saldoAnt impPagado)
        .generated ⟨paymentId, live.length + 1, toDecimal saldoAnt, toDecimal impPagado,
          toDecimal saldoInsoluto⟩

/-- `generateRepForAllocation(paymentId, invoiceId, allocatedAmount, orgId)`, up to the stamp. -/
def generateRep (total : ℤ) (cfg : RepReads) (live : List RepItem) (paymentId : ℕ)
    (allocated : ℤ) : Except AppError Generation :=
  if cfg.ppdCfdi = false then .ok (.skipped "NO_PPD_CFDI")
  else
    match cfg.payment with
    | none => .error ⟨"Payment not found.", 404, "NOT_FOUND"⟩
    | some (status, currency) =>
      if ∃ c ∈ currency, c ≠ "" ∧ c ≠ "MXN" then .ok (.skipped "NON_MXN")
      else if status ≠ .completed then .ok (.skipped "PAYMENT_NOT_SETTLED")
      else if cfg.invoice = false then .error ⟨"Invoice not found.", 404, "NOT_FOUND"⟩
      else if cfg.receptorRfc = none then
        .error ⟨"The client has no MX fiscal profile (RFC) — required for the payment " ++
          "complement (REP).", 422, "CLIENT_MX_PROFILE_MISSING"⟩
      else .ok (chainItem total live paymentId allocated)

def newRep (item : RepItem) (id : ℕ) : Rep := ⟨id, .draft, item⟩

theorem key_newRep (item : RepItem) (id : ℕ) : Keyed.key (newRep item id) = id := rfl

/-! ### The system -/

/-- `UPDATE cfdi_documents SET sat_status = ? WHERE id = ? AND sat_status IN (…)`. -/
def Rep.move (source : List SatStatus) (target : SatStatus) (r : Rep) : Rep :=
  if r.sat_status ∈ source then { r with sat_status := target } else r

theorem Rep.key_move (source : List SatStatus) (target : SatStatus) (r : Rep) :
    Keyed.key (r.move source target) = Keyed.key r := by
  unfold Rep.move
  split_ifs <;> rfl

def moveRep (id : ℕ) (source : List SatStatus) (target : SatStatus) (t : Table Rep) : Table Rep :=
  t.modify id (Rep.move source target) (Rep.key_move source target)

/-- Generations, and what happens to a REP: it is stamped, its cancellation is requested, refused
or accepted at SAT, or its draft is discarded. -/
inductive RepEvent where
  | generate (cfg : RepReads) (paymentId : ℕ) (allocated : Allocated)
  | stamped (id : ℕ)
  | cancelRequested (id : ℕ)
  | cancelRefused (id : ℕ)
  | cancelled (id : ℕ)
  | discarded (id : ℕ)

def repStep (total : CfdiTotal) (t : Table Rep) : RepEvent → Table Rep
  | .generate cfg paymentId allocated =>
    match generateRep total.cents cfg (liveItems t) paymentId allocated.cents with
    | .ok (.generated item) => t.insert (newRep item) (key_newRep item)
    | _ => t
  | .stamped id => moveRep id [.draft] .vigente t
  | .cancelRequested id => moveRep id [.vigente] .cancel_pending t
  | .cancelRefused id => moveRep id [.cancel_pending] .vigente t
  | .cancelled id => moveRep id [.vigente, .cancel_pending] .cancelado t
  | .discarded id =>
    match t.find? id with
    | some r => if r.sat_status = .draft then t.remove id else t
    | none => t

/-! ### Amounts -/

theorem toDecimal_number {c : ℤ} (h0 : 0 ≤ c) (h : c ≤ 2 * 10 ^ 12) :
    toDecimal (number c) = c := by
  have hnear := abs_le.1 (number_near (by rwa [abs_of_nonneg h0]))
  have hnum : 0 ≤ number c := fl_nonneg (by positivity)
  rw [toDecimal, if_pos hnum]
  exact mathRound_eq (by
    rw [abs_lt]
    constructor <;> norm_num at hnear ⊢ <;> linarith [hnear.1, hnear.2])

theorem roundedDifference_number {a b : ℤ} (ha : |a| ≤ 10 ^ 12) (hb : |b| ≤ 10 ^ 12) :
    roundedDifference (number a) (number b) = a - b := by
  have hdiff : |a - b| ≤ 2 * 10 ^ 12 := (abs_sub a b).trans (by linarith)
  have hna := abs_le.1 (number_near (ha.trans (by norm_num)))
  have hnb := abs_le.1 (number_near (hb.trans (by norm_num)))
  have hd : |((a : ℚ) - b)| ≤ 2 * 10 ^ 12 := by exact_mod_cast hdiff
  rw [abs_le] at hd
  have hlt : |number a - number b| < 2 ^ (35 : ℤ) := by
    rw [abs_lt]
    constructor <;> norm_num at hna hnb ⊢ <;>
      linarith [hna.1, hna.2, hnb.1, hnb.2, hd.1, hd.2]
  have hfl := abs_le.1 (abs_fl_sub_le (by norm_num) hlt)
  refine mathRound_near hdiff ?_
  push_cast
  rw [abs_le]
  constructor <;> norm_num at hna hnb hfl ⊢ <;>
    linarith [hna.1, hna.2, hnb.1, hnb.2, hfl.1, hfl.2]

theorem tolerance_iff {s a : ℤ} (hs : |s| ≤ 10 ^ 12) (ha : |a| ≤ 10 ^ 12) :
    fl (number s + fl (5 / 1000)) < number a ↔ s < a := by
  have hns := abs_le.1 (number_near (hs.trans (by norm_num)))
  have hna := abs_le.1 (number_near (ha.trans (by norm_num)))
  have hhalf := abs_le.1 (abs_fl_sub_le (q := 5 / 1000) (n := 0) (by norm_num) (by
    rw [abs_of_pos (by norm_num)]
    norm_num))
  have hsq : |(s : ℚ)| ≤ 10 ^ 12 := by exact_mod_cast hs
  rw [abs_le] at hsq
  have hlt : |number s + fl (5 / 1000)| < 2 ^ (35 : ℤ) := by
    rw [abs_lt]
    constructor <;> norm_num at hns hhalf ⊢ <;>
      linarith [hns.1, hns.2, hhalf.1, hhalf.2, hsq.1, hsq.2]
  have hfl := abs_le.1 (abs_fl_sub_le (by norm_num) hlt)
  norm_num at hns hna hhalf hfl
  constructor
  · intro h
    by_contra hle
    have hle' : (a : ℚ) ≤ s := by exact_mod_cast not_lt.1 hle
    linarith [hns.1, hna.2, hhalf.1, hfl.1]
  · intro h
    have hle : (s : ℚ) + 1 ≤ a := by exact_mod_cast h
    linarith [hns.2, hna.1, hhalf.2, hfl.2]

theorem number_nonpos_iff {c : ℤ} (h0 : 0 ≤ c) (h : c ≤ 10 ^ 12) : number c ≤ 0 ↔ c ≤ 0 := by
  have hnear := abs_le.1 (number_near (c := c) (by rw [abs_of_nonneg h0]; linarith))
  norm_num at hnear
  constructor
  · intro hle
    by_contra hpos
    have hone : (1 : ℚ) ≤ c := by exact_mod_cast not_le.1 hpos
    linarith [hnear.1]
  · intro hle
    rw [le_antisymm hle h0, number_zero]

/-- **The chain item.**  While the live REPs report no more than the total, the REP of an
allocation continues the chain in exact cents, or there is none. -/
theorem chainItem_eq (total : CfdiTotal) {live : List RepItem} (paymentId : ℕ)
    (allocated : Allocated) (h0 : 0 ≤ (live.map RepItem.imp_pagado).sum)
    (hle : (live.map RepItem.imp_pagado).sum ≤ total.cents) :
    chainItem total.cents live paymentId allocated.cents =
      if live.any fun r => r.payment_id = paymentId then .skipped "REP_ALREADY_EXISTS"
      else
        let saldo := total.cents - (live.map RepItem.imp_pagado).sum
        if saldo ≤ 0 then .skipped "CFDI_FULLY_REPORTED"
        else if saldo < allocated.cents then .skipped "REP_EXCEEDS_BALANCE"
        else .generated ⟨paymentId, live.length + 1, saldo, allocated.cents,
          saldo - allocated.cents⟩ := by
  have ht0 := total.nonneg
  have ht := total.fits
  have ha0 := allocated.positive
  have ha : allocated.cents ≤ 9999999999 := allocated.fits
  unfold chainItem
  generalize (live.map RepItem.imp_pagado).sum = paid at h0 hle ⊢
  have hdiff : roundedDifference (number total.cents) (number paid) = total.cents - paid :=
    roundedDifference_number (by rw [abs_of_nonneg ht0]; omega) (by rw [abs_of_nonneg h0]; omega)
  have hsaldo0 : 0 ≤ total.cents - paid := by omega
  have hmax : max 0 (number (total.cents - paid)) = number (total.cents - paid) :=
    max_eq_right (fl_nonneg (by positivity))
  have himp : mathRound (fl (number allocated.cents * 100)) = allocated.cents :=
    mathRound_near (by rw [abs_of_pos ha0]; omega)
      ((number_near (by rw [abs_of_pos ha0]; omega)).trans (by norm_num))
  simp only [hdiff, hmax, himp, number_nonpos_iff hsaldo0 (by omega),
    tolerance_iff (s := total.cents - paid) (a := allocated.cents)
      (by rw [abs_of_nonneg hsaldo0]; omega) (by rw [abs_of_pos ha0]; omega)]
  split_ifs with hdup hfull hover
  · rfl
  · rfl
  · rfl
  · rw [roundedDifference_number (by rw [abs_of_nonneg hsaldo0]; omega)
      (by rw [abs_of_pos ha0]; omega), toDecimal_number hsaldo0 (by omega),
      toDecimal_number ha0.le (by omega), toDecimal_number (by omega) (by omega)]

end Vigabss.Cfdi
