import Vigabss.Billing.Vouchers
import Vigabss.Gateway.Payments

/-!
# Vigabss.Gateway.Settled — what is allocated is money that counts

A live allocation belongs to a payment that is live and completed.  Every operation guards this in
its own way, and one guard has a gap: an edit looks at the sum of a payment's allocations, not at
whether there are any, so that allocations of nothing stay live on a payment whose status it takes
away.
-/

namespace Vigabss.Gateway

open Vigabss.Lib Vigabss.Billing

/-- The allocation belongs to a live and completed payment. -/
def Backed (db : Billing.Db) (a : PaymentAllocation) : Prop :=
  ∃ p ∈ db.payments.rows, p.id = a.paymentId ∧ counts p = true

/-- Every live allocation belongs to a live and completed payment. -/
def Settled (db : Billing.Db) : Prop :=
  ∀ a ∈ db.allocations.rows, a.deleted = false → Backed db a

variable {db db' : Billing.Db}

theorem counts_iff {p : Payment} : counts p = true ↔ p.deleted = false ∧ p.status = .completed := by
  simp [counts]

theorem Backed.of_mem {p : Payment} {a : PaymentAllocation} (hp : p ∈ db.payments.rows)
    (hid : p.id = a.paymentId) (hcounts : counts p = true) : Backed db a := ⟨p, hp, hid, hcounts⟩

theorem Settled.of_payments (h : Settled db) (hpayments : db'.payments = db.payments)
    (hnew : ∀ a ∈ db'.allocations.rows, a.deleted = false →
      a ∈ db.allocations.rows ∨ Backed db a) : Settled db' := by
  intro a ha hlive
  unfold Backed
  rw [hpayments]
  rcases hnew a ha hlive with hold | hbacked
  · exact h a hold hlive
  · exact hbacked

theorem Settled.rewrite (h : Settled db) {p r : Payment} (hid : r.id = p.id)
    (hrows : ∀ q, q ∈ db'.payments.rows ↔ q ∈ db.payments.rows ∧ q.id ≠ p.id ∨ q = r)
    (hallocations : ∀ a ∈ db'.allocations.rows, a.deleted = false →
      a ∈ db.allocations.rows ∧ a.paymentId ≠ p.id ∨ a.paymentId = p.id ∧ counts r = true) :
    Settled db' := by
  intro a ha hlive
  rcases hallocations a ha hlive with ⟨hold, hne⟩ | ⟨hpay, hcounts⟩
  · obtain ⟨q, hq, hqid, hqcounts⟩ := h a hold hlive
    exact ⟨q, (hrows q).2 (.inl ⟨hq, fun heq => hne (hqid.symm.trans heq)⟩), hqid, hqcounts⟩
  · exact ⟨r, (hrows r).2 (.inr rfl), hid.trans hpay.symm, hcounts⟩

/-! ### Allocations that are made, deleted and revived -/

theorem Settled.insertAllocation (h : Settled db) {p : Payment} {invoiceId : ℕ} {amount : ℤ}
    {id : ℕ} (hp : p ∈ db.payments.rows) (hcounts : counts p = true)
    (hok : db.insertAllocation p.id invoiceId amount = .ok (db', id)) : Settled db' := by
  obtain ⟨-, -, rfl⟩ := Db.insertAllocation_ok hok
  refine h.of_payments rfl fun a ha _ => ?_
  rcases Table.mem_insert.1 ha with ha | rfl
  · exact .inl ha
  · exact .inr (.of_mem hp rfl hcounts)

theorem Settled.congr (h : Settled db) (hpayments : db'.payments = db.payments)
    (hallocations : db'.allocations = db.allocations) : Settled db' :=
  h.of_payments hpayments fun _ ha _ => .inl (hallocations ▸ ha)

theorem Settled.refresh (h : Settled db) (i : ℕ) : Settled (refreshInvoicePaidStatus db i) := by
  rw [refresh_eq]
  exact h.congr rfl rfl

theorem Settled.finalize (h : Settled db) (invoice : Invoice) :
    Settled (finalizeIfFullyPaid db invoice).1 := by
  unfold finalizeIfFullyPaid
  dsimp only
  split_ifs <;> exact h.congr rfl rfl

theorem Settled.allocateAcross (h : Settled db) {payment : Payment} {remainder : ℤ}
    {rows : List OpenInvoice} {applied : Applied} (hp : payment ∈ db.payments.rows)
    (hcounts : counts payment = true)
    (hok : allocateAcrossInvoices payment db remainder rows = .ok applied) :
    Settled applied.db := by
  refine (allocateAcross_rule (I := fun _ db₁ => Settled db₁ ∧ payment ∈ db₁.payments.rows)
    (fun _ _ _ hI => hI) (fun x _ db₁ db₂ _ _ _ hI _ _ happ => ?_) ⟨h, hp⟩ hok).1
  obtain ⟨-, db₃, hins, rfl⟩ := applyAllocation_ok happ
  have hsettled := hI.1.insertAllocation hI.2 hcounts hins
  have hstill : payment ∈ db₃.payments.rows := by
    obtain ⟨-, -, rfl⟩ := Db.insertAllocation_ok hins
    exact hI.2
  split_ifs
  · refine ⟨hsettled.finalize x.invoice, ?_⟩
    unfold finalizeIfFullyPaid
    dsimp only
    split_ifs <;> exact hstill
  · exact ⟨hsettled, hstill⟩

theorem live_of_deleteAll {rows : List PaymentAllocation} {a : PaymentAllocation}
    (ha : a ∈ (db.markAll true rows).allocations.rows) (hlive : a.deleted = false) :
    a ∈ db.allocations.rows ∧ a ∉ rows := by
  rw [Db.markAll_rows] at ha
  obtain ⟨b, hb, rfl⟩ := List.mem_map.1 ha
  by_cases hin : b.id ∈ rows.map PaymentAllocation.id
  · rw [Db.markIn, if_pos hin] at hlive
    cases hlive
  · rw [Db.markIn, if_neg hin]
    exact ⟨hb, fun hmem => hin (List.mem_map_of_mem hmem)⟩

theorem live_of_reverse {paymentId : ℕ} {a : PaymentAllocation}
    (ha : a ∈ (db.markAll true
      (db.allocations.rows.filter (ofPayment paymentId))).allocations.rows)
    (hlive : a.deleted = false) : a ∈ db.allocations.rows ∧ a.paymentId ≠ paymentId := by
  obtain ⟨hmem, hnot⟩ := live_of_deleteAll ha hlive
  exact ⟨hmem, fun hpay => hnot (List.mem_filter.2 ⟨hmem, by simp [ofPayment, hpay, hlive]⟩)⟩

theorem Settled.mark (h : Settled db) {row : PaymentAllocation}
    (hrow : row ∈ db.allocations.rows) : Settled (db.mark true row) := by
  refine h.of_payments rfl fun a ha hlive => ?_
  rcases (Db.mem_mark hrow).1 ha with ⟨ha, -⟩ | rfl
  · exact .inl ha
  · cases hlive

/-! ### The operations -/

theorem allocate_settled {orgId paymentId invoiceId : ℕ} {amount : ℚ}
    (h : allocate db orgId paymentId invoiceId amount = .ok db') :
    ∃ payment, findPayment db paymentId orgId = some payment ∧ payment.status = .completed := by
  unfold allocate at h
  obtain ⟨-, h⟩ := check_ok h
  simp only [except_bind_ok, requirePayment_ok, requireSettled_ok] at h
  obtain ⟨payment, hpay, -, hstatus, -⟩ := h
  exact ⟨payment, hpay, hstatus⟩

theorem allocateAuto_settled {orgId paymentId : ℕ} {invoiceIds : Option (List ℕ)}
    (h : allocateAuto db orgId paymentId invoiceIds = .ok db') :
    ∃ payment, findPayment db paymentId orgId = some payment ∧ payment.status = .completed := by
  unfold allocateAuto at h
  obtain ⟨-, h⟩ := check_ok h
  simp only [except_bind_ok, requirePayment_ok, requireSettled_ok] at h
  obtain ⟨payment, hpay, -, hstatus, -⟩ := h
  exact ⟨payment, hpay, hstatus⟩

theorem reallocate_settled {orgId paymentId fromInvoiceId toInvoiceId : ℕ} {amount : Option ℚ}
    {bindingRep : Option String}
    (h : reallocate db orgId paymentId fromInvoiceId toInvoiceId amount bindingRep = .ok db') :
    ∃ payment, findPayment db paymentId orgId = some payment ∧ payment.status = .completed := by
  unfold reallocate at h
  obtain ⟨-, h⟩ := check_ok h
  obtain ⟨-, h⟩ := check_ok h
  obtain ⟨payment, hpay, h⟩ := except_bind_ok.1 h
  obtain ⟨_, hsettled, -⟩ := except_bind_ok.1 h
  exact ⟨payment, requirePayment_ok.1 hpay, requireSettled_ok.1 hsettled⟩

theorem found_counts {orgId paymentId : ℕ} {payment : Payment}
    (hfind : findPayment db paymentId orgId = some payment)
    (hsettled : ∃ p, findPayment db paymentId orgId = some p ∧ p.status = .completed) :
    payment ∈ db.payments.rows ∧ counts payment = true := by
  obtain ⟨p, hp, hstatus⟩ := hsettled
  obtain rfl := Option.some.inj (hp.symm.trans hfind)
  obtain ⟨hold, -, hlive⟩ := findPayment_some.1 hfind
  exact ⟨(Table.find?_eq_some.1 hold).1, counts_iff.2 ⟨hlive, hstatus⟩⟩

theorem Settled.allocate (h : Settled db) {orgId paymentId invoiceId : ℕ} {amount : ℚ}
    (hok : allocate db orgId paymentId invoiceId amount = .ok db') : Settled db' := by
  obtain ⟨-, payment, invoice, db₁, _, hpay, -, -, -, hins, rfl⟩ := allocate_ok hok
  obtain ⟨hmem, hcounts⟩ := found_counts hpay (allocate_settled hok)
  exact (h.insertAllocation hmem hcounts hins).finalize invoice

theorem Settled.allocateAuto (h : Settled db) {orgId paymentId : ℕ} {ids : Option (List ℕ)}
    (hok : allocateAuto db orgId paymentId ids = .ok db') : Settled db' := by
  obtain ⟨payment, _, _, _, hpay, -, happ, rfl⟩ := allocateAuto_ok hok
  obtain ⟨hmem, hcounts⟩ := found_counts hpay (allocateAuto_settled hok)
  exact h.allocateAcross hmem hcounts happ

theorem Settled.unapply (h : Settled db) {orgId paymentId invoiceId : ℕ}
    {bindingRep : Option String}
    (hok : unapply db orgId paymentId invoiceId bindingRep = .ok db') : Settled db' := by
  obtain ⟨row, hrow, -, rfl⟩ := unapply_ok hok
  exact (h.mark (liveAllocation_some hrow).1).refresh invoiceId

theorem Settled.reallocate (h : Settled db) {orgId paymentId fromInvoiceId toInvoiceId : ℕ}
    {amount : Option ℚ} {bindingRep : Option String}
    (hok : reallocate db orgId paymentId fromInvoiceId toInvoiceId amount bindingRep = .ok db') :
    Settled db' := by
  obtain ⟨-, payment, row, _, db₁, _, hpay, hrow, -, -, -, hins, rfl⟩ := reallocate_ok hok
  obtain ⟨hmem, hcounts⟩ := found_counts hpay (reallocate_settled hok)
  have hmarked : Settled (db.mark true row) := h.mark (liveAllocation_some hrow).1
  exact ((hmarked.insertAllocation hmem hcounts hins).refresh fromInvoiceId).refresh toInvoiceId

theorem moveAllocations_marks {cond : PaymentAllocation → Bool} {deleted : Bool}
    (hok : moveAllocations db cond deleted = .ok db') :
    db'.payments = db.payments ∧ db'.allocations =
      (db.markAll deleted (db.allocations.rows.filter cond)).allocations := by
  obtain ⟨-, rfl⟩ := moveAllocations_ok.1 hok
  constructor
  · rw [refreshAll_eq, Db.markAll_eq]
  · rw [refreshAll_eq]

theorem Settled.deletePayment (h : Settled db) {orgId paymentId : ℕ} {bindingRep : Option String}
    (hok : deletePayment db orgId paymentId bindingRep = .ok db') : Settled db' := by
  obtain ⟨old, hfind, -, db₁, hmove, rfl⟩ := deletePayment_ok.1 hok
  obtain ⟨hold, -, -⟩ := findPayment_some.1 hfind
  obtain ⟨hmem, (rfl : old.id = paymentId)⟩ := Table.find?_eq_some.1 hold
  obtain ⟨hpayments, hallocations⟩ := moveAllocations_marks hmove
  refine h.rewrite (p := old) (r := { old with deleted := true }) rfl (fun q => ?_)
    fun a ha hlive => .inl ?_
  · rw [mem_setPayment, hpayments]
    show q ∈ db.payments.rows ∧ _ ∨ (∃ p, db.payments.find? old.id = some p ∧ _) ↔ _
    simp [hold]
  · have ha : a ∈ db₁.allocations.rows := ha
    rw [hallocations] at ha
    exact @live_of_reverse (reversePaymentCredit db old.id) _ _ ha hlive

theorem live_of_restore {paymentId : ℕ} {a : PaymentAllocation}
    (ha : a ∈ (db.markAll false
      (db.allocations.rows.filter (deletedOfPayment paymentId))).allocations.rows)
    (hlive : a.deleted = false) : a ∈ db.allocations.rows ∨ a.paymentId = paymentId := by
  rw [Db.markAll_rows] at ha
  obtain ⟨b, hb, rfl⟩ := List.mem_map.1 ha
  by_cases hin : b.id ∈ (db.allocations.rows.filter (deletedOfPayment paymentId)).map
      PaymentAllocation.id
  · obtain ⟨row, hrow, hid⟩ := List.mem_map.1 hin
    obtain ⟨hrow, hcond⟩ := List.mem_filter.1 hrow
    obtain rfl : row = b := Table.eq_of_key_eq hrow hb hid
    simp only [deletedOfPayment, decide_eq_true_eq] at hcond
    rw [Db.markIn, if_pos hin]
    exact .inr hcond.1
  · rw [Db.markIn, if_neg hin]
    exact .inl hb

theorem Settled.restorePayment (h : Settled db) {orgId paymentId : ℕ}
    (hok : restorePayment db orgId paymentId = .ok db') : Settled db' := by
  obtain ⟨payment, hfind, -, hdeleted, -, hcompleted, hmove⟩ := restorePayment_ok.1 hok
  obtain ⟨hmem, (rfl : payment.id = paymentId)⟩ := Table.find?_eq_some.1 hfind
  obtain ⟨hpayments, hallocations⟩ := moveAllocations_marks hmove
  refine h.rewrite (p := payment) (r := { payment with deleted := false }) rfl (fun q => ?_)
    fun a ha hlive => ?_
  · rw [hpayments]
    show q ∈ (db.setPayment payment.id id false).payments.rows ↔ _
    rw [mem_setPayment]
    simp [hfind]
  · rw [hallocations] at ha
    by_cases hpay : a.paymentId = payment.id
    · exact .inr ⟨hpay, counts_iff.2 ⟨rfl, hcompleted⟩⟩
    · refine .inl ⟨?_, hpay⟩
      exact (@live_of_restore (undeleted db orgId payment) _ _ ha hlive).resolve_right hpay

theorem Settled.refundPayment (h : Settled db) {p : Payment} (hmem : p ∈ db.payments.rows)
    (hok : refundPayment db p = .ok db') : Settled db' := by
  obtain ⟨invoices, rfl⟩ := refundPayment_ok hok
  refine h.rewrite (p := p) (r := { p with status := .refunded }) rfl (fun q => ?_)
    fun a ha hlive => .inl ?_
  · show q ∈ (takenBack db p).payments.rows ↔ _
    rw [takenBack_payments, mem_setPayment]
    simp [show db.payments.find? p.id = some p from Table.find?_key hmem]
  · exact @live_of_reverse
      (db.setPayment p.id (fun _ => .refunded) p.deleted) _ _ ha hlive

theorem Settled.withPayment (h : Settled db) {orgId : ℕ} {payer : ℕ → Payment}
    {hid : ∀ n, (payer n).id = n} : Settled (withPayment db orgId payer hid) := by
  intro a ha hlive
  obtain ⟨p, hp, hpid, hcounts⟩ := h a ha hlive
  exact ⟨p, mem_withPayment.2 (.inl hp), hpid, hcounts⟩

/-! ### Edits -/

/-- The edit takes the status `completed` away from a payment that still has live allocations: no
payment complement stands in the way, and the amounts of those allocations sum up to no more than
half a cent. -/
def Unsettles (db : Billing.Db) (old : Payment) (amount : Option ℚ)
    (status : Option PaymentStatus) (bindingRep : Option String) : Prop :=
  old.status = .completed ∧ status.getD old.status ≠ .completed ∧ amount.any (· < 0) = false ∧
    bindingRep = none ∧ number (db.allocatedOf old.id) ≤ fl (5 / 1000) ∧
    ∃ a ∈ db.allocations.rows, ofPayment old.id a = true

instance (db : Billing.Db) (old : Payment) (amount : Option ℚ) (status : Option PaymentStatus)
    (bindingRep : Option String) : Decidable (Unsettles db old amount status bindingRep) :=
  inferInstanceAs (Decidable (_ ∧ _ ∧ _ ∧ _ ∧ _ ∧ _))

theorem editChecks_ok {old : Payment} {amount : Option ℚ} {status : Option PaymentStatus}
    {bindingRep : Option String} :
    assertPaymentEditKeepsMoneyConsistent db old amount status bindingRep = .ok () ↔
      ¬ (amount.any (· ≠ number old.amount) ∧
          amount.any (· < fl (number (db.allocatedOf old.id) - fl (5 / 1000)))) ∧
        (status.getD old.status ≠ old.status ∧ old.status = .completed → bindingRep = none) ∧
        ¬ (status.getD old.status ≠ old.status ∧ status.getD old.status ≠ .completed ∧
          number (db.allocatedOf old.id) > fl (5 / 1000)) := by
  unfold assertPaymentEditKeepsMoneyConsistent
  dsimp only
  by_cases hamount : amount.any (· ≠ number old.amount) ∧
      amount.any (· < fl (number (db.allocatedOf old.id) - fl (5 / 1000)))
  · rw [if_pos hamount]
    exact ⟨fun h => (by cases h), fun h => absurd hamount h.1⟩
  rw [if_neg hamount]
  by_cases hrep : status.getD old.status ≠ old.status ∧ old.status = .completed
  · rw [if_pos hrep]
    cases bindingRep with
    | some message =>
      exact ⟨fun h => (by cases h), fun h => absurd (h.2.1 hrep) (by simp)⟩
    | none =>
      rw [assertNoBindingRep]
      show (if _ then _ else _) = _ ↔ _
      split_ifs with hsum
      · exact ⟨fun h => (by cases h), fun h => absurd hsum h.2.2⟩
      · exact ⟨fun _ => ⟨hamount, fun _ => rfl, hsum⟩, fun _ => rfl⟩
  · rw [if_neg hrep]
    show (if _ then _ else _) = _ ↔ _
    split_ifs with hsum
    · exact ⟨fun h => (by cases h), fun h => absurd hsum h.2.2⟩
    · exact ⟨fun _ => ⟨hamount, fun h => absurd h hrep, hsum⟩, fun _ => rfl⟩

theorem editLedger_allocations (db : Billing.Db) (old : Payment) (amount : Option ℚ)
    (status : Option PaymentStatus) (currency : Option String) :
    (editLedger db old amount status currency).allocations = db.allocations := by
  unfold editLedger
  split_ifs <;> rfl

/-- An edit that goes through keeps what is allocated settled, unless it unsettles. -/
theorem Settled.editPayment (h : Settled db) {orgId paymentId : ℕ} {amount : Option ℚ}
    {status : Option PaymentStatus} {currency bindingRep : Option String}
    (hkeeps : ∀ old ∈ findPayment db paymentId orgId, ¬ Unsettles db old amount status bindingRep)
    (hok : editPayment db orgId paymentId amount status currency bindingRep = .ok db') :
    Settled db' := by
  obtain ⟨hbody, old, hfind, hchecks, rfl⟩ := editPayment_ok.1 hok
  obtain ⟨hold, -, hlive⟩ := findPayment_some.1 hfind
  obtain ⟨hmem, -⟩ := Table.find?_eq_some.1 hold
  refine h.rewrite (p := old) (r := edited old amount status currency) rfl (fun q => ?_)
    fun a ha halive => ?_
  · show q ∈ (db.payments.put (edited old amount status currency)).rows ↔ _
    rw [Table.mem_put, or_comm]
    rfl
  · have hrow : a ∈ (editLedger db old amount status currency).allocations.rows := ha
    rw [editLedger_allocations] at hrow
    by_cases hpay : a.paymentId = old.id
    · refine .inr ⟨hpay, counts_iff.2 ⟨hlive, ?_⟩⟩
      by_contra hstatus
      -- the allocation shows that the payment was completed before
      obtain ⟨p, hp, hpid, hcounts⟩ := h a hrow halive
      obtain rfl : p = old := Table.eq_of_key_eq hp hmem (hpid.trans hpay)
      have hcompleted := (counts_iff.1 hcounts).2
      have hchanges : status.getD p.status ≠ p.status := fun heq => hstatus (heq.trans hcompleted)
      obtain ⟨-, hrep, hsum⟩ := editChecks_ok.1 hchecks
      refine hkeeps p hfind ⟨hcompleted, hstatus, hbody, hrep ⟨hchanges, hcompleted⟩, ?_, a,
        hrow, ?_⟩
      · exact not_lt.1 fun hlt => hsum ⟨hchanges, hstatus, hlt⟩
      · simp [ofPayment, hpay, halive]
    · exact .inl ⟨hrow, hpay⟩

theorem Unsettles.goes_through {old : Payment} {orgId paymentId : ℕ} {amount : Option ℚ}
    {status : Option PaymentStatus} {currency bindingRep : Option String}
    (h : Unsettles db old amount status bindingRep)
    (hfind : findPayment db paymentId orgId = some old) :
    editPayment db orgId paymentId amount status currency bindingRep =
      .ok { editLedger db old amount status currency with
        payments := db.payments.put (edited old amount status currency) } := by
  obtain ⟨-, -, hbody, hrep, hsum, -⟩ := h
  refine editPayment_ok.2 ⟨hbody, old, hfind, editChecks_ok.2 ⟨?_, fun _ => hrep, ?_⟩, rfl⟩
  · rintro ⟨-, hlow⟩
    cases amount with
    | none => cases hlow
    | some x =>
      simp only [Option.any_some, decide_eq_true_eq, decide_eq_false_iff_not, not_lt] at hbody hlow
      have hfl : fl (number (db.allocatedOf old.id) - fl (5 / 1000)) ≤ 0 :=
        fl_nonpos (sub_nonpos.2 hsum)
      exact absurd (hlow.trans_le hfl) (not_lt.2 hbody)
  · exact fun hover => absurd hover.2.2 (not_lt.2 hsum)

theorem Unsettles.not_settled {old : Payment} {orgId paymentId : ℕ} {amount : Option ℚ}
    {status : Option PaymentStatus} {currency bindingRep : Option String}
    (h : Unsettles db old amount status bindingRep)
    (hfind : findPayment db paymentId orgId = some old) :
    ¬ Settled (commit db
      (editPayment db orgId paymentId amount status currency bindingRep)) := by
  rw [h.goes_through hfind]
  obtain ⟨-, hstatus, -, -, -, a, ha, hof⟩ := h
  simp only [ofPayment, decide_eq_true_eq] at hof
  intro hsettled
  have hrow : a ∈ (editLedger db old amount status currency).allocations.rows := by
    rwa [editLedger_allocations]
  obtain ⟨p, hp, hpid, hcounts⟩ := hsettled a hrow hof.2
  rcases Table.mem_put.1 hp with rfl | ⟨-, hne⟩
  · exact hstatus (counts_iff.1 hcounts).2
  · exact hne (hpid.trans hof.1)

/-! ### Runs -/

/-- No edit unsettles. -/
def KeepsSettled (db : Db) : Event → Prop
  | .editPayment orgId paymentId amount status _ bindingRep =>
    ∀ old ∈ findPayment db.billing paymentId orgId,
      ¬ Unsettles db.billing old amount status bindingRep
  | _ => True

instance (db : Db) : (event : Event) → Decidable (KeepsSettled db event)
  | .editPayment orgId paymentId amount status _ bindingRep =>
    inferInstanceAs (Decidable (∀ old ∈ findPayment db.billing paymentId orgId,
      ¬ Unsettles db.billing old amount status bindingRep))
  | .createPayment .. | .deletePayment .. | .restorePayment .. | .allocate .. | .allocateAuto ..
  | .reallocate .. | .unapply .. | .reconcilePayment .. | .reverseRefund ..
  | .openTransaction .. | .reportStatus .. => .isTrue trivial

theorem Settled.reconcile {db db' : Db} {transactionId : ℕ} {answer : Reconciled}
    (h : Settled db.billing) (hok : reconcilePayment db transactionId = .ok (db', answer)) :
    Settled db'.billing := by
  rcases reconcilePayment_ok hok with rfl | ⟨tx, rows, applied, _, -, -, -, -, happ, -, rfl⟩
  · exact h
  · refine Settled.allocateAcross h.withPayment (mem_withPayment.2 (.inr rfl)) ?_ happ
    exact counts_iff.2 ⟨rfl, rfl⟩

theorem settled_after {db : Db} {event : Event} (h : Settled db.billing)
    (hkeeps : KeepsSettled db event) : Settled (db.after event).billing := by
  cases event with
  | createPayment orgId clientId amount currency status clientOwned orgCurrency =>
    refine commit_cases h fun db' hok => ?_
    obtain ⟨-, rfl⟩ := createPayment_ok hok
    exact h.withPayment
  | editPayment orgId paymentId amount status currency bindingRep =>
    exact commit_cases h fun db' hok => h.editPayment hkeeps hok
  | deletePayment orgId paymentId bindingRep =>
    exact commit_cases h fun db' hok => h.deletePayment hok
  | restorePayment orgId paymentId => exact commit_cases h fun db' hok => h.restorePayment hok
  | allocate orgId paymentId invoiceId amount =>
    exact commit_cases h fun db' hok => h.allocate hok
  | allocateAuto orgId paymentId invoiceIds =>
    exact commit_cases h fun db' hok => h.allocateAuto hok
  | reallocate orgId paymentId fromInvoiceId toInvoiceId amount bindingRep =>
    exact commit_cases h fun db' hok => h.reallocate hok
  | unapply orgId paymentId invoiceId bindingRep =>
    exact commit_cases h fun db' hok => h.unapply hok
  | reconcilePayment transactionId =>
    refine after_reconcile_cases (P := fun db => Settled db.billing) h fun db' answer hok => ?_
    exact Settled.reconcile h hok
  | reverseRefund transactionId =>
    show Settled (reverseRefund db transactionId).billing
    rcases reverseRefund_cases db transactionId with heq | ⟨p, billing, hpay, -, hok, heq⟩
    · rwa [heq]
    · rw [heq]
      exact h.refundPayment (paymentOf_some hpay) hok
  | openTransaction orgId clientId invoiceId amount currency => exact h
  | reportStatus transactionId status => exact h

/-- **Every live allocation stays backed in a run just when none of its edits unsettles.** -/
theorem settled_always_iff {db : Db} (events : List Event) (h : Settled db.billing) :
    Always Db.after (fun db => Settled db.billing) db events ↔
      StepsMeet Db.after KeepsSettled db events := by
  refine always_iff_stepsMeet (I := fun db : Db => Settled db.billing) (fun _ h => h)
    (fun _ _ => settled_after) (fun db event _ hbad => ?_) h events
  cases event with
  | editPayment orgId paymentId amount status currency bindingRep =>
    simp only [KeepsSettled, not_forall, not_not] at hbad
    obtain ⟨old, hfind, hunsettles⟩ := hbad
    exact hunsettles.not_settled hfind
  | createPayment | deletePayment | restorePayment | allocate | allocateAuto | reallocate
  | unapply | reconcilePayment | reverseRefund | openTransaction | reportStatus =>
    exact absurd trivial hbad

/-! ### An allocation of nothing -/

/-- An open invoice of 100.00, and no payments. -/
def oneInvoice : Db :=
  ⟨⟨.empty, ⟨[⟨1, 1, 1, 1, 10000, "MXN", .issued, false⟩], by decide⟩, .empty, .empty, .empty,
    .empty, .empty, [], []⟩, .empty⟩

theorem oneInvoice_settled : Settled oneInvoice.billing := by
  simp [Settled, oneInvoice, Table.empty]

/-- The payment is applied to the invoice, taken off again, and only then cancelled. -/
theorem settled_always_unapplied :
    Always Db.after (fun db => Settled db.billing) oneInvoice
      [.createPayment 1 1 100 none none true "MXN", .allocate 1 1 1 60, .unapply 1 1 1 none,
        .editPayment 1 1 none (some .cancelled) none none] :=
  (settled_always_iff _ oneInvoice_settled).2 (by decide +kernel)

/-- The payment is applied to the invoice with an amount of 0, and cancelled. -/
theorem cancelled_with_allocation :
    ¬ ∀ (db : Db) (events : List Event), Settled db.billing →
      Always Db.after (fun db => Settled db.billing) db events := by
  intro h
  have hsettled := (h oneInvoice [.createPayment 1 1 100 none none true "MXN",
    .allocate 1 1 1 0, .editPayment 1 1 none (some .cancelled) none none] oneInvoice_settled).last
  obtain ⟨p, hp, hid, hcounts⟩ := hsettled ⟨1, 1, 1, 0, false⟩ (by decide +kernel) rfl
  have hnone : ∀ p ∈ (run Db.after oneInvoice [.createPayment 1 1 100 none none true "MXN",
      .allocate 1 1 1 0, .editPayment 1 1 none (some .cancelled) none none]).billing.payments.rows,
      counts p = false := by
    decide +kernel
  rw [hnone p hp] at hcounts
  cases hcounts

end Vigabss.Gateway
