import Vigabss.Billing.Terminal

/-!
# Vigabss.Billing.Vouchers — what requests leave of payments and reseller entries

Most requests write neither a payment nor an entry of the reseller ledger (`SameVouchers`).  The
others keep what a void of the reseller app has done: a voided payment stays deleted
(`KeepsVouchers`), because a restore asks the reseller ledger first.
-/

namespace Vigabss.Billing

open Vigabss.Lib

/-- The same payments and the same reseller entries. -/
structure SameVouchers (db db' : Db) : Prop where
  payments : db'.payments = db.payments
  resellerEntries : db'.resellerEntries = db.resellerEntries

/-- The same reseller entries; every payment is still there, in its organization, and deleted if
it was voided. -/
structure KeepsVouchers (db db' : Db) : Prop where
  resellerEntries : db'.resellerEntries = db.resellerEntries
  payments : ∀ p ∈ db.payments.rows, ∃ p' ∈ db'.payments.rows, p'.id = p.id ∧
    p'.organizationId = p.organizationId ∧
    (resellerVoided db p = true → p.deleted = true → p'.deleted = true)

namespace SameVouchers

variable {db db' db'' : Db}

theorem refl (db : Db) : SameVouchers db db := ⟨rfl, rfl⟩

theorem trans (h : SameVouchers db db') (h' : SameVouchers db' db'') : SameVouchers db db'' :=
  ⟨h'.payments.trans h.payments, h'.resellerEntries.trans h.resellerEntries⟩

theorem of_sameTables (h : SameTables db db') : SameVouchers db db' :=
  ⟨h.payments, h.resellerEntries⟩

theorem keeps (h : SameVouchers db db') : KeepsVouchers db db' :=
  ⟨h.resellerEntries, fun p hp => ⟨p, h.payments ▸ hp, rfl, rfl, fun _ hdeleted => hdeleted⟩⟩

theorem refresh (db : Db) (i : ℕ) : SameVouchers db (refreshInvoicePaidStatus db i) := by
  rw [refresh_eq]
  exact ⟨rfl, rfl⟩

theorem refreshCreditAll (db : Db) (ids : List ℕ) :
    SameVouchers db (ids.foldl refreshPaidStatus db) := by
  induction ids generalizing db with
  | nil => exact refl db
  | cons i ids ih =>
    refine SameVouchers.trans ?_ (ih _)
    unfold refreshPaidStatus
    cases db.invoices.find? i with
    | none => exact refl db
    | some inv =>
      dsimp only
      split_ifs <;> exact ⟨rfl, rfl⟩

theorem finalize (db : Db) (invoice : Invoice) :
    SameVouchers db (finalizeIfFullyPaid db invoice).1 := by
  unfold finalizeIfFullyPaid
  dsimp only
  split_ifs <;> exact ⟨rfl, rfl⟩

theorem insertAllocation {paymentId invoiceId : ℕ} {amount : ℤ} {id : ℕ}
    (h : db.insertAllocation paymentId invoiceId amount = .ok (db', id)) : SameVouchers db db' := by
  obtain ⟨-, -, rfl⟩ := Db.insertAllocation_ok h
  exact ⟨rfl, rfl⟩

theorem applyAllocation {payment : Payment} {invoice : Invoice} {amount : ℤ}
    {anyClient final : Bool} {id : ℕ} {paid : Bool}
    (h : applyAllocation db payment invoice amount anyClient final = .ok (db', id, paid)) :
    SameVouchers db db' := by
  obtain ⟨-, db₁, hins, rfl⟩ := applyAllocation_ok h
  refine (insertAllocation hins).trans ?_
  split_ifs
  · exact finalize db₁ invoice
  · exact refl db₁

theorem allocateAcross {payment : Payment} {remainder : ℤ} {rows : List OpenInvoice}
    {applied : Applied} (h : allocateAcrossInvoices payment db remainder rows = .ok applied) :
    SameVouchers db applied.db :=
  allocateAcross_rule (I := fun _ db₁ => SameVouchers db db₁) (fun _ _ _ hI => hI)
    (fun _ _ _ _ _ _ _ hI _ _ happ => hI.trans (applyAllocation happ)) (refl db) h

theorem moveAllocations {cond : PaymentAllocation → Bool} {deleted : Bool}
    (h : moveAllocations db cond deleted = .ok db') : SameVouchers db db' := by
  obtain ⟨-, rfl⟩ := moveAllocations_ok.1 h
  rw [refreshAll_eq, Db.markAll_eq]
  exact ⟨rfl, rfl⟩

theorem settle {invoiceId orgId : ℕ} {status : InvoiceStatus} {forbidFrom : List InvoiceStatus} :
    SameVouchers db (settleInvoiceTerminal db invoiceId orgId status forbidFrom).1 := by
  rcases settleInvoiceTerminal_cases db invoiceId orgId status forbidFrom with
    ⟨s, c, m, h⟩ | ⟨existing, -, ⟨-, h⟩ | ⟨-, ⟨err, -, h⟩ | ⟨db₁, hrelease, h⟩⟩⟩
  · rw [h]
    exact refl db
  · rw [h]
    exact ⟨rfl, rfl⟩
  · rw [h]
    exact ⟨rfl, rfl⟩
  · rw [h]
    obtain ⟨-, rfl⟩ := Db.updateAllocations_ok.1 hrelease
    rw [Db.markAll_eq, releaseForInvoice_eq]
    exact ⟨rfl, rfl⟩

theorem syncApplication {note : CreditNote} {orgId : ℕ} {release : Bool}
    (h : syncApplication db note orgId release = .ok db') : SameVouchers db db' := by
  obtain ⟨db₁, hsame, hdb₁⟩ := syncApplication_ok h
  refine SameVouchers.trans ?_ (of_sameTables hsame)
  rcases hdb₁ with rfl | ⟨current, target, invoiceId, -, -, hrep⟩
  · exact refl db₁
  obtain ⟨db₂, hdb₂, rfl⟩ := replaceApplication_ok hrep
  refine SameVouchers.trans ?_ (refreshCreditAll db₂ _)
  have hrel : SameVouchers db (released db current) := by
    cases current <;> exact ⟨rfl, rfl⟩
  rcases hdb₂ with ⟨rfl, -⟩ | ⟨id, -, -, hins⟩
  · exact hrel
  · unfold Db.insertApplication at hins
    split_ifs at hins
    cases hins
    exact hrel.trans ⟨rfl, rfl⟩

theorem payInstallment {orgId planId sequence paymentId : ℕ}
    (h : payInstallment db orgId planId sequence paymentId = .ok db') : SameVouchers db db' := by
  obtain ⟨payment, clientId, installment, db₁, -, halloc, hsame⟩ := payInstallment_ok h
  refine SameVouchers.trans ?_ (of_sameTables hsame)
  rcases allocateInstallment_ok halloc with rfl | ⟨ids, x, amount, id, paid, -, -, -, happ⟩
  · exact refl db₁
  · exact applyAllocation happ

end SameVouchers

/-! ### Requests that write payments -/

section Payments

variable {db db' : Db}

theorem mem_setPayment {paymentId : ℕ} {f : PaymentStatus → PaymentStatus} {deleted : Bool}
    {q : Payment} :
    q ∈ (db.setPayment paymentId f deleted).payments.rows ↔
      q ∈ db.payments.rows ∧ q.id ≠ paymentId ∨
        ∃ p, db.payments.find? paymentId = some p ∧
          q = { p with status := f p.status, deleted } := by
  unfold Db.setPayment
  rw [Table.mem_modify]
  rfl

theorem keeps_setPayment {paymentId : ℕ} {f : PaymentStatus → PaymentStatus} {deleted : Bool}
    (h : SameVouchers db db')
    (hvoided : ∀ p ∈ db.payments.rows, p.id = paymentId → resellerVoided db p = true →
      deleted = true) : KeepsVouchers db (db'.setPayment paymentId f deleted) := by
  refine ⟨h.resellerEntries, fun p hp => ?_⟩
  have hp' : p ∈ db'.payments.rows := h.payments ▸ hp
  by_cases hid : p.id = paymentId
  · have hfind : db'.payments.find? paymentId = some p := by
      rw [← hid]
      exact Table.find?_key hp'
    refine ⟨{ p with status := f p.status, deleted }, ?_, rfl, rfl, fun hv _ => hvoided p hp hid hv⟩
    exact mem_setPayment.2 (.inr ⟨p, hfind, rfl⟩)
  · refine ⟨p, ?_, rfl, rfl, fun _ hdeleted => hdeleted⟩
    exact mem_setPayment.2 (.inl ⟨hp', hid⟩)

theorem keeps_deletePayment {orgId paymentId : ℕ} {bindingRep : Option String}
    (h : deletePayment db orgId paymentId bindingRep = .ok db') : KeepsVouchers db db' := by
  obtain ⟨old, -, -, db₁, hmove, rfl⟩ := deletePayment_ok.1 h
  have hsame : SameVouchers db db₁ :=
    SameVouchers.trans (⟨rfl, rfl⟩ : SameVouchers db (reversePaymentCredit db old.id))
      (.moveAllocations hmove)
  exact keeps_setPayment hsame fun _ _ _ _ => rfl

theorem keeps_restorePayment {orgId paymentId : ℕ}
    (h : restorePayment db orgId paymentId = .ok db') : KeepsVouchers db db' := by
  obtain ⟨payment, hfind, -, -, hvoided, -, hmove⟩ := restorePayment_ok.1 h
  have hset : KeepsVouchers db (db.setPayment payment.id id false) := by
    refine keeps_setPayment (.refl db) fun p hp hid hv => ?_
    obtain ⟨hmem, -⟩ := Table.find?_eq_some.1 hfind
    obtain rfl : p = payment := Table.eq_of_key_eq hp hmem hid
    rw [hvoided] at hv
    cases hv
  have hsame := SameVouchers.moveAllocations hmove
  refine ⟨hsame.resellerEntries, fun p hp => ?_⟩
  obtain ⟨p', hp', hrest⟩ := hset.payments p hp
  exact ⟨p', hsame.payments ▸ hp', hrest⟩

theorem keeps_editPayment {orgId paymentId : ℕ} {amount : Option ℚ}
    {status : Option PaymentStatus} {currency : Option String} {bindingRep : Option String}
    (h : editPayment db orgId paymentId amount status currency bindingRep = .ok db') :
    KeepsVouchers db db' := by
  unfold editPayment at h
  obtain ⟨-, h⟩ := check_ok h
  cases hfind : findPayment db paymentId orgId with
  | none =>
    rw [hfind] at h
    cases h
  | some old =>
    simp only [hfind] at h
    obtain ⟨-, -, h⟩ := except_bind_ok.1 h
    obtain ⟨hold, -, hlive⟩ := findPayment_some.1 hfind
    obtain ⟨hmem, -⟩ := Table.find?_eq_some.1 hold
    have hput : ∀ (db₁ : Db) (new : Payment), SameVouchers db db₁ → new.id = old.id →
        new.organizationId = old.organizationId → new.deleted = old.deleted →
        KeepsVouchers db { db₁ with payments := db₁.payments.put new } := by
      intro db₁ new hsame hid horg hdel
      refine ⟨hsame.resellerEntries, fun p hp => ?_⟩
      by_cases hpid : p.id = old.id
      · obtain rfl : p = old := Table.eq_of_key_eq hp hmem hpid
        exact ⟨new, Table.mem_put.2 (.inl rfl), hid, horg, fun _ hd => hdel.trans hd⟩
      · exact ⟨p, Table.mem_put.2 (.inr ⟨hsame.payments ▸ hp, fun he => hpid (he.trans hid)⟩), rfl,
          rfl, fun _ hd => hd⟩
    obtain rfl := Except.ok.inj h
    refine hput _ _ ?_ rfl rfl rfl
    split_ifs <;> exact ⟨rfl, rfl⟩

end Payments

/-- The requests on payments and invoices but the two of the reseller app. -/
def Event.ofStaff : Event → Bool
  | .collect .. | .voidCollection .. => false
  | _ => true

/-- **A request of the staff** keeps what the reseller app has posted. -/
theorem keeps_after (db : Db) {event : Event} (h : event.ofStaff = true) :
    KeepsVouchers db (db.after event) := by
  have hrefl : KeepsVouchers db db := (SameVouchers.refl db).keeps
  cases event with
  | allocate orgId paymentId invoiceId amount =>
    refine commit_cases hrefl fun db' hok => ?_
    obtain ⟨-, _, invoice, db₁, id, -, -, -, -, hins, rfl⟩ := allocate_ok hok
    exact ((SameVouchers.insertAllocation hins).trans (.finalize db₁ invoice)).keeps
  | allocateAuto orgId paymentId invoiceIds =>
    refine commit_cases hrefl fun db' hok => ?_
    obtain ⟨_, _, _, applied, -, -, happ, rfl⟩ := allocateAuto_ok hok
    exact (SameVouchers.allocateAcross happ).keeps
  | unapply orgId paymentId invoiceId bindingRep =>
    refine commit_cases hrefl fun db' hok => ?_
    obtain ⟨row, -, -, rfl⟩ := unapply_ok hok
    exact (SameVouchers.trans (⟨rfl, rfl⟩ : SameVouchers db (db.mark true row))
      (.refresh _ invoiceId)).keeps
  | reallocate orgId paymentId fromInvoiceId toInvoiceId amount bindingRep =>
    refine commit_cases hrefl fun db' hok => ?_
    obtain ⟨-, _, row, _, db₁, _, -, -, -, -, -, hins, rfl⟩ := reallocate_ok hok
    exact ((SameVouchers.trans (⟨rfl, rfl⟩ : SameVouchers db (db.mark true row))
      (.insertAllocation hins)).trans ((SameVouchers.refresh _ _).trans (.refresh _ _))).keeps
  | deletePayment orgId paymentId bindingRep =>
    exact commit_cases hrefl fun db' hok => keeps_deletePayment hok
  | restorePayment orgId paymentId =>
    exact commit_cases hrefl fun db' hok => keeps_restorePayment hok
  | syncApplication note orgId release =>
    exact commit_cases hrefl fun db' hok => (SameVouchers.syncApplication hok).keeps
  | voidInvoice invoiceId orgId liveCfdi =>
    rcases voidInvoiceById_cases db invoiceId orgId liveCfdi with ⟨s, c, m, h⟩ | ⟨-, h⟩
    · simp only [Db.after, h]
      exact hrefl
    · simp only [Db.after, h]
      exact SameVouchers.settle.keeps
  | cancelForSat invoiceId orgId => exact SameVouchers.settle.keeps
  | payInstallment orgId planId sequence paymentId =>
    exact commit_cases hrefl fun db' hok => (SameVouchers.payInstallment hok).keeps
  | collect => cases h
  | voidCollection => cases h

end Vigabss.Billing
