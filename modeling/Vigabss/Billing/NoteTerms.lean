import Vigabss.Billing.Vouchers
import Vigabss.Billing.Conserving

/-!
# Vigabss.Billing.NoteTerms — what requests leave of the credit notes

A request on payments or invoices writes nothing of a credit note but its status, and that only
between issued and applied: a note keeps its owner, its total and whether it counts.
-/

namespace Vigabss.Billing

open Vigabss.Lib

/-- What the ledger holds a note to. -/
structure NoteTerms where
  id : ℕ
  organizationId : ℕ
  clientId : ℕ
  total : ℤ
  counts : Bool

def CreditNote.terms (n : CreditNote) : NoteTerms where
  id := n.id
  organizationId := n.organizationId
  clientId := n.clientId
  total := n.total
  counts := n.counts

/-- The same notes on the same terms. -/
def KeepsTerms (db db' : Db) : Prop :=
  db'.creditNotes.rows.map CreditNote.terms = db.creditNotes.rows.map CreditNote.terms

namespace KeepsTerms

variable {db db' db'' : Db}

theorem refl (db : Db) : KeepsTerms db db := rfl

theorem trans (h : KeepsTerms db db') (h' : KeepsTerms db' db'') : KeepsTerms db db'' :=
  Eq.trans h' h

theorem of_eq (h : db'.creditNotes = db.creditNotes) : KeepsTerms db db' := by
  rw [KeepsTerms, h]

theorem find (h : KeepsTerms db db') (id : ℕ) :
    (db'.creditNotes.find? id).map CreditNote.terms =
      (db.creditNotes.find? id).map CreditNote.terms := by
  have hfind : ∀ t : Table CreditNote, (t.find? id).map CreditNote.terms =
      (t.rows.map CreditNote.terms).find? fun terms => terms.id = id := by
    intro t
    rw [List.find?_map]
    rfl
  rw [hfind, hfind, h]

theorem setNoteStatus (db : Db) (noteId : ℕ) {f : CreditNoteStatus → CreditNoteStatus}
    (hf : ∀ st, (f st).posted = st.posted) : KeepsTerms db (db.setNoteStatus noteId f) := by
  unfold KeepsTerms Db.setNoteStatus Table.modify
  simp only [List.map_map]
  refine List.map_congr_left fun n _ => ?_
  simp only [Function.comp_apply]
  split_ifs
  · simp [CreditNote.terms, CreditNote.counts, hf]
  · rfl

theorem finalize (db : Db) (invoice : Invoice) :
    KeepsTerms db (finalizeIfFullyPaid db invoice).1 := by
  unfold finalizeIfFullyPaid
  dsimp only
  split_ifs <;> rfl

theorem refresh (db : Db) (i : ℕ) : KeepsTerms db (refreshInvoicePaidStatus db i) := by
  rw [refresh_eq]
  rfl

theorem insertAllocation {paymentId invoiceId : ℕ} {amount : ℤ} {id : ℕ}
    (h : db.insertAllocation paymentId invoiceId amount = .ok (db', id)) : KeepsTerms db db' := by
  obtain ⟨-, -, rfl⟩ := Db.insertAllocation_ok h
  rfl

theorem applyAllocation {payment : Payment} {invoice : Invoice} {amount : ℤ}
    {anyClient final : Bool} {id : ℕ} {paid : Bool}
    (h : applyAllocation db payment invoice amount anyClient final = .ok (db', id, paid)) :
    KeepsTerms db db' := by
  obtain ⟨-, db₁, hins, rfl⟩ := applyAllocation_ok h
  refine (insertAllocation hins).trans ?_
  split_ifs
  · exact finalize db₁ invoice
  · exact refl db₁

theorem allocateAcross {payment : Payment} {remainder : ℤ} {rows : List OpenInvoice}
    {applied : Applied} (h : allocateAcrossInvoices payment db remainder rows = .ok applied) :
    KeepsTerms db applied.db :=
  allocateAcross_rule (I := fun _ db₁ => KeepsTerms db db₁) (fun _ _ _ hI => hI)
    (fun _ _ _ _ _ _ _ hI _ _ happ => hI.trans (applyAllocation happ)) (refl db) h

theorem moveAllocations {cond : PaymentAllocation → Bool} {deleted : Bool}
    (h : moveAllocations db cond deleted = .ok db') : KeepsTerms db db' := by
  obtain ⟨-, rfl⟩ := moveAllocations_ok.1 h
  rw [refreshAll_eq, Db.markAll_eq]
  rfl

theorem setNoteUsed (db : Db) (note : CreditNote) (release : Bool) (target : ℤ) :
    KeepsTerms db (setNoteUsed db note release target) := by
  have hset : ∀ next : CreditNoteStatus, next.posted = true →
      KeepsTerms db (db.setNoteStatus note.id fun st => if st.posted then next else st) := by
    intro next hnext
    refine setNoteStatus db note.id fun st => ?_
    by_cases hst : st.posted = true
    · rw [if_pos hst, hnext, hst]
    · rw [if_neg hst]
  unfold Billing.setNoteUsed
  dsimp only
  split_ifs
  · exact hset .applied rfl
  · exact refl db
  · exact hset .issued rfl
  · exact refl db
  · exact refl db

theorem syncApplication {note : CreditNote} {orgId : ℕ} {release : Bool}
    (h : syncApplication db note orgId release = .ok db') : KeepsTerms db db' := by
  obtain ⟨current, target, invoiceId, db₁, -, -, rfl, ⟨-, rfl⟩ | ⟨-, hrep⟩⟩ :=
    syncApplication_cases h
  · exact setNoteUsed db₁ note release target
  refine KeepsTerms.trans ?_ (setNoteUsed db₁ note release target)
  obtain ⟨db₂, hdb₂, rfl⟩ := replaceApplication_ok hrep
  refine of_eq ((refreshCreditAll_notes db₂ _).trans ?_)
  have hrel : (released db current).creditNotes = db.creditNotes := by
    cases current <;> rfl
  rcases hdb₂ with ⟨rfl, -⟩ | ⟨id, -, -, hins⟩
  · exact hrel
  · unfold Db.insertApplication at hins
    split_ifs at hins
    cases hins
    exact hrel

theorem releaseForInvoice (db : Db) (invoiceId : ℕ) :
    KeepsTerms db (releaseForInvoice db invoiceId) := by
  have happ : ∀ (rows : List CreditNoteApplication) (db : Db),
      KeepsTerms db (rows.foldl (fun db a => db.releaseApplication a.id) db) := by
    intro rows
    induction rows with
    | nil => exact refl
    | cons a rows ih => exact fun db => (refl db).trans (ih (db.releaseApplication a.id))
  have hnote : ∀ (rows : List CreditNoteApplication) (db : Db),
      KeepsTerms db (rows.foldl (fun db a => db.setNoteStatus a.creditNoteId fun st =>
        if st = .applied then .issued else st) db) := by
    intro rows
    induction rows with
    | nil => exact refl
    | cons a rows ih =>
      intro db
      refine (setNoteStatus db a.creditNoteId fun st => ?_).trans (ih _)
      cases st <;> rfl
  exact (happ _ db).trans (hnote _ _)

theorem settle {invoiceId orgId : ℕ} {status : InvoiceStatus} {forbidFrom : List InvoiceStatus} :
    KeepsTerms db (settleInvoiceTerminal db invoiceId orgId status forbidFrom).1 := by
  rcases settleInvoiceTerminal_cases db invoiceId orgId status forbidFrom with
    ⟨s, c, m, h⟩ | ⟨existing, -, ⟨-, h⟩ | ⟨-, ⟨err, -, h⟩ | ⟨db₁, hrelease, h⟩⟩⟩
  · rw [h]
    exact refl db
  · rw [h]
    rfl
  · rw [h]
    rfl
  · rw [h]
    obtain ⟨-, rfl⟩ := Db.updateAllocations_ok.1 hrelease
    rw [Db.markAll_eq]
    exact KeepsTerms.trans (of_eq rfl) (releaseForInvoice _ invoiceId)

theorem payInstallment {orgId planId sequence paymentId : ℕ}
    (h : payInstallment db orgId planId sequence paymentId = .ok db') : KeepsTerms db db' := by
  obtain ⟨payment, clientId, installment, db₁, -, halloc, rfl⟩ := payInstallment_marks h
  have hmarked : KeepsTerms db₁ (markInstallmentPaid db₁ planId installment.id paymentId) := by
    unfold markInstallmentPaid
    dsimp only
    split_ifs <;> rfl
  refine KeepsTerms.trans ?_ hmarked
  rcases allocateInstallment_ok halloc with rfl | ⟨ids, x, amount, id, paid, -, -, -, happ⟩
  · exact refl db₁
  · exact applyAllocation happ

/-- **A request on payments or invoices** keeps the terms of every note. -/
theorem after (db : Db) (event : Event) : KeepsTerms db (db.after event) := by
  cases event with
  | allocate orgId paymentId invoiceId amount =>
    refine commit_cases (refl db) fun db' hok => ?_
    obtain ⟨-, _, invoice, db₁, id, -, -, -, -, hins, rfl⟩ := allocate_ok hok
    exact (insertAllocation hins).trans (finalize db₁ invoice)
  | allocateAuto orgId paymentId invoiceIds =>
    refine commit_cases (refl db) fun db' hok => ?_
    obtain ⟨_, _, _, applied, -, -, happ, rfl⟩ := allocateAuto_ok hok
    exact allocateAcross happ
  | unapply orgId paymentId invoiceId bindingRep =>
    refine commit_cases (refl db) fun db' hok => ?_
    obtain ⟨row, -, -, rfl⟩ := unapply_ok hok
    exact KeepsTerms.trans (of_eq rfl) (refresh (db.mark true row) invoiceId)
  | reallocate orgId paymentId fromInvoiceId toInvoiceId amount bindingRep =>
    refine commit_cases (refl db) fun db' hok => ?_
    obtain ⟨-, _, row, _, db₁, _, -, -, -, -, -, hins, rfl⟩ := reallocate_ok hok
    exact (KeepsTerms.trans (of_eq rfl) (insertAllocation hins)).trans
      ((refresh _ _).trans (refresh _ _))
  | deletePayment orgId paymentId bindingRep =>
    refine commit_cases (refl db) fun db' hok => ?_
    obtain ⟨old, -, -, db₁, hmove, rfl⟩ := deletePayment_ok.1 hok
    exact (KeepsTerms.trans (of_eq rfl) (moveAllocations hmove)).trans (of_eq rfl)
  | restorePayment orgId paymentId =>
    refine commit_cases (refl db) fun db' hok => ?_
    obtain ⟨payment, -, -, -, -, -, hmove⟩ := restorePayment_ok.1 hok
    have hmoved : KeepsTerms (undeleted db orgId payment) db' := moveAllocations hmove
    exact KeepsTerms.trans (of_eq rfl) hmoved
  | syncApplication note orgId release =>
    exact commit_cases (refl db) fun db' hok => syncApplication hok
  | voidInvoice invoiceId orgId liveCfdi =>
    rcases voidInvoiceById_cases db invoiceId orgId liveCfdi with ⟨s, c, m, h⟩ | ⟨-, h⟩
    · simp only [Db.after, h]
      exact refl db
    · simp only [Db.after, h]
      exact settle
  | cancelForSat invoiceId orgId => exact settle
  | payInstallment orgId planId sequence paymentId =>
    exact commit_cases (refl db) fun db' hok => payInstallment hok
  | collect orgId resellerId clientId amount currency invoiceIds refusal =>
    refine commit_cases (refl db) fun db' hok => ?_
    obtain ⟨-, rows, applied, -, happ, heq⟩ := collect_enters hok
    rw [heq]
    exact (KeepsTerms.trans (of_eq rfl) (allocateAcross happ)).trans (of_eq rfl)
  | voidCollection orgId resellerId paymentId refusal =>
    refine commit_cases (refl db) fun db' hok => ?_
    obtain ⟨db₁, hmove, heq⟩ := voidCollection_enters hok
    rw [heq]
    exact (KeepsTerms.trans (of_eq rfl) (moveAllocations hmove)).trans (of_eq rfl)

end KeepsTerms

end Vigabss.Billing
