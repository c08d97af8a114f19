import Vigabss.Billing.Requests

/-!
# Vigabss.Billing.Terminal — invoices that were voided or cancelled

`settleInvoiceTerminal` puts an invoice in `void` or `cancelled` and releases what was applied to
it.  `Settled` says that it stays so.  Every request keeps it, but for the two that write to a
terminal invoice: a restore that revives an allocation to it, and a settlement whose release does
not happen (`settled_always`).
-/

namespace Vigabss.Billing

open Vigabss.Lib

/-- The invoice's status is terminal, and it carries no live payment allocation. -/
structure Settled (db : Db) (invoiceId : ℕ) : Prop where
  status : ∃ inv, db.invoices.find? invoiceId = some inv ∧ inv.status.terminal = true
  bare : ∀ a ∈ db.allocations.rows, a.invoiceId = invoiceId → a.deleted = true

/-! ### What the statements keep -/

section Statements

variable {db : Db} {i : ℕ}

theorem Settled.congr {db' : Db} (h : Settled db i) (hi : db'.invoices = db.invoices)
    (ha : db'.allocations = db.allocations) : Settled db' i :=
  ⟨hi ▸ h.status, ha ▸ h.bare⟩

theorem Settled.insertAllocation {db' : Db} {paymentId invoiceId : ℕ} {amount : ℤ} {id : ℕ}
    (h : Settled db i) (hne : invoiceId ≠ i)
    (hins : db.insertAllocation paymentId invoiceId amount = .ok (db', id)) : Settled db' i := by
  obtain ⟨-, -, rfl⟩ := Db.insertAllocation_ok hins
  refine ⟨h.status, fun a ha hai => ?_⟩
  rcases Table.mem_insert.1 ha with ha | rfl
  · exact h.bare a ha hai
  · exact absurd hai hne

theorem Settled.markAll {deleted : Bool} {rows : List PaymentAllocation} (h : Settled db i)
    (hne : deleted = false → ∀ r ∈ rows, r ∈ db.allocations.rows ∧ r.invoiceId ≠ i) :
    Settled (db.markAll deleted rows) i := by
  refine ⟨by rw [Db.markAll_eq]; exact h.status, fun a ha hai => ?_⟩
  rw [Db.markAll_rows] at ha
  obtain ⟨b, hb, rfl⟩ := List.mem_map.1 ha
  unfold Db.markIn at hai ⊢
  split_ifs at hai ⊢ with hid
  · cases deleted with
    | true => rfl
    | false =>
      obtain ⟨r, hr, hrid⟩ := List.mem_map.1 hid
      obtain ⟨hmem, hri⟩ := hne rfl r hr
      obtain rfl := Table.eq_of_key_eq hmem hb hrid
      exact absurd hai hri
  · exact h.bare b hb hai

theorem Settled.mark (h : Settled db i) (row : PaymentAllocation) :
    Settled (db.mark true row) i :=
  show Settled (db.markAll true [row]) i from h.markAll (by simp)

theorem Settled.setInvoiceStatus {j : ℕ} {f : InvoiceStatus → InvoiceStatus} (h : Settled db i)
    (hf : j = i → ∀ st, st.terminal = true → (f st).terminal = true) :
    Settled (db.setInvoiceStatus j f) i := by
  obtain ⟨inv, hinv, hterm⟩ := h.status
  refine ⟨?_, h.bare⟩
  rw [setInvoiceStatus_find]
  by_cases hij : i = j
  · subst hij
    exact ⟨_, by rw [if_pos rfl, hinv, Option.map_some], hf rfl _ hterm⟩
  · exact ⟨inv, by rw [if_neg hij, hinv], hterm⟩

theorem Settled.refresh {j : ℕ} (h : Settled db i) (hne : j ≠ i) :
    Settled (refreshInvoicePaidStatus db j) i := by
  unfold refreshInvoicePaidStatus
  cases db.invoices.find? j with
  | none => exact h
  | some inv =>
    dsimp only
    split_ifs
    · exact h
    · exact h.setInvoiceStatus fun hj => absurd hj hne

theorem Settled.refreshAll {ids : List ℕ} (h : Settled db i) (hne : i ∉ ids) :
    Settled (ids.foldl refreshInvoicePaidStatus db) i := by
  induction ids generalizing db with
  | nil => exact h
  | cons j ids ih =>
    rw [List.mem_cons, not_or] at hne
    exact ih (h.refresh (Ne.symm hne.1)) hne.2

theorem Settled.finalize {invoice : Invoice} (h : Settled db i) (hne : invoice.id ≠ i) :
    Settled (finalizeIfFullyPaid db invoice).1 i := by
  unfold finalizeIfFullyPaid
  dsimp only
  split_ifs
  · exact h
  · exact Settled.setInvoiceStatus (f := fun _ => .paid) h fun hj => absurd hj hne

theorem Settled.refreshCredit (h : Settled db i) (j : ℕ) : Settled (refreshPaidStatus db j) i := by
  unfold refreshPaidStatus
  cases db.invoices.find? j with
  | none => exact h
  | some inv =>
    dsimp only
    split_ifs
    · exact h
    · exact h.setInvoiceStatus fun _ st hst => by cases st <;> simp_all [InvoiceStatus.terminal,
        InvoiceStatus.payable]
    · exact h.setInvoiceStatus fun _ st hst => by cases st <;> simp_all [InvoiceStatus.terminal]

theorem Settled.refreshCreditAll (h : Settled db i) (ids : List ℕ) :
    Settled (ids.foldl refreshPaidStatus db) i := by
  induction ids generalizing db with
  | nil => exact h
  | cons j ids ih => exact ih (h.refreshCredit j)

theorem Settled.ne_of_open {inv : Invoice} (h : Settled db i)
    (hfind : db.invoices.find? inv.id = some inv) (hopen : inv.status.terminal = false) :
    inv.id ≠ i := by
  rintro rfl
  obtain ⟨inv', hfind', hterm⟩ := h.status
  rw [hfind, Option.some.injEq] at hfind'
  rw [hfind', hterm] at hopen
  simp at hopen

end Statements

theorem InvoiceStatus.open_of_payable {st : InvoiceStatus} (h : st.payable = true) :
    st.terminal = false := by
  cases st <;> simp_all [payable, terminal]

/-! ### What the requests keep -/

section Requests

variable {db db' : Db} {i : ℕ}

theorem Settled.applyAllocation {payment : Payment} {invoice : Invoice} {amount : ℤ}
    {anyClient finalize : Bool} {id : ℕ} {paid : Bool} (h : Settled db i) (hne : invoice.id ≠ i)
    (happ : applyAllocation db payment invoice amount anyClient finalize = .ok (db', id, paid)) :
    Settled db' i := by
  obtain ⟨-, db₁, hins, rfl⟩ := applyAllocation_ok happ
  split_ifs
  · exact (h.insertAllocation hne hins).finalize hne
  · exact h.insertAllocation hne hins

theorem Settled.allocateAcross {payment : Payment} {remainder : ℤ} {rows : List OpenInvoice}
    {applied : Applied} (h : Settled db i) (hne : ∀ x ∈ rows, x.invoice.id ≠ i)
    (happ : allocateAcrossInvoices payment db remainder rows = .ok applied) :
    Settled applied.db i :=
  (allocateAcross_rule (I := fun rows db => Settled db i ∧ ∀ x ∈ rows, x.invoice.id ≠ i)
    (fun _ _ _ hI => ⟨hI.1, fun x hx => hI.2 x (List.mem_cons_of_mem _ hx)⟩)
    (fun _ _ _ _ _ _ _ hI _ _ happ => ⟨hI.1.applyAllocation (hI.2 _ List.mem_cons_self) happ,
      fun x hx => hI.2 x (List.mem_cons_of_mem _ hx)⟩) ⟨h, hne⟩ happ).1

theorem Settled.ne_of_listed {orgId clientId : ℕ} {ids : Option (List ℕ)} {x : OpenInvoice}
    (h : Settled db i) (hx : x ∈ getInvoicesWithBalance db orgId clientId ids) :
    x.invoice.id ≠ i := by
  obtain ⟨hfind, hp, -⟩ := mem_getInvoicesWithBalance hx
  exact h.ne_of_open hfind (InvoiceStatus.open_of_payable hp)

theorem Settled.moveAllocations {cond : PaymentAllocation → Bool} {deleted : Bool}
    (h : Settled db i)
    (hne : ∀ a ∈ db.allocations.rows, cond a = true → a.invoiceId ≠ i)
    (hmove : moveAllocations db cond deleted = .ok db') : Settled db' i := by
  obtain ⟨-, rfl⟩ := moveAllocations_ok.1 hmove
  refine Settled.refreshAll (h.markAll fun _ r hr => ?_) fun hi => ?_
  · obtain ⟨hmem, hcond⟩ := List.mem_filter.1 hr
    exact ⟨hmem, hne r hmem hcond⟩
  · obtain ⟨a, ha, hai⟩ := List.mem_map.1 (List.mem_dedup.1 hi)
    obtain ⟨hmem, hcond⟩ := List.mem_filter.1 ha
    exact hne a hmem hcond hai

theorem Settled.ne_of_live {a : PaymentAllocation} (h : Settled db i)
    (ha : a ∈ db.allocations.rows) (hlive : a.deleted = false) : a.invoiceId ≠ i := by
  intro hai
  have := h.bare a ha hai
  simp [hlive] at this

theorem Settled.allocate {orgId paymentId invoiceId : ℕ} {amount : ℚ} (h : Settled db i)
    (hok : allocate db orgId paymentId invoiceId amount = .ok db') : Settled db' i := by
  obtain ⟨-, payment, invoice, db₁, id, -, hinv, href, -, hins, rfl⟩ := allocate_ok hok
  have hfind := (findInvoice_some.1 hinv).1
  have hid : invoice.id = invoiceId := (Table.find?_eq_some.1 hfind).2
  have hne := h.ne_of_open (hid ▸ hfind) (InvoiceStatus.open_of_payable (payable_of_not_refused href))
  exact (h.insertAllocation hne hins).finalize hne

theorem Settled.allocateAuto {orgId paymentId : ℕ} {ids : Option (List ℕ)} (h : Settled db i)
    (hok : allocateAuto db orgId paymentId ids = .ok db') : Settled db' i := by
  obtain ⟨payment, remainder, rows, applied, -, hrows, happ, rfl⟩ := allocateAuto_ok hok
  exact h.allocateAcross (fun x hx => h.ne_of_listed (hrows.subset hx)) happ

theorem Settled.unapply {orgId paymentId invoiceId : ℕ} {bindingRep : Option String}
    (h : Settled db i) (hok : unapply db orgId paymentId invoiceId bindingRep = .ok db') :
    Settled db' i := by
  obtain ⟨row, hrow, -, rfl⟩ := unapply_ok hok
  obtain ⟨hmem, -, rfl, hlive⟩ := liveAllocation_some hrow
  exact (h.mark row).refresh (h.ne_of_live hmem hlive)

theorem Settled.reallocate {orgId paymentId fromInvoiceId toInvoiceId : ℕ} {amount : Option ℚ}
    {bindingRep : Option String} (h : Settled db i)
    (hok : reallocate db orgId paymentId fromInvoiceId toInvoiceId amount bindingRep = .ok db') :
    Settled db' i := by
  obtain ⟨-, payment, row, toInv, db₁, id, -, hrow, hto, hterm, -, hins, rfl⟩ := reallocate_ok hok
  obtain ⟨hmem, -, rfl, hlive⟩ := liveAllocation_some hrow
  have hfind := (findInvoice_some.1 hto).1
  obtain rfl : toInv.id = toInvoiceId := (Table.find?_eq_some.1 hfind).2
  have hne := h.ne_of_open hfind hterm
  exact (((h.mark row).insertAllocation hne hins).refresh (h.ne_of_live hmem hlive)).refresh hne

theorem Settled.reversePayment {paymentId : ℕ} (h : Settled db i)
    (hok : Billing.moveAllocations (reversePaymentCredit db paymentId) (ofPayment paymentId) true =
      .ok db') : Settled db' i := by
  have hcredit : Settled (reversePaymentCredit db paymentId) i := h.congr rfl rfl
  refine hcredit.moveAllocations
    (fun a ha hcond => h.ne_of_live ha ?_) hok
  simp only [ofPayment, decide_eq_true_eq] at hcond
  exact hcond.2

theorem Settled.deletePayment {orgId paymentId : ℕ} {bindingRep : Option String}
    (h : Settled db i) (hok : deletePayment db orgId paymentId bindingRep = .ok db') :
    Settled db' i := by
  obtain ⟨old, -, -, db₁, hrev, rfl⟩ := deletePayment_ok.1 hok
  exact (h.reversePayment hrev).congr rfl rfl

theorem Settled.voidCollection {orgId resellerId paymentId : ℕ} {refusal : Option Failure}
    (h : Settled db i) (hok : voidCollection db orgId resellerId paymentId refusal = .ok db') :
    Settled db' i := by
  obtain ⟨db₁, hrev, hsame⟩ := voidCollection_ok hok
  exact (h.reversePayment hrev).congr hsame.invoices hsame.allocations

theorem Settled.payInstallment {orgId planId sequence paymentId : ℕ} (h : Settled db i)
    (hok : payInstallment db orgId planId sequence paymentId = .ok db') : Settled db' i := by
  obtain ⟨payment, clientId, installment, db₁, -, halloc, hsame⟩ := payInstallment_ok hok
  refine Settled.congr ?_ hsame.invoices hsame.allocations
  rcases allocateInstallment_ok halloc with rfl | ⟨ids, x, amount, id, paid, hx, -, -, happ⟩
  · exact h
  · exact h.applyAllocation (h.ne_of_listed hx) happ

theorem Settled.collect {orgId resellerId clientId : ℕ} {amount : ℤ} {currency : String}
    {ids : Option (List ℕ)} {refusal : Option Failure} (h : Settled db i)
    (hok : collect db orgId resellerId clientId amount currency ids refusal = .ok db') :
    Settled db' i := by
  obtain ⟨-, rows, applied, hrows, happ, hsame⟩ := collect_ok hok
  refine Settled.congr ?_ hsame.invoices hsame.allocations
  have hpaid : Settled (withPayment db orgId (collected orgId resellerId clientId amount currency)
      fun _ => rfl) i := h.congr rfl rfl
  exact hpaid.allocateAcross
    (fun x hx => h.ne_of_listed (hrows.subset hx)) happ

theorem Settled.syncApplication {note : CreditNote} {orgId : ℕ} {release : Bool}
    (h : Settled db i) (hok : syncApplication db note orgId release = .ok db') : Settled db' i := by
  obtain ⟨db₁, hsame, hdb₁⟩ := syncApplication_ok hok
  refine Settled.congr ?_ hsame.invoices hsame.allocations
  rcases hdb₁ with rfl | ⟨current, target, invoiceId, -, -, hrep⟩
  · exact h
  obtain ⟨db₂, hdb₂, rfl⟩ := replaceApplication_ok hrep
  have hrel : Settled (released db current) i := by
    cases current with
    | none => exact h
    | some c => exact h.congr rfl rfl
  refine Settled.refreshCreditAll ?_ _
  rcases hdb₂ with ⟨rfl, -⟩ | ⟨id, -, -, hins⟩
  · exact hrel
  · unfold Db.insertApplication at hins
    split_ifs at hins
    cases hins
    exact hrel.congr rfl rfl

theorem Settled.restorePayment {orgId paymentId : ℕ} (h : Settled db i)
    (hne : ∀ a ∈ db.allocations.rows, deletedOfPayment paymentId a = true → a.invoiceId ≠ i)
    (hok : restorePayment db orgId paymentId = .ok db') : Settled db' i := by
  obtain ⟨payment, -, -, -, -, -, hmove⟩ := restorePayment_ok.1 hok
  have hback : Settled (undeleted db orgId payment) i := h.congr rfl rfl
  exact hback.moveAllocations hne hmove

theorem Settled.settle {invoiceId orgId : ℕ} {status : InvoiceStatus}
    {forbidFrom : List InvoiceStatus} (h : Settled db i) (hst : status.terminal = true) :
    Settled (settleInvoiceTerminal db invoiceId orgId status forbidFrom).1 i := by
  have hset : Settled (db.setInvoiceStatus invoiceId fun _ => status) i :=
    h.setInvoiceStatus fun _ _ _ => hst
  rcases settleInvoiceTerminal_cases db invoiceId orgId status forbidFrom with
    ⟨s, c, m, heq⟩ | ⟨existing, -, ⟨-, heq⟩ | ⟨-, ⟨err, -, heq⟩ | ⟨db₁, hrel, heq⟩⟩⟩
  · rw [heq]
    exact h
  · rw [heq]
    exact hset
  · rw [heq]
    exact hset
  · rw [heq]
    obtain ⟨-, rfl⟩ := Db.updateAllocations_ok.1 hrel
    have hrows : Settled ((db.setInvoiceStatus invoiceId fun _ => status).markAll true
        (db.allocations.rows.filter (toInvoice invoiceId))) i := hset.markAll (by simp)
    rw [releaseForInvoice_eq]
    exact hrows.congr rfl rfl

end Requests

/-! ### Settling an invoice -/

/-- The settlement was not refused: it wrote the status. -/
def wroteStatus : Option Failure → Bool
  | some (.app ..) => false
  | _ => true

/-- The settlement releases every allocation of the invoice: an invoice that is terminal already
has none, and the triggers let the release of the others through. -/
def Releases (db : Db) (invoiceId orgId : ℕ) : Prop :=
  ∀ inv, findInvoice db invoiceId orgId = some inv →
    if inv.status.terminal then ∀ a ∈ db.allocations.rows, toInvoice invoiceId a = false
    else db.RowsFit true (db.allocations.rows.filter (toInvoice invoiceId))

/-- **A settlement settles**: once it has written the status and released the allocations. -/
theorem settled_of_settle {db : Db} {invoiceId orgId : ℕ} {status : InvoiceStatus}
    {forbidFrom : List InvoiceStatus} (hst : status.terminal = true)
    (hrel : Releases db invoiceId orgId)
    (hwrote : wroteStatus (settleInvoiceTerminal db invoiceId orgId status forbidFrom).2 = true) :
    Settled (settleInvoiceTerminal db invoiceId orgId status forbidFrom).1 invoiceId := by
  have hstatus : ∀ inv, findInvoice db invoiceId orgId = some inv → ∀ db' : Db,
      db'.invoices = (db.setInvoiceStatus invoiceId fun _ => status).invoices →
      ∃ inv, db'.invoices.find? invoiceId = some inv ∧ inv.status.terminal = true := by
    intro inv hinv db' heq
    refine ⟨{ inv with status }, ?_, hst⟩
    rw [heq, setInvoiceStatus_find, if_pos rfl, (findInvoice_some.1 hinv).1, Option.map_some]
  rcases settleInvoiceTerminal_cases db invoiceId orgId status forbidFrom with
    ⟨s, c, m, heq⟩ | ⟨existing, hex, ⟨hterm, heq⟩ | ⟨hterm, ⟨err, hfail, heq⟩ | ⟨db₁, hok, heq⟩⟩⟩
  · rw [heq] at hwrote
    simp [wroteStatus] at hwrote
  · have hbare := hrel existing hex
    rw [if_pos hterm] at hbare
    rw [heq]
    refine ⟨hstatus existing hex _ rfl, fun a ha hai => ?_⟩
    simpa [toInvoice, hai] using hbare a ha
  · -- the triggers let the release through, so it does not fail
    have hfit := hrel existing hex
    rw [if_neg (by simp [hterm])] at hfit
    have hrelease := Db.updateAllocations_ok.2
      ⟨(Db.rowsFit_congr db (db.setInvoiceStatus invoiceId fun _ => status)
        (fun _ => rfl) (fun j => setInvoiceStatus_total db invoiceId j _) rfl).2 hfit, rfl⟩
    rw [releaseInvoiceAllocations] at hfail
    exact absurd (hfail.symm.trans hrelease) (by simp)
  · obtain ⟨-, rfl⟩ := Db.updateAllocations_ok.1 hok
    rw [heq, releaseForInvoice_eq]
    refine ⟨hstatus existing hex _ ?_, fun a ha hai => ?_⟩
    · change (Db.markAll true _ _).invoices = _
      rw [Db.markAll_eq]
    · change a ∈ (Db.markAll true _ _).allocations.rows at ha
      rw [Db.markAll_rows] at ha
      obtain ⟨b, hb, rfl⟩ := List.mem_map.1 ha
      unfold Db.markIn at hai ⊢
      split_ifs at hai ⊢ with hid
      · rfl
      · by_contra hlive
        refine hid (List.mem_map_of_mem (List.mem_filter.2 ⟨hb, ?_⟩))
        simpa [toInvoice, hai] using hlive

/-! ### Runs -/

/-- The database, and the invoices a settlement has put in a terminal status so far. -/
structure Tracked where
  db : Db
  settled : List ℕ

/-- The database after a request, and the settlements so far. -/
def Tracked.step (b : Tracked) (e : Event) : Tracked where
  db := b.db.after e
  settled :=
    match e with
    | .voidInvoice invoiceId orgId liveCfdi =>
      if wroteStatus (voidInvoiceById b.db invoiceId orgId liveCfdi).2 then invoiceId :: b.settled
      else b.settled
    | .cancelForSat invoiceId orgId =>
      if wroteStatus (cancelInvoiceForSat b.db invoiceId orgId).2 then invoiceId :: b.settled
      else b.settled
    | _ => b.settled

/-- Nothing stands in the way of the restore: it will revive the payment's soft-deleted rows. -/
def Restores (db : Db) (orgId paymentId : ℕ) : Prop :=
  ∃ payment, db.payments.find? paymentId = some payment ∧ payment.organizationId = orgId ∧
    payment.deleted = true ∧ resellerVoided db payment = false ∧ payment.status = .completed ∧
    db.RowsFit false (db.allocations.rows.filter (deletedOfPayment paymentId))

/-- The requests that keep settled invoices settled: a restore that goes through finds no
soft-deleted allocation to a settled invoice, and a SAT cancellation releases what the invoice
carries. -/
def KeepsSettled (b : Tracked) : Event → Prop
  | .restorePayment orgId paymentId => Restores b.db orgId paymentId →
      ∀ a ∈ b.db.allocations.rows, deletedOfPayment paymentId a = true → a.invoiceId ∉ b.settled
  | .cancelForSat invoiceId orgId => Releases b.db invoiceId orgId
  | _ => True

theorem restores_of_ok {db db' : Db} {orgId paymentId : ℕ}
    (h : restorePayment db orgId paymentId = .ok db') : Restores db orgId paymentId := by
  obtain ⟨payment, hfind, horg, hdel, hvoid, hst, hmove⟩ := restorePayment_ok.1 h
  refine ⟨payment, hfind, horg, hdel, hvoid, hst, ?_⟩
  refine (Db.rowsFit_congr db (undeleted db orgId payment) (fun id => ?_)
    (fun _ => rfl) rfl).1 (moveAllocations_ok.1 hmove).1
  exact setPayment_total db payment.id id _ false

theorem voidInvoiceById_cases (db : Db) (invoiceId orgId : ℕ) (liveCfdi : Option (ℕ × Bool)) :
    (∃ s c m, voidInvoiceById db invoiceId orgId liveCfdi = (db, some (.app s c m))) ∨
      Releases db invoiceId orgId ∧ voidInvoiceById db invoiceId orgId liveCfdi =
        settleInvoiceTerminal db invoiceId orgId .void [.cancelled] := by
  unfold voidInvoiceById
  cases liveCfdi with
  | some cfdi => exact .inl ⟨_, _, _, rfl⟩
  | none =>
    dsimp only
    split_ifs with hlive
    · exact .inl ⟨_, _, _, rfl⟩
    · refine .inr ⟨fun inv hinv => ?_, rfl⟩
      obtain ⟨hfind, horg, -⟩ := findInvoice_some.1 hinv
      have hnone : ∀ a ∈ db.allocations.rows, toInvoice invoiceId a = false := by
        intro a ha
        by_contra hto
        exact hlive ⟨by simp [hfind, horg], List.any_eq_true.2 ⟨a, ha, by simpa using hto⟩⟩
      split_ifs
      · exact hnone
      · rw [List.filter_eq_nil_iff.2 fun a ha => by simp [hnone a ha]]
        exact trivial

theorem settled_step_settle {b : Tracked} {invoiceId orgId : ℕ} {status : InvoiceStatus}
    {forbidFrom : List InvoiceStatus} (h : ∀ i ∈ b.settled, Settled b.db i)
    (hst : status.terminal = true) (hrel : Releases b.db invoiceId orgId) :
    ∀ i ∈ (if wroteStatus (settleInvoiceTerminal b.db invoiceId orgId status forbidFrom).2 then
        invoiceId :: b.settled else b.settled),
      Settled (settleInvoiceTerminal b.db invoiceId orgId status forbidFrom).1 i := by
  intro i hi
  split_ifs at hi with hwrote
  · rcases List.mem_cons.1 hi with rfl | hi
    · exact settled_of_settle hst hrel hwrote
    · exact (h i hi).settle hst
  · exact (h i hi).settle hst

/-- **One request** that meets the condition keeps every settled invoice settled. -/
theorem settled_step (b : Tracked) (e : Event) (h : ∀ i ∈ b.settled, Settled b.db i)
    (hgood : KeepsSettled b e) : ∀ i ∈ (b.step e).settled, Settled (b.step e).db i := by
  cases e with
  | allocate => exact fun i hi => commit_cases (h i hi) fun _ hok => (h i hi).allocate hok
  | allocateAuto => exact fun i hi => commit_cases (h i hi) fun _ hok => (h i hi).allocateAuto hok
  | unapply => exact fun i hi => commit_cases (h i hi) fun _ hok => (h i hi).unapply hok
  | reallocate => exact fun i hi => commit_cases (h i hi) fun _ hok => (h i hi).reallocate hok
  | deletePayment =>
    exact fun i hi => commit_cases (h i hi) fun _ hok => (h i hi).deletePayment hok
  | restorePayment orgId paymentId =>
    refine fun i hi => commit_cases (h i hi) fun _ hok => (h i hi).restorePayment ?_ hok
    rintro a ha hdel rfl
    exact hgood (restores_of_ok hok) a ha hdel hi
  | syncApplication =>
    exact fun i hi => commit_cases (h i hi) fun _ hok => (h i hi).syncApplication hok
  | voidInvoice invoiceId orgId liveCfdi =>
    simp only [Tracked.step, Db.after]
    rcases voidInvoiceById_cases b.db invoiceId orgId liveCfdi with ⟨s, c, m, heq⟩ | ⟨hrel, heq⟩
    · rw [heq]
      exact h
    · rw [heq]
      exact settled_step_settle h rfl hrel
  | cancelForSat invoiceId orgId => exact settled_step_settle h rfl hgood
  | payInstallment =>
    exact fun i hi => commit_cases (h i hi) fun _ hok => (h i hi).payInstallment hok
  | collect => exact fun i hi => commit_cases (h i hi) fun _ hok => (h i hi).collect hok
  | voidCollection =>
    exact fun i hi => commit_cases (h i hi) fun _ hok => (h i hi).voidCollection hok

/-- **Settled invoices stay settled** through every run whose requests meet the condition. -/
theorem settled_always {db : Db} {es : List Event}
    (hgood : StepsMeet Tracked.step KeepsSettled ⟨db, []⟩ es) :
    Always Tracked.step (fun b => ∀ i ∈ b.settled, Settled b.db i) ⟨db, []⟩ es :=
  always_of_step settled_step (by simp) hgood

/-- The payment on the second invoice, the first invoice voided, the payment deleted and
restored. -/
def voidBeside : List Event :=
  [.allocateAuto 1 1 (some [2]), .voidInvoice 1 1 none, .deletePayment 1 1 none,
    .restorePayment 1 1]

theorem settled_always_voidBeside :
    Always Tracked.step (fun b => ∀ i ∈ b.settled, Settled b.db i) ⟨opened, []⟩ voidBeside :=
  settled_always ⟨trivial, trivial, trivial, fun _ => by decide +kernel, trivial⟩

/-- The payment applied to the first invoice and unapplied, the invoice voided, the payment deleted
and restored. -/
def voidThenRestore : List Event :=
  [.allocateAuto 1 1 (some [1]), .unapply 1 1 1 none, .voidInvoice 1 1 none,
    .deletePayment 1 1 none, .restorePayment 1 1]

/-- **A restore pays a voided invoice**: the soft-deleted allocation to it comes back. -/
theorem restore_pays_void_invoice :
    (1 ∈ (run Tracked.step ⟨opened, []⟩ voidThenRestore).settled ∧
      ((run Tracked.step ⟨opened, []⟩ voidThenRestore).db.invoices.find? 1).map Invoice.status =
        some .paid) ∧
      ¬ Always Tracked.step (fun b => ∀ i ∈ b.settled, Settled b.db i) ⟨opened, []⟩
        voidThenRestore := by
  have hpaid : 1 ∈ (run Tracked.step ⟨opened, []⟩ voidThenRestore).settled ∧
      ((run Tracked.step ⟨opened, []⟩ voidThenRestore).db.invoices.find? 1).map Invoice.status =
        some .paid := by decide +kernel
  refine ⟨hpaid, fun h => ?_⟩
  obtain ⟨inv, hinv, hterm⟩ := (h.last 1 hpaid.1).status
  have hst := hpaid.2
  rw [hinv, Option.map_some, Option.some.injEq] at hst
  simp [hst, InvoiceStatus.terminal] at hterm

end Vigabss.Billing
