import Vigabss.Lib.Run
import Vigabss.Billing.RestoreLaw

/-!
# Vigabss.Billing.Requests — what each request writes, and runs of them

One lemma for each request: what it has checked when it succeeds, and the statements that lead
from the database before to the one after.  `Event` lists the requests and `Billing.step` runs
one of them, so that the invariants of whole runs are stated over `Lib.Run`.
-/

namespace Vigabss.Billing

open Vigabss.Lib

/-! ### The allocation service -/

theorem requirePayment_ok {db : Db} {paymentId orgId : ℕ} {payment : Payment} :
    requirePayment db paymentId orgId = .ok payment ↔
      findPayment db paymentId orgId = some payment := by
  unfold requirePayment
  cases findPayment db paymentId orgId <;> simp

theorem requireSettled_ok {payment : Payment} {u : Unit} :
    requireSettled payment = .ok u ↔ payment.status = .completed := by
  unfold requireSettled
  split_ifs with h
  · simpa [isPaymentSettled] using h
  · simpa [isPaymentSettled] using h

theorem payable_of_not_refused {payment : Payment} {invoice : Invoice} {anyClient : Bool}
    (h : allocationRefusal payment invoice anyClient = none) : invoice.status.payable = true := by
  unfold allocationRefusal at h
  split_ifs at h with h₁ h₂
  simpa using h₂

theorem applyAllocation_ok {db db' : Db} {payment : Payment} {invoice : Invoice} {amount : ℤ}
    {anyClient finalize : Bool} {id : ℕ} {becamePaid : Bool}
    (h : applyAllocation db payment invoice amount anyClient finalize = .ok (db', id, becamePaid)) :
    allocationRefusal payment invoice anyClient = none ∧
      ∃ db₁, db.insertAllocation payment.id invoice.id amount = .ok (db₁, id) ∧
        db' = if finalize then (finalizeIfFullyPaid db₁ invoice).1 else db₁ := by
  unfold applyAllocation at h
  cases hr : allocationRefusal payment invoice anyClient with
  | some refusal => simp [hr] at h
  | none =>
    cases hi : db.insertAllocation payment.id invoice.id amount with
    | error err => simp [hr, hi] at h
    | ok r =>
      obtain ⟨db₁, id₁⟩ := r
      simp only [hr, hi] at h
      cases finalize with
      | true =>
        obtain ⟨rfl, rfl, -⟩ : (finalizeIfFullyPaid db₁ invoice).1 = db' ∧ id₁ = id ∧ _ := by
          simpa using h
        exact ⟨rfl, db₁, rfl, rfl⟩
      | false =>
        obtain ⟨rfl, rfl, -⟩ : db₁ = db' ∧ id₁ = id ∧ _ := by simpa using h
        exact ⟨rfl, db₁, rfl, rfl⟩

theorem mem_getInvoicesWithBalance {db : Db} {orgId clientId : ℕ} {ids : Option (List ℕ)}
    {x : OpenInvoice} (h : x ∈ getInvoicesWithBalance db orgId clientId ids) :
    db.invoices.find? x.invoice.id = some x.invoice ∧ x.invoice.status.payable = true ∧
      x.balanceDue = x.invoice.total - db.coveredOf x.invoice.id := by
  rw [getInvoicesWithBalance, List.mem_insertionSort] at h
  obtain ⟨i, hi, rfl⟩ := List.mem_map.1 h
  obtain ⟨hi, hcond⟩ := List.mem_filter.1 hi
  simp only [decide_eq_true_eq] at hcond
  exact ⟨Table.find?_key hi, hcond.2.2.2.1, rfl⟩

theorem getInvoicesWithBalance_nodup (db : Db) (orgId clientId : ℕ) (ids : Option (List ℕ)) :
    ((getInvoicesWithBalance db orgId clientId ids).map fun x => x.invoice.id).Nodup := by
  have hperm := (List.perm_insertionSort olderFirst ((db.invoices.rows.filter fun i =>
    i.clientId = clientId ∧ i.organizationId = orgId ∧ i.deleted = false ∧
      i.status.payable = true ∧ ∀ l ∈ ids, l ≠ [] → i.id ∈ l).map fun i =>
        (⟨i, i.total - db.coveredOf i.id⟩ : OpenInvoice))).map fun x => x.invoice.id
  refine hperm.nodup_iff.2 ?_
  rw [List.map_map]
  exact (List.filter_sublist.map _).nodup db.invoices.nodup

theorem getInvoicesWithBalance_single {db : Db} {orgId : ℕ} {invoice : Invoice}
    (h : findInvoice db invoice.id orgId = some invoice) (hp : invoice.status.payable = true) :
    getInvoicesWithBalance db orgId invoice.clientId (some [invoice.id]) =
      [⟨invoice, invoice.total - db.coveredOf invoice.id⟩] := by
  obtain ⟨hfind, horg, hlive⟩ := findInvoice_some.1 h
  have hmem := (Table.find?_eq_some.1 hfind).1
  rw [getInvoicesWithBalance, Table.filter_eq_singleton hmem]
  · rfl
  · simp [horg, hlive, hp]
  · intro i _ hi
    simp only [decide_eq_true_eq] at hi
    have : i.id = invoice.id := by simpa using hi.2.2.2.2 [invoice.id] rfl (by simp)
    exact this

/-- **The rule of the allocation loop**: what skipping an invoice and applying a part of the
payment to it both keep holds at the end. -/
theorem allocateAcross_rule {payment : Payment} {I : List OpenInvoice → Db → Prop}
    (hskip : ∀ x rest db, I (x :: rest) db → I rest db)
    (happly : ∀ x rest db db' amount id paid, I (x :: rest) db → 0 < amount →
      amount ≤ x.balanceDue →
      applyAllocation db payment x.invoice amount false true = .ok (db', id, paid) → I rest db')
    {db : Db} {remainder : ℤ} {rows : List OpenInvoice} {applied : Applied} (hI : I rows db)
    (h : allocateAcrossInvoices payment db remainder rows = .ok applied) : I [] applied.db := by
  have hend : ∀ rows db, I rows db → I [] db := by
    intro rows db hI
    induction rows with
    | nil => exact hI
    | cons x rest ih => exact ih (hskip x rest db hI)
  induction rows generalizing db remainder applied with
  | nil =>
    rw [allocateAcrossInvoices] at h
    cases h
    exact hI
  | cons x rest ih =>
    rw [allocateAcrossInvoices] at h
    dsimp only at h
    split_ifs at h with hrem hbal happ
    · cases h
      exact hend _ _ hI
    · exact ih (hskip x rest db hI) h
    · exact ih (hskip x rest db hI) h
    · cases hr : applyAllocation db payment x.invoice (min remainder (max 0 x.balanceDue)) false
        true with
      | error err =>
        simp only [hr] at h
        split_ifs at h
        exact ih (hskip x rest db hI) h
      | ok r =>
        obtain ⟨db₁, id, paid⟩ := r
        simp only [hr, except_bind_ok] at h
        obtain ⟨rec, hrec, hout⟩ := h
        have hI' := happly x rest db db₁ _ id paid hI (by omega) (by omega) hr
        have := ih hI' hrec
        cases hout
        exact this

/-! ### The payment routes -/

/-- What `allocate` compares the amount with: what the invoice owes, and half a cent. -/
def withinInvoice (db : Db) (invoice : Invoice) (amount : ℚ) : Prop :=
  fl amount ≤ fl (number (invoice.total - db.coveredOf invoice.id) + fl (5 / 1000))

theorem allocate_ok {db db' : Db} {orgId paymentId invoiceId : ℕ} {amount : ℚ}
    (h : allocate db orgId paymentId invoiceId amount = .ok db') :
    0 ≤ amount ∧ ∃ payment invoice db₁ id, findPayment db paymentId orgId = some payment ∧
      findInvoice db invoiceId orgId = some invoice ∧
      allocationRefusal payment invoice false = none ∧ withinInvoice db invoice amount ∧
      db.insertAllocation payment.id invoice.id (toDecimal amount) = .ok (db₁, id) ∧
      db' = (finalizeIfFullyPaid db₁ invoice).1 := by
  unfold allocate at h
  obtain ⟨hbody, h⟩ := check_ok h
  simp only [except_bind_ok, requirePayment_ok, requireSettled_ok] at h
  obtain ⟨payment, hpay, -, -, h⟩ := h
  cases hinv : findInvoice db invoiceId orgId with
  | none => simp [hinv] at h
  | some invoice =>
    cases href : allocationRefusal payment invoice false with
    | some refusal => simp [hinv, href] at h
    | none =>
      have hid : invoice.id = invoiceId := (Table.find?_eq_some.1 (findInvoice_some.1 hinv).1).2
      have hopen := getInvoicesWithBalance_single (hid ▸ hinv) (payable_of_not_refused href)
      simp only [hinv, href, hopen] at h
      split_ifs at h with hover
      rw [not_or, not_lt, not_lt] at hover
      obtain ⟨⟨db₁, id, paid⟩, happly, hout⟩ := except_bind_ok.1 h
      obtain ⟨-, db₂, hins, hdb₁⟩ := applyAllocation_ok happly
      rw [if_neg (by simp)] at hdb₁
      subst hdb₁
      exact ⟨not_lt.1 fun hneg => hbody (.inr hneg), payment, invoice, _, id, hpay, rfl, href,
        hover.2, hins, (Except.ok.inj hout).symm⟩

theorem allocateAuto_ok {db db' : Db} {orgId paymentId : ℕ} {invoiceIds : Option (List ℕ)}
    (h : allocateAuto db orgId paymentId invoiceIds = .ok db') :
    ∃ payment remainder rows applied, findPayment db paymentId orgId = some payment ∧
      rows.Sublist (getInvoicesWithBalance db orgId payment.clientId invoiceIds) ∧
      allocateAcrossInvoices payment db remainder rows = .ok applied ∧ db' = applied.db := by
  unfold allocateAuto at h
  obtain ⟨-, h⟩ := check_ok h
  simp only [except_bind_ok, requirePayment_ok, requireSettled_ok] at h
  obtain ⟨payment, hpay, -, -, h⟩ := h
  obtain ⟨-, h⟩ := check_ok h
  cases invoiceIds with
  | none =>
    dsimp only at h
    obtain ⟨applied, happ, hout⟩ := except_bind_ok.1 h
    exact ⟨payment, _, _, applied, hpay, List.filter_sublist, happ, (Except.ok.inj hout).symm⟩
  | some ids =>
    obtain ⟨-, h⟩ := check_ok h
    obtain ⟨applied, happ, hout⟩ := except_bind_ok.1 h
    exact ⟨payment, _, _, applied, hpay, List.Sublist.refl _, happ, (Except.ok.inj hout).symm⟩

theorem liveAllocation_some {db : Db} {paymentId invoiceId : ℕ} {row : PaymentAllocation}
    (h : liveAllocation db paymentId invoiceId = some row) :
    row ∈ db.allocations.rows ∧ row.paymentId = paymentId ∧ row.invoiceId = invoiceId ∧
      row.deleted = false := by
  have hmem := List.mem_of_find?_eq_some h
  have := List.find?_some h
  simp only [ofPayment, Bool.and_eq_true, decide_eq_true_eq] at this
  exact ⟨hmem, this.1.1, this.2, this.1.2⟩

theorem unapply_ok {db db' : Db} {orgId paymentId invoiceId : ℕ} {bindingRep : Option String}
    (h : unapply db orgId paymentId invoiceId bindingRep = .ok db') :
    ∃ row, liveAllocation db paymentId invoiceId = some row ∧ db.UpdateFits row ∧
      db' = refreshInvoicePaidStatus (db.mark true row) invoiceId := by
  unfold unapply at h
  obtain ⟨-, h⟩ := check_ok h
  obtain ⟨payment, -, h⟩ := except_bind_ok.1 h
  cases hrow : liveAllocation db paymentId invoiceId with
  | none => simp [hrow] at h
  | some row =>
    simp only [hrow, except_bind_ok, query_ok] at h
    obtain ⟨-, -, db₁, hupd, hout⟩ := h
    obtain ⟨hfit, -, rfl⟩ := Db.updateAllocation_ok.1 hupd
    exact ⟨row, rfl, hfit, (Except.ok.inj hout).symm⟩

/-- The amount `reallocate` moves, in cents. -/
def moved (amountParam : Option ℚ) (row : PaymentAllocation) : ℤ :=
  match amountParam with
  | some amount => toDecimal amount
  | none => row.amount

theorem reallocate_ok {db db' : Db} {orgId paymentId fromInvoiceId toInvoiceId : ℕ}
    {amountParam : Option ℚ} {bindingRep : Option String}
    (h : reallocate db orgId paymentId fromInvoiceId toInvoiceId amountParam bindingRep = .ok db') :
    fromInvoiceId ≠ toInvoiceId ∧ ∃ payment row toInv db₁ id,
      findPayment db paymentId orgId = some payment ∧
      liveAllocation db paymentId fromInvoiceId = some row ∧
      findInvoice db toInvoiceId orgId = some toInv ∧ toInv.status.terminal = false ∧
      db.UpdateFits row ∧
      (db.mark true row).insertAllocation payment.id toInv.id (moved amountParam row) =
        .ok (db₁, id) ∧
      db' = refreshInvoicePaidStatus (refreshInvoicePaidStatus db₁ fromInvoiceId) toInvoiceId := by
  unfold reallocate at h
  obtain ⟨-, h⟩ := check_ok h
  obtain ⟨hdiff, h⟩ := check_ok h
  obtain ⟨payment, hpay, h⟩ := except_bind_ok.1 h
  obtain ⟨-, -, h⟩ := except_bind_ok.1 h
  cases hrow : liveAllocation db paymentId fromInvoiceId with
  | none => simp [hrow] at h
  | some row =>
    simp only [hrow] at h
    obtain ⟨-, -, h⟩ := except_bind_ok.1 h
    cases hfrom : findInvoice db fromInvoiceId orgId with
    | none => simp [hfrom] at h
    | some fromInv =>
      cases hto : findInvoice db toInvoiceId orgId with
      | none => simp [hfrom, hto] at h
      | some toInv =>
        simp only [hfrom, hto] at h
        split_ifs at h with hterm
        simp only [except_bind_ok, query_ok] at h
        obtain ⟨db₁, hupd, ⟨db₂, id, paid⟩, happly, hout⟩ := h
        obtain ⟨hfit, -, rfl⟩ := Db.updateAllocation_ok.1 hupd
        obtain ⟨-, db₃, hins, hdb₂⟩ := applyAllocation_ok happly
        rw [if_neg (by simp)] at hdb₂
        subst hdb₂
        exact ⟨hdiff, payment, row, toInv, _, id, requirePayment_ok.1 hpay, rfl, rfl, by simpa using hterm, hfit,
          hins, (Except.ok.inj hout).symm⟩

/-! ### Credit notes and terminal invoices -/

/-- The two databases hold the same payments, invoices, allocations and applications. -/
structure SameMoney (db db' : Db) : Prop where
  payments : db'.payments = db.payments
  invoices : db'.invoices = db.invoices
  allocations : db'.allocations = db.allocations
  applications : db'.applications = db.applications

/-- They hold the same ledgers, too. -/
structure SameTables (db db' : Db) : Prop extends SameMoney db db' where
  ledger : db'.ledger = db.ledger
  resellerEntries : db'.resellerEntries = db.resellerEntries

/-- The database without the note's live application. -/
def released (db : Db) (current : Option CreditNoteApplication) : Db :=
  match current with
  | some c => db.releaseApplication c.id
  | none => db

/-- The invoices that replacing an application concerns. -/
def concerned (current : Option CreditNoteApplication) (invoiceId : Option ℕ) : List ℕ :=
  ((current.map (·.invoiceId)).toList ++ invoiceId.toList).dedup

theorem replaceApplication_ok {db db' : Db} {noteId : ℕ} {current : Option CreditNoteApplication}
    {target : ℤ} {invoiceId : Option ℕ}
    (h : replaceApplication db noteId current target invoiceId = .ok db') :
    ∃ db₁, (db₁ = released db current ∧ (invoiceId.isSome = true → target < 1) ∨
        ∃ id, invoiceId = some id ∧ 1 ≤ target ∧
          (released db current).insertApplication noteId id target = .ok db₁) ∧
      db' = (concerned current invoiceId).foldl refreshPaidStatus db₁ := by
  unfold replaceApplication at h
  cases invoiceId with
  | none => exact ⟨_, .inl ⟨rfl, by simp⟩, (Except.ok.inj h).symm⟩
  | some id =>
    dsimp only at h
    split_ifs at h with ht
    · obtain ⟨db₁, hins, hout⟩ := except_bind_ok.1 h
      exact ⟨db₁, .inr ⟨id, rfl, ht, hins⟩, (Except.ok.inj hout).symm⟩
    · exact ⟨_, .inl ⟨rfl, fun _ => not_le.1 ht⟩, (Except.ok.inj h).symm⟩

theorem setNoteUsed_sameTables (db : Db) (note : CreditNote) (release : Bool) (target : ℤ) :
    SameTables db (setNoteUsed db note release target) := by
  unfold setNoteUsed
  dsimp only
  split_ifs <;> exact ⟨⟨rfl, rfl, rfl, rfl⟩, rfl, rfl⟩

theorem syncApplication_cases {db db' : Db} {note : CreditNote} {orgId : ℕ} {release : Bool}
    (h : syncApplication db note orgId release = .ok db') :
    ∃ current target invoiceId db₁, current = db.applications.rows.find? (ofNote note.id) ∧
      applicationTarget db note orgId release current = (target, invoiceId) ∧
      db' = setNoteUsed db₁ note release target ∧
      (applicationUnchanged current target invoiceId = true ∧ db₁ = db ∨
        applicationUnchanged current target invoiceId = false ∧
          replaceApplication db note.id current target invoiceId = .ok db₁) := by
  unfold syncApplication at h
  dsimp only at h
  cases htarget : applicationTarget db note orgId release
    (db.applications.rows.find? (ofNote note.id)) with
  | mk target invoiceId =>
    rw [htarget] at h
    split_ifs at h with hsame
    · cases h
      exact ⟨_, _, _, db, rfl, htarget, rfl, .inl ⟨hsame, rfl⟩⟩
    · obtain ⟨db₁, hrep, hout⟩ := except_bind_ok.1 h
      cases hout
      exact ⟨_, _, _, db₁, rfl, htarget, rfl, .inr ⟨by simpa using hsame, query_ok.1 hrep⟩⟩

theorem syncApplication_ok {db db' : Db} {note : CreditNote} {orgId : ℕ} {release : Bool}
    (h : syncApplication db note orgId release = .ok db') :
    ∃ db₁, SameTables db₁ db' ∧ (db₁ = db ∨ ∃ current target invoiceId,
      current = db.applications.rows.find? (ofNote note.id) ∧
      applicationTarget db note orgId release current = (target, invoiceId) ∧
      replaceApplication db note.id current target invoiceId = .ok db₁) := by
  obtain ⟨current, target, invoiceId, db₁, hcur, htarget, rfl, ⟨-, rfl⟩ | ⟨-, hrep⟩⟩ :=
    syncApplication_cases h
  · exact ⟨db₁, setNoteUsed_sameTables _ _ _ _, .inl rfl⟩
  · exact ⟨db₁, setNoteUsed_sameTables _ _ _ _, .inr ⟨_, _, _, hcur, htarget, hrep⟩⟩

/-- Releasing the credit of an invoice touches applications and notes only. -/
theorem releaseForInvoice_eq (db : Db) (invoiceId : ℕ) :
    releaseForInvoice db invoiceId =
      { db with
        applications := (releaseForInvoice db invoiceId).applications
        creditNotes := (releaseForInvoice db invoiceId).creditNotes } := by
  have happ : ∀ (rows : List CreditNoteApplication) (db : Db),
      rows.foldl (fun db a => db.releaseApplication a.id) db =
        { db with
          applications := (rows.foldl (fun db a => db.releaseApplication a.id) db).applications } := by
    intro rows
    induction rows with
    | nil => exact fun _ => rfl
    | cons a rows ih =>
      intro db
      rw [List.foldl_cons, ih]
      rfl
  have hnote : ∀ (rows : List CreditNoteApplication) (db : Db),
      rows.foldl (fun db a => db.setNoteStatus a.creditNoteId fun st =>
          if st = .applied then .issued else st) db =
        { db with
          creditNotes := (rows.foldl (fun db a => db.setNoteStatus a.creditNoteId fun st =>
            if st = .applied then .issued else st) db).creditNotes } := by
    intro rows
    induction rows with
    | nil => exact fun _ => rfl
    | cons a rows ih =>
      intro db
      rw [List.foldl_cons, ih]
      rfl
  unfold releaseForInvoice
  dsimp only
  rw [hnote, happ]

/-- The three ways a settlement goes: refused; the status written and the release refused by a
trigger; or the status written and, unless the invoice was terminal already, everything on it
released. -/
theorem settleInvoiceTerminal_cases (db : Db) (invoiceId orgId : ℕ) (status : InvoiceStatus)
    (forbidFrom : List InvoiceStatus) :
    (∃ s c m, settleInvoiceTerminal db invoiceId orgId status forbidFrom =
      (db, some (.app s c m))) ∨
    ∃ existing, findInvoice db invoiceId orgId = some existing ∧
      ((existing.status.terminal = true ∧
          settleInvoiceTerminal db invoiceId orgId status forbidFrom =
            (db.setInvoiceStatus invoiceId fun _ => status, none)) ∨
        existing.status.terminal = false ∧
          ((∃ err, releaseInvoiceAllocations (db.setInvoiceStatus invoiceId fun _ => status)
              invoiceId = .error err ∧
            settleInvoiceTerminal db invoiceId orgId status forbidFrom =
              (db.setInvoiceStatus invoiceId fun _ => status, some (.sql err))) ∨
          ∃ db₁, releaseInvoiceAllocations (db.setInvoiceStatus invoiceId fun _ => status)
              invoiceId = .ok db₁ ∧
            settleInvoiceTerminal db invoiceId orgId status forbidFrom =
              (clearInvoiceLedger (releaseForInvoice db₁ invoiceId) existing, none))) := by
  unfold settleInvoiceTerminal
  cases hfind : findInvoice db invoiceId orgId with
  | none => exact .inl ⟨_, _, _, rfl⟩
  | some existing =>
    dsimp only
    by_cases hforbid : existing.status ∈ forbidFrom
    · exact .inl ⟨_, _, _, if_pos hforbid⟩
    refine .inr ⟨existing, rfl, ?_⟩
    simp only [if_neg hforbid]
    by_cases hterm : existing.status.terminal = true
    · exact .inl ⟨hterm, if_pos hterm⟩
    refine .inr ⟨by simpa using hterm, ?_⟩
    simp only [if_neg hterm]
    cases hrel : releaseInvoiceAllocations (db.setInvoiceStatus invoiceId fun _ => status)
      invoiceId with
    | error err => exact .inl ⟨err, rfl, rfl⟩
    | ok db₁ => exact .inr ⟨db₁, rfl, rfl⟩

/-! ### Installments and collections -/

theorem markInstallmentPaid_sameTables (db : Db) (planId installmentId paymentId : ℕ) :
    SameTables db (markInstallmentPaid db planId installmentId paymentId) := by
  unfold markInstallmentPaid
  dsimp only
  split_ifs <;> exact ⟨⟨rfl, rfl, rfl, rfl⟩, rfl, rfl⟩

theorem allocateInstallment_ok {db db' : Db} {orgId clientId : ℕ} {installment : Installment}
    {payment : Payment} (h : allocateInstallment db orgId clientId installment payment = .ok db') :
    db' = db ∨ ∃ ids x amount id paid, x ∈ getInvoicesWithBalance db orgId clientId ids ∧
      0 < amount ∧ amount ≤ x.balanceDue ∧
      applyAllocation db payment x.invoice amount false true = .ok (db', id, paid) := by
  unfold allocateInstallment at h
  cases hx : installment.invoiceId.bind fun id =>
      (getInvoicesWithBalance db orgId clientId (some [id])).head? with
  | none =>
    rw [hx] at h
    cases h
    exact .inl rfl
  | some x =>
    simp only [hx] at h
    split_ifs at h with hpos
    · obtain ⟨invoiceId, -, hhead⟩ := Option.bind_eq_some_iff.1 hx
      cases happ : applyAllocation db payment x.invoice (min installment.amount x.balanceDue)
        false true with
      | error err => simp [happ] at h
      | ok r =>
        obtain ⟨db₁, id, paid⟩ := r
        rw [happ] at h
        cases h
        exact .inr ⟨some [invoiceId], x, _, id, paid, List.mem_of_head? hhead, by omega,
          min_le_right _ _, happ⟩
    · cases h
      exact .inl rfl

/-- What `payInstallment` has checked and written when it succeeds. -/
theorem payInstallment_settles {db db' : Db} {orgId planId sequence paymentId : ℕ}
    (h : payInstallment db orgId planId sequence paymentId = .ok db') :
    ∃ plan installment payment db₁, db.plans.find? planId = some plan ∧ plan.status = .active ∧
      (db.installments.rows.find? fun i => i.planId = planId ∧ i.sequence = sequence) =
        some installment ∧ installment.status ≠ .paid ∧
      findPayment db paymentId orgId = some payment ∧
      (∀ i ∈ db.installments.rows, i.paidPaymentId ≠ some paymentId) ∧
      allocateInstallment db orgId plan.clientId installment payment = .ok db₁ ∧
      db' = markInstallmentPaid db₁ planId installment.id paymentId := by
  unfold payInstallment at h
  cases hplan : (db.plans.find? planId).filter fun p =>
      p.organizationId = orgId ∧ p.deleted = false with
  | none =>
    rw [hplan] at h
    cases h
  | some plan =>
    rw [hplan] at h
    obtain ⟨hactive, h⟩ := check_ok h
    cases hinst : db.installments.rows.find? fun i => i.planId = planId ∧ i.sequence = sequence with
    | none =>
      rw [hinst] at h
      cases h
    | some installment =>
      rw [hinst] at h
      obtain ⟨hunpaid, h⟩ := check_ok h
      cases hpay : findPayment db paymentId orgId with
      | none =>
        rw [hpay] at h
        cases h
      | some payment =>
        rw [hpay] at h
        obtain ⟨-, h⟩ := check_ok h
        obtain ⟨-, h⟩ := check_ok h
        obtain ⟨hunused, h⟩ := check_ok h
        obtain ⟨-, h⟩ := check_ok h
        obtain ⟨db₁, halloc, hout⟩ := except_bind_ok.1 h
        cases hout
        refine ⟨plan, installment, payment, db₁, (Option.filter_eq_some_iff.1 hplan).1,
          not_not.1 hactive, rfl, hunpaid, rfl, fun i hi heq => hunused ?_, halloc, rfl⟩
        exact List.any_eq_true.2 ⟨i, hi, by simpa using heq⟩

theorem payInstallment_marks {db db' : Db} {orgId planId sequence paymentId : ℕ}
    (h : payInstallment db orgId planId sequence paymentId = .ok db') :
    ∃ payment clientId installment db₁, findPayment db paymentId orgId = some payment ∧
      allocateInstallment db orgId clientId installment payment = .ok db₁ ∧
      db' = markInstallmentPaid db₁ planId installment.id paymentId := by
  obtain ⟨_, installment, payment, db₁, -, -, -, -, hpay, -, halloc, heq⟩ :=
    payInstallment_settles h
  exact ⟨payment, _, installment, db₁, hpay, halloc, heq⟩

theorem payInstallment_ok {db db' : Db} {orgId planId sequence paymentId : ℕ}
    (h : payInstallment db orgId planId sequence paymentId = .ok db') :
    ∃ payment clientId installment db₁, findPayment db paymentId orgId = some payment ∧
      allocateInstallment db orgId clientId installment payment = .ok db₁ ∧ SameTables db₁ db' := by
  obtain ⟨payment, clientId, installment, db₁, hpay, halloc, rfl⟩ := payInstallment_marks h
  exact ⟨payment, clientId, installment, db₁, hpay, halloc, markInstallmentPaid_sameTables _ _ _ _⟩

/-- The payment a collection creates under an id. -/
def collected (orgId resellerId clientId : ℕ) (amount : ℤ) (currency : String) (id : ℕ) : Payment :=
  ⟨id, orgId, clientId, amount, currency, .completed, some resellerId, false⟩

/-- The database with a new payment, in the ledger too. -/
def withPayment (db : Db) (orgId : ℕ) (payer : ℕ → Payment) (hid : ∀ n, (payer n).id = n) : Db :=
  recordPaymentCredit { db with payments := db.payments.insert payer hid }
    (payer db.payments.nextId) orgId

theorem collect_enters {db db' : Db} {orgId resellerId clientId : ℕ} {amount : ℤ} {currency : String}
    {invoiceIds : Option (List ℕ)} {refusal : Option Failure}
    (h : collect db orgId resellerId clientId amount currency invoiceIds refusal = .ok db') :
    0 < amount ∧ ∃ rows applied,
      rows.Sublist (getInvoicesWithBalance db orgId clientId invoiceIds) ∧
      allocateAcrossInvoices
        (collected orgId resellerId clientId amount currency db.payments.nextId)
        (withPayment db orgId (collected orgId resellerId clientId amount currency) fun _ => rfl)
        amount rows = .ok applied ∧
      db' = { applied.db with resellerEntries := db'.resellerEntries } := by
  unfold collect at h
  obtain ⟨hpos, h⟩ := check_ok h
  cases refusal with
  | some failure => cases h
  | none =>
    obtain ⟨-, h⟩ := check_ok h
    obtain ⟨applied, happ, hout⟩ := except_bind_ok.1 h
    cases hout
    exact ⟨not_le.1 hpos, _, applied, List.filter_sublist, happ, rfl⟩

theorem collect_ok {db db' : Db} {orgId resellerId clientId : ℕ} {amount : ℤ} {currency : String}
    {invoiceIds : Option (List ℕ)} {refusal : Option Failure}
    (h : collect db orgId resellerId clientId amount currency invoiceIds refusal = .ok db') :
    0 < amount ∧ ∃ rows applied,
      rows.Sublist (getInvoicesWithBalance db orgId clientId invoiceIds) ∧
      allocateAcrossInvoices
        (collected orgId resellerId clientId amount currency db.payments.nextId)
        (withPayment db orgId (collected orgId resellerId clientId amount currency) fun _ => rfl)
        amount rows = .ok applied ∧ SameMoney applied.db db' := by
  obtain ⟨hpos, rows, applied, hrows, happ, heq⟩ := collect_enters h
  exact ⟨hpos, rows, applied, hrows, happ, heq ▸ ⟨rfl, rfl, rfl, rfl⟩⟩

theorem voidCollection_enters {db db' : Db} {orgId resellerId paymentId : ℕ}
    {refusal : Option Failure}
    (h : voidCollection db orgId resellerId paymentId refusal = .ok db') :
    ∃ db₁, moveAllocations (reversePaymentCredit db paymentId) (ofPayment paymentId) true =
        .ok db₁ ∧
      db' = { db₁.setPayment paymentId (fun _ => .cancelled) true with
        resellerEntries := db'.resellerEntries } := by
  unfold voidCollection at h
  cases hpay : (db.payments.find? paymentId).filter fun p =>
      p.organizationId = orgId ∧ p.resellerId = some resellerId with
  | none =>
    rw [hpay] at h
    cases h
  | some payment =>
    rw [hpay] at h
    obtain ⟨-, h⟩ := check_ok h
    cases hentry : db.resellerEntries.find? fun e => e.organizationId = orgId ∧
        e.resellerId = resellerId ∧ e.paymentId = paymentId ∧ e.entryType = .collection with
    | none =>
      rw [hentry] at h
      cases h
    | some entry =>
      rw [hentry] at h
      cases refusal with
      | some failure => cases h
      | none =>
        obtain ⟨db₁, hrev, hout⟩ := except_bind_ok.1 h
        cases hout
        exact ⟨db₁, query_ok.1 hrev, rfl⟩

theorem voidCollection_ok {db db' : Db} {orgId resellerId paymentId : ℕ}
    {refusal : Option Failure}
    (h : voidCollection db orgId resellerId paymentId refusal = .ok db') :
    ∃ db₁, moveAllocations (reversePaymentCredit db paymentId) (ofPayment paymentId) true =
        .ok db₁ ∧
      SameMoney (db₁.setPayment paymentId (fun _ => .cancelled) true) db' := by
  obtain ⟨db₁, hmove, heq⟩ := voidCollection_enters h
  exact ⟨db₁, hmove, heq ▸ ⟨rfl, rfl, rfl, rfl⟩⟩

/-! ### Runs -/

/-- The requests that move money, with what the caller sends and is told from outside. -/
inductive Event where
  | allocate (orgId paymentId invoiceId : ℕ) (amount : ℚ)
  | allocateAuto (orgId paymentId : ℕ) (invoiceIds : Option (List ℕ))
  | unapply (orgId paymentId invoiceId : ℕ) (bindingRep : Option String)
  | reallocate (orgId paymentId fromInvoiceId toInvoiceId : ℕ) (amount : Option ℚ)
      (bindingRep : Option String)
  | deletePayment (orgId paymentId : ℕ) (bindingRep : Option String)
  | restorePayment (orgId paymentId : ℕ)
  | syncApplication (note : CreditNote) (orgId : ℕ) (release : Bool)
  | voidInvoice (invoiceId orgId : ℕ) (liveCfdi : Option (ℕ × Bool))
  | cancelForSat (invoiceId orgId : ℕ)
  | payInstallment (orgId planId sequence paymentId : ℕ)
  | collect (orgId resellerId clientId : ℕ) (amount : ℤ) (currency : String)
      (invoiceIds : Option (List ℕ)) (refusal : Option Failure)
  | voidCollection (orgId resellerId paymentId : ℕ) (refusal : Option Failure)

/-- The database after a request.  A settlement runs outside a transaction and is not rolled
back. -/
def Db.after (db : Db) : Event → Db
  | .allocate orgId paymentId invoiceId amount =>
    commit db (Billing.allocate db orgId paymentId invoiceId amount)
  | .allocateAuto orgId paymentId invoiceIds =>
    commit db (Billing.allocateAuto db orgId paymentId invoiceIds)
  | .unapply orgId paymentId invoiceId bindingRep =>
    commit db (Billing.unapply db orgId paymentId invoiceId bindingRep)
  | .reallocate orgId paymentId fromInvoiceId toInvoiceId amount bindingRep =>
    commit db (Billing.reallocate db orgId paymentId fromInvoiceId toInvoiceId amount bindingRep)
  | .deletePayment orgId paymentId bindingRep =>
    commit db (Billing.deletePayment db orgId paymentId bindingRep)
  | .restorePayment orgId paymentId => commit db (Billing.restorePayment db orgId paymentId)
  | .syncApplication note orgId release =>
    commit db (Billing.syncApplication db note orgId release)
  | .voidInvoice invoiceId orgId liveCfdi => (voidInvoiceById db invoiceId orgId liveCfdi).1
  | .cancelForSat invoiceId orgId => (cancelInvoiceForSat db invoiceId orgId).1
  | .payInstallment orgId planId sequence paymentId =>
    commit db (Billing.payInstallment db orgId planId sequence paymentId)
  | .collect orgId resellerId clientId amount currency invoiceIds refusal =>
    commit db (Billing.collect db orgId resellerId clientId amount currency invoiceIds refusal)
  | .voidCollection orgId resellerId paymentId refusal =>
    commit db (Billing.voidCollection db orgId resellerId paymentId refusal)

theorem commit_cases {db : Db} {P : Db → Prop} {r : Except Failure Db} (h : P db)
    (hok : ∀ db', r = .ok db' → P db') : P (commit db r) := by
  cases r with
  | error err => exact h
  | ok db' => exact hok db' rfl

end Vigabss.Billing
