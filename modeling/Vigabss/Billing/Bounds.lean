import Vigabss.Billing.Terminal

/-!
# Vigabss.Billing.Bounds — payments and invoices stay within their totals

The triggers bound a payment by its amount and an invoice by its total, but count payments only;
that credit notes fit an invoice too is left to each writer.  `Sound` is the invariant, and
`sound_step` says which requests keep it: all but an allocation, a reallocation or a restore that
the trigger lets through and the credit notes do not, and a reallocation of a negative amount.
-/

namespace Vigabss.Billing

open Vigabss.Lib

/-- Every payment is allocated up to its amount, and every invoice covered up to its total. -/
structure WithinTotals (db : Db) : Prop where
  payments : ∀ p, ∀ t ∈ db.paymentTotal p, db.allocatedOf p ≤ t
  invoices : ∀ i, ∀ t ∈ db.invoiceTotal i, db.coveredOf i ≤ t

/-- The invariant: the totals hold, no amount is negative, and every allocation has its payment
(the foreign key of `payment_allocations`). -/
structure Sound (db : Db) : Prop extends WithinTotals db where
  amounts : ∀ a ∈ db.allocations.rows, 0 ≤ a.amount
  credits : ∀ a ∈ db.applications.rows, 0 ≤ a.amount
  payer : ∀ a ∈ db.allocations.rows, (db.paymentTotal a.paymentId).isSome = true

/-! ### Statements that leave the books as they are -/

/-- The two databases agree on totals, allocations and applications. -/
structure SameBooks (db db' : Db) : Prop where
  paymentTotal : ∀ p, db'.paymentTotal p = db.paymentTotal p
  invoiceTotal : ∀ i, db'.invoiceTotal i = db.invoiceTotal i
  allocations : db'.allocations = db.allocations
  applications : db'.applications = db.applications

namespace SameBooks

variable {db db' db'' : Db}

theorem trans (h : SameBooks db db') (h' : SameBooks db' db'') : SameBooks db db'' :=
  ⟨fun p => (h'.paymentTotal p).trans (h.paymentTotal p),
    fun i => (h'.invoiceTotal i).trans (h.invoiceTotal i),
    h'.allocations.trans h.allocations, h'.applications.trans h.applications⟩

theorem refl (db : Db) : SameBooks db db := ⟨fun _ => rfl, fun _ => rfl, rfl, rfl⟩

theorem of_sameMoney (h : SameMoney db db') : SameBooks db db' :=
  ⟨fun p => by rw [Db.paymentTotal, h.payments]; rfl,
    fun i => by rw [Db.invoiceTotal, h.invoices]; rfl, h.allocations, h.applications⟩

theorem setInvoiceStatus (db : Db) (i : ℕ) (f : InvoiceStatus → InvoiceStatus) :
    SameBooks db (db.setInvoiceStatus i f) :=
  ⟨fun _ => rfl, fun j => setInvoiceStatus_total db i j f, rfl, rfl⟩

theorem setPayment (db : Db) (p : ℕ) (f : PaymentStatus → PaymentStatus) (deleted : Bool) :
    SameBooks db (db.setPayment p f deleted) :=
  ⟨fun q => setPayment_total db p q f deleted, fun _ => rfl, rfl, rfl⟩

theorem refresh (db : Db) (i : ℕ) : SameBooks db (refreshInvoicePaidStatus db i) := by
  unfold refreshInvoicePaidStatus
  cases db.invoices.find? i with
  | none => exact refl db
  | some inv =>
    dsimp only
    split_ifs
    · exact refl db
    · exact setInvoiceStatus db i _

theorem refreshAll (db : Db) (ids : List ℕ) :
    SameBooks db (ids.foldl refreshInvoicePaidStatus db) := by
  induction ids generalizing db with
  | nil => exact refl db
  | cons i ids ih => exact (refresh db i).trans (ih _)

theorem refreshCredit (db : Db) (i : ℕ) : SameBooks db (refreshPaidStatus db i) := by
  unfold refreshPaidStatus
  cases db.invoices.find? i with
  | none => exact refl db
  | some inv =>
    dsimp only
    split_ifs
    · exact refl db
    · exact setInvoiceStatus db i _
    · exact setInvoiceStatus db i _

theorem refreshCreditAll (db : Db) (ids : List ℕ) :
    SameBooks db (ids.foldl refreshPaidStatus db) := by
  induction ids generalizing db with
  | nil => exact refl db
  | cons i ids ih => exact (refreshCredit db i).trans (ih _)

theorem finalize (db : Db) (invoice : Invoice) :
    SameBooks db (finalizeIfFullyPaid db invoice).1 := by
  unfold finalizeIfFullyPaid
  dsimp only
  split_ifs
  · exact refl db
  · exact setInvoiceStatus db invoice.id fun _ => .paid

theorem allocatedOf (h : SameBooks db db') (p : ℕ) : db'.allocatedOf p = db.allocatedOf p := by
  rw [Db.allocatedOf, h.allocations]
  rfl

theorem coveredOf (h : SameBooks db db') (i : ℕ) : db'.coveredOf i = db.coveredOf i := by
  simp only [Db.coveredOf, Db.allocatedTo, Db.creditAppliedTo, h.allocations, h.applications]

end SameBooks

section Statements

variable {db : Db}

theorem Sound.congr {db' : Db} (h : Sound db) (hb : SameBooks db db') : Sound db' where
  payments p t ht := by
    rw [hb.allocatedOf]
    exact h.payments p t (hb.paymentTotal p ▸ ht)
  invoices i t ht := by
    rw [hb.coveredOf]
    exact h.invoices i t (hb.invoiceTotal i ▸ ht)
  amounts := hb.allocations ▸ h.amounts
  credits := hb.applications ▸ h.credits
  payer a ha := by
    rw [hb.paymentTotal]
    exact h.payer a (hb.allocations ▸ ha)

/-! ### Allocating -/

theorem allocatedOf_insert {db' : Db} {paymentId invoiceId : ℕ} {amount : ℤ} {id : ℕ}
    (hins : db.insertAllocation paymentId invoiceId amount = .ok (db', id)) (p : ℕ) :
    db'.allocatedOf p = db.allocatedOf p + if paymentId = p then amount else 0 := by
  obtain ⟨-, -, rfl⟩ := Db.insertAllocation_ok hins
  rw [Db.allocatedOf, Table.sum_insert]
  simp [Db.allocatedOf, Table.share, ofPayment]

theorem coveredOf_insert {db' : Db} {paymentId invoiceId : ℕ} {amount : ℤ} {id : ℕ}
    (hins : db.insertAllocation paymentId invoiceId amount = .ok (db', id)) (i : ℕ) :
    db'.coveredOf i = db.coveredOf i + if invoiceId = i then amount else 0 := by
  obtain ⟨-, -, rfl⟩ := Db.insertAllocation_ok hins
  rw [Db.coveredOf, Db.allocatedTo, Table.sum_insert]
  simp only [Db.coveredOf, Db.allocatedTo, Db.creditAppliedTo, Table.share, toInvoice]
  split_ifs
  all_goals simp_all
  omega

theorem insert_totals {db' : Db} {paymentId invoiceId : ℕ} {amount : ℤ} {id : ℕ}
    (hins : db.insertAllocation paymentId invoiceId amount = .ok (db', id)) :
    (∀ p, db'.paymentTotal p = db.paymentTotal p) ∧ ∀ i, db'.invoiceTotal i = db.invoiceTotal i := by
  obtain ⟨-, -, rfl⟩ := Db.insertAllocation_ok hins
  exact ⟨fun _ => rfl, fun _ => rfl⟩

theorem Sound.insertAllocation {db' : Db} {paymentId invoiceId : ℕ} {amount : ℤ} {id : ℕ}
    (h : Sound db) (hpos : 0 ≤ amount) (hpayer : (db.paymentTotal paymentId).isSome = true)
    (hroom : ∀ t ∈ db.invoiceTotal invoiceId, db.coveredOf invoiceId + amount ≤ t)
    (hins : db.insertAllocation paymentId invoiceId amount = .ok (db', id)) : Sound db' where
  payments p t ht := by
    rw [(insert_totals hins).1] at ht
    rw [allocatedOf_insert hins]
    split_ifs with hp
    · subst hp
      exact (Db.insertAllocation_ok hins).1 t ht
    · rw [add_zero]
      exact h.payments p t ht
  invoices i t ht := by
    rw [(insert_totals hins).2] at ht
    rw [coveredOf_insert hins]
    split_ifs with hi
    · subst hi
      exact hroom t ht
    · rw [add_zero]
      exact h.invoices i t ht
  amounts a ha := by
    obtain ⟨-, -, rfl⟩ := Db.insertAllocation_ok hins
    rcases Table.mem_insert.1 ha with ha | rfl
    · exact h.amounts a ha
    · exact hpos
  credits := by
    obtain ⟨-, -, rfl⟩ := Db.insertAllocation_ok hins
    exact h.credits
  payer a ha := by
    rw [(insert_totals hins).1]
    obtain ⟨-, -, rfl⟩ := Db.insertAllocation_ok hins
    rcases Table.mem_insert.1 ha with ha | rfl
    · exact h.payer a ha
    · exact hpayer

/-! ### Deleting and reviving allocations -/

theorem mem_markAll {deleted : Bool} {rows : List PaymentAllocation} {a : PaymentAllocation}
    (ha : a ∈ (db.markAll deleted rows).allocations.rows) :
    ∃ b ∈ db.allocations.rows, a.amount = b.amount ∧ a.paymentId = b.paymentId := by
  rw [Db.markAll_rows] at ha
  obtain ⟨b, hb, rfl⟩ := List.mem_map.1 ha
  refine ⟨b, hb, ?_⟩
  unfold Db.markIn
  split_ifs <;> exact ⟨rfl, rfl⟩

theorem markAll_totals (deleted : Bool) (db : Db) (rows : List PaymentAllocation) :
    (∀ p, (db.markAll deleted rows).paymentTotal p = db.paymentTotal p) ∧
      (∀ i, (db.markAll deleted rows).invoiceTotal i = db.invoiceTotal i) ∧
      (db.markAll deleted rows).applications = db.applications := by
  rw [Db.markAll_eq]
  exact ⟨fun _ => rfl, fun _ => rfl, rfl⟩

theorem Sound.markAll {deleted : Bool} {rows : List PaymentAllocation} (h : Sound db)
    (hw : WithinTotals (db.markAll deleted rows)) : Sound (db.markAll deleted rows) where
  toWithinTotals := hw
  amounts a ha := by
    obtain ⟨b, hb, hamount, -⟩ := mem_markAll ha
    exact hamount ▸ h.amounts b hb
  credits := (markAll_totals deleted db rows).2.2 ▸ h.credits
  payer a ha := by
    obtain ⟨b, hb, -, hpay⟩ := mem_markAll ha
    rw [(markAll_totals deleted db rows).1, hpay]
    exact h.payer b hb

theorem sum_delete_le (rows : List PaymentAllocation) (p : PaymentAllocation → Bool)
    (hpos : ∀ a ∈ db.allocations.rows, 0 ≤ a.amount)
    (hlive : ∀ a : PaymentAllocation, p { a with deleted := true } = false) :
    (db.markAll true rows).allocations.sum p PaymentAllocation.amount ≤
      db.allocations.sum p PaymentAllocation.amount := by
  rw [Table.sum_eq, Table.sum_eq, Db.markAll_rows, List.map_map]
  refine List.sum_le_sum fun a ha => ?_
  simp only [Function.comp_apply, Db.markIn, Table.share]
  have := hpos a ha
  split_ifs <;> simp_all

theorem Sound.deleteAll (h : Sound db) (rows : List PaymentAllocation) :
    Sound (db.markAll true rows) := by
  refine h.markAll ⟨fun p t ht => ?_, fun i t ht => ?_⟩
  · rw [(markAll_totals true db rows).1] at ht
    exact (sum_delete_le _ _ h.amounts fun _ => by simp [ofPayment]).trans (h.payments p t ht)
  · rw [(markAll_totals true db rows).2.1] at ht
    have hle := sum_delete_le rows (toInvoice i) h.amounts fun _ => by simp [toInvoice]
    have := h.invoices i t ht
    simp only [Db.coveredOf, Db.allocatedTo, Db.creditAppliedTo,
      (markAll_totals true db rows).2.2] at this ⊢
    omega

/-- The payment bound survives a revival that passes the trigger row by row. -/
theorem payments_revive {rows : List PaymentAllocation}
    (hmem : ∀ r ∈ rows, r ∈ db.allocations.rows)
    (hids : (rows.map PaymentAllocation.id).Nodup) (hfit : db.RowsFit false rows)
    (h : ∀ p, ∀ t ∈ db.paymentTotal p, db.allocatedOf p ≤ t) :
    ∀ p, ∀ t ∈ db.paymentTotal p, (db.markAll false rows).allocatedOf p ≤ t := by
  induction rows generalizing db with
  | nil => exact h
  | cons row rows ih =>
    rw [List.map_cons, List.nodup_cons] at hids
    obtain ⟨⟨hrow, -⟩, hrest⟩ := hfit
    have hin := hmem row List.mem_cons_self
    refine @ih (db.mark false row) (fun r hr => ?_) hids.2 hrest fun p t ht => ?_
    · exact Db.mem_mark_of_ne hin (hmem r (List.mem_cons_of_mem _ hr))
        fun he => hids.1 (he ▸ List.mem_map_of_mem hr)
    · have hsum := Db.sum_mark false hin (ofPayment p) PaymentAllocation.amount
      rw [Db.allocatedOf, hsum]
      by_cases hp : row.paymentId = p
      · -- the trigger has counted the payment's other rows and this one
        have hothers := Db.othersOf_eq hin
        have := hrow.payment t (hp ▸ ht)
        subst hp
        simp only [Db.allocatedOf] at hothers
        simp only [Table.share, ofPayment, decide_true, and_self, if_true] at hothers ⊢
        omega
      · have := h p t ht
        simpa [Table.share, ofPayment, hp, Db.allocatedOf] using this

/-- `SUM(amount)` of the allocations to an invoice that are live or belong to the payment. -/
def withRevived (db : Db) (paymentId invoiceId : ℕ) : ℤ :=
  db.allocations.sum (fun a => a.invoiceId = invoiceId ∧
    (a.deleted = false ∨ a.paymentId = paymentId)) PaymentAllocation.amount

theorem allocatedTo_revive (db : Db) (paymentId invoiceId : ℕ) :
    (db.markAll false (db.allocations.rows.filter (deletedOfPayment paymentId))).allocatedTo
      invoiceId = withRevived db paymentId invoiceId := by
  refine Table.sum_congr ?_
  rw [Db.markAll_rows, List.map_map]
  refine List.map_congr_left fun a ha => ?_
  have hid : a.id ∈ (db.allocations.rows.filter (deletedOfPayment paymentId)).map
      PaymentAllocation.id ↔ deletedOfPayment paymentId a = true := by
    constructor
    · intro h
      obtain ⟨b, hb, hba⟩ := List.mem_map.1 h
      obtain ⟨hb, hdel⟩ := List.mem_filter.1 hb
      rwa [← Table.eq_of_key_eq hb ha hba]
    · exact fun h => List.mem_map_of_mem (List.mem_filter.2 ⟨ha, h⟩)
  simp only [Function.comp_apply, Db.markIn, hid, deletedOfPayment, Table.share, toInvoice]
  by_cases hd : a.deleted = true <;> by_cases hp : a.paymentId = paymentId <;> simp [hd, hp]

/-! ### Credit-note applications -/

theorem mem_releaseApplication {id : ℕ} {a : CreditNoteApplication}
    (ha : a ∈ (db.releaseApplication id).applications.rows) :
    ∃ b ∈ db.applications.rows, a.amount = b.amount := by
  rw [Db.releaseApplication, Table.mem_modify] at ha
  rcases ha with ⟨ha, -⟩ | ⟨b, hb, rfl⟩
  · exact ⟨a, ha, rfl⟩
  · exact ⟨b, (Table.find?_eq_some.1 hb).1, rfl⟩

theorem creditAppliedTo_release_le (h : ∀ a ∈ db.applications.rows, 0 ≤ a.amount) (id i : ℕ) :
    (db.releaseApplication id).creditAppliedTo i ≤ db.creditAppliedTo i := by
  refine Table.sum_modify_le (t := db.applications) (creditTo i) CreditNoteApplication.amount id
    (fun a => { a with deleted := true }) (fun _ => rfl) fun a ha => ?_
  have hzero : Table.share (creditTo i) CreditNoteApplication.amount { a with deleted := true } = 0 := by
    simp [Table.share, creditTo]
  rw [hzero]
  exact Table.share_nonneg _ _ (h a ha)

theorem Sound.releaseApplication (h : Sound db) (id : ℕ) : Sound (db.releaseApplication id) where
  payments := h.payments
  invoices i t ht := by
    have hle := creditAppliedTo_release_le h.credits id i
    have halloc : (db.releaseApplication id).allocatedTo i = db.allocatedTo i := rfl
    have := h.invoices i t ht
    simp only [Db.coveredOf] at this ⊢
    omega
  amounts := h.amounts
  credits a ha := by
    obtain ⟨b, hb, heq⟩ := mem_releaseApplication ha
    exact heq ▸ h.credits b hb
  payer := h.payer

theorem coveredOf_released {noteId : ℕ} {current : Option CreditNoteApplication}
    (hcur : current = db.applications.rows.find? (ofNote noteId)) (i : ℕ) :
    (released db current).coveredOf i = db.coveredOf i - ownCredit current i := by
  cases current with
  | none => simp [released, ownCredit]
  | some c =>
    have hmem := List.mem_of_find?_eq_some hcur.symm
    have hlive := List.find?_some hcur.symm
    simp only [ofNote, decide_eq_true_eq] at hlive
    have hsum : (released db (some c)).creditAppliedTo i = _ :=
      Table.sum_modify (creditTo i) CreditNoteApplication.amount (Table.find?_key hmem)
        (fun a => { a with deleted := true }) fun _ => rfl
    have halloc : (released db (some c)).allocatedTo i = db.allocatedTo i := rfl
    rw [Db.coveredOf, hsum, halloc, Db.coveredOf, Db.creditAppliedTo]
    simp only [Table.share, creditTo, hlive.2, ownCredit]
    split_ifs
    all_goals simp_all
    omega

theorem applicationTarget_le {note : CreditNote} {orgId : ℕ} {release : Bool}
    {current : Option CreditNoteApplication} {target : ℤ} {id : ℕ}
    (h : applicationTarget db note orgId release current = (target, some id)) (hpos : 1 ≤ target) :
    ∀ t ∈ db.invoiceTotal id, db.coveredOf id - ownCredit current id + target ≤ t := by
  unfold applicationTarget at h
  split_ifs at h with hcond
  · cases hinv : creditedInvoice db note orgId with
    | none => simp [hinv] at h
    | some invoice =>
      simp only [hinv, Prod.mk.injEq, Option.some.injEq] at h
      obtain ⟨htarget, rfl⟩ := h
      have hfind : db.invoices.find? invoice.id = some invoice := by
        unfold creditedInvoice at hinv
        obtain ⟨hb, -⟩ := Option.filter_eq_some_iff.1 hinv
        obtain ⟨j, -, hj⟩ := Option.bind_eq_some_iff.1 hb
        exact Table.find?_key (Table.find?_eq_some.1 hj).1
      intro t ht
      rw [Db.invoiceTotal, hfind, Option.map_some, Option.mem_some_iff] at ht
      omega
  · have := (Prod.mk.inj h).1
    omega

theorem Sound.insertApplication {db' : Db} {noteId invoiceId : ℕ} {amount : ℤ} (h : Sound db)
    (hpos : 0 ≤ amount) (hroom : ∀ t ∈ db.invoiceTotal invoiceId, db.coveredOf invoiceId + amount ≤ t)
    (hins : db.insertApplication noteId invoiceId amount = .ok db') : Sound db' := by
  unfold Db.insertApplication at hins
  split_ifs at hins
  cases hins
  refine ⟨⟨h.payments, fun i t ht => ?_⟩, h.amounts, fun a ha => ?_, h.payer⟩
  · have ht : t ∈ db.invoiceTotal i := ht
    have hbefore := h.invoices i t ht
    simp only [Db.coveredOf, Db.allocatedTo, Db.creditAppliedTo, Table.sum_insert] at hroom hbefore ⊢
    simp only [Table.share, creditTo, and_true, decide_eq_true_eq]
    split_ifs with hi
    · subst hi
      have := hroom t ht
      omega
    · omega
  · rcases Table.mem_insert.1 ha with ha | rfl
    · exact h.credits a ha
    · exact hpos

theorem Sound.replaceApplication {db' : Db} {noteId : ℕ} {current : Option CreditNoteApplication}
    {target : ℤ} {invoiceId : Option ℕ} (h : Sound db)
    (hcur : current = db.applications.rows.find? (ofNote noteId))
    (hroom : ∀ id, invoiceId = some id → 1 ≤ target →
      ∀ t ∈ db.invoiceTotal id, db.coveredOf id - ownCredit current id + target ≤ t)
    (hok : replaceApplication db noteId current target invoiceId = .ok db') : Sound db' := by
  obtain ⟨db₁, hdb₁, rfl⟩ := replaceApplication_ok hok
  have hrel : Sound (released db current) := by
    cases current with
    | none => exact h
    | some c => exact h.releaseApplication c.id
  have htotal : ∀ i, (released db current).invoiceTotal i = db.invoiceTotal i := by
    cases current <;> exact fun _ => rfl
  refine Sound.congr ?_ (SameBooks.refreshCreditAll db₁ _)
  rcases hdb₁ with ⟨rfl, -⟩ | ⟨id, hid, hpos, hins⟩
  · exact hrel
  · refine hrel.insertApplication (by omega) (fun t ht => ?_) hins
    rw [coveredOf_released hcur]
    exact hroom id hid hpos t (htotal id ▸ ht)

theorem Sound.releaseForInvoice (h : Sound db) (invoiceId : ℕ) :
    Sound (releaseForInvoice db invoiceId) := by
  have happ : ∀ (rows : List CreditNoteApplication) (db : Db), Sound db →
      Sound (rows.foldl (fun db a => db.releaseApplication a.id) db) := by
    intro rows
    induction rows with
    | nil => exact fun _ h => h
    | cons a rows ih => exact fun db h => ih _ (h.releaseApplication a.id)
  have hnote : ∀ (rows : List CreditNoteApplication) (db : Db), Sound db →
      Sound (rows.foldl (fun db a => db.setNoteStatus a.creditNoteId fun st =>
        if st = .applied then .issued else st) db) := by
    intro rows
    induction rows with
    | nil => exact fun _ h => h
    | cons a rows ih => exact fun db h => ih _ (h.congr ⟨fun _ => rfl, fun _ => rfl, rfl, rfl⟩)
  exact hnote _ _ (happ _ _ h)

end Statements

/-! ### What the requests keep -/

section Requests

variable {db db' : Db}

theorem findPayment_total {paymentId orgId : ℕ} {payment : Payment}
    (h : findPayment db paymentId orgId = some payment) :
    (db.paymentTotal payment.id).isSome = true := by
  have hfind := (findPayment_some.1 h).1
  have hid : payment.id = paymentId := (Table.find?_eq_some.1 hfind).2
  rw [Db.paymentTotal, hid, hfind]
  rfl

theorem applyAllocation_books {payment : Payment} {invoice : Invoice} {amount : ℤ}
    {anyClient finalize : Bool} {id : ℕ} {paid : Bool}
    (h : applyAllocation db payment invoice amount anyClient finalize = .ok (db', id, paid)) :
    ∃ db₁, db.insertAllocation payment.id invoice.id amount = .ok (db₁, id) ∧
      SameBooks db₁ db' := by
  obtain ⟨-, db₁, hins, rfl⟩ := applyAllocation_ok h
  refine ⟨db₁, hins, ?_⟩
  split_ifs
  · exact SameBooks.finalize db₁ invoice
  · exact SameBooks.refl db₁

theorem Sound.applyAllocation {payment : Payment} {invoice : Invoice} {amount : ℤ}
    {anyClient finalize : Bool} {id : ℕ} {paid : Bool} (h : Sound db) (hpos : 0 ≤ amount)
    (hpayer : (db.paymentTotal payment.id).isSome = true)
    (hroom : ∀ t ∈ db.invoiceTotal invoice.id, db.coveredOf invoice.id + amount ≤ t)
    (happ : applyAllocation db payment invoice amount anyClient finalize = .ok (db', id, paid)) :
    Sound db' := by
  obtain ⟨db₁, hins, hsame⟩ := applyAllocation_books happ
  exact (h.insertAllocation hpos hpayer hroom hins).congr hsame

/-- The open invoices of the loop still have the room they were listed with. -/
structure Listed (payment : Payment) (rows : List OpenInvoice) (db : Db) : Prop where
  sound : Sound db
  payer : (db.paymentTotal payment.id).isSome = true
  distinct : (rows.map fun x => x.invoice.id).Nodup
  room : ∀ x ∈ rows, ∀ t ∈ db.invoiceTotal x.invoice.id,
    db.coveredOf x.invoice.id + x.balanceDue ≤ t

theorem Sound.allocateAcross {payment : Payment} {remainder : ℤ} {rows : List OpenInvoice}
    {applied : Applied} (h : Listed payment rows db)
    (happ : allocateAcrossInvoices payment db remainder rows = .ok applied) : Sound applied.db := by
  refine (allocateAcross_rule (I := Listed payment) ?_ ?_ h happ).sound
  · rintro x rest db ⟨hs, hp, hd, hr⟩
    rw [List.map_cons, List.nodup_cons] at hd
    exact ⟨hs, hp, hd.2, fun y hy => hr y (List.mem_cons_of_mem _ hy)⟩
  · rintro x rest db db' amount id paid ⟨hs, hp, hd, hr⟩ hpos hle happ
    rw [List.map_cons, List.nodup_cons] at hd
    have hroom : ∀ t ∈ db.invoiceTotal x.invoice.id, db.coveredOf x.invoice.id + amount ≤ t :=
      fun t ht => by
        have := hr x List.mem_cons_self t ht
        omega
    obtain ⟨db₁, hins, hsame⟩ := applyAllocation_books happ
    obtain ⟨hpt, hit⟩ := insert_totals hins
    refine ⟨hs.applyAllocation hpos.le hp hroom happ, ?_, hd.2, fun y hy t ht => ?_⟩
    · rwa [hsame.paymentTotal, hpt]
    · -- the other invoices of the list are covered as before
      have hne : x.invoice.id ≠ y.invoice.id := fun he =>
        hd.1 (he ▸ List.mem_map_of_mem (f := fun x : OpenInvoice => x.invoice.id) hy)
      rw [hsame.invoiceTotal, hit] at ht
      rw [hsame.coveredOf, coveredOf_insert hins, if_neg hne, add_zero]
      exact hr y (List.mem_cons_of_mem _ hy) t ht

theorem listed_of_sublist {payment : Payment} {orgId clientId : ℕ} {ids : Option (List ℕ)}
    {rows : List OpenInvoice} (h : Sound db')
    (hpayer : (db'.paymentTotal payment.id).isSome = true)
    (hrows : rows.Sublist (getInvoicesWithBalance db orgId clientId ids))
    (hinv : db'.invoices = db.invoices) (hcov : ∀ i, db'.coveredOf i = db.coveredOf i) :
    Listed payment rows db' where
  sound := h
  payer := hpayer
  distinct := (hrows.map _).nodup (getInvoicesWithBalance_nodup db orgId clientId ids)
  room x hx t ht := by
    obtain ⟨hfind, -, hbal⟩ := mem_getInvoicesWithBalance (hrows.subset hx)
    rw [Db.invoiceTotal, hinv, hfind, Option.map_some, Option.mem_some_iff] at ht
    rw [hcov, hbal]
    omega

theorem toDecimal_nonneg {amount : ℚ} (h : 0 ≤ amount) : 0 ≤ toDecimal amount := by
  rw [toDecimal, if_pos h]
  exact Int.floor_nonneg.2 (by positivity)

/-- Where the trigger lets an allocation to the invoice through, the credit notes leave room for
it too. -/
def LeavesRoom (db : Db) (invoiceId : ℕ) (amount : ℤ) : Prop :=
  ∀ t ∈ db.invoiceTotal invoiceId, db.allocatedTo invoiceId + amount ≤ t →
    db.coveredOf invoiceId + amount ≤ t

theorem Sound.allocate {orgId paymentId invoiceId : ℕ} {amount : ℚ} (h : Sound db)
    (hroom : ∀ inv, findInvoice db invoiceId orgId = some inv → withinInvoice db inv amount →
      LeavesRoom db invoiceId (toDecimal amount))
    (hok : allocate db orgId paymentId invoiceId amount = .ok db') : Sound db' := by
  obtain ⟨hpos, payment, invoice, db₁, id, hpay, hinv, -, hwithin, hins, rfl⟩ := allocate_ok hok
  obtain rfl : invoice.id = invoiceId := (Table.find?_eq_some.1 (findInvoice_some.1 hinv).1).2
  refine Sound.congr ?_ (SameBooks.finalize db₁ invoice)
  exact h.insertAllocation (toDecimal_nonneg hpos) (findPayment_total hpay)
    (fun t ht => hroom invoice hinv hwithin t ht ((Db.insertAllocation_ok hins).2.1 t ht)) hins

theorem Sound.allocateAuto {orgId paymentId : ℕ} {ids : Option (List ℕ)} (h : Sound db)
    (hok : allocateAuto db orgId paymentId ids = .ok db') : Sound db' := by
  obtain ⟨payment, remainder, rows, applied, hpay, hrows, happ, rfl⟩ := allocateAuto_ok hok
  exact Sound.allocateAcross
    (listed_of_sublist h (findPayment_total hpay) hrows rfl fun _ => rfl) happ

theorem Sound.unapply {orgId paymentId invoiceId : ℕ} {bindingRep : Option String}
    (h : Sound db) (hok : unapply db orgId paymentId invoiceId bindingRep = .ok db') :
    Sound db' := by
  obtain ⟨row, -, -, rfl⟩ := unapply_ok hok
  exact (h.deleteAll [row]).congr (SameBooks.refresh _ invoiceId)

theorem covered_delete {row : PaymentAllocation} (hmem : row ∈ db.allocations.rows) {i : ℕ}
    (hne : row.invoiceId ≠ i) : (db.mark true row).allocatedTo i = db.allocatedTo i ∧
      (db.mark true row).coveredOf i = db.coveredOf i := by
  have halloc : (db.mark true row).allocatedTo i = db.allocatedTo i := by
    rw [Db.allocatedTo, Db.sum_mark _ hmem]
    simp [Db.allocatedTo, Table.share, toInvoice, hne]
  refine ⟨halloc, ?_⟩
  rw [Db.coveredOf, halloc]
  rfl

theorem Sound.reallocate {orgId paymentId fromInvoiceId toInvoiceId : ℕ} {amount : Option ℚ}
    {bindingRep : Option String} (h : Sound db)
    (hroom : ∀ row, liveAllocation db paymentId fromInvoiceId = some row →
      0 ≤ moved amount row ∧ LeavesRoom db toInvoiceId (moved amount row))
    (hok : reallocate db orgId paymentId fromInvoiceId toInvoiceId amount bindingRep = .ok db') :
    Sound db' := by
  obtain ⟨hne, payment, row, toInv, db₁, id, hpay, hrow, hto, -, -, hins, rfl⟩ :=
    reallocate_ok hok
  obtain ⟨hpos, hleaves⟩ := hroom row hrow
  obtain ⟨hmem, -, rfl, -⟩ := liveAllocation_some hrow
  obtain rfl : toInv.id = toInvoiceId := (Table.find?_eq_some.1 (findInvoice_some.1 hto).1).2
  obtain ⟨halloc, hcov⟩ := covered_delete hmem hne
  refine Sound.congr (Sound.congr ?_ (SameBooks.refresh db₁ row.invoiceId))
    (SameBooks.refresh _ toInv.id)
  refine (h.deleteAll [row]).insertAllocation hpos (findPayment_total hpay) (fun t ht => ?_) hins
  have htrigger := (Db.insertAllocation_ok hins).2.1 t ht
  rw [halloc] at htrigger
  have := hleaves t ht htrigger
  rwa [← hcov] at this

theorem Sound.reversePayment {paymentId : ℕ} (h : Sound db)
    (hok : moveAllocations (reversePaymentCredit db paymentId) (ofPayment paymentId) true =
      .ok db') : Sound db' := by
  obtain ⟨-, rfl⟩ := moveAllocations_ok.1 hok
  have hrev : Sound (reversePaymentCredit db paymentId) :=
    h.congr ⟨fun _ => rfl, fun _ => rfl, rfl, rfl⟩
  exact (hrev.deleteAll _).congr (SameBooks.refreshAll _ _)

theorem Sound.deletePayment {orgId paymentId : ℕ} {bindingRep : Option String}
    (h : Sound db) (hok : deletePayment db orgId paymentId bindingRep = .ok db') : Sound db' := by
  obtain ⟨old, -, -, db₁, hrev, rfl⟩ := deletePayment_ok.1 hok
  exact (h.reversePayment hrev).congr (SameBooks.setPayment db₁ paymentId id true)

theorem Sound.voidCollection {orgId resellerId paymentId : ℕ} {refusal : Option Failure}
    (h : Sound db) (hok : voidCollection db orgId resellerId paymentId refusal = .ok db') :
    Sound db' := by
  obtain ⟨db₁, hrev, hsame⟩ := voidCollection_ok hok
  exact ((h.reversePayment hrev).congr (SameBooks.setPayment db₁ paymentId _ true)).congr
    (SameBooks.of_sameMoney hsame)

theorem Sound.payInstallment {orgId planId sequence paymentId : ℕ} (h : Sound db)
    (hok : payInstallment db orgId planId sequence paymentId = .ok db') : Sound db' := by
  obtain ⟨payment, clientId, installment, db₁, hpay, halloc, hsame⟩ := payInstallment_ok hok
  refine Sound.congr ?_ (SameBooks.of_sameMoney hsame.toSameMoney)
  rcases allocateInstallment_ok halloc with rfl | ⟨ids, x, amount, id, paid, hx, hpos, hle, happ⟩
  · exact h
  · refine h.applyAllocation hpos.le (findPayment_total hpay) (fun t ht => ?_) happ
    obtain ⟨hfind, -, hbal⟩ := mem_getInvoicesWithBalance hx
    rw [Db.invoiceTotal, hfind, Option.map_some, Option.mem_some_iff] at ht
    omega

theorem Sound.syncApplication {note : CreditNote} {orgId : ℕ} {release : Bool} (h : Sound db)
    (hok : syncApplication db note orgId release = .ok db') : Sound db' := by
  obtain ⟨db₁, hsame, hdb₁⟩ := syncApplication_ok hok
  refine Sound.congr ?_ (SameBooks.of_sameMoney hsame.toSameMoney)
  rcases hdb₁ with rfl | ⟨current, target, invoiceId, hcur, htarget, hrep⟩
  · exact h
  · refine h.replaceApplication hcur (fun id hid hpos => ?_) hrep
    subst hid
    exact applicationTarget_le htarget hpos

/-- A payment that was just recorded has no allocation yet. -/
theorem Sound.withPayment (orgId : ℕ) (payer : ℕ → Payment) (hid : ∀ n, (payer n).id = n)
    (h : Sound db) (hpos : 0 ≤ (payer db.payments.nextId).amount) :
    Sound (withPayment db orgId payer hid) ∧
      ((withPayment db orgId payer hid).paymentTotal db.payments.nextId).isSome = true := by
  have htotal : ∀ p, (Billing.withPayment db orgId payer hid).paymentTotal p =
      if p = db.payments.nextId then some (payer db.payments.nextId).amount
      else db.paymentTotal p := by
    intro p
    change ((db.payments.insert payer hid).find? p).map Payment.amount = _
    rw [Table.find?_insert]
    split_ifs
    · rfl
    · rfl
  have hold : ∀ p, (db.paymentTotal p).isSome = true → p ≠ db.payments.nextId := by
    rintro p hp rfl
    rw [Db.paymentTotal, Table.find?_nextId] at hp
    simp at hp
  refine ⟨⟨⟨fun p t ht => ?_, h.invoices⟩, h.amounts, h.credits, fun a ha => ?_⟩, ?_⟩
  · rw [htotal] at ht
    change db.allocatedOf p ≤ t
    split_ifs at ht with hp
    · obtain rfl : (payer db.payments.nextId).amount = t := by simpa using ht
      -- by the foreign key no row refers to the new payment
      have hzero : db.allocatedOf p = 0 := allocatedOf_eq_zero <| by
        rw [List.eq_nil_iff_forall_not_mem]
        intro a ha
        obtain ⟨hmem, hap, -⟩ := liveOf_spec.1 ha
        exact hold _ (h.payer a hmem) (hap.trans hp)
      rw [hzero]
      exact hpos
    · exact h.payments p t ht
  · rw [htotal, if_neg (hold _ (h.payer a ha))]
    exact h.payer a ha
  · rw [htotal, if_pos rfl]
    rfl

theorem Sound.collect {orgId resellerId clientId : ℕ} {amount : ℤ} {currency : String}
    {ids : Option (List ℕ)} {refusal : Option Failure} (h : Sound db)
    (hok : collect db orgId resellerId clientId amount currency ids refusal = .ok db') :
    Sound db' := by
  obtain ⟨hpos, rows, applied, hrows, happ, hsame⟩ := collect_ok hok
  refine Sound.congr ?_ (SameBooks.of_sameMoney hsame)
  obtain ⟨hnew, hpayer⟩ := h.withPayment orgId
    (collected orgId resellerId clientId amount currency) (fun _ => rfl) hpos.le
  exact Sound.allocateAcross (listed_of_sublist hnew hpayer hrows rfl fun _ => rfl) happ

theorem Sound.restorePayment {orgId paymentId : ℕ} (h : Sound db)
    (hroom : ∀ i, ∀ t ∈ db.invoiceTotal i, withRevived db paymentId i + db.creditAppliedTo i ≤ t)
    (hok : restorePayment db orgId paymentId = .ok db') : Sound db' := by
  obtain ⟨payment, -, -, -, -, -, hmove⟩ := restorePayment_ok.1 hok
  obtain ⟨hfit, rfl⟩ := moveAllocations_ok.1 hmove
  have hun : SameBooks db (undeleted db orgId payment) :=
    ⟨fun p => setPayment_total db payment.id p _ false, fun _ => rfl, rfl, rfl⟩
  have hs := h.congr hun
  refine Sound.congr (hs.markAll ⟨fun p t ht => ?_, fun i t ht => ?_⟩) (SameBooks.refreshAll _ _)
  · rw [(markAll_totals _ _ _).1] at ht
    refine payments_revive (fun r hr => (List.mem_filter.1 hr).1) ?_ hfit hs.payments p t ht
    exact (List.filter_sublist.map _).nodup (undeleted db orgId payment).allocations.nodup
  · rw [(markAll_totals _ _ _).2.1] at ht
    rw [Db.coveredOf, allocatedTo_revive, Db.creditAppliedTo, (markAll_totals _ _ _).2.2]
    exact hroom i t ht

theorem Sound.settle {invoiceId orgId : ℕ} {status : InvoiceStatus}
    {forbidFrom : List InvoiceStatus} (h : Sound db) :
    Sound (settleInvoiceTerminal db invoiceId orgId status forbidFrom).1 := by
  have hset : Sound (db.setInvoiceStatus invoiceId fun _ => status) :=
    h.congr (SameBooks.setInvoiceStatus db invoiceId _)
  rcases settleInvoiceTerminal_cases db invoiceId orgId status forbidFrom with
    ⟨s, c, m, heq⟩ | ⟨existing, -, ⟨-, heq⟩ | ⟨-, ⟨err, -, heq⟩ | ⟨db₁, hrel, heq⟩⟩⟩
  · rw [heq]
    exact h
  · rw [heq]
    exact hset
  · rw [heq]
    exact hset
  · rw [heq]
    obtain ⟨-, rfl⟩ := Db.updateAllocations_ok.1 hrel
    exact ((hset.deleteAll _).releaseForInvoice invoiceId).congr
      ⟨fun _ => rfl, fun _ => rfl, rfl, rfl⟩

end Requests

/-! ### Runs -/

/-- The requests that keep the totals: an allocation leaves room for the credit notes of its
invoice, and so does a reallocation, of an amount that is not negative; a restore that goes
through revives no more than each invoice has room for. -/
def KeepsTotals (db : Db) : Event → Prop
  | .allocate orgId _ invoiceId amount => ∀ inv, findInvoice db invoiceId orgId = some inv →
      withinInvoice db inv amount → LeavesRoom db invoiceId (toDecimal amount)
  | .reallocate _ paymentId fromInvoiceId toInvoiceId amount _ =>
      ∀ row, liveAllocation db paymentId fromInvoiceId = some row →
        0 ≤ moved amount row ∧ LeavesRoom db toInvoiceId (moved amount row)
  | .restorePayment orgId paymentId => Restores db orgId paymentId →
      ∀ i, ∀ t ∈ db.invoiceTotal i, withRevived db paymentId i + db.creditAppliedTo i ≤ t
  | _ => True

/-- **One request** that meets the condition keeps the invariant. -/
theorem sound_step (db : Db) (e : Event) (h : Sound db) (hgood : KeepsTotals db e) :
    Sound (db.after e) := by
  cases e with
  | allocate => exact commit_cases h fun _ hok => h.allocate hgood hok
  | allocateAuto => exact commit_cases h fun _ hok => h.allocateAuto hok
  | unapply => exact commit_cases h fun _ hok => h.unapply hok
  | reallocate => exact commit_cases h fun _ hok => h.reallocate hgood hok
  | deletePayment => exact commit_cases h fun _ hok => h.deletePayment hok
  | restorePayment =>
    exact commit_cases h fun _ hok => h.restorePayment (hgood (restores_of_ok hok)) hok
  | syncApplication => exact commit_cases h fun _ hok => h.syncApplication hok
  | voidInvoice invoiceId orgId liveCfdi =>
    simp only [Db.after]
    rcases voidInvoiceById_cases db invoiceId orgId liveCfdi with ⟨s, c, m, heq⟩ | ⟨-, heq⟩
    · rw [heq]
      exact h
    · rw [heq]
      exact h.settle
  | cancelForSat => exact h.settle
  | payInstallment => exact commit_cases h fun _ hok => h.payInstallment hok
  | collect => exact commit_cases h fun _ hok => h.collect hok
  | voidCollection => exact commit_cases h fun _ hok => h.voidCollection hok

/-- **Payments and invoices stay within their totals** in every run whose requests meet the
condition. -/
theorem withinTotals_always {db : Db} {es : List Event} (h : Sound db)
    (hgood : StepsMeet Db.after KeepsTotals db es) : Always Db.after WithinTotals db es :=
  (always_of_step sound_step h hgood).mono fun _ hs => hs.toWithinTotals

theorem sound_of_unallocated {db : Db} (ha : db.allocations.rows = [])
    (hc : db.applications.rows = []) (hp : ∀ p ∈ db.payments.rows, 0 ≤ p.amount)
    (hi : ∀ i ∈ db.invoices.rows, 0 ≤ i.total) : Sound db := by
  refine ⟨⟨fun p t ht => ?_, fun i t ht => ?_⟩, by simp [ha], by simp [hc], by simp [ha]⟩
  · obtain ⟨payment, hpay, rfl⟩ := Option.map_eq_some_iff.1 ht
    simpa [Db.allocatedOf, Table.sum, ha] using hp payment (Table.find?_eq_some.1 hpay).1
  · obtain ⟨invoice, hinv, rfl⟩ := Option.map_eq_some_iff.1 ht
    simpa [Db.coveredOf, Db.allocatedTo, Db.creditAppliedTo, Table.sum, ha, hc] using
      hi invoice (Table.find?_eq_some.1 hinv).1

/-- The payment and two open invoices of 100.00 each. -/
def twoInvoices : Db :=
  { opened with
    invoices := ⟨[⟨1, 1, 1, 1, 10000, "MXN", .issued, false⟩,
      ⟨2, 1, 1, 2, 10000, "MXN", .issued, false⟩], by decide⟩ }

/-- A credit note of 60.00 on the first invoice. -/
def noteOnFirst : CreditNote := ⟨1, 1, 1, some 1, 6000, .issued, false⟩

/-- The payment on the second invoice, the note on the first, and some of the payment moved to the
first. -/
def moveBesideNote (amount : Option ℚ) : List Event :=
  [.allocateAuto 1 1 (some [2]), .syncApplication noteOnFirst 1 false,
    .reallocate 1 1 2 1 amount none]

theorem twoInvoices_sound : Sound twoInvoices :=
  sound_of_unallocated rfl rfl (by decide) (by decide)

theorem withinTotals_always_moved_in_part :
    Always Db.after WithinTotals twoInvoices (moveBesideNote (some 40)) := by
  refine withinTotals_always twoInvoices_sound ⟨trivial, trivial, fun row _ => ⟨?_, ?_⟩, trivial⟩
  · change 0 ≤ toDecimal 40
    decide +kernel
  · change LeavesRoom _ 1 (toDecimal 40)
    unfold LeavesRoom
    decide +kernel

/-- **A reallocation over-covers an invoice**: the trigger lets 100.00 through to an invoice of
100.00 that a credit note has reduced by 60.00 already. -/
theorem reallocate_over_covers :
    Sound twoInvoices ∧ (run Db.after twoInvoices (moveBesideNote none)).coveredOf 1 = 16000 ∧
      ¬ Always Db.after WithinTotals twoInvoices (moveBesideNote none) := by
  have hcovered : (run Db.after twoInvoices (moveBesideNote none)).coveredOf 1 = 16000 := by
    decide +kernel
  refine ⟨twoInvoices_sound, hcovered, fun h => ?_⟩
  have := h.last.invoices 1 10000 (by decide +kernel)
  omega

end Vigabss.Billing
