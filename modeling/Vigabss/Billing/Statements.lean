import Vigabss.Lib.Except
import Vigabss.Billing.Operations

/-!
# Vigabss.Billing.Statements — what the statements do

One lemma for each statement and each service function: when it succeeds, and which table it
leaves behind.  The proofs about requests use these and do not open the definitions.
-/

namespace Vigabss.Billing

open Vigabss.Lib

/-! ### Monadic plumbing -/

theorem query_ok {α : Type} {r : Except SqlError α} {a : α} :
    query r = .ok a ↔ r = .ok a := by
  cases r <;> simp [query, Except.mapError]

/-! ### The guards -/

theorem guardTrigger_ok {total : Option ℤ} {already amount : ℤ} {message : String} {u : Unit} :
    Db.guardTrigger total already amount message = .ok u ↔ ∀ t ∈ total, already + amount ≤ t := by
  cases total with
  | none => simp [Db.guardTrigger]
  | some t => simp [Db.guardTrigger]

namespace Db

/-- `SUM(amount)` of the other live allocations of the row's payment. -/
def othersOf (db : Db) (row : PaymentAllocation) : ℤ :=
  db.allocations.sum (fun a => ofPayment row.paymentId a && decide (a.id ≠ row.id))
    PaymentAllocation.amount

/-- `SUM(amount)` of the other live allocations to the row's invoice. -/
def othersTo (db : Db) (row : PaymentAllocation) : ℤ :=
  db.allocations.sum (fun a => toInvoice row.invoiceId a && decide (a.id ≠ row.id))
    PaymentAllocation.amount

/-- Both `BEFORE UPDATE` triggers pass for the row. -/
structure UpdateFits (db : Db) (row : PaymentAllocation) : Prop where
  payment : ∀ t ∈ db.paymentTotal row.paymentId, db.othersOf row + row.amount ≤ t
  invoice : ∀ t ∈ db.invoiceTotal row.invoiceId, db.othersTo row + row.amount ≤ t

theorem id_marked (deleted : Bool) (a : PaymentAllocation) : { a with deleted }.id = a.id := rfl

/-- The database with one allocation's deletion mark set. -/
def mark (db : Db) (deleted : Bool) (row : PaymentAllocation) : Db :=
  { db with
    allocations := db.allocations.modify row.id (fun a => { a with deleted }) (id_marked deleted) }

theorem updateAllocation_ok {db db' : Db} {row : PaymentAllocation} {deleted : Bool} :
    db.updateAllocation row deleted = .ok db' ↔
      db.UpdateFits row ∧ (deleted = false → db.duplicatesLive { row with deleted } = false) ∧
        db' = db.mark deleted row := by
  simp only [updateAllocation, except_bind_ok, trgPaymentBu, trgInvoiceBu, guardTrigger_ok,
    exists_const]
  constructor
  · rintro ⟨hp, hi, h⟩
    split_ifs at h with hd
    refine ⟨⟨hp, hi⟩, fun hdel => ?_, (Except.ok.inj h).symm⟩
    by_contra hdup
    exact hd ⟨hdel, by simpa using hdup⟩
  · rintro ⟨⟨hp, hi⟩, hd, rfl⟩
    refine ⟨hp, hi, ?_⟩
    rw [if_neg (fun h => by simp [hd h.1] at h)]
    rfl

theorem insertAllocation_ok {db db' : Db} {paymentId invoiceId : ℕ} {amount : ℤ} {id : ℕ}
    (h : db.insertAllocation paymentId invoiceId amount = .ok (db', id)) :
    (∀ t ∈ db.paymentTotal paymentId, db.allocatedOf paymentId + amount ≤ t) ∧
      (∀ t ∈ db.invoiceTotal invoiceId, db.allocatedTo invoiceId + amount ≤ t) ∧
      db' = { db with
        allocations := db.allocations.insert (fun id => ⟨id, paymentId, invoiceId, amount, false⟩)
          (fun _ => rfl) } := by
  simp only [insertAllocation, except_bind_ok, trgPaymentBi, trgInvoiceBi, guardTrigger_ok,
    exists_const] at h
  obtain ⟨hp, hi, h⟩ := h
  split_ifs at h
  obtain ⟨rfl, -⟩ := Prod.mk.inj (Except.ok.inj h)
  exact ⟨hp, hi, rfl⟩

/-! ### Marking allocations deleted or live -/

theorem mem_mark {db : Db} {deleted : Bool} {row a : PaymentAllocation}
    (hrow : row ∈ db.allocations.rows) :
    a ∈ (db.mark deleted row).allocations.rows ↔
      (a ∈ db.allocations.rows ∧ a.id ≠ row.id) ∨ a = { row with deleted } := by
  have hfind : db.allocations.find? row.id = some row := Table.find?_key hrow
  rw [mark, Table.mem_modify]
  constructor
  · rintro (h | ⟨b, hb, rfl⟩)
    · exact .inl h
    · rw [hfind] at hb
      cases hb
      exact .inr rfl
  · rintro (h | rfl)
    · exact .inl h
    · exact .inr ⟨row, hfind, rfl⟩

theorem mem_mark_of_ne {db : Db} {deleted : Bool} {row a : PaymentAllocation}
    (hrow : row ∈ db.allocations.rows) (ha : a ∈ db.allocations.rows) (hne : a.id ≠ row.id) :
    a ∈ (db.mark deleted row).allocations.rows := (mem_mark hrow).2 (.inl ⟨ha, hne⟩)

theorem sum_mark {db : Db} (deleted : Bool) {row : PaymentAllocation}
    (hrow : row ∈ db.allocations.rows) (p : PaymentAllocation → Bool)
    (f : PaymentAllocation → ℤ) :
    (db.mark deleted row).allocations.sum p f =
      db.allocations.sum p f - Table.share p f row + Table.share p f { row with deleted } :=
  Table.sum_modify p f (Table.find?_key hrow) (fun a => { a with deleted }) fun _ => rfl

theorem othersTo_mark {db : Db} {deleted : Bool} {row other : PaymentAllocation}
    (hrow : row ∈ db.allocations.rows) (hne : row.invoiceId ≠ other.invoiceId) :
    (db.mark deleted row).othersTo other = db.othersTo other := by
  rw [othersTo, sum_mark _ hrow]
  simp [othersTo, Table.share, toInvoice, hne]

theorem othersOf_eq {db : Db} {row : PaymentAllocation} (hrow : row ∈ db.allocations.rows) :
    db.othersOf row = db.allocatedOf row.paymentId -
      Table.share (ofPayment row.paymentId) PaymentAllocation.amount row :=
  Table.sum_other _ _ (Table.find?_key hrow)

theorem othersTo_eq {db : Db} {row : PaymentAllocation} (hrow : row ∈ db.allocations.rows) :
    db.othersTo row = db.allocatedTo row.invoiceId -
      Table.share (toInvoice row.invoiceId) PaymentAllocation.amount row :=
  Table.sum_other _ _ (Table.find?_key hrow)

/-- Several rows marked, one after the other. -/
def markAll (deleted : Bool) (db : Db) (rows : List PaymentAllocation) : Db :=
  rows.foldl (fun db row => db.mark deleted row) db

/-- Every row passes its guards at its turn. -/
def RowsFit (deleted : Bool) : Db → List PaymentAllocation → Prop
  | _, [] => True
  | db, row :: rows =>
    (db.UpdateFits row ∧ (deleted = false → db.duplicatesLive { row with deleted } = false)) ∧
      RowsFit deleted (db.mark deleted row) rows

theorem updateRows_ok {deleted : Bool} {db db' : Db} {rows : List PaymentAllocation} :
    rows.foldlM (fun db old => db.updateAllocation old deleted) db = .ok db' ↔
      RowsFit deleted db rows ∧ db' = db.markAll deleted rows := by
  induction rows generalizing db with
  | nil => simp [RowsFit, markAll, pure, Except.pure, eq_comm]
  | cons row rows ih =>
    rw [List.foldlM_cons, except_bind_ok]
    constructor
    · rintro ⟨db₁, h₁, h₂⟩
      obtain ⟨hfit, hdup, rfl⟩ := updateAllocation_ok.1 h₁
      obtain ⟨hrows, rfl⟩ := ih.1 h₂
      exact ⟨⟨⟨hfit, hdup⟩, hrows⟩, rfl⟩
    · rintro ⟨⟨⟨hfit, hdup⟩, hrows⟩, rfl⟩
      exact ⟨_, updateAllocation_ok.2 ⟨hfit, hdup, rfl⟩, ih.2 ⟨hrows, rfl⟩⟩

theorem rowsFit_congr {deleted : Bool} (db db' : Db) {rows : List PaymentAllocation}
    (hp : ∀ id, db'.paymentTotal id = db.paymentTotal id)
    (hi : ∀ id, db'.invoiceTotal id = db.invoiceTotal id)
    (ha : db'.allocations = db.allocations) :
    RowsFit deleted db' rows ↔ RowsFit deleted db rows := by
  induction rows generalizing db db' with
  | nil => exact Iff.rfl
  | cons row rows ih =>
    have hothersOf : db'.othersOf row = db.othersOf row := by rw [othersOf, othersOf, ha]
    have hothersTo : db'.othersTo row = db.othersTo row := by rw [othersTo, othersTo, ha]
    have hdup : ∀ new, db'.duplicatesLive new = db.duplicatesLive new := fun new => by
      rw [duplicatesLive, duplicatesLive, ha]
    have hfits : db'.UpdateFits row ↔ db.UpdateFits row := by
      constructor
      · rintro ⟨h₁, h₂⟩
        exact ⟨by rwa [hp, hothersOf] at h₁, by rwa [hi, hothersTo] at h₂⟩
      · rintro ⟨h₁, h₂⟩
        exact ⟨by rwa [hp, hothersOf], by rwa [hi, hothersTo]⟩
    have hrest := ih (db.mark deleted row) (db'.mark deleted row) hp hi
      (by simp only [mark, ha])
    rw [RowsFit, RowsFit, hfits, hdup, hrest]

theorem updateAllocations_ok {db db' : Db} {cond : PaymentAllocation → Bool} {deleted : Bool} :
    db.updateAllocations cond deleted = .ok db' ↔
      RowsFit deleted db (db.allocations.rows.filter cond) ∧
        db' = db.markAll deleted (db.allocations.rows.filter cond) := updateRows_ok

/-- The row with its mark set when its id is listed. -/
def markIn (deleted : Bool) (ids : List ℕ) (a : PaymentAllocation) : PaymentAllocation :=
  if a.id ∈ ids then { a with deleted } else a

theorem markAll_rows (deleted : Bool) (db : Db) (rows : List PaymentAllocation) :
    (db.markAll deleted rows).allocations.rows =
      db.allocations.rows.map (markIn deleted (rows.map PaymentAllocation.id)) := by
  induction rows generalizing db with
  | nil => exact ((List.map_congr_left fun _ _ => by simp [markIn]).trans (List.map_id _)).symm
  | cons row rows ih =>
    rw [show db.markAll deleted (row :: rows) = (db.mark deleted row).markAll deleted rows from rfl,
      ih]
    simp only [mark, Table.modify, List.map_map]
    refine List.map_congr_left fun a _ => ?_
    simp only [Function.comp_apply, markIn, List.map_cons, List.mem_cons]
    by_cases h : Keyed.key a = row.id
    · have h' : a.id = row.id := h
      by_cases hm : row.id ∈ rows.map PaymentAllocation.id <;> simp [h', hm, Keyed.key]
    · have h' : a.id ≠ row.id := h
      simp [h', Keyed.key]

theorem markAll_eq (deleted : Bool) (db : Db) (rows : List PaymentAllocation) :
    db.markAll deleted rows =
      { db with allocations := (db.markAll deleted rows).allocations } := by
  induction rows generalizing db with
  | nil => rfl
  | cons row rows ih =>
    rw [show db.markAll deleted (row :: rows) = (db.mark deleted row).markAll deleted rows from rfl,
      ih]
    rfl

end Db

/-! ### The paid status -/

theorem setInvoiceStatus_find (db : Db) (id j : ℕ) (f : InvoiceStatus → InvoiceStatus) :
    (db.setInvoiceStatus id f).invoices.find? j =
      if j = id then (db.invoices.find? id).map fun i => { i with status := f i.status }
      else db.invoices.find? j :=
  Table.find?_modify db.invoices id j (fun i => { i with status := f i.status }) fun _ => rfl

/-- What re-deriving the paid status does to an invoice. -/
def refreshedRow (db : Db) (inv : Invoice) : Invoice :=
  if inv.deleted then inv
  else { inv with status := refreshedStatus (inv.total ≤ db.coveredOf inv.id) inv.status }

theorem refresh_find (db : Db) (id j : ℕ) :
    (refreshInvoicePaidStatus db id).invoices.find? j =
      if j = id then (db.invoices.find? id).map (refreshedRow db) else db.invoices.find? j := by
  unfold refreshInvoicePaidStatus
  cases h : db.invoices.find? id with
  | none =>
    split_ifs with hj
    · rw [hj, h, Option.map_none]
    · rfl
  | some inv =>
    obtain rfl : inv.id = id := (Table.find?_eq_some.1 h).2
    dsimp only
    by_cases hd : inv.deleted = true
    · rw [if_pos hd]
      split_ifs with hj
      · rw [hj, h, Option.map_some, refreshedRow, if_pos hd]
      · rfl
    · rw [if_neg hd, setInvoiceStatus_find]
      split_ifs with hj
      · rw [h, Option.map_some, Option.map_some, refreshedRow, if_neg hd]
      · rfl

theorem setInvoiceStatus_total (db : Db) (id j : ℕ) (f : InvoiceStatus → InvoiceStatus) :
    (db.setInvoiceStatus id f).invoiceTotal j = db.invoiceTotal j := by
  rw [Db.invoiceTotal, setInvoiceStatus_find, Db.invoiceTotal]
  split_ifs with hj
  · rw [hj, Option.map_map]
    rfl
  · rfl

theorem setPayment_total (db : Db) (id j : ℕ) (f : PaymentStatus → PaymentStatus) (del : Bool) :
    (db.setPayment id f del).paymentTotal j = db.paymentTotal j := by
  have hfind : (db.setPayment id f del).payments.find? j =
      if j = id then (db.payments.find? id).map fun p => { p with status := f p.status, deleted := del }
      else db.payments.find? j :=
    Table.find?_modify db.payments id j
      (fun p => { p with status := f p.status, deleted := del }) fun _ => rfl
  rw [Db.paymentTotal, hfind, Db.paymentTotal]
  split_ifs with hj
  · rw [hj, Option.map_map]
    rfl
  · rfl

theorem refresh_eq (db : Db) (id : ℕ) :
    refreshInvoicePaidStatus db id =
      { db with invoices := (refreshInvoicePaidStatus db id).invoices } := by
  unfold refreshInvoicePaidStatus
  cases db.invoices.find? id with
  | none => rfl
  | some inv =>
    dsimp only
    split_ifs <;> rfl

theorem refreshAll_eq (db : Db) (ids : List ℕ) :
    ids.foldl refreshInvoicePaidStatus db =
      { db with invoices := (ids.foldl refreshInvoicePaidStatus db).invoices } := by
  induction ids generalizing db with
  | nil => rfl
  | cons id ids ih =>
    rw [List.foldl_cons, ih, refresh_eq]

theorem refreshedRow_congr (db db' : Db) (ha : db'.allocations = db.allocations)
    (hc : db'.applications = db.applications) : refreshedRow db' = refreshedRow db := by
  have hcovered : db'.coveredOf = db.coveredOf := by
    funext i
    simp only [Db.coveredOf, Db.allocatedTo, Db.creditAppliedTo, ha, hc]
  funext inv
  simp only [refreshedRow, hcovered]

theorem refreshAll_find (db : Db) (ids : List ℕ) (hnd : ids.Nodup) (j : ℕ) :
    (ids.foldl refreshInvoicePaidStatus db).invoices.find? j =
      if j ∈ ids then (db.invoices.find? j).map (refreshedRow db) else db.invoices.find? j := by
  induction ids generalizing db with
  | nil => simp
  | cons id ids ih =>
    rw [List.nodup_cons] at hnd
    rw [List.foldl_cons, ih _ hnd.2, refreshedRow_congr db _ (by rw [refresh_eq])
      (by rw [refresh_eq]), refresh_find]
    by_cases hj : j = id
    · subst hj
      simp [hnd.1]
    · simp [hj]

theorem moveAllocations_ok {db db' : Db} {cond : PaymentAllocation → Bool} {deleted : Bool} :
    moveAllocations db cond deleted = .ok db' ↔
      db.RowsFit deleted (db.allocations.rows.filter cond) ∧
        db' = ((db.allocations.rows.filter cond).map (·.invoiceId)).dedup.foldl
          refreshInvoicePaidStatus (db.markAll deleted (db.allocations.rows.filter cond)) := by
  unfold moveAllocations
  rw [except_bind_ok]
  constructor
  · rintro ⟨db₁, h₁, h₂⟩
    obtain ⟨hfit, rfl⟩ := Db.updateAllocations_ok.1 h₁
    exact ⟨hfit, (Except.ok.inj h₂).symm⟩
  · rintro ⟨hfit, rfl⟩
    exact ⟨_, Db.updateAllocations_ok.2 ⟨hfit, rfl⟩, rfl⟩

/-! ### Deleting and restoring a payment -/

theorem findPayment_some {db : Db} {paymentId orgId : ℕ} {payment : Payment} :
    findPayment db paymentId orgId = some payment ↔
      db.payments.find? paymentId = some payment ∧ payment.organizationId = orgId ∧
        payment.deleted = false := by
  simp [findPayment, Option.filter_eq_some_iff]

theorem findInvoice_some {db : Db} {invoiceId orgId : ℕ} {invoice : Invoice} :
    findInvoice db invoiceId orgId = some invoice ↔
      db.invoices.find? invoiceId = some invoice ∧ invoice.organizationId = orgId ∧
        invoice.deleted = false := by
  simp [findInvoice, Option.filter_eq_some_iff]

theorem assertNoBindingRep_ok {bindingRep : Option String} {u : Unit} :
    assertNoBindingRep bindingRep = .ok u ↔ bindingRep = none := by
  cases bindingRep <;> simp [assertNoBindingRep]

theorem deletePayment_ok {db db' : Db} {orgId paymentId : ℕ} {bindingRep : Option String} :
    deletePayment db orgId paymentId bindingRep = .ok db' ↔
      ∃ old, findPayment db paymentId orgId = some old ∧ bindingRep = none ∧
        ∃ db₁, moveAllocations (reversePaymentCredit db old.id) (ofPayment old.id) true = .ok db₁ ∧
          db' = db₁.setPayment paymentId id true := by
  unfold deletePayment
  cases findPayment db paymentId orgId with
  | none => simp
  | some old =>
    simp only [except_bind_ok, assertNoBindingRep_ok, query_ok, reversePaymentAllocations,
      exists_const, Option.some.injEq, exists_eq_left']
    refine and_congr_right fun _ => exists_congr fun db₁ => and_congr_right fun _ => ?_
    exact ⟨fun h => (Except.ok.inj h).symm, fun h => congrArg Except.ok h.symm⟩

theorem beforeRestore_ok {db : Db} {payment : Payment} {u : Unit} :
    beforeRestore db payment = .ok u ↔
      resellerVoided db payment = false ∧ payment.status = .completed := by
  unfold beforeRestore
  split_ifs with h₁ h₂
  · simp [h₁]
  · simp [h₂]
  · simpa [h₁] using h₂

/-- The database on which a restore revives the allocations. -/
def undeleted (db : Db) (orgId : ℕ) (payment : Payment) : Db :=
  recordPaymentCredit (reversePaymentCredit (db.setPayment payment.id id false) payment.id)
    { payment with deleted := false } orgId

theorem restorePayment_ok {db db' : Db} {orgId paymentId : ℕ} :
    restorePayment db orgId paymentId = .ok db' ↔
      ∃ payment, db.payments.find? paymentId = some payment ∧ payment.organizationId = orgId ∧
        payment.deleted = true ∧ resellerVoided db payment = false ∧
        payment.status = .completed ∧
        moveAllocations (undeleted db orgId payment) (deletedOfPayment paymentId) false =
          .ok db' := by
  unfold restorePayment
  cases hfind : db.payments.find? paymentId with
  | none => simp
  | some payment =>
    obtain rfl : payment.id = paymentId := (Table.find?_eq_some.1 hfind).2
    by_cases horg : payment.organizationId = orgId
    case neg =>
      rw [Option.filter_some, if_neg (by simpa using horg)]
      simp [horg]
    simp only [Option.filter_some, horg, decide_true, if_true, except_bind_ok, beforeRestore_ok]
    by_cases hdel : payment.deleted = false
    · rw [if_pos hdel]
      simp [hdel, except_bind_ok]
    · rw [if_neg hdel, query_ok]
      have hdel' : payment.deleted = true := by simpa using hdel
      simp [hdel', horg, undeleted, restorePaymentAllocations, and_assoc]

end Vigabss.Billing
