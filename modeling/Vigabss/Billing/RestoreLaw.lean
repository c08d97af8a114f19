import Mathlib.Data.List.Dedup
import Vigabss.Billing.Statements

/-!
# Vigabss.Billing.RestoreLaw — deleting and restoring a payment

Deleting a payment soft-deletes its live allocations; restoring it revives every soft-deleted
allocation it has, and both re-derive the paid status of the invoices touched.  The restore is
the inverse of the deletion exactly when there was nothing else to revive and the statuses agreed
with the coverage before (`restore_inverse_iff`).
-/

namespace Vigabss.Billing

open Vigabss.Lib

/-- The payment has the same live allocations in both databases. -/
def SameLiveAllocations (paymentId : ℕ) (db db' : Db) : Prop :=
  ∀ a, (a ∈ db'.allocations.rows ∧ ofPayment paymentId a = true) ↔
    (a ∈ db.allocations.rows ∧ ofPayment paymentId a = true)

/-- Every invoice has the same status in both databases. -/
def SameStatuses (db db' : Db) : Prop :=
  ∀ i, (db'.invoices.find? i).map Invoice.status = (db.invoices.find? i).map Invoice.status

/-- What the unique key of `payment_allocations` guarantees: one live row a pair. -/
def UniqueLive (db : Db) : Prop :=
  ∀ a ∈ db.allocations.rows, ∀ b ∈ db.allocations.rows, a.deleted = false → b.deleted = false →
    a.paymentId = b.paymentId → a.invoiceId = b.invoiceId → a = b

/-- The live allocations of a payment, in the order in which statements visit them. -/
def liveOf (db : Db) (paymentId : ℕ) : List PaymentAllocation :=
  db.allocations.rows.filter (ofPayment paymentId)

/-- The invoice's status is the one that taking the allocation `a` off and putting it back
leaves: paid when it is covered, issued when only taking `a` off covers it, and otherwise
anything but paid. -/
def StatusAgrees (db : Db) (a : PaymentAllocation) (inv : Invoice) : Prop :=
  if inv.total ≤ db.coveredOf inv.id then inv.status = .paid
  else if inv.total ≤ db.coveredOf inv.id - a.amount then inv.status = .issued
  else inv.status ≠ .paid

/-- When a restore undoes the deletion of a payment that has just been deleted. -/
structure RestoreCondition (db : Db) (payment : Payment) : Prop where
  noneDeleted : ∀ a ∈ db.allocations.rows, a.paymentId = payment.id → a.deleted = false
  statuses : ∀ a ∈ liveOf db payment.id, ∀ inv, db.invoices.find? a.invoiceId = some inv →
    inv.deleted = false → StatusAgrees db a inv
  fits : ∀ rows, rows <+: liveOf db payment.id → rows ≠ [] →
    (rows.map PaymentAllocation.amount).sum ≤ payment.amount
  notVoided : resellerVoided db payment = false

/-! ### The rows of one payment, taken off and put back -/

theorem liveOf_spec {db : Db} {paymentId : ℕ} {a : PaymentAllocation} :
    a ∈ liveOf db paymentId ↔
      a ∈ db.allocations.rows ∧ a.paymentId = paymentId ∧ a.deleted = false := by
  simp [liveOf, ofPayment]

theorem liveOf_ids_nodup (db : Db) (paymentId : ℕ) :
    ((liveOf db paymentId).map PaymentAllocation.id).Nodup :=
  (List.filter_sublist.map _).nodup db.allocations.nodup

theorem liveOf_invoiceIds_nodup {db : Db} (hu : UniqueLive db) (paymentId : ℕ) :
    ((liveOf db paymentId).map PaymentAllocation.invoiceId).Nodup := by
  refine List.Nodup.map_on ?_ (liveOf_ids_nodup db paymentId).of_map
  intro a ha b hb h
  obtain ⟨ha, hpa, hda⟩ := liveOf_spec.1 ha
  obtain ⟨hb, hpb, hdb⟩ := liveOf_spec.1 hb
  exact hu a ha b hb hda hdb (hpa.trans hpb.symm) h

/-- Rows of distinct invoices that pass their guards one after the other pass the invoice guard
on the database before. -/
theorem invoice_fits_of_rowsFit {deleted : Bool} (db : Db) {rows : List PaymentAllocation}
    (hmem : ∀ r ∈ rows, r ∈ db.allocations.rows)
    (hids : (rows.map PaymentAllocation.id).Nodup)
    (hinv : (rows.map PaymentAllocation.invoiceId).Nodup) (h : db.RowsFit deleted rows) :
    ∀ r ∈ rows, ∀ t ∈ db.invoiceTotal r.invoiceId, db.othersTo r + r.amount ≤ t := by
  induction rows generalizing db with
  | nil => simp
  | cons row rows ih =>
    rw [List.map_cons, List.nodup_cons] at hids hinv
    have hrow := hmem row List.mem_cons_self
    have hne : ∀ r ∈ rows, r.id ≠ row.id := fun r hr he =>
      hids.1 (he ▸ List.mem_map_of_mem hr)
    obtain ⟨⟨hfit, -⟩, hrest⟩ := h
    intro r hr
    rcases List.mem_cons.1 hr with rfl | hr
    · exact hfit.invoice
    · have hother : row.invoiceId ≠ r.invoiceId := fun he =>
        hinv.1 (he ▸ List.mem_map_of_mem hr)
      have := ih _ (fun q hq => Db.mem_mark_of_ne hrow (hmem q (List.mem_cons_of_mem _ hq))
        (hne q hq)) hids.2 hinv.2 hrest r hr
      rwa [Db.othersTo_mark hrow hother] at this

/-- The running sums of a list of rows stay within a total. -/
def RunningFits (total : ℤ) : ℤ → List PaymentAllocation → Prop
  | _, [] => True
  | s, r :: rows => s + r.amount ≤ total ∧ RunningFits total (s + r.amount) rows

theorem runningFits_iff {total : ℤ} {rows : List PaymentAllocation} (s : ℤ) :
    RunningFits total s rows ↔ ∀ pre, pre <+: rows → pre ≠ [] →
      s + (pre.map PaymentAllocation.amount).sum ≤ total := by
  induction rows generalizing s with
  | nil =>
    simp only [RunningFits, true_iff, List.prefix_nil]
    exact fun pre h hne => absurd h hne
  | cons r rows ih =>
    rw [RunningFits, ih]
    constructor
    · rintro ⟨hr, hrest⟩ pre hpre hne
      cases pre with
      | nil => exact absurd rfl hne
      | cons q pre =>
        obtain ⟨rfl, hpre'⟩ := List.cons_prefix_cons.1 hpre
        rw [List.map_cons, List.sum_cons, ← add_assoc]
        by_cases hnil : pre = []
        · simpa [hnil] using hr
        · exact hrest pre hpre' hnil
    · intro h
      refine ⟨by simpa using h [r] (by simp) (by simp), fun pre hpre hne => ?_⟩
      have := h (r :: pre) (List.cons_prefix_cons.2 ⟨rfl, hpre⟩) (by simp)
      rw [List.map_cons, List.sum_cons] at this
      omega

/-- **Reviving the rows of one payment** passes every guard exactly when the running sums fit the
payment and each row fits its invoice. -/
theorem rowsFit_revive {db : Db} {paymentId : ℕ} {payment : Payment}
    (hpay : db.payments.find? paymentId = some payment) {rows : List PaymentAllocation}
    (hmem : ∀ r ∈ rows, r ∈ db.allocations.rows ∧ r.paymentId = paymentId ∧ r.deleted = true)
    (hids : (rows.map PaymentAllocation.id).Nodup)
    (hinv : (rows.map PaymentAllocation.invoiceId).Nodup)
    (hlive : ∀ a ∈ liveOf db paymentId, a.invoiceId ∉ rows.map PaymentAllocation.invoiceId) :
    db.RowsFit false rows ↔ RunningFits payment.amount (db.allocatedOf paymentId) rows ∧
      ∀ r ∈ rows, ∀ t ∈ db.invoiceTotal r.invoiceId, db.othersTo r + r.amount ≤ t := by
  induction rows generalizing db with
  | nil => simp [Db.RowsFit, RunningFits]
  | cons row rows ih =>
    rw [List.map_cons, List.nodup_cons] at hids hinv
    obtain ⟨hrow, hpid, hdel⟩ := hmem row List.mem_cons_self
    have hne : ∀ r ∈ rows, r.id ≠ row.id := fun r hr he =>
      hids.1 (he ▸ List.mem_map_of_mem hr)
    have hother : ∀ r ∈ rows, row.invoiceId ≠ r.invoiceId := fun r hr he =>
      hinv.1 (he ▸ List.mem_map_of_mem hr)
    have hsum : (db.mark false row).allocatedOf paymentId = db.allocatedOf paymentId + row.amount := by
      rw [Db.allocatedOf, Db.sum_mark _ hrow]
      simp [Db.allocatedOf, Table.share, ofPayment, hpid, hdel]
    have hdup : db.duplicatesLive { row with deleted := false } = false := by
      simp only [Db.duplicatesLive, List.any_eq_false, decide_eq_true_eq]
      rintro a ha ⟨hap, hai, had, -⟩
      exact hlive a (liveOf_spec.2 ⟨ha, hap.trans hpid, had⟩) (by simp [hai])
    have hothers : db.othersOf row = db.allocatedOf paymentId := by
      rw [Db.othersOf_eq hrow, hpid]
      simp [Table.share, ofPayment, hdel]
    have hih := @ih (db.mark false row) hpay
      (fun r hr => by
        obtain ⟨hr', hrest⟩ := hmem r (List.mem_cons_of_mem _ hr)
        exact ⟨Db.mem_mark_of_ne hrow hr' (hne r hr), hrest⟩)
      hids.2 hinv.2
      (fun a ha hai => by
        obtain ⟨ha, hap, had⟩ := liveOf_spec.1 ha
        rcases (Db.mem_mark hrow).1 ha with ⟨ha, -⟩ | rfl
        · exact hlive a (liveOf_spec.2 ⟨ha, hap, had⟩) (by simp [hai])
        · exact hinv.1 hai)
    rw [Db.RowsFit, hih, hsum, RunningFits, List.forall_mem_cons]
    have hpt : db.paymentTotal row.paymentId = some payment.amount := by
      rw [Db.paymentTotal, hpid, hpay, Option.map_some]
    have hrest : (∀ r ∈ rows, ∀ t ∈ (db.mark false row).invoiceTotal r.invoiceId,
          (db.mark false row).othersTo r + r.amount ≤ t) ↔
        ∀ r ∈ rows, ∀ t ∈ db.invoiceTotal r.invoiceId, db.othersTo r + r.amount ≤ t :=
      forall₂_congr fun r hr => by
        rw [Db.othersTo_mark hrow (hother r hr)]
        rfl
    rw [hrest]
    constructor
    · rintro ⟨⟨hfit, -⟩, hrun, hi⟩
      have := hfit.payment payment.amount hpt
      exact ⟨⟨by rwa [hothers] at this, hrun⟩, hfit.invoice, hi⟩
    · rintro ⟨⟨hp, hrun⟩, hi₀, hi⟩
      refine ⟨⟨⟨fun t ht => ?_, hi₀⟩, fun _ => hdup⟩, hrun, hi⟩
      rw [hpt] at ht
      cases ht
      rwa [hothers]

/-! ### The database in between -/

/-- The allocations with the payment's live ones taken off. -/
def takenOff (db : Db) (paymentId : ℕ) : Db := db.markAll true (liveOf db paymentId)

theorem takenOff_eq (db : Db) (paymentId : ℕ) :
    takenOff db paymentId = { db with allocations := (takenOff db paymentId).allocations } :=
  Db.markAll_eq _ _ _

theorem takenOff_applications (db : Db) (paymentId : ℕ) :
    (takenOff db paymentId).applications = db.applications := by rw [takenOff_eq]

section TakenOff

variable {db : Db} {paymentId : ℕ}

theorem mem_takenOff {a : PaymentAllocation} :
    a ∈ (takenOff db paymentId).allocations.rows ↔
      (a ∈ db.allocations.rows ∧ a ∉ liveOf db paymentId) ∨
        ∃ b ∈ liveOf db paymentId, a = { b with deleted := true } := by
  rw [takenOff, Db.markAll_rows, List.mem_map]
  constructor
  · rintro ⟨b, hb, rfl⟩
    unfold Db.markIn
    split_ifs with h
    · obtain ⟨c, hc, hid⟩ := List.mem_map.1 h
      obtain rfl := Table.eq_of_key_eq (liveOf_spec.1 hc).1 hb hid
      exact .inr ⟨c, hc, rfl⟩
    · exact .inl ⟨hb, fun hl => h (List.mem_map_of_mem hl)⟩
  · rintro (⟨ha, hl⟩ | ⟨b, hb, rfl⟩)
    · refine ⟨a, ha, if_neg fun h => hl ?_⟩
      obtain ⟨c, hc, hid⟩ := List.mem_map.1 h
      obtain rfl := Table.eq_of_key_eq (liveOf_spec.1 hc).1 ha hid
      exact hc
    · exact ⟨b, (liveOf_spec.1 hb).1, if_pos (List.mem_map_of_mem hb)⟩

theorem liveOf_takenOff (db : Db) (paymentId : ℕ) : liveOf (takenOff db paymentId) paymentId = [] := by
  rw [List.eq_nil_iff_forall_not_mem]
  intro a ha
  obtain ⟨ha, hp, hd⟩ := liveOf_spec.1 ha
  rcases mem_takenOff.1 ha with ⟨ha, hl⟩ | ⟨b, -, rfl⟩
  · exact hl (liveOf_spec.2 ⟨ha, hp, hd⟩)
  · simp at hd

theorem allocatedOf_eq_zero (h : liveOf db paymentId = []) : db.allocatedOf paymentId = 0 := by
  refine List.sum_eq_zero fun x hx => ?_
  obtain ⟨a, ha, rfl⟩ := List.mem_map.1 hx
  refine if_neg fun hp => ?_
  have : a ∈ liveOf db paymentId := List.mem_filter.2 ⟨ha, hp⟩
  simp [h] at this

theorem deleted_of_takenOff
    (hnone : ∀ a ∈ db.allocations.rows, a.paymentId = paymentId → a.deleted = false) :
    (takenOff db paymentId).allocations.rows.filter (deletedOfPayment paymentId) =
      (liveOf db paymentId).map fun a => { a with deleted := true } := by
  rw [takenOff, Db.markAll_rows, List.filter_map]
  have hcond : ∀ a ∈ db.allocations.rows,
      (deletedOfPayment paymentId ∘
        Db.markIn true ((liveOf db paymentId).map PaymentAllocation.id)) a =
        ofPayment paymentId a := by
    intro a ha
    by_cases hp : a.paymentId = paymentId
    · have hl : a ∈ liveOf db paymentId := liveOf_spec.2 ⟨ha, hp, hnone a ha hp⟩
      have hid : a.id ∈ (liveOf db paymentId).map PaymentAllocation.id := List.mem_map_of_mem hl
      simp [Db.markIn, hid, deletedOfPayment, ofPayment, hp, hnone a ha hp]
    · simp only [Function.comp_apply, Db.markIn, deletedOfPayment, ofPayment]
      split_ifs <;> simp [hp]
  rw [List.filter_congr hcond]
  exact List.map_congr_left fun a ha => if_pos (List.mem_map_of_mem ha)

theorem othersTo_takenOff (hu : UniqueLive db) {row : PaymentAllocation}
    (hrow : row ∈ liveOf db paymentId) :
    (takenOff db paymentId).othersTo { row with deleted := true } = db.othersTo row := by
  obtain ⟨hr, hrp, hrd⟩ := liveOf_spec.1 hrow
  refine Table.sum_congr ?_
  rw [takenOff, Db.markAll_rows, List.map_map]
  refine List.map_congr_left fun a ha => ?_
  simp only [Function.comp_apply, Db.markIn]
  split_ifs with hid
  · -- a row of the payment: it is `row` itself, or on another invoice
    obtain ⟨c, hc, hcid⟩ := List.mem_map.1 hid
    obtain rfl := Table.eq_of_key_eq (liveOf_spec.1 hc).1 ha hcid
    obtain ⟨-, hcp, hcd⟩ := liveOf_spec.1 hc
    by_cases hci : c.invoiceId = row.invoiceId
    · obtain rfl := hu c ha row hr hcd hrd (hcp.trans hrp.symm) hci
      simp [Table.share]
    · simp [Table.share, toInvoice, hci]
  · rfl

theorem coveredOf_takenOff (hu : UniqueLive db) {row : PaymentAllocation}
    (hrow : row ∈ liveOf db paymentId) :
    (takenOff db paymentId).coveredOf row.invoiceId = db.coveredOf row.invoiceId - row.amount := by
  obtain ⟨hr, -, hrd⟩ := liveOf_spec.1 hrow
  have hid : row.id ∈ (liveOf db paymentId).map PaymentAllocation.id := List.mem_map_of_mem hrow
  have hoff : { row with deleted := true } ∈ (takenOff db paymentId).allocations.rows :=
    mem_takenOff.2 (.inr ⟨row, hrow, rfl⟩)
  have h₁ := Db.othersTo_eq hr
  have h₂ := Db.othersTo_eq hoff
  rw [othersTo_takenOff hu hrow, h₁] at h₂
  simp only [Table.share, toInvoice, hrd, decide_true, and_self, if_true, decide_eq_true_eq] at h₂
  simp only [Db.coveredOf, Db.creditAppliedTo, takenOff_applications]
  simp at h₂
  omega

end TakenOff

theorem putBack_allocations {db db' : Db} {paymentId : ℕ}
    (hoff : db'.allocations = (takenOff db paymentId).allocations)
    (hnone : ∀ a ∈ db.allocations.rows, a.paymentId = paymentId → a.deleted = false) :
    (db'.markAll false (db'.allocations.rows.filter (deletedOfPayment paymentId))).allocations =
      db.allocations := by
  refine Table.ext ?_
  rw [Db.markAll_rows, hoff, deleted_of_takenOff hnone, takenOff, Db.markAll_rows, List.map_map]
  refine (List.map_congr_left fun a ha => ?_).trans (List.map_id _)
  simp only [Function.comp_apply, List.map_map, id_eq]
  by_cases hid : a.id ∈ (liveOf db paymentId).map PaymentAllocation.id
  · obtain ⟨c, hc, hcid⟩ := List.mem_map.1 hid
    obtain rfl := Table.eq_of_key_eq (liveOf_spec.1 hc).1 ha hcid
    have hd := (liveOf_spec.1 hc).2.2
    simp only [Db.markIn, if_pos hid]
    rw [if_pos (by simpa [Function.comp_def] using hid), ← hd]
  · simp only [Db.markIn, if_neg hid]
    rw [if_neg (by simpa [Function.comp_def] using hid)]

/-! ### The statuses -/

theorem refreshedStatus_twice (c₁ c₂ : Bool) (st : InvoiceStatus) :
    refreshedStatus c₂ (refreshedStatus c₁ st) = st ↔
      if c₂ then st = .paid else if c₁ then st = .issued else st ≠ .paid := by
  cases c₁ <;> cases c₂ <;> cases st <;> decide

/-! ### Deleting, then restoring -/

/-- The invoices a payment's live allocations touch. -/
def touched (db : Db) (paymentId : ℕ) : List ℕ :=
  ((liveOf db paymentId).map PaymentAllocation.invoiceId).dedup

/-- What a successful deletion leaves for the restore: `mid` is the database on which the
restore revives the allocations. -/
structure Deleted (db mid : Db) (payment : Payment) : Prop where
  allocations : mid.allocations = (takenOff db payment.id).allocations
  applications : mid.applications = db.applications
  invoices : ∀ j, mid.invoices.find? j =
    if j ∈ touched db payment.id then
      (db.invoices.find? j).map (refreshedRow (takenOff db payment.id))
    else db.invoices.find? j
  amount : ∃ p, mid.payments.find? payment.id = some p ∧ p.amount = payment.amount
  fits : ∀ r ∈ liveOf db payment.id, ∀ t ∈ db.invoiceTotal r.invoiceId,
    db.othersTo r + r.amount ≤ t

theorem mem_touched {db : Db} {paymentId : ℕ} {a : PaymentAllocation}
    (ha : a ∈ liveOf db paymentId) : a.invoiceId ∈ touched db paymentId :=
  List.mem_dedup.2 (List.mem_map_of_mem ha)

theorem refreshedRow_total (db : Db) (inv : Invoice) : (refreshedRow db inv).total = inv.total := by
  unfold refreshedRow
  split_ifs <;> rfl

theorem refreshedRow_deleted (db : Db) (inv : Invoice) :
    (refreshedRow db inv).deleted = inv.deleted := by
  unfold refreshedRow
  split_ifs <;> rfl

theorem refreshedRow_id (db : Db) (inv : Invoice) : (refreshedRow db inv).id = inv.id := by
  unfold refreshedRow
  split_ifs <;> rfl

theorem Deleted.invoiceTotal {db mid : Db} {payment : Payment} (h : Deleted db mid payment)
    (i : ℕ) : mid.invoiceTotal i = db.invoiceTotal i := by
  unfold Db.invoiceTotal
  rw [h.invoices]
  split_ifs
  · cases db.invoices.find? i with
    | none => rfl
    | some inv => simp [refreshedRow_total]
  · rfl

theorem takenOff_allocations_congr (db db' : Db) (h : db'.allocations = db.allocations)
    (paymentId : ℕ) : (takenOff db' paymentId).allocations = (takenOff db paymentId).allocations := by
  refine Table.ext ?_
  simp only [takenOff, Db.markAll_rows, liveOf, h]

/-- **Deleting and restoring, step by step.**  After a successful deletion the restore succeeds
exactly when the collection was not voided and the soft-deleted rows can be revived on `mid`. -/
theorem restore_after_delete {db s₁ : Db} {orgId : ℕ} {payment : Payment} (hu : UniqueLive db)
    (hp : findPayment db payment.id orgId = some payment) (hc : payment.status = .completed)
    (hdel : deletePayment db orgId payment.id none = .ok s₁) :
    ∃ mid, Deleted db mid payment ∧ ∀ s₂, restorePayment s₁ orgId payment.id = .ok s₂ ↔
      resellerVoided db payment = false ∧
        moveAllocations mid (deletedOfPayment payment.id) false = .ok s₂ := by
  obtain ⟨hfind, horg, hlive⟩ := findPayment_some.1 hp
  obtain ⟨old, hold, -, db₁, hrev, rfl⟩ := deletePayment_ok.1 hdel
  rw [hp, Option.some.injEq] at hold
  subst hold
  -- `db₀` differs from `db` in the ledger only
  set db₀ := reversePaymentCredit db payment.id with hdb₀
  obtain ⟨hfit, hdb₁⟩ : db₀.RowsFit true (liveOf db payment.id) ∧
      db₁ = (touched db payment.id).foldl refreshInvoicePaidStatus (takenOff db₀ payment.id) :=
    moveAllocations_ok.1 hrev
  have heq₁ : db₁ = { takenOff db₀ payment.id with invoices := db₁.invoices } := by
    rw [hdb₁]
    exact refreshAll_eq _ _
  have hoff := takenOff_eq db₀ payment.id
  have hpay : db₁.payments = db.payments := by rw [heq₁, hoff]; rfl
  have hentries : db₁.resellerEntries = db.resellerEntries := by rw [heq₁, hoff]; rfl
  have hmid : ∀ del, (db₁.setPayment payment.id id del).payments.find? payment.id =
      some { payment with deleted := del } := by
    intro del
    simp only [Db.setPayment, Table.find?_modify, if_true, hpay, hfind, Option.map_some, id_eq]
  refine ⟨undeleted (db₁.setPayment payment.id id true) orgId { payment with deleted := true },
    ⟨?_, ?_, ?_, ?_, ?_⟩, ?_⟩
  · change db₁.allocations = _
    rw [heq₁]
    exact takenOff_allocations_congr db db₀ rfl _
  · change db₁.applications = _
    rw [heq₁, hoff]
    rfl
  · intro j
    change db₁.invoices.find? j = _
    rw [hdb₁, refreshAll_find _ (touched db payment.id) (List.nodup_dedup _),
      refreshedRow_congr (takenOff db payment.id) _
        (takenOff_allocations_congr db db₀ rfl _)
        (by rw [takenOff_applications, takenOff_applications]; rfl), hoff]
    rfl
  · refine ⟨{ payment with deleted := false }, ?_, rfl⟩
    change (((db₁.setPayment payment.id id true).setPayment payment.id id false).payments.find?
      payment.id) = _
    simp only [Db.setPayment, Table.find?_modify, if_true, hpay, hfind, Option.map_some, id_eq]
  · exact invoice_fits_of_rowsFit db₀ (fun r hr => (liveOf_spec.1 hr).1)
      (liveOf_ids_nodup _ _) (liveOf_invoiceIds_nodup hu _) hfit
  · intro s₂
    have hvoid : resellerVoided (db₁.setPayment payment.id id true) { payment with deleted := true } =
        resellerVoided db payment := by
      simp only [resellerVoided, Db.setPayment, hentries]
    rw [restorePayment_ok]
    constructor
    · rintro ⟨q, hq, -, -, hv, -, hmove⟩
      rw [hmid true, Option.some.injEq] at hq
      subst hq
      exact ⟨hvoid ▸ hv, hmove⟩
    · rintro ⟨hv, hmove⟩
      exact ⟨_, hmid true, horg, rfl, hvoid.trans hv, hc, hmove⟩

/-! The next lemmas are about the restore's database `mid` when the payment had no soft-deleted
row before its deletion. -/

section Restored

variable {db mid : Db} {payment : Payment} (hmid : Deleted db mid payment) (hu : UniqueLive db)
  (hnone : ∀ a ∈ db.allocations.rows, a.paymentId = payment.id → a.deleted = false)

theorem Deleted.toRevive (hmid : Deleted db mid payment)
    (hnone : ∀ a ∈ db.allocations.rows, a.paymentId = payment.id → a.deleted = false) :
    mid.allocations.rows.filter (deletedOfPayment payment.id) =
      (liveOf db payment.id).map fun a => { a with deleted := true } := by
  rw [hmid.allocations, deleted_of_takenOff hnone]

include hmid hu hnone in
/-- They can be revived exactly when their running sums fit the payment. -/
theorem rowsFit_mid :
    mid.RowsFit false (mid.allocations.rows.filter (deletedOfPayment payment.id)) ↔
      ∀ rows, rows <+: liveOf db payment.id → rows ≠ [] →
        (rows.map PaymentAllocation.amount).sum ≤ payment.amount := by
  obtain ⟨p, hp, hamount⟩ := hmid.amount
  have hlive : liveOf mid payment.id = [] := by
    rw [← liveOf_takenOff db payment.id]
    simp only [liveOf, hmid.allocations]
  have hothers : ∀ r ∈ liveOf db payment.id,
      mid.othersTo { r with deleted := true } = db.othersTo r := by
    intro r hr
    rw [← othersTo_takenOff hu hr, Db.othersTo, Db.othersTo, hmid.allocations]
  rw [hmid.toRevive hnone, rowsFit_revive hp ?_ ?_ ?_ (by simp [hlive]),
    allocatedOf_eq_zero hlive, runningFits_iff, hamount]
  · have hfits : ∀ r ∈ (liveOf db payment.id).map fun a => { a with deleted := true },
        ∀ t ∈ mid.invoiceTotal r.invoiceId, mid.othersTo r + r.amount ≤ t := by
      intro r hr t ht
      obtain ⟨a, ha, rfl⟩ := List.mem_map.1 hr
      rw [hothers a ha]
      rw [hmid.invoiceTotal] at ht
      exact hmid.fits a ha t ht
    refine (and_iff_left hfits).trans ⟨fun h rows hrows hne => ?_, fun h rows hrows hne => ?_⟩
    · have := h (rows.map fun a => { a with deleted := true }) (hrows.map _) (by simpa using hne)
      simpa [Function.comp_def] using this
    · obtain ⟨rest, hrest⟩ := hrows
      obtain ⟨pre, post, hsplit, rfl, -⟩ := List.map_eq_append_iff.1 hrest.symm
      have := h pre ⟨post, hsplit.symm⟩ (by simpa using hne)
      simpa [Function.comp_def] using this
  · intro r hr
    obtain ⟨a, ha, rfl⟩ := List.mem_map.1 hr
    refine ⟨?_, (liveOf_spec.1 ha).2.1, rfl⟩
    rw [hmid.allocations]
    exact mem_takenOff.2 (.inr ⟨a, ha, rfl⟩)
  · simpa [Function.comp_def] using liveOf_ids_nodup db payment.id
  · simpa [Function.comp_def] using liveOf_invoiceIds_nodup hu payment.id

/-- The database a successful restore ends in. -/
def restored (mid : Db) (paymentId : ℕ) : Db :=
  (((mid.allocations.rows.filter (deletedOfPayment paymentId)).map (·.invoiceId)).dedup).foldl
    refreshInvoicePaidStatus
    (mid.markAll false (mid.allocations.rows.filter (deletedOfPayment paymentId)))

include hmid in
theorem revived_mem {a : PaymentAllocation} (ha : a ∈ db.allocations.rows)
    (hap : a.paymentId = payment.id) (hd : a.deleted = true) :
    { a with deleted := false } ∈ (restored mid payment.id).allocations.rows := by
  have hmem : a ∈ mid.allocations.rows := by
    rw [hmid.allocations]
    exact mem_takenOff.2 (.inl ⟨ha, fun hl => by simp [(liveOf_spec.1 hl).2.2] at hd⟩)
  have hrevive : a ∈ mid.allocations.rows.filter (deletedOfPayment payment.id) :=
    List.mem_filter.2 ⟨hmem, by simp [deletedOfPayment, hap, hd]⟩
  rw [restored, refreshAll_eq]
  change _ ∈ (mid.markAll false _).allocations.rows
  rw [Db.markAll_rows]
  exact List.mem_map.2 ⟨a, hmem, if_pos (List.mem_map_of_mem hrevive)⟩

include hmid hnone in
theorem restored_allocations : (restored mid payment.id).allocations = db.allocations := by
  rw [restored, refreshAll_eq]
  exact putBack_allocations hmid.allocations hnone

include hmid hnone in
theorem restored_find (j : ℕ) :
    (restored mid payment.id).invoices.find? j =
      if j ∈ touched db payment.id then
        (db.invoices.find? j).map (refreshedRow db ∘ refreshedRow (takenOff db payment.id))
      else db.invoices.find? j := by
  have hids : ((mid.allocations.rows.filter (deletedOfPayment payment.id)).map
      (·.invoiceId)).dedup = touched db payment.id := by
    rw [hmid.toRevive hnone, List.map_map]
    rfl
  have happ : (mid.markAll false
      (mid.allocations.rows.filter (deletedOfPayment payment.id))).applications =
      db.applications := by
    rw [Db.markAll_eq]
    exact hmid.applications
  have hinv : (mid.markAll false
      (mid.allocations.rows.filter (deletedOfPayment payment.id))).invoices = mid.invoices := by
    rw [Db.markAll_eq]
  rw [restored, hids, refreshAll_find _ (touched db payment.id) (List.nodup_dedup _),
    refreshedRow_congr _ _ (putBack_allocations hmid.allocations hnone) happ, hinv, hmid.invoices]
  split_ifs
  · rw [Option.map_map]
  · rfl

theorem status_refreshed (db : Db) {inv : Invoice} (h : inv.deleted = false) :
    (refreshedRow db inv).status =
      refreshedStatus (inv.total ≤ db.coveredOf inv.id) inv.status := by
  rw [refreshedRow, if_neg (by simp [h])]

include hmid hu hnone in
/-- The statuses come back exactly when they agreed with the coverage. -/
theorem sameStatuses_restored :
    SameStatuses db (restored mid payment.id) ↔
      ∀ a ∈ liveOf db payment.id, ∀ inv, db.invoices.find? a.invoiceId = some inv →
        inv.deleted = false → StatusAgrees db a inv := by
  have hagree : ∀ a ∈ liveOf db payment.id, ∀ inv, db.invoices.find? a.invoiceId = some inv →
      inv.deleted = false →
      ((refreshedRow db (refreshedRow (takenOff db payment.id) inv)).status = inv.status ↔
        StatusAgrees db a inv) := by
    intro a ha inv hinv hd
    have hid : inv.id = a.invoiceId := (Table.find?_eq_some.1 hinv).2
    rw [status_refreshed _ (by rw [refreshedRow_deleted, hd]), refreshedRow_total,
      refreshedRow_id, status_refreshed _ hd, refreshedStatus_twice, hid, coveredOf_takenOff hu ha]
    simp [StatusAgrees, hid]
  constructor
  · intro h a ha inv hinv hd
    have hj := h a.invoiceId
    rw [restored_find hmid hnone, if_pos (mem_touched ha), hinv] at hj
    exact (hagree a ha inv hinv hd).1 (Option.some.inj hj)
  · intro h j
    rw [restored_find hmid hnone]
    split_ifs with hj
    · obtain ⟨a, ha, rfl⟩ := List.mem_map.1 (List.mem_dedup.1 hj)
      cases hinv : db.invoices.find? a.invoiceId with
      | none => rfl
      | some inv =>
        rw [Option.map_some, Option.map_some, Option.map_some, Function.comp_apply]
        by_cases hd : inv.deleted = true
        · simp [refreshedRow, hd]
        · have hd : inv.deleted = false := by simpa using hd
          rw [(hagree a ha inv hinv hd).2 (h a ha inv hinv hd)]
    · rfl

end Restored

/-- **When restoring a payment undoes its deletion.**  After a successful deletion of a live
completed payment, the restore succeeds and gives back the same live allocations of the payment
and the same status of every invoice if and only if `RestoreCondition` held before. -/
theorem restore_inverse_iff {db s₁ : Db} {orgId : ℕ} {payment : Payment} (hu : UniqueLive db)
    (hp : findPayment db payment.id orgId = some payment) (hc : payment.status = .completed)
    (hdel : deletePayment db orgId payment.id none = .ok s₁) :
    (∃ s₂, restorePayment s₁ orgId payment.id = .ok s₂ ∧
        SameLiveAllocations payment.id db s₂ ∧ SameStatuses db s₂) ↔
      RestoreCondition db payment := by
  obtain ⟨mid, hmid, hrestore⟩ := restore_after_delete hu hp hc hdel
  constructor
  · rintro ⟨s₂, hres, hsame, hstat⟩
    obtain ⟨hvoid, hmove⟩ := (hrestore s₂).1 hres
    obtain ⟨hfit, rfl⟩ := moveAllocations_ok.1 hmove
    have hnone : ∀ a ∈ db.allocations.rows, a.paymentId = payment.id → a.deleted = false := by
      -- a row that was deleted before comes back live, under the id it had
      intro a ha hap
      by_contra hd
      have hd : a.deleted = true := by simpa using hd
      have hrevived := (hsame { a with deleted := false }).1
        ⟨revived_mem hmid ha hap hd, by simp [ofPayment, hap]⟩
      have := Table.eq_of_key_eq ha hrevived.1 rfl
      rw [this] at hd
      simp at hd
    exact ⟨hnone, (sameStatuses_restored hmid hu hnone).1 hstat,
      (rowsFit_mid hmid hu hnone).1 hfit, hvoid⟩
  · rintro ⟨hnone, hstat, hfits, hvoid⟩
    refine ⟨restored mid payment.id, (hrestore _).2 ⟨hvoid, moveAllocations_ok.2
      ⟨(rowsFit_mid hmid hu hnone).2 hfits, rfl⟩⟩, fun a => ?_,
      (sameStatuses_restored hmid hu hnone).2 hstat⟩
    rw [restored_allocations hmid hnone]

/-! ### A payment with a history -/

/-- A payment of 100.00. -/
def payer : Payment := ⟨1, 1, 1, 10000, "MXN", .completed, none, false⟩

/-- The payment and two open invoices, of 60.00 and 40.00. -/
def opened : Db where
  payments := ⟨[payer], by decide⟩
  invoices := ⟨[⟨1, 1, 1, 1, 6000, "MXN", .issued, false⟩,
    ⟨2, 1, 1, 2, 4000, "MXN", .issued, false⟩], by decide⟩
  allocations := ⟨[], by decide⟩
  creditNotes := ⟨[], by decide⟩
  applications := ⟨[], by decide⟩
  plans := ⟨[], by decide⟩
  installments := ⟨[], by decide⟩
  ledger := []
  resellerEntries := []

/-- The payment applied to the first invoice. -/
def appliedOnce : Db := commit opened (allocateAuto opened 1 1 (some [1]))

/-- Then unapplied from it, and applied to the second one. -/
def appliedElsewhere : Db :=
  let db := commit appliedOnce (unapply appliedOnce 1 1 1 none)
  commit db (allocateAuto db 1 1 (some [2]))

theorem restore_inverse_appliedOnce :
    ∃ s₂, restorePayment (commit appliedOnce (deletePayment appliedOnce 1 1 none)) 1 1 = .ok s₂ ∧
      SameLiveAllocations 1 appliedOnce s₂ ∧ SameStatuses appliedOnce s₂ := by
  have hu : UniqueLive appliedOnce := by
    unfold UniqueLive
    decide +kernel
  have hdel : deletePayment appliedOnce 1 payer.id none =
      .ok (commit appliedOnce (deletePayment appliedOnce 1 1 none)) := by decide +kernel
  have hpayer : findPayment appliedOnce payer.id 1 = some payer := by decide +kernel
  refine (restore_inverse_iff hu hpayer rfl hdel).2
    ⟨by decide +kernel, ?_, fun rows hrows hne => ?_, by decide +kernel⟩
  · intro a ha inv hinv hd
    have hlive : liveOf appliedOnce 1 = [⟨1, 1, 1, 6000, false⟩] := by decide +kernel
    obtain rfl : a = ⟨1, 1, 1, 6000, false⟩ := by simpa [payer, hlive] using ha
    have hfind : appliedOnce.invoices.find? 1 =
        some ⟨1, 1, 1, 1, 6000, "MXN", .paid, false⟩ := by decide +kernel
    obtain rfl := Option.some.inj (hfind.symm.trans hinv)
    unfold StatusAgrees
    decide +kernel
  · have hlive : liveOf appliedOnce payer.id = [⟨1, 1, 1, 6000, false⟩] := by decide +kernel
    rw [hlive] at hrows
    obtain ⟨rest, hrest⟩ := hrows
    obtain rfl : rows = [⟨1, 1, 1, 6000, false⟩] := by
      cases rows with
      | nil => exact absurd rfl hne
      | cons r rows =>
        obtain ⟨rfl, hnil⟩ := List.cons.inj hrest
        rw [(List.append_eq_nil_iff.1 hnil).1]
    decide

/-- **A restore revives what was unapplied**: the deletion and the restore both succeed, the first
invoice carries the unapplied allocation again and turns paid. -/
theorem restore_revives_unapplied :
    ∃ s₁ s₂, UniqueLive appliedElsewhere ∧ findPayment appliedElsewhere 1 1 = some payer ∧
      payer.status = .completed ∧ deletePayment appliedElsewhere 1 1 none = .ok s₁ ∧
      restorePayment s₁ 1 1 = .ok s₂ ∧ ¬ SameLiveAllocations 1 appliedElsewhere s₂ ∧
      ¬ SameStatuses appliedElsewhere s₂ := by
  have hu : UniqueLive appliedElsewhere := by
    unfold UniqueLive
    decide +kernel
  refine ⟨commit appliedElsewhere (deletePayment appliedElsewhere 1 1 none), _, hu,
    by decide +kernel, rfl, by decide +kernel,
    (by decide +kernel : _ = Except.ok (commit opened (restorePayment (commit appliedElsewhere
      (deletePayment appliedElsewhere 1 1 none)) 1 1))), fun h => ?_, fun h => ?_⟩
  · exact absurd ((h ⟨1, 1, 1, 6000, false⟩).1 (by decide +kernel)) (by decide +kernel)
  · exact absurd (h 1) (by decide +kernel)

end Vigabss.Billing
