import Vigabss.Billing.Vouchers
import Vigabss.Gateway.Payments

/-!
# Vigabss.Gateway.Mirror — the client ledger mirrors the payments

A payment's entries of the client ledger add up to its amount while it is live and completed, and
to nothing otherwise.  Three operations can break this: a payment created in another status is
credited all the same, an edit of the currency alone leaves the credit in the old one, and a refund
is offset although the credit was taken away before.  A run without these keeps the ledger in step.
-/

namespace Vigabss.Gateway

open Vigabss.Lib Vigabss.Billing

/-! ### What the entries of a payment add up to -/

/-- What an entry adds to a balance. -/
def signed (e : LedgerEntry) : ℤ :=
  match e.entryType with
  | .credit => e.amount
  | .debit => -e.amount

/-- The share of an entry in what the ledger holds for a payment, in a currency. -/
def netShare (paymentId : ℕ) (currency : String) (e : LedgerEntry) : ℤ :=
  if e.referenceType = .payment ∧ e.referenceId = paymentId ∧ e.currency = currency then signed e
  else 0

/-- The net amount of a payment's entries, in a currency. -/
def netOf (ledger : List LedgerEntry) (paymentId : ℕ) (currency : String) : ℤ :=
  (ledger.map (netShare paymentId currency)).sum

/-- What the ledger is to hold for a payment, in a currency. -/
def posted (p : Payment) (currency : String) : ℤ :=
  if counts p ∧ p.currency = currency then p.amount else 0

theorem posted_congr {p q : Payment} {c : String} (hcounts : counts p = counts q)
    (h : counts q = true → p.amount = q.amount ∧ (p.currency = q.currency ∨ q.amount = 0)) :
    posted p c = posted q c := by
  rw [posted, posted, hcounts]
  by_cases hq : counts q = true
  · obtain ⟨hamount, hcurrency | hzero⟩ := h hq
    · rw [hamount, hcurrency]
    · rw [hamount, hzero, ite_self, ite_self]
  · rw [if_neg fun hc => hq hc.1, if_neg fun hc => hq hc.1]

section Ledger

variable {db : Billing.Db} {p : Payment} {id orgId : ℕ} {c : String}

theorem netOf_append (ledger ledger' : List LedgerEntry) :
    netOf (ledger ++ ledger') id c = netOf ledger id c + netOf ledger' id c := by
  simp only [netOf, List.map_append, List.sum_append]

theorem netOf_recordPaymentCredit :
    netOf (recordPaymentCredit db p orgId).ledger id c =
      netOf db.ledger id c + if p.id = id ∧ p.currency = c then p.amount else 0 := by
  rw [recordPaymentCredit, netOf_append]
  simp [netOf, netShare, signed]

theorem netOf_recordRefundDebit :
    netOf (recordRefundDebit db p).ledger id c =
      netOf db.ledger id c - if p.id = id ∧ p.currency = c then p.amount else 0 := by
  rw [recordRefundDebit, netOf_append]
  simp only [netOf, netShare, signed, List.map_cons, List.map_nil, List.sum_cons, List.sum_nil,
    true_and]
  split_ifs <;> omega

theorem netOf_reversePaymentCredit (paymentId : ℕ) :
    netOf (reversePaymentCredit db paymentId).ledger id c =
      if id = paymentId then 0 else netOf db.ledger id c := by
  rw [reversePaymentCredit]
  show netOf (db.ledger.filter _) id c = _
  induction db.ledger with
  | nil => simp [netOf]
  | cons e ledger ih =>
    rw [List.filter_cons, show netOf (e :: ledger) id c = netShare id c e + netOf ledger id c from
      rfl]
    split_ifs at ih ⊢ with hkept hid hid
    · rw [show ∀ l, netOf (e :: l) id c = netShare id c e + netOf l id c from fun _ => rfl, ih,
        netShare, if_neg, add_zero]
      rintro ⟨htype, href, -⟩
      simp [htype, href, hid] at hkept
    · rw [show ∀ l, netOf (e :: l) id c = netShare id c e + netOf l id c from fun _ => rfl, ih]
    · exact ih
    · rw [ih, netShare, if_neg, zero_add]
      rintro ⟨htype, href, -⟩
      simp only [htype, true_and, decide_not, Bool.not_eq_eq_eq_not, Bool.not_true,
        decide_eq_false_iff_not, not_not] at hkept
      exact hid (href.symm.trans hkept)

theorem netOf_eq_zero {ledger : List LedgerEntry}
    (h : ∀ e ∈ ledger, e.referenceType = .payment → e.referenceId ≠ id) :
    netOf ledger id c = 0 := by
  refine List.sum_eq_zero fun n hn => ?_
  obtain ⟨e, he, rfl⟩ := List.mem_map.1 hn
  exact if_neg fun hshare => h e he hshare.1 hshare.2.1

end Ledger

/-! ### The invariant -/

/-- The ledger is in step with the payments, in every currency.  No payment has an empty currency,
so that `recordPaymentCredit` never falls back to the organization's. -/
structure InStep (db : Billing.Db) : Prop where
  net : ∀ p ∈ db.payments.rows, ∀ c, netOf db.ledger p.id c = posted p c
  known : ∀ e ∈ db.ledger, e.referenceType = .payment →
    ∃ p ∈ db.payments.rows, p.id = e.referenceId
  currency : ∀ p ∈ db.payments.rows, p.currency ≠ ""

variable {db db' : Billing.Db}

theorem InStep.congr (h : InStep db) (hpayments : db'.payments = db.payments)
    (hledger : db'.ledger = db.ledger) : InStep db' :=
  ⟨by rw [hpayments, hledger]; exact h.net, by rw [hpayments, hledger]; exact h.known,
    by rw [hpayments]; exact h.currency⟩

/-- A payment that is new, and credited as it stands. -/
theorem InStep.withPayment (h : InStep db) {orgId : ℕ} {payer : ℕ → Payment}
    {hid : ∀ n, (payer n).id = n} (hcurrency : ∀ n, (payer n).currency ≠ "")
    (hcounts : ∀ n, counts (payer n) = true ∨ (payer n).amount = 0) :
    InStep (Billing.withPayment db orgId payer hid) where
  net p hp c := by
    have hledger : netOf (Billing.withPayment db orgId payer hid).ledger p.id c = _ :=
      netOf_recordPaymentCredit
    rw [hledger]
    show netOf db.ledger p.id c + _ = _
    rcases mem_withPayment.1 hp with hp | rfl
    · have hne : (payer db.payments.nextId).id ≠ p.id := by
        rw [hid]
        exact (Table.key_lt_nextId hp).ne'
      rw [if_neg fun heq => hne heq.1, add_zero]
      exact h.net p hp c
    · have hnone : netOf db.ledger (payer db.payments.nextId).id c = 0 := by
        refine netOf_eq_zero fun e he htype href => ?_
        obtain ⟨q, hq, hqid⟩ := h.known e he htype
        have : q.id < db.payments.nextId := Table.key_lt_nextId hq
        rw [hid] at href
        omega
      rw [hnone, zero_add, posted]
      rcases hcounts db.payments.nextId with hcount | hzero
      · simp [hcount]
      · simp [hzero]
  known e he htype := by
    rcases List.mem_append.1 he with he | he
    · obtain ⟨p, hp, hpid⟩ := h.known e he htype
      exact ⟨p, mem_withPayment.2 (.inl hp), hpid⟩
    · obtain rfl := List.mem_singleton.1 he
      exact ⟨_, mem_withPayment.2 (.inr rfl), rfl⟩
  currency p hp := by
    rcases mem_withPayment.1 hp with hp | rfl
    · exact h.currency p hp
    · exact hcurrency _

/-- **One payment rewritten**, with its entries: the others and their entries stay. -/
theorem InStep.rewrite (h : InStep db) {p r : Payment} (hid : r.id = p.id)
    (hcurrency : r.currency ≠ "")
    (hrows : ∀ q, q ∈ db'.payments.rows ↔ q ∈ db.payments.rows ∧ q.id ≠ p.id ∨ q = r)
    (hnet : ∀ c, netOf db'.ledger p.id c = posted r c)
    (hother : ∀ id, id ≠ p.id → ∀ c, netOf db'.ledger id c = netOf db.ledger id c)
    (hentries : ∀ e ∈ db'.ledger, e ∈ db.ledger ∨ e.referenceId = p.id) : InStep db' where
  net q hq c := by
    rcases (hrows q).1 hq with ⟨hq, hne⟩ | rfl
    · rw [hother q.id hne]
      exact h.net q hq c
    · rw [hid]
      exact hnet c
  known e he htype := by
    by_cases href : e.referenceId = p.id
    · exact ⟨r, (hrows r).2 (.inr rfl), hid.trans href.symm⟩
    rcases hentries e he with he | he
    · obtain ⟨q, hq, hqid⟩ := h.known e he htype
      exact ⟨q, (hrows q).2 (.inl ⟨hq, fun heq => href (hqid.symm.trans heq)⟩), hqid⟩
    · exact absurd he href
  currency q hq := by
    rcases (hrows q).1 hq with ⟨hq, -⟩ | rfl
    · exact h.currency q hq
    · exact hcurrency

/-! ### What leaves payments and ledger alone -/

/-- The same payments and the same ledger. -/
structure SameAccounts (db db' : Billing.Db) : Prop where
  payments : db'.payments = db.payments
  ledger : db'.ledger = db.ledger

namespace SameAccounts

variable {db'' : Billing.Db}

theorem refl (db : Billing.Db) : SameAccounts db db := ⟨rfl, rfl⟩

theorem trans (h : SameAccounts db db') (h' : SameAccounts db' db'') : SameAccounts db db'' :=
  ⟨h'.payments.trans h.payments, h'.ledger.trans h.ledger⟩

theorem refresh (db : Billing.Db) (i : ℕ) : SameAccounts db (refreshInvoicePaidStatus db i) := by
  rw [refresh_eq]
  exact ⟨rfl, rfl⟩

theorem finalize (db : Billing.Db) (invoice : Invoice) :
    SameAccounts db (finalizeIfFullyPaid db invoice).1 := by
  unfold finalizeIfFullyPaid
  dsimp only
  split_ifs <;> exact ⟨rfl, rfl⟩

theorem insertAllocation {paymentId invoiceId : ℕ} {amount : ℤ} {id : ℕ}
    (h : db.insertAllocation paymentId invoiceId amount = .ok (db', id)) : SameAccounts db db' := by
  obtain ⟨-, -, rfl⟩ := Db.insertAllocation_ok h
  exact ⟨rfl, rfl⟩

theorem allocateAcross {payment : Payment} {remainder : ℤ} {rows : List OpenInvoice}
    {applied : Applied} (h : allocateAcrossInvoices payment db remainder rows = .ok applied) :
    SameAccounts db applied.db := by
  refine allocateAcross_rule (I := fun _ db₁ => SameAccounts db db₁) (fun _ _ _ hI => hI)
    (fun _ _ _ _ _ _ _ hI _ _ happ => ?_) (refl db) h
  obtain ⟨-, db₁, hins, rfl⟩ := applyAllocation_ok happ
  refine hI.trans ((insertAllocation hins).trans ?_)
  split_ifs
  · exact finalize db₁ _
  · exact refl db₁

theorem moveAllocations {cond : PaymentAllocation → Bool} {deleted : Bool}
    (h : moveAllocations db cond deleted = .ok db') : SameAccounts db db' := by
  obtain ⟨-, rfl⟩ := moveAllocations_ok.1 h
  rw [refreshAll_eq, Db.markAll_eq]
  exact ⟨rfl, rfl⟩

end SameAccounts

/-! ### The operations -/

theorem InStep.deletePayment (h : InStep db) {orgId paymentId : ℕ} {bindingRep : Option String}
    (hok : deletePayment db orgId paymentId bindingRep = .ok db') : InStep db' := by
  obtain ⟨old, hfind, -, db₁, hmove, rfl⟩ := deletePayment_ok.1 hok
  obtain ⟨hold, -, -⟩ := findPayment_some.1 hfind
  obtain ⟨hmem, (rfl : old.id = paymentId)⟩ := Table.find?_eq_some.1 hold
  have hsame := SameAccounts.moveAllocations hmove
  have hledger : (db₁.setPayment old.id id true).ledger = (reversePaymentCredit db old.id).ledger :=
    hsame.ledger
  refine h.rewrite (p := old) (r := { old with deleted := true }) rfl (h.currency old hmem)
    (fun q => ?_) (fun c => ?_) (fun j hne c => ?_) fun e he => .inl ?_
  · rw [mem_setPayment, hsame.payments]
    show q ∈ db.payments.rows ∧ _ ∨ (∃ p, db.payments.find? old.id = some p ∧ _) ↔ _
    simp [hold]
  · rw [hledger, netOf_reversePaymentCredit, if_pos rfl]
    simp [posted, counts]
  · rw [hledger, netOf_reversePaymentCredit, if_neg hne]
  · rw [hledger] at he
    exact List.mem_of_mem_filter he

theorem InStep.restorePayment (h : InStep db) {orgId paymentId : ℕ}
    (hok : restorePayment db orgId paymentId = .ok db') : InStep db' := by
  obtain ⟨payment, hfind, -, -, -, hcompleted, hmove⟩ := restorePayment_ok.1 hok
  obtain ⟨hmem, (rfl : payment.id = paymentId)⟩ := Table.find?_eq_some.1 hfind
  refine InStep.congr ?_ (SameAccounts.moveAllocations hmove).payments
    (SameAccounts.moveAllocations hmove).ledger
  refine h.rewrite (p := payment) (r := { payment with deleted := false }) rfl
    (h.currency payment hmem) (fun q => ?_) (fun c => ?_) (fun j hne c => ?_) fun e he => ?_
  · show q ∈ (db.setPayment payment.id id false).payments.rows ↔ _
    rw [mem_setPayment]
    simp [hfind]
  · rw [undeleted, netOf_recordPaymentCredit, netOf_reversePaymentCredit, if_pos rfl]
    simp [posted, counts, hcompleted]
  · rw [undeleted, netOf_recordPaymentCredit, netOf_reversePaymentCredit, if_neg hne,
      if_neg fun heq => hne heq.1.symm, add_zero]
    rfl
  · rcases List.mem_append.1 he with he | he
    · exact .inl (List.mem_of_mem_filter he)
    · rw [List.mem_singleton.1 he]
      exact .inr rfl

theorem editLedger_eq (db : Billing.Db) (old : Payment) (amount : Option ℚ)
    (status : Option PaymentStatus) (currency : Option String) {j : ℕ} {c : String} :
    netOf (editLedger db old amount status currency).ledger j c =
      if movesCredit old amount status ∧ j = old.id then
        posted { credited old amount status currency with deleted := false } c
      else netOf db.ledger j c := by
  unfold editLedger
  have hcredited : (credited old amount status currency).id = old.id := rfl
  have hstatus : (credited old amount status currency).status =
      (edited old amount status currency).status := rfl
  split_ifs with hmoves hcompleted hj hj hj
  · rw [netOf_recordPaymentCredit, netOf_reversePaymentCredit, if_pos hj.2, zero_add, hcredited]
    simp [posted, counts, hstatus, hcompleted, hj.2]
  · have hne : j ≠ old.id := fun heq => hj ⟨hmoves, heq⟩
    rw [netOf_recordPaymentCredit, netOf_reversePaymentCredit, if_neg hne, hcredited,
      if_neg fun heq => hne heq.1.symm, add_zero]
  · rw [netOf_reversePaymentCredit, if_pos hj.2]
    simp [posted, counts, hstatus, hcompleted]
  · rw [netOf_reversePaymentCredit, if_neg fun heq => hj ⟨hmoves, heq⟩]
  · exact absurd hj.1 hmoves
  · rfl

theorem mem_editLedger {old : Payment} {amount : Option ℚ} {status : Option PaymentStatus}
    {currency : Option String} {e : LedgerEntry}
    (he : e ∈ (editLedger db old amount status currency).ledger) :
    e ∈ db.ledger ∨ e.referenceId = old.id := by
  unfold editLedger at he
  split_ifs at he
  · rcases List.mem_append.1 he with he | he
    · exact .inl (List.mem_of_mem_filter he)
    · rw [List.mem_singleton.1 he]
      exact .inr rfl
  · exact .inl (List.mem_of_mem_filter he)
  · exact .inl he

/-- The edit writes no empty currency; and where it leaves the credit of a completed payment alone,
it leaves its amount and currency alone. -/
def EditKeepsStep (old : Payment) (amount : Option ℚ) (status : Option PaymentStatus)
    (currency : Option String) : Prop :=
  currency ≠ some "" ∧
    (movesCredit old amount status = false → old.status = .completed →
      (edited old amount status currency).amount = old.amount ∧
        ((edited old amount status currency).currency = old.currency ∨ old.amount = 0))

instance (old : Payment) (amount : Option ℚ) (status : Option PaymentStatus)
    (currency : Option String) : Decidable (EditKeepsStep old amount status currency) :=
  inferInstanceAs (Decidable (_ ∧ (_ → _ → _ ∧ (_ ∨ _))))

theorem movesCredit_false {old : Payment} {amount : Option ℚ} {status : Option PaymentStatus}
    (h : movesCredit old amount status = false) : status.getD old.status = old.status := by
  simp only [movesCredit, decide_eq_false_iff_not, not_or] at h
  cases status with
  | none => rfl
  | some new => simpa using h.2

theorem InStep.editPayment (h : InStep db) {orgId paymentId : ℕ} {amount : Option ℚ}
    {status : Option PaymentStatus} {currency bindingRep : Option String}
    (hkeeps : ∀ old, findPayment db paymentId orgId = some old →
      EditKeepsStep old amount status currency)
    (hok : editPayment db orgId paymentId amount status currency bindingRep = .ok db') :
    InStep db' := by
  obtain ⟨-, old, hfind, -, rfl⟩ := editPayment_ok.1 hok
  obtain ⟨hempty, hkept⟩ := hkeeps old hfind
  obtain ⟨hold, -, hlive⟩ := findPayment_some.1 hfind
  obtain ⟨hmem, -⟩ := Table.find?_eq_some.1 hold
  have hcurrency : (edited old amount status currency).currency ≠ "" := by
    cases currency with
    | none => exact h.currency old hmem
    | some c => exact fun heq => hempty (congrArg some heq)
  have hcredited : credited old amount status currency = edited old amount status currency := by
    cases currency with
    | none => rfl
    | some c =>
      have hc : c ≠ "" := fun heq => hempty (congrArg some heq)
      simp [credited, edited, Option.filter_some, hc]
  refine h.rewrite (p := old) (r := edited old amount status currency) rfl hcurrency
    (fun q => ?_) (fun c => ?_) (fun j hne c => ?_) fun e he => mem_editLedger he
  · show q ∈ (db.payments.put (edited old amount status currency)).rows ↔ _
    rw [Table.mem_put, or_comm]
    rfl
  · show netOf (editLedger db old amount status currency).ledger old.id c = _
    rw [editLedger_eq]
    cases hmoves : movesCredit old amount status with
    | true =>
      rw [if_pos ⟨rfl, rfl⟩, hcredited]
      rw [show { edited old amount status currency with deleted := false } =
        edited old amount status currency from by simp [edited, hlive]]
    | false =>
      rw [if_neg (by simp), h.net old hmem]
      have hstatus : (edited old amount status currency).status = old.status :=
        movesCredit_false hmoves
      refine (posted_congr ?_ fun hcounts => hkept hmoves ?_).symm
      · rw [counts, counts, hstatus]
        rfl
      · simp only [counts, decide_eq_true_eq] at hcounts
        exact hcounts.2
  · show netOf (editLedger db old amount status currency).ledger j c = _
    rw [editLedger_eq, if_neg fun heq => hne heq.2]

/-- A refund of a payment whose credit still stands, or that had none to offset. -/
def RefundKeepsStep (p : Payment) : Prop :=
  p.deleted = true ∨ p.status = .completed ∨ p.amount = 0

instance (p : Payment) : Decidable (RefundKeepsStep p) :=
  inferInstanceAs (Decidable (_ ∨ _ ∨ _))

theorem InStep.refundPayment (h : InStep db) {p : Payment} (hmem : p ∈ db.payments.rows)
    (hkeeps : RefundKeepsStep p) (hok : refundPayment db p = .ok db') : InStep db' := by
  obtain ⟨invoices, rfl⟩ := refundPayment_ok hok
  refine h.rewrite (p := p) (r := { p with status := .refunded }) rfl (h.currency p hmem)
    (fun q => ?_) (fun c => ?_) (fun j hne c => ?_) fun e he => ?_
  · show q ∈ (takenBack db p).payments.rows ↔ _
    rw [takenBack_payments, mem_setPayment]
    simp [show db.payments.find? p.id = some p from Table.find?_key hmem]
  · show netOf (if p.deleted then db.ledger else (recordRefundDebit db p).ledger) p.id c = _
    have hnet := h.net p hmem c
    rw [show posted { p with status := .refunded } c = 0 by simp [posted, counts]]
    split_ifs with hdeleted
    · simpa [posted, counts, hdeleted] using hnet
    · rw [netOf_recordRefundDebit, hnet]
      have hlive : p.deleted = false := by simpa using hdeleted
      rcases hkeeps with hgone | hcompleted | hzero
      · exact absurd hgone hdeleted
      · simp [posted, counts, hlive, hcompleted]
      · simp [posted, hzero]
  · show netOf (if p.deleted then db.ledger else (recordRefundDebit db p).ledger) j c = _
    split_ifs
    · rfl
    · rw [netOf_recordRefundDebit, if_neg fun heq => hne heq.1.symm, sub_zero]
  · have he : e ∈ if p.deleted then db.ledger else (recordRefundDebit db p).ledger := he
    split_ifs at he
    · exact .inl he
    · rcases List.mem_append.1 he with he | he
      · exact .inl he
      · rw [List.mem_singleton.1 he]
        exact .inr rfl

theorem sameAccounts_of_allocation {r : Except Failure Billing.Db}
    (h : ∀ db', r = .ok db' → SameAccounts db db') (hstep : InStep db) : InStep (commit db r) :=
  commit_cases hstep fun db' hok => hstep.congr (h db' hok).payments (h db' hok).ledger

theorem SameAccounts.allocate {orgId paymentId invoiceId : ℕ} {amount : ℚ}
    (h : allocate db orgId paymentId invoiceId amount = .ok db') : SameAccounts db db' := by
  obtain ⟨-, _, invoice, db₁, _, -, -, -, -, hins, rfl⟩ := allocate_ok h
  exact (SameAccounts.insertAllocation hins).trans (.finalize db₁ invoice)

theorem SameAccounts.allocateAuto {orgId paymentId : ℕ} {ids : Option (List ℕ)}
    (h : allocateAuto db orgId paymentId ids = .ok db') : SameAccounts db db' := by
  obtain ⟨_, _, _, _, -, -, happ, rfl⟩ := allocateAuto_ok h
  exact .allocateAcross happ

theorem SameAccounts.unapply {orgId paymentId invoiceId : ℕ} {bindingRep : Option String}
    (h : unapply db orgId paymentId invoiceId bindingRep = .ok db') : SameAccounts db db' := by
  obtain ⟨row, -, -, rfl⟩ := unapply_ok h
  have hmark : SameAccounts db (db.mark true row) := ⟨rfl, rfl⟩
  exact hmark.trans (.refresh _ invoiceId)

theorem SameAccounts.reallocate {orgId paymentId fromInvoiceId toInvoiceId : ℕ}
    {amount : Option ℚ} {bindingRep : Option String}
    (h : reallocate db orgId paymentId fromInvoiceId toInvoiceId amount bindingRep = .ok db') :
    SameAccounts db db' := by
  obtain ⟨-, _, row, _, db₁, _, -, -, -, -, -, hins, rfl⟩ := reallocate_ok h
  have hmark : SameAccounts db (db.mark true row) := ⟨rfl, rfl⟩
  exact (hmark.trans (.insertAllocation hins)).trans ((SameAccounts.refresh _ _).trans
    (.refresh _ _))

theorem getCurrency_ne (column : String) : getCurrency column ≠ "" := by
  unfold getCurrency
  split_ifs with h
  · decide
  · exact h

theorem newPayment_currency (orgId clientId : ℕ) (amount : ℚ) (currency : Option String)
    (status : Option PaymentStatus) (orgCurrency : String) (id : ℕ) :
    (newPayment orgId clientId amount currency status orgCurrency id).currency ≠ "" := by
  show (currency.filter (· ≠ "")).getD (getCurrency orgCurrency) ≠ ""
  cases hfilter : currency.filter (· ≠ "") with
  | none => exact getCurrency_ne orgCurrency
  | some c => simpa using (Option.filter_eq_some_iff.1 hfilter).2

/-! ### Runs -/

/-- The gateway transactions are in a currency, and the ledger is in step. -/
structure Db.InStep (db : Db) : Prop where
  billing : Gateway.InStep db.billing
  currency : ∀ tx ∈ db.transactions.rows, tx.currency ≠ ""

/-- The three operations that break the mirror do not happen: a payment is created completed, or
over nothing; an edit keeps in step; and so does a refund. -/
def KeepsStep (db : Db) : Event → Prop
  | .createPayment _ _ amount _ status clientOwned _ =>
    clientOwned = true → status.getD .completed = .completed ∨ toDecimal amount = 0
  | .editPayment orgId paymentId amount status currency _ =>
    ∀ old ∈ findPayment db.billing paymentId orgId, EditKeepsStep old amount status currency
  | .reverseRefund transactionId =>
    ∀ p ∈ paymentOf db transactionId, p.status = .refunded ∨ RefundKeepsStep p
  | _ => True

instance (db : Db) : (event : Event) → Decidable (KeepsStep db event)
  | .createPayment _ _ _ _ _ _ _ => inferInstanceAs (Decidable (_ → _ ∨ _))
  | .editPayment orgId paymentId amount status currency _ =>
    inferInstanceAs (Decidable
      (∀ old ∈ findPayment db.billing paymentId orgId, EditKeepsStep old amount status currency))
  | .reverseRefund transactionId =>
    inferInstanceAs (Decidable
      (∀ p ∈ paymentOf db transactionId, p.status = .refunded ∨ RefundKeepsStep p))
  | .deletePayment .. | .restorePayment .. | .allocate .. | .allocateAuto .. | .reallocate ..
  | .unapply .. | .reconcilePayment .. | .openTransaction .. | .reportStatus .. => .isTrue trivial

/-- For each payment, the net amount of its entries in its currency is its amount while it is live
and completed, and zero otherwise. -/
def Mirrored (db : Db) : Prop :=
  ∀ p ∈ db.billing.payments.rows, netOf db.billing.ledger p.id p.currency =
    if p.deleted = false ∧ p.status = .completed then p.amount else 0

theorem Db.InStep.reconcile {db db' : Db} {transactionId : ℕ} {answer : Reconciled}
    (h : db.InStep) (hok : reconcilePayment db transactionId = .ok (db', answer)) :
    db'.InStep := by
  rcases reconcilePayment_ok hok with rfl | ⟨tx, rows, applied, transactions, hfind, -, -, -, happ,
    hcurrencies, rfl⟩
  · exact h
  obtain ⟨htx, -⟩ := Table.find?_eq_some.1 hfind
  have hposted : Gateway.InStep (Billing.withPayment db.billing tx.organizationId (captured tx)
      fun _ => rfl) :=
    h.billing.withPayment (fun _ => h.currency tx htx) fun _ => .inl (by simp [counts, captured])
  have hsame := SameAccounts.allocateAcross happ
  refine ⟨hposted.congr hsame.payments hsame.ledger, fun t ht => ?_⟩
  obtain ⟨t', ht', heq⟩ := hcurrencies t ht
  exact heq ▸ h.currency t' ht'

theorem inStep_after {db : Db} {event : Event} (h : db.InStep) (hkeeps : KeepsStep db event) :
    (db.after event).InStep := by
  have hrequest : ∀ {r}, InStep (commit db.billing r) → (db.request r).InStep :=
    fun hr => ⟨hr, h.currency⟩
  cases event with
  | createPayment orgId clientId amount currency status clientOwned orgCurrency =>
    refine hrequest (commit_cases h.billing fun db' hok => ?_)
    obtain ⟨howned, rfl⟩ := createPayment_ok hok
    refine h.billing.withPayment (newPayment_currency orgId clientId amount currency status
      orgCurrency) fun n => ?_
    refine (hkeeps howned).imp_left fun hstatus => ?_
    simp [counts, newPayment, hstatus]
  | editPayment orgId paymentId amount status currency bindingRep =>
    exact hrequest (commit_cases h.billing fun db' hok => h.billing.editPayment hkeeps hok)
  | deletePayment orgId paymentId bindingRep =>
    exact hrequest (commit_cases h.billing fun db' hok => h.billing.deletePayment hok)
  | restorePayment orgId paymentId =>
    exact hrequest (commit_cases h.billing fun db' hok => h.billing.restorePayment hok)
  | allocate orgId paymentId invoiceId amount =>
    exact hrequest (sameAccounts_of_allocation (fun _ => SameAccounts.allocate) h.billing)
  | allocateAuto orgId paymentId invoiceIds =>
    exact hrequest (sameAccounts_of_allocation (fun _ => SameAccounts.allocateAuto) h.billing)
  | reallocate orgId paymentId fromInvoiceId toInvoiceId amount bindingRep =>
    exact hrequest (sameAccounts_of_allocation (fun _ => SameAccounts.reallocate) h.billing)
  | unapply orgId paymentId invoiceId bindingRep =>
    exact hrequest (sameAccounts_of_allocation (fun _ => SameAccounts.unapply) h.billing)
  | reconcilePayment transactionId =>
    exact after_reconcile_cases h fun db' answer hok => h.reconcile hok
  | reverseRefund transactionId =>
    rcases reverseRefund_cases db transactionId with heq | ⟨p, billing, hpay, hstatus, hok, heq⟩
    · show (reverseRefund db transactionId).InStep
      rwa [heq]
    · show (reverseRefund db transactionId).InStep
      rw [heq]
      have hrefund : RefundKeepsStep p := (hkeeps p hpay).resolve_left hstatus
      exact ⟨h.billing.refundPayment (paymentOf_some hpay) hrefund hok, h.currency⟩
  | openTransaction orgId clientId invoiceId amount currency =>
    refine ⟨h.billing, fun tx htx => ?_⟩
    rcases Table.mem_insert.1 htx with htx | rfl
    · exact h.currency tx htx
    · exact getCurrency_ne currency
  | reportStatus transactionId status =>
    refine ⟨h.billing, fun tx htx => ?_⟩
    rcases Db.mem_setGatewayStatus.1 htx with ⟨htx, -⟩ | ⟨t, ht, rfl⟩
    · exact h.currency tx htx
    · exact h.currency t (Table.find?_eq_some.1 ht).1

/-- **The ledger mirrors the payments** in every state of a run without the three operations. -/
theorem ledger_mirrors_payments {db : Db} {events : List Event} (h : db.InStep)
    (hkeeps : StepsMeet Db.after KeepsStep db events) : Always Db.after Mirrored db events := by
  have hinv : Always Db.after Db.InStep db events :=
    always_of_step (fun _ _ => inStep_after) h hkeeps
  refine hinv.mono fun db h p hp => ?_
  rw [h.billing.net p hp, posted]
  simp [counts]

/-! ### One run that keeps in step, and one that does not -/

/-- Nothing in any table. -/
def nothing : Db :=
  ⟨⟨.empty, .empty, .empty, .empty, .empty, .empty, .empty, [], []⟩, .empty⟩

theorem nothing_inStep : nothing.InStep := by
  refine ⟨⟨?_, ?_, ?_⟩, ?_⟩ <;> simp [nothing, Table.empty]

/-- A payment of 100.00 that is corrected to 80.00, and a capture that is posted and refunded. -/
def postedAndRefunded : List Event :=
  [.createPayment 1 1 100 none none true "MXN", .editPayment 1 1 (some 80) none none none,
    .openTransaction 1 1 none 5000 "", .reportStatus 1 .succeeded, .reconcilePayment 1,
    .reportStatus 1 .refunded, .reverseRefund 1]

theorem ledger_mirrors_payments_refunded : Always Db.after Mirrored nothing postedAndRefunded :=
  ledger_mirrors_payments nothing_inStep (by decide +kernel)

/-- A payment recorded as pending is credited like a completed one. -/
theorem pending_payment_credited :
    ¬ ∀ (db : Db) (events : List Event), db.InStep → Always Db.after Mirrored db events := by
  intro h
  have hmirrored := (h nothing [.createPayment 1 1 100 none (some .pending) true "MXN"]
    nothing_inStep).last
  exact absurd (hmirrored ⟨1, 1, 1, 10000, "MXN", .pending, none, false⟩ (by decide +kernel))
    (by decide +kernel)

end Vigabss.Gateway
