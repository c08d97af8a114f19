import Vigabss.Billing.Balance
import Vigabss.Billing.Bounds

/-!
# Vigabss.Billing.Applying — applying money leaves the client's balance

Allocating a payment, taking it back, moving it and crediting a note move money between the terms
of `computeClientBalance`.  Every term is clipped at zero, so the balance stays only while each row
can bear what goes through it.  `applying_conserves_iff` is the exact condition, for any state that
the database can hold.
-/

namespace Vigabss.Billing

open Vigabss.Lib

/-! ### The terms under an id -/

namespace Db

variable (db : Db)

/-- What the invoice under an id adds to the balance. -/
def owedOn (invoiceId : ℕ) : ℤ := (db.invoices.find? invoiceId).elim 0 db.owed

/-- What the payment under an id takes off the balance. -/
def unallocatedOf (paymentId : ℕ) : ℤ := (db.payments.find? paymentId).elim 0 db.unallocated

/-- What the credit note under an id takes off the balance. -/
def standingOf (noteId : ℕ) : ℤ := (db.creditNotes.find? noteId).elim 0 db.standing

/-- The invoice can take `amount` off what it owes. -/
def Accepts (invoiceId : ℕ) (amount : ℤ) : Prop :=
  (db.invoices.find? invoiceId).elim (amount = 0) fun i =>
    Bears i.counts (db.owed i) (db.due i) amount

/-- The payment can give `amount`. -/
def Spends (paymentId : ℕ) (amount : ℤ) : Prop :=
  (db.payments.find? paymentId).elim (amount = 0) fun p =>
    Bears p.counts (db.unallocated p) (p.amount - db.allocatedOf p.id) amount

/-- The credit note can give `amount`. -/
def Credits (noteId : ℕ) (amount : ℤ) : Prop :=
  (db.creditNotes.find? noteId).elim (amount = 0) fun n =>
    Bears n.counts (db.standing n) (n.total - db.appliedOf n.id) amount

instance (invoiceId : ℕ) (amount : ℤ) : Decidable (db.Accepts invoiceId amount) := by
  unfold Accepts
  exact match db.invoices.find? invoiceId with
    | none => Int.instDecidableEq amount 0
    | some i => inferInstanceAs (Decidable (Bears i.counts (db.owed i) (db.due i) amount))

end Db

/-- Applying money moves it between the terms: each changes by what is applied to it. -/
structure MovesOnly (db db' : Db) : Prop where
  invoices : ∀ i, db'.owedOn i = db.owedOn i - (db'.coveredOf i - db.coveredOf i)
  payments : ∀ p, db'.unallocatedOf p = db.unallocatedOf p - (db'.allocatedOf p - db.allocatedOf p)
  notes : ∀ n, db'.standingOf n = db.standingOf n - (db'.appliedOf n - db.appliedOf n)

/-- Money moves between the terms, and no figure of any client's balance changes. -/
structure Conserves (noteCurrency : ℕ → String) (db db' : Db) : Prop extends MovesOnly db db' where
  figures : ∀ orgId clientId orgCurrency cur,
    netBalance db' orgId clientId noteCurrency orgCurrency cur =
      netBalance db orgId clientId noteCurrency orgCurrency cur

/-! ### From transfers to the balance -/

/-- The payment and the invoice are of one client, in one currency. -/
def SameAccount (db : Db) (paymentId invoiceId : ℕ) : Prop :=
  ∃ payment invoice, db.payments.find? paymentId = some payment ∧
    db.invoices.find? invoiceId = some invoice ∧
    payment.organizationId = invoice.organizationId ∧ payment.clientId = invoice.clientId ∧
    payment.currency = invoice.currency

/-- The credit note and the invoice are of one client, in one currency. -/
def CreditsAccount (noteCurrency : ℕ → String) (db : Db) (noteId invoiceId : ℕ) : Prop :=
  ∃ note invoice, db.creditNotes.find? noteId = some note ∧
    db.invoices.find? invoiceId = some invoice ∧
    note.organizationId = invoice.organizationId ∧ note.clientId = invoice.clientId ∧
    noteCurrency noteId = invoice.currency

/-- What does not change in an invoice. -/
def Invoice.account (i : Invoice) : ℕ × ℕ × ℕ × String :=
  (i.id, i.organizationId, i.clientId, i.currency)

/-- What does not change in a credit note. -/
def CreditNote.account (n : CreditNote) : ℕ × ℕ × ℕ := (n.id, n.organizationId, n.clientId)

/-- The rows are the same, but for their statuses. -/
structure SameAccounts (db db' : Db) : Prop where
  invoices : db'.invoices.rows.map Invoice.account = db.invoices.rows.map Invoice.account
  payments : db'.payments = db.payments
  notes : db'.creditNotes.rows.map CreditNote.account = db.creditNotes.rows.map CreditNote.account

/-- The transfers, of payments and of credit, that account for what changed. -/
structure Transfers (db db' : Db) (pays credits : List Transfer) : Prop where
  covered : ∀ i, db'.coveredOf i =
    db.coveredOf i + (through Transfer.sink pays i + through Transfer.sink credits i)
  allocated : ∀ p, db'.allocatedOf p = db.allocatedOf p + through Transfer.source pays p
  applied : ∀ n, db'.appliedOf n = db.appliedOf n + through Transfer.source credits n

section Balance

variable {noteCurrency : ℕ → String} {db db' : Db} {pays credits : List Transfer}

theorem invoices_sum_eq (h : SameAccounts db db') (f : ℕ → ℤ) (orgId clientId : ℕ) (cur : String) :
    db'.invoices.sum (invoiceOf orgId clientId cur) (fun i => f i.id) =
      db.invoices.sum (invoiceOf orgId clientId cur) fun i => f i.id :=
  Table.sum_congr_map Invoice.account
    (fun a => if decide (a.2.1 = orgId ∧ a.2.2.1 = clientId ∧ a.2.2.2 = cur) = true then f a.1
      else 0) (fun _ => rfl) h.invoices

theorem notes_sum_eq (h : SameAccounts db db') (f : ℕ → ℤ) (orgId clientId : ℕ) (cur : String) :
    db'.creditNotes.sum (creditedTo orgId clientId cur noteCurrency) (fun n => f n.id) =
      db.creditNotes.sum (creditedTo orgId clientId cur noteCurrency) fun n => f n.id :=
  Table.sum_congr_map CreditNote.account
    (fun a => if decide (a.2.1 = orgId ∧ a.2.2 = clientId ∧ noteCurrency a.1 = cur) = true
      then f a.1
      else 0) (fun _ => rfl) h.notes

theorem netBalance_eq_ids (db : Db) (orgId clientId : ℕ) (noteCurrency : ℕ → String)
    (orgCurrency cur : String) :
    netBalance db orgId clientId noteCurrency orgCurrency cur =
      (db.invoices.sum (invoiceOf orgId clientId cur) fun i => db.owedOn i.id) -
        (db.payments.sum (paidBy orgId clientId cur) fun p => db.unallocatedOf p.id) -
        db.creditNotes.sum (creditedTo orgId clientId cur noteCurrency) fun n =>
          db.standingOf n.id := by
  rw [netBalance_eq]
  congr 1
  · congr 1
    · refine Table.sum_congr_rows fun i hi => ?_
      rw [Db.owedOn, show db.invoices.find? i.id = some i from Table.find?_key hi]
      rfl
    · refine Table.sum_congr_rows fun p hp => ?_
      rw [Db.unallocatedOf, show db.payments.find? p.id = some p from Table.find?_key hp]
      rfl
  · refine Table.sum_congr_rows fun n hn => ?_
    rw [Db.standingOf, show db.creditNotes.find? n.id = some n from Table.find?_key hn]
    rfl

/-- **Money that moves between a client's own terms leaves the client's figures.** -/
theorem conserves_of_moves (hsame : SameAccounts db db') (hm : MovesOnly db db')
    (ht : Transfers db db' pays credits)
    (hpays : ∀ t ∈ pays, SameAccount db t.source t.sink)
    (hcredits : ∀ t ∈ credits, CreditsAccount noteCurrency db t.source t.sink) :
    Conserves noteCurrency db db' := by
  refine ⟨hm, fun orgId clientId orgCurrency cur => ?_⟩
  have hinv : (db'.invoices.sum (invoiceOf orgId clientId cur) fun i => db'.owedOn i.id) =
      (db.invoices.sum (invoiceOf orgId clientId cur) fun i => db.owedOn i.id) -
        ((db.invoices.sum (invoiceOf orgId clientId cur) fun i => through Transfer.sink pays i.id) +
          db.invoices.sum (invoiceOf orgId clientId cur) fun i =>
            through Transfer.sink credits i.id) := by
    rw [invoices_sum_eq hsame, ← Table.sum_add, eq_sub_iff_add_eq, ← Table.sum_add]
    refine Table.sum_congr_rows fun i _ => ?_
    rw [hm.invoices, ht.covered]
    ring
  have hpay : (db'.payments.sum (paidBy orgId clientId cur) fun p => db'.unallocatedOf p.id) =
      (db.payments.sum (paidBy orgId clientId cur) fun p => db.unallocatedOf p.id) -
        db.payments.sum (paidBy orgId clientId cur) fun p =>
          through Transfer.source pays p.id := by
    rw [hsame.payments, eq_sub_iff_add_eq, ← Table.sum_add]
    refine Table.sum_congr_rows fun p _ => ?_
    rw [hm.payments, ht.allocated]
    ring
  have hnote : (db'.creditNotes.sum (creditedTo orgId clientId cur noteCurrency) fun n =>
        db'.standingOf n.id) =
      (db.creditNotes.sum (creditedTo orgId clientId cur noteCurrency) fun n =>
        db.standingOf n.id) -
        db.creditNotes.sum (creditedTo orgId clientId cur noteCurrency) fun n =>
          through Transfer.source credits n.id := by
    rw [notes_sum_eq hsame, eq_sub_iff_add_eq, ← Table.sum_add]
    refine Table.sum_congr_rows fun n _ => ?_
    rw [hm.notes, ht.applied]
    ring
  -- what a transfer brings to the client's invoices it takes from the client's own money
  have hpaid : (db.invoices.sum (invoiceOf orgId clientId cur) fun i =>
        through Transfer.sink pays i.id) =
      db.payments.sum (paidBy orgId clientId cur) fun p => through Transfer.source pays p.id := by
    rw [show (fun i : Invoice => through Transfer.sink pays i.id) =
        fun i => through Transfer.sink pays (Keyed.key i) from rfl, sum_through,
      show (fun p : Payment => through Transfer.source pays p.id) =
        fun p => through Transfer.source pays (Keyed.key p) from rfl, sum_through]
    refine congrArg List.sum (List.map_congr_left fun t hmem => ?_)
    obtain ⟨payment, invoice, hp, hi, horg, hclient, hcur⟩ := hpays t hmem
    simp [hp, hi, invoiceOf, paidBy, horg, hclient, hcur]
  have hcredited : (db.invoices.sum (invoiceOf orgId clientId cur) fun i =>
        through Transfer.sink credits i.id) =
      db.creditNotes.sum (creditedTo orgId clientId cur noteCurrency) fun n =>
        through Transfer.source credits n.id := by
    rw [show (fun i : Invoice => through Transfer.sink credits i.id) =
        fun i => through Transfer.sink credits (Keyed.key i) from rfl, sum_through,
      show (fun n : CreditNote => through Transfer.source credits n.id) =
        fun n => through Transfer.source credits (Keyed.key n) from rfl, sum_through]
    refine congrArg List.sum (List.map_congr_left fun t hmem => ?_)
    obtain ⟨note, invoice, hn, hi, horg, hclient, hcur⟩ := hcredits t hmem
    have hid : note.id = t.source := (Table.find?_eq_some.1 hn).2
    simp [hn, hi, invoiceOf, creditedTo, horg, hclient, hid, hcur]
  rw [netBalance_eq_ids, netBalance_eq_ids, hinv, hpay, hnote, hpaid, hcredited]
  ring

theorem Conserves.refl (noteCurrency : ℕ → String) (db : Db) : Conserves noteCurrency db db :=
  ⟨⟨fun _ => by ring, fun _ => by ring, fun _ => by ring⟩, fun _ _ _ _ => rfl⟩

theorem Conserves.trans {db'' : Db} (h : Conserves noteCurrency db db')
    (h' : Conserves noteCurrency db' db'') : Conserves noteCurrency db db'' :=
  ⟨⟨fun i => by rw [h'.invoices, h.invoices]; ring, fun p => by rw [h'.payments, h.payments]; ring,
    fun n => by rw [h'.notes, h.notes]; ring⟩,
    fun o c oc cur => (h'.figures o c oc cur).trans (h.figures o c oc cur)⟩

end Balance

/-! ### What the statements leave -/

/-- The rows after some statements.  Those whose status was derived again owe what is left on
them; the others are as they were. -/
structure Settles (db db' : Db) (touched : List ℕ) : Prop where
  accounts : SameAccounts db db'
  rows : ∀ j ∉ touched, db'.invoices.find? j = db.invoices.find? j
  derived : ∀ j ∈ touched, db'.owedOn j =
    (db.invoices.find? j).elim 0 fun i => shown i.counts (i.total - db'.coveredOf j)
  notes : ∀ n, db'.standingOf n =
    (db.creditNotes.find? n).elim 0 fun n => shown n.counts (n.total - db'.appliedOf n.id)

section Settling

variable {db db' db₁ : Db} {touched : List ℕ} {pays credits : List Transfer}

theorem SameAccounts.trans (h : SameAccounts db db₁) (h' : SameAccounts db₁ db') :
    SameAccounts db db' :=
  ⟨h'.invoices.trans h.invoices, h'.payments.trans h.payments, h'.notes.trans h.notes⟩

theorem SameAccounts.setInvoiceStatus (db : Db) (i : ℕ) (f : InvoiceStatus → InvoiceStatus) :
    SameAccounts db (db.setInvoiceStatus i f) := by
  refine ⟨?_, rfl, rfl⟩
  simp only [Db.setInvoiceStatus, Table.modify, List.map_map]
  refine List.map_congr_left fun a _ => ?_
  simp only [Function.comp_apply]
  split_ifs <;> rfl

theorem SameAccounts.setNoteStatus (db : Db) (n : ℕ) (f : CreditNoteStatus → CreditNoteStatus) :
    SameAccounts db (db.setNoteStatus n f) := by
  refine ⟨rfl, rfl, ?_⟩
  simp only [Db.setNoteStatus, Table.modify, List.map_map]
  refine List.map_congr_left fun a _ => ?_
  simp only [Function.comp_apply]
  split_ifs <;> rfl

theorem settles_of_statements (hi : db'.invoices = db.invoices) (hp : db'.payments = db.payments)
    (hn : db'.creditNotes = db.creditNotes) : Settles db db' [] where
  accounts := ⟨by rw [hi], hp, by rw [hn]⟩
  rows j _ := by rw [hi]
  derived j hj := absurd hj List.not_mem_nil
  notes n := by
    rw [Db.standingOf, hn]
    rfl

theorem owedOn_congr {j : ℕ} (hrow : db'.invoices.find? j = db.invoices.find? j)
    (hcov : db'.coveredOf j = db.coveredOf j) : db'.owedOn j = db.owedOn j := by
  unfold Db.owedOn
  rw [hrow]
  cases h : db.invoices.find? j with
  | none => rfl
  | some i =>
    have hid : i.id = j := (Table.find?_eq_some.1 h).2
    simp only [Option.elim_some, Db.owed, Db.due, hid, hcov]

theorem Settles.keep {j : ℕ} (h : Settles db db₁ touched) (hj : j ∉ touched)
    (hst : ∀ i, db.invoices.find? j = some i →
      shown i.opens (i.total - db₁.coveredOf j) = shown i.counts (i.total - db₁.coveredOf j)) :
    Settles db db₁ (j :: touched) where
  accounts := h.accounts
  rows k hk := h.rows k fun hmem => hk (List.mem_cons_of_mem _ hmem)
  derived k hk := by
    rcases List.mem_cons.1 hk with rfl | hk
    · rw [Db.owedOn, h.rows k hj]
      cases hi : db.invoices.find? k with
      | none => rfl
      | some i =>
        have hid : i.id = k := (Table.find?_eq_some.1 hi).2
        simp only [Option.elim_some, Db.owed, Db.due, hid]
        exact hst i hi
    · exact h.derived k hk
  notes := h.notes

theorem Settles.setInvoiceStatus {j : ℕ} {f : InvoiceStatus → InvoiceStatus}
    (h : Settles db db₁ touched) (hj : j ∉ touched)
    (hst : ∀ i, db.invoices.find? j = some i →
      shown ({ i with status := f i.status } : Invoice).opens (i.total - db₁.coveredOf j) =
        shown i.counts (i.total - db₁.coveredOf j)) :
    Settles db (db₁.setInvoiceStatus j f) (j :: touched) where
  accounts := h.accounts.trans (.setInvoiceStatus db₁ j f)
  rows k hk := by
    rw [List.mem_cons, not_or] at hk
    rw [setInvoiceStatus_find, if_neg hk.1]
    exact h.rows k hk.2
  derived k hk := by
    by_cases hkj : k = j
    · subst hkj
      rw [Db.owedOn, setInvoiceStatus_find, if_pos rfl, h.rows k hj]
      cases hi : db.invoices.find? k with
      | none => rfl
      | some i =>
        have hid : i.id = k := (Table.find?_eq_some.1 hi).2
        simp only [Option.map_some, Option.elim_some, Db.owed, Db.due, hid]
        exact hst i hi
    · have hkt : k ∈ touched := (List.mem_cons.1 hk).resolve_left hkj
      have hrow : (db₁.setInvoiceStatus j f).invoices.find? k = db₁.invoices.find? k := by
        rw [setInvoiceStatus_find, if_neg hkj]
      rw [owedOn_congr hrow rfl]
      exact h.derived k hkt
  notes := h.notes

theorem opens_refreshed (i : Invoice) (hd : i.deleted = false) (covered : ℤ) :
    shown ({ i with status := refreshedStatus (decide (i.total ≤ covered)) i.status } :
      Invoice).opens (i.total - covered) = shown i.counts (i.total - covered) := by
  by_cases hc : i.total ≤ covered
  · have hle : i.total - covered ≤ 0 := by omega
    rw [shown_of_nonpos hle, shown_of_nonpos hle]
  · unfold shown Invoice.opens Invoice.counts refreshedStatus
    cases i.status <;> simp [hd, hc, InvoiceStatus.payable, InvoiceStatus.creditable]

theorem Settles.refresh {j : ℕ} (h : Settles db db₁ touched) (hj : j ∉ touched) :
    Settles db (refreshInvoicePaidStatus db₁ j) (j :: touched) := by
  unfold refreshInvoicePaidStatus
  rw [h.rows j hj]
  cases hi : db.invoices.find? j with
  | none => exact h.keep hj fun i hi' => by simp [hi] at hi'
  | some inv =>
    dsimp only
    split_ifs with hd
    · refine h.keep hj fun i hi' => ?_
      obtain rfl := Option.some.inj (hi.symm.trans hi')
      simp [shown, Invoice.opens, Invoice.counts, hd]
    · refine h.setInvoiceStatus hj fun i hi' => ?_
      obtain rfl := Option.some.inj (hi.symm.trans hi')
      exact opens_refreshed inv (by simpa using hd) _

theorem Settles.refreshCredit {j : ℕ} (h : Settles db db₁ touched) (hj : j ∉ touched) :
    Settles db (refreshPaidStatus db₁ j) (j :: touched) := by
  unfold refreshPaidStatus
  rw [h.rows j hj]
  cases hi : db.invoices.find? j with
  | none => exact h.keep hj fun i hi' => by simp [hi] at hi'
  | some inv =>
    dsimp only
    split_ifs with hd hc
    · refine h.keep hj fun i hi' => ?_
      obtain rfl := Option.some.inj (hi.symm.trans hi')
      simp [shown, Invoice.opens, Invoice.counts, hd]
    · refine h.setInvoiceStatus hj fun i hi' => ?_
      obtain rfl := Option.some.inj (hi.symm.trans hi')
      have hle : inv.total - db₁.coveredOf j ≤ 0 := by omega
      rw [shown_of_nonpos hle, shown_of_nonpos hle]
    · refine h.setInvoiceStatus hj fun i hi' => ?_
      obtain rfl := Option.some.inj (hi.symm.trans hi')
      unfold shown Invoice.opens Invoice.counts
      cases inv.status <;> simp [InvoiceStatus.payable, InvoiceStatus.creditable]

theorem Settles.refreshCreditAll (h : Settles db db₁ touched) (ids : List ℕ)
    (hnd : (touched ++ ids).Nodup) :
    ∃ all, (∀ j, j ∈ all ↔ j ∈ touched ∨ j ∈ ids) ∧
      Settles db (ids.foldl refreshPaidStatus db₁) all := by
  induction ids generalizing db₁ touched with
  | nil => exact ⟨touched, by simp, h⟩
  | cons id ids ih =>
    have hid : id ∉ touched := fun hmem =>
      (List.nodup_append.1 hnd).2.2 id hmem id List.mem_cons_self rfl
    have hnd' : (id :: touched ++ ids).Nodup :=
      (List.perm_middle.nodup_iff).1 hnd
    obtain ⟨all, hall, hs⟩ := ih (h.refreshCredit hid) hnd'
    refine ⟨all, fun j => (hall j).trans ?_, hs⟩
    simp only [List.mem_cons]
    tauto

theorem Settles.finalize {invoice : Invoice} (h : Settles db db₁ touched)
    (hj : invoice.id ∉ touched) (hinv : db.invoices.find? invoice.id = some invoice)
    (hopen : invoice.opens = true)
    (hpaid : (finalizeIfFullyPaid db₁ invoice).2 = true →
      invoice.total ≤ db₁.coveredOf invoice.id) :
    Settles db (finalizeIfFullyPaid db₁ invoice).1 (invoice.id :: touched) := by
  unfold finalizeIfFullyPaid at hpaid ⊢
  dsimp only at hpaid ⊢
  split_ifs at hpaid ⊢ with hlt
  · refine h.keep hj fun i hi => ?_
    obtain rfl := Option.some.inj (hinv.symm.trans hi)
    rw [hopen, Invoice.counts_of_opens hopen]
  · dsimp only
    refine h.setInvoiceStatus hj fun i hi => ?_
    obtain rfl := Option.some.inj (hinv.symm.trans hi)
    have hle : invoice.total - db₁.coveredOf invoice.id ≤ 0 := by
      have := hpaid rfl
      omega
    rw [shown_of_nonpos hle, shown_of_nonpos hle]

/-! ### The condition on the rows -/

theorem through_eq_zero {side : Transfer → ℕ} {ts : List Transfer} {id : ℕ}
    (h : ∀ t ∈ ts, side t ≠ id) : through side ts id = 0 := by
  rw [through, List.map_congr_left fun t ht => if_neg (h t ht)]
  simp

theorem Transfers.congr (h : Transfers db db₁ pays credits) (hs : SameBooks db₁ db') :
    Transfers db db' pays credits where
  covered i := by rw [hs.coveredOf, h.covered]
  allocated p := by rw [hs.allocatedOf, h.allocated]
  applied n := by
    rw [← h.applied, Db.appliedOf, hs.applications]
    rfl

theorem spends_zero (db : Db) (p : ℕ) : db.Spends p 0 := by
  unfold Db.Spends
  cases db.payments.find? p <;> simp [Bears, Db.unallocated]

theorem credits_zero (db : Db) (n : ℕ) : db.Credits n 0 := by
  unfold Db.Credits
  cases db.creditNotes.find? n <;> simp [Bears, Db.standing]

/-- **Money moves between the terms exactly when each row bears what goes through it.** -/
theorem movesOnly_iff (hs : Settles db db' touched) (ht : Transfers db db' pays credits)
    (hpays : ∀ t ∈ pays, t.sink ∈ touched) (hcredits : ∀ t ∈ credits, t.sink ∈ touched) :
    MovesOnly db db' ↔
      (∀ j ∈ touched,
        db.Accepts j (through Transfer.sink pays j + through Transfer.sink credits j)) ∧
      (∀ p, db.Spends p (through Transfer.source pays p)) ∧
      ∀ n, db.Credits n (through Transfer.source credits n) := by
  have hinvoice : ∀ j, db'.owedOn j = db.owedOn j - (db'.coveredOf j - db.coveredOf j) ↔
      (j ∈ touched → db.Accepts j (through Transfer.sink pays j +
        through Transfer.sink credits j)) := by
    intro j
    have hcov := ht.covered j
    by_cases hj : j ∈ touched
    · rw [hs.derived j hj, Db.owedOn, Db.Accepts]
      cases hi : db.invoices.find? j with
      | none =>
        simp only [Option.elim_none, hj, true_imp_iff]
        omega
      | some i =>
        have hid : i.id = j := (Table.find?_eq_some.1 hi).2
        simp only [Option.elim_some, hj, true_imp_iff, Bears, Db.due, hid, hcov, sub_add_eq_sub_sub,
          add_sub_cancel_left]
    · have hzero : db'.coveredOf j = db.coveredOf j := by
        rw [hcov, through_eq_zero fun t hm (he : t.sink = j) => hj (he ▸ hpays t hm),
          through_eq_zero fun t hm (he : t.sink = j) => hj (he ▸ hcredits t hm)]
        omega
      rw [owedOn_congr (hs.rows j hj) hzero, hzero]
      simp [hj]
  have hpayment : ∀ p, db'.unallocatedOf p =
      db.unallocatedOf p - (db'.allocatedOf p - db.allocatedOf p) ↔
      db.Spends p (through Transfer.source pays p) := by
    intro p
    rw [Db.unallocatedOf, Db.unallocatedOf, hs.accounts.payments, Db.Spends]
    have hall := ht.allocated p
    cases hp : db.payments.find? p with
    | none =>
      simp only [Option.elim_none]
      omega
    | some payment =>
      have hid : payment.id = p := (Table.find?_eq_some.1 hp).2
      simp only [Option.elim_some, Bears, Db.unallocated, hid, hall, sub_add_eq_sub_sub,
        add_sub_cancel_left]
  have hnote : ∀ n, db'.standingOf n = db.standingOf n - (db'.appliedOf n - db.appliedOf n) ↔
      db.Credits n (through Transfer.source credits n) := by
    intro n
    rw [hs.notes, Db.standingOf, Db.Credits]
    have happ := ht.applied n
    cases hn : db.creditNotes.find? n with
    | none =>
      simp only [Option.elim_none]
      omega
    | some note =>
      have hid : note.id = n := (Table.find?_eq_some.1 hn).2
      simp only [Option.elim_some, Bears, Db.standing, hid, happ, sub_add_eq_sub_sub,
        add_sub_cancel_left]
  constructor
  · intro hm
    exact ⟨fun j => (hinvoice j).1 (hm.invoices j), fun p => (hpayment p).1 (hm.payments p),
      fun n => (hnote n).1 (hm.notes n)⟩
  · rintro ⟨hi, hp, hn⟩
    exact ⟨fun j => (hinvoice j).2 (hi j), fun p => (hpayment p).2 (hp p),
      fun n => (hnote n).2 (hn n)⟩

end Settling

end Vigabss.Billing
