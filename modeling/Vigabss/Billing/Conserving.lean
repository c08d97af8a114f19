import Vigabss.Billing.Applying

/-!
# Vigabss.Billing.Conserving — which applications of money conserve the balance

The five requests that apply a client's money, and for each of them the exact condition under
which the client's balance stays: what arrives at an invoice is no more than it owes, and what
leaves one leaves an invoice that shows what it owes.
-/

namespace Vigabss.Billing

open Vigabss.Lib

/-! ### What the database holds to -/

/-- What the triggers, the column types and the unique keys see to in every state, and that no
invoice is covered by less than nothing. -/
structure Stored (db : Db) : Prop where
  paymentTotals : ∀ p, ∀ t ∈ db.paymentTotal p, db.allocatedOf p ≤ t
  invoiceTotals : ∀ i, ∀ t ∈ db.invoiceTotal i, t ≤ 9999999999
  allocated : ∀ i, 0 ≤ db.allocatedTo i
  credited : ∀ i, 0 ≤ db.creditAppliedTo i
  oneApplication : ∀ n, ∀ a ∈ db.applications.rows, ofNote n a = true →
    ∀ b ∈ db.applications.rows, ofNote n b = true → a = b

/-- Cents below a total stay below it as binary numbers. -/
theorem number_add_lt {a c t : ℤ} (ha : 0 ≤ a) (hc : 0 ≤ c) (hlt : a + c < t)
    (ht : t ≤ 9999999999) :
    fl (number a + number c) < number t := by
  have hclose : ∀ x : ℤ, 0 ≤ x → x ≤ 9999999999 → |number x - (x : ℚ) / 100| ≤ 1 / 2 ^ 27 := by
    intro x h0 h1
    have hx0 : (0 : ℚ) ≤ (x : ℚ) / 100 := by positivity
    have hx1 : (x : ℚ) ≤ 9999999999 := by exact_mod_cast h1
    have habs : |(x : ℚ) / 100| < 2 ^ (27 : ℤ) := by
      rw [abs_of_nonneg hx0]
      norm_num
      linarith
    exact (abs_fl_sub_le (by norm_num) habs).trans (by norm_num)
  have hna := abs_le.1 (hclose a ha (by omega))
  have hnc := abs_le.1 (hclose c hc (by omega))
  have hnt := abs_le.1 (hclose t (by omega) ht)
  have hsum : |number a + number c| < 2 ^ (28 : ℤ) := by
    have ha1 : (a : ℚ) ≤ 9999999999 := by exact_mod_cast (by omega : a ≤ 9999999999)
    have hc1 : (c : ℚ) ≤ 9999999999 := by exact_mod_cast (by omega : c ≤ 9999999999)
    have ha0 : (0 : ℚ) ≤ a := by exact_mod_cast ha
    have hc0 : (0 : ℚ) ≤ c := by exact_mod_cast hc
    rw [abs_lt]
    constructor <;> norm_num at hna hnc ⊢ <;> linarith [hna.1, hna.2, hnc.1, hnc.2]
  have hfl := abs_le.1 (abs_fl_sub_le (by norm_num) hsum)
  have hgap : (a : ℚ) + c + 1 ≤ t := by exact_mod_cast hlt
  norm_num at hna hnc hnt hfl
  linarith [hna.2, hnc.2, hnt.1, hfl.2]

theorem covered_of_finalize {db : Db} {invoice : Invoice} (ha : 0 ≤ db.allocatedTo invoice.id)
    (hc : 0 ≤ db.creditAppliedTo invoice.id) (ht : invoice.total ≤ 9999999999)
    (h : (finalizeIfFullyPaid db invoice).2 = true) : invoice.total ≤ db.coveredOf invoice.id := by
  by_contra hlt
  have hless : fl (number (db.allocatedTo invoice.id) + number (db.creditAppliedTo invoice.id)) <
      number invoice.total := by
    refine number_add_lt ha hc ?_ ht
    rw [Db.coveredOf] at hlt
    omega
  simp [finalizeIfFullyPaid, hless] at h

/-! ### The sums after a statement -/

section Sums

variable {db db' : Db}

theorem transfers_insert {paymentId invoiceId : ℕ} {amount : ℤ} {id : ℕ}
    (hins : db.insertAllocation paymentId invoiceId amount = .ok (db', id)) :
    Transfers db db' [⟨paymentId, invoiceId, amount⟩] [] where
  covered i := by simp [coveredOf_insert hins]
  allocated p := by simp [allocatedOf_insert hins]
  applied n := by
    obtain ⟨-, -, rfl⟩ := Db.insertAllocation_ok hins
    simp [Db.appliedOf]

theorem transfers_mark {row : PaymentAllocation} (hrow : row ∈ db.allocations.rows)
    (hlive : row.deleted = false) :
    Transfers db (db.mark true row) [⟨row.paymentId, row.invoiceId, -row.amount⟩] [] where
  covered i := by
    have hsum : (db.mark true row).allocatedTo i = _ := Db.sum_mark true hrow (toInvoice i)
      PaymentAllocation.amount
    have hcredit : (db.mark true row).creditAppliedTo i = db.creditAppliedTo i := rfl
    rw [Db.coveredOf, hsum, hcredit, Db.coveredOf, Db.allocatedTo]
    simp only [Table.share, toInvoice, hlive, through_cons, through_nil]
    by_cases hi : row.invoiceId = i <;> simp [hi]
    ring
  allocated p := by
    have hsum : (db.mark true row).allocatedOf p = _ := Db.sum_mark true hrow (ofPayment p)
      PaymentAllocation.amount
    rw [hsum, Db.allocatedOf]
    simp only [Table.share, ofPayment, hlive, through_cons, through_nil]
    by_cases hp : row.paymentId = p <;> simp [hp]
    ring
  applied n := by simp [Db.appliedOf, Db.mark]

theorem Transfers.append {db'' : Db} {pays credits pays' credits' : List Transfer}
    (h : Transfers db db' pays credits) (h' : Transfers db' db'' pays' credits') :
    Transfers db db'' (pays ++ pays') (credits ++ credits') where
  covered i := by
    rw [h'.covered, h.covered]
    simp [through]
    ring
  allocated p := by
    rw [h'.allocated, h.allocated]
    simp [through]
    ring
  applied n := by
    rw [h'.applied, h.applied]
    simp [through]
    ring

/-- The transfer that undoes a note's application. -/
def takenBack (noteId : ℕ) (current : Option CreditNoteApplication) : List Transfer :=
  (current.map fun c => (⟨noteId, c.invoiceId, -c.amount⟩ : Transfer)).toList

theorem transfers_released {noteId : ℕ} {current : Option CreditNoteApplication}
    (hcur : current = db.applications.rows.find? (ofNote noteId)) :
    Transfers db (released db current) [] (takenBack noteId current) where
  covered i := by
    rw [coveredOf_released hcur]
    cases current with
    | none => simp [ownCredit, takenBack]
    | some c =>
      simp only [ownCredit, takenBack, Option.map_some, Option.toList_some, through_cons,
        through_nil]
      split_ifs <;> ring
  allocated p := by cases current <;> simp [released, Db.allocatedOf, Db.releaseApplication]
  applied n := by
    cases current with
    | none => simp [released, takenBack]
    | some c =>
      have hmem := List.mem_of_find?_eq_some hcur.symm
      have hlive := List.find?_some hcur.symm
      simp only [ofNote, decide_eq_true_eq] at hlive
      have hsum : (released db (some c)).appliedOf n = _ :=
        Table.sum_modify (ofNote n) CreditNoteApplication.amount (Table.find?_key hmem)
          (fun a => { a with deleted := true }) fun _ => rfl
      rw [hsum, Db.appliedOf]
      simp only [Table.share, ofNote, hlive.1, hlive.2, takenBack, Option.map_some,
        Option.toList_some, through_cons, through_nil]
      by_cases hn : noteId = n <;> simp [hn]
      ring

theorem transfers_insertApplication {noteId invoiceId : ℕ} {amount : ℤ}
    (hins : db.insertApplication noteId invoiceId amount = .ok db') :
    Transfers db db' [] [⟨noteId, invoiceId, amount⟩] := by
  unfold Db.insertApplication at hins
  split_ifs at hins
  cases hins
  refine ⟨fun i => ?_, fun p => by simp [Db.allocatedOf], fun n => ?_⟩
  · rw [Db.coveredOf, Db.creditAppliedTo, Table.sum_insert]
    simp only [Table.share, creditTo, through_cons, through_nil, Db.coveredOf, Db.creditAppliedTo,
      Db.allocatedTo]
    by_cases hi : invoiceId = i <;> simp [hi]
    ring
  · rw [Db.appliedOf, Table.sum_insert]
    simp [Table.share, ofNote, Db.appliedOf]

end Sums

/-! ### The requests -/

/-- The requests that apply a client's money. -/
inductive MoneyMove where
  | allocate (orgId paymentId invoiceId : ℕ) (amount : ℚ)
  | allocateAuto (orgId paymentId : ℕ) (invoiceIds : Option (List ℕ))
  | unapply (orgId paymentId invoiceId : ℕ) (bindingRep : Option String)
  | reallocate (orgId paymentId fromInvoiceId toInvoiceId : ℕ) (amount : Option ℚ)
      (bindingRep : Option String)
  | syncApplication (note : CreditNote) (orgId : ℕ) (release : Bool)

def MoneyMove.run (db : Db) : MoneyMove → Except Failure Db
  | .allocate orgId paymentId invoiceId amount =>
    Billing.allocate db orgId paymentId invoiceId amount
  | .allocateAuto orgId paymentId invoiceIds => Billing.allocateAuto db orgId paymentId invoiceIds
  | .unapply orgId paymentId invoiceId bindingRep =>
    Billing.unapply db orgId paymentId invoiceId bindingRep
  | .reallocate orgId paymentId fromInvoiceId toInvoiceId amount bindingRep =>
    Billing.reallocate db orgId paymentId fromInvoiceId toInvoiceId amount bindingRep
  | .syncApplication note orgId release => Billing.syncApplication db note orgId release

/-- The transfer that applies a note for `target`, when that is a cent or more. -/
def placed (noteId : ℕ) (target : ℤ) (invoiceId : Option ℕ) : List Transfer :=
  match invoiceId with
  | some id => if 1 ≤ target then [⟨noteId, id, target⟩] else []
  | none => []

/-- What a sync moves: the note's application, taken back, and the one it calls for. -/
def applicationMoves (db : Db) (note : CreditNote) (orgId : ℕ) (release : Bool) : List Transfer :=
  let current := db.applications.rows.find? (ofNote note.id)
  let target := applicationTarget db note orgId release current
  takenBack note.id current ++ placed note.id target.1 target.2

/-- The invoices a sync concerns. -/
def appliedInvoices (db : Db) (note : CreditNote) (orgId : ℕ) (release : Bool) : List ℕ :=
  let current := db.applications.rows.find? (ofNote note.id)
  concerned current (applicationTarget db note orgId release current).2

/-- The note's application is already what the note calls for. -/
def applicationStands (db : Db) (note : CreditNote) (orgId : ℕ) (release : Bool) : Bool :=
  let current := db.applications.rows.find? (ofNote note.id)
  let target := applicationTarget db note orgId release current
  applicationUnchanged current target.1 target.2

/-- The money is the client's own: what is applied and what it is applied to are of one client and
in one currency. -/
def OwnMoney (noteCurrency : ℕ → String) (db : Db) : MoneyMove → Prop
  | .allocate _ paymentId invoiceId _ => SameAccount db paymentId invoiceId
  | .allocateAuto orgId paymentId invoiceIds => ∀ payment ∈ db.payments.find? paymentId,
      ∀ x ∈ getInvoicesWithBalance db orgId payment.clientId invoiceIds,
        sameCurrency payment.currency x.invoice.currency = true →
          payment.currency = x.invoice.currency
  | .unapply _ paymentId invoiceId _ => SameAccount db paymentId invoiceId
  | .reallocate _ paymentId fromInvoiceId toInvoiceId _ _ =>
      SameAccount db paymentId fromInvoiceId ∧ SameAccount db paymentId toInvoiceId
  | .syncApplication note orgId release => db.creditNotes.find? note.id = some note ∧
      ∀ j ∈ appliedInvoices db note orgId release, CreditsAccount noteCurrency db note.id j

/-- **The condition.**  An allocation, made or moved, is no more than its invoice owes.  One that is
taken back leaves an invoice that shows what it owes, and a payment that counts.  A sync concerns
invoices that can take its part, and a note with that much credit. -/
def Fits (db : Db) : MoneyMove → Prop
  | .allocate _ _ invoiceId amount => db.Accepts invoiceId (toDecimal amount)
  | .allocateAuto _ _ _ => True
  | .unapply _ paymentId invoiceId _ => ∀ row ∈ liveAllocation db paymentId invoiceId,
      db.Accepts invoiceId (-row.amount) ∧ db.Spends paymentId (-row.amount)
  | .reallocate _ paymentId fromInvoiceId toInvoiceId amount _ =>
      ∀ row ∈ liveAllocation db paymentId fromInvoiceId,
        db.Accepts fromInvoiceId (-row.amount) ∧ db.Accepts toInvoiceId (moved amount row)
  | .syncApplication note orgId release =>
      applicationStands db note orgId release = false →
        (∀ j ∈ appliedInvoices db note orgId release,
          db.Accepts j (through Transfer.sink (applicationMoves db note orgId release) j)) ∧
        db.Credits note.id
          (through Transfer.source (applicationMoves db note orgId release) note.id)

section Requests

variable {noteCurrency : ℕ → String} {db db' : Db} {touched : List ℕ} {pays credits : List Transfer}

theorem allocate_settled {orgId paymentId invoiceId : ℕ} {amount : ℚ} {payment : Payment}
    (h : allocate db orgId paymentId invoiceId amount = .ok db')
    (hpay : findPayment db paymentId orgId = some payment) : payment.status = .completed := by
  unfold allocate at h
  obtain ⟨-, h⟩ := check_ok h
  obtain ⟨p, hp, h⟩ := except_bind_ok.1 h
  obtain rfl := Option.some.inj (hpay.symm.trans (requirePayment_ok.1 hp))
  obtain ⟨u, hset, -⟩ := except_bind_ok.1 h
  exact requireSettled_ok.1 hset

theorem allocateAuto_settled {orgId paymentId : ℕ} {invoiceIds : Option (List ℕ)}
    {payment : Payment}
    (h : allocateAuto db orgId paymentId invoiceIds = .ok db')
    (hpay : findPayment db paymentId orgId = some payment) : payment.status = .completed := by
  unfold allocateAuto at h
  obtain ⟨-, h⟩ := check_ok h
  obtain ⟨p, hp, h⟩ := except_bind_ok.1 h
  obtain rfl := Option.some.inj (hpay.symm.trans (requirePayment_ok.1 hp))
  obtain ⟨u, hset, -⟩ := except_bind_ok.1 h
  exact requireSettled_ok.1 hset

theorem reallocate_settled {orgId paymentId fromInvoiceId toInvoiceId : ℕ} {amount : Option ℚ}
    {bindingRep : Option String} {payment : Payment}
    (h : reallocate db orgId paymentId fromInvoiceId toInvoiceId amount bindingRep = .ok db')
    (hpay : findPayment db paymentId orgId = some payment) : payment.status = .completed := by
  unfold reallocate at h
  obtain ⟨-, h⟩ := check_ok h
  obtain ⟨-, h⟩ := check_ok h
  obtain ⟨p, hp, h⟩ := except_bind_ok.1 h
  obtain rfl := Option.some.inj (hpay.symm.trans (requirePayment_ok.1 hp))
  obtain ⟨u, hset, -⟩ := except_bind_ok.1 h
  exact requireSettled_ok.1 hset

/-- **The balance is conserved exactly when each row bears what goes through it**, for money that
stays with one client. -/
theorem conserves_iff (hs : Settles db db' touched) (ht : Transfers db db' pays credits)
    (hpays : ∀ t ∈ pays, t.sink ∈ touched ∧ SameAccount db t.source t.sink)
    (hcredits : ∀ t ∈ credits, t.sink ∈ touched ∧ CreditsAccount noteCurrency db t.source t.sink) :
    Conserves noteCurrency db db' ↔
      (∀ j ∈ touched,
        db.Accepts j (through Transfer.sink pays j + through Transfer.sink credits j)) ∧
      (∀ p, db.Spends p (through Transfer.source pays p)) ∧
      ∀ n, db.Credits n (through Transfer.source credits n) := by
  rw [← movesOnly_iff hs ht (fun t hm => (hpays t hm).1) fun t hm => (hcredits t hm).1]
  exact ⟨fun h => h.toMovesOnly, fun h => conserves_of_moves hs.accounts h ht
    (fun t hm => (hpays t hm).2) fun t hm => (hcredits t hm).2⟩

theorem spends_of_room {paymentId : ℕ} {payment : Payment} {amount : ℤ}
    (hp : db.payments.find? paymentId = some payment) (hc : payment.counts = true)
    (h0 : db.allocatedOf paymentId ≤ payment.amount)
    (h1 : db.allocatedOf paymentId + amount ≤ payment.amount) : db.Spends paymentId amount := by
  have hid : payment.id = paymentId := (Table.find?_eq_some.1 hp).2
  rw [Db.Spends, hp]
  simp only [Option.elim_some, Bears, Db.unallocated, shown, hc, if_true, hid]
  omega

theorem Stored.insertAllocation {paymentId invoiceId : ℕ} {amount : ℤ} {id : ℕ} (h : Stored db)
    (hpos : 0 ≤ amount) (hins : db.insertAllocation paymentId invoiceId amount = .ok (db', id)) :
    Stored db' := by
  have hsums := transfers_insert hins
  obtain ⟨hroom, -, rfl⟩ := Db.insertAllocation_ok hins
  refine ⟨fun p t ht => ?_, h.invoiceTotals, fun i => ?_, h.credited, h.oneApplication⟩
  · have hbefore := h.paymentTotals p t ht
    rw [hsums.allocated]
    by_cases hp : paymentId = p
    · subst hp
      have := hroom t ht
      simpa using this
    · simpa [hp] using hbefore
  · have hbefore := h.allocated i
    rw [Db.allocatedTo, Table.sum_insert]
    refine add_nonneg hbefore (Table.share_nonneg _ _ hpos)

/-- **One allocation** to an open invoice conserves the balance exactly when the invoice owes that
much. -/
theorem conserves_finalized_iff (noteCurrency : ℕ → String) {payment : Payment} {invoice : Invoice}
    {amount : ℤ} {id : ℕ} {db₁ : Db} (h : Stored db) (hpos : 0 ≤ amount)
    (hpay : db.payments.find? payment.id = some payment)
    (hinv : db.invoices.find? invoice.id = some invoice) (hc : payment.counts = true)
    (hopen : invoice.opens = true) (hown : SameAccount db payment.id invoice.id)
    (hins : db.insertAllocation payment.id invoice.id amount = .ok (db₁, id)) :
    Conserves noteCurrency db (finalizeIfFullyPaid db₁ invoice).1 ↔
      db.Accepts invoice.id amount := by
  have hstored := h.insertAllocation hpos hins
  obtain ⟨hroom, -, hdb₁⟩ := Db.insertAllocation_ok hins
  have htotal : invoice.total ≤ 9999999999 :=
    h.invoiceTotals invoice.id _ (by simp [Db.invoiceTotal, hinv])
  have hpaid : payment.amount ∈ db.paymentTotal payment.id := by simp [Db.paymentTotal, hpay]
  have hsettles : Settles db (finalizeIfFullyPaid db₁ invoice).1 [invoice.id] :=
    (settles_of_statements (by rw [hdb₁]) (by rw [hdb₁]) (by rw [hdb₁])).finalize
      List.not_mem_nil hinv hopen
      (covered_of_finalize (hstored.allocated _) (hstored.credited _) htotal)
  have htransfers := (transfers_insert hins).congr (SameBooks.finalize db₁ invoice)
  rw [conserves_iff hsettles htransfers (by simpa using hown) (by simp)]
  simp only [List.mem_singleton, forall_eq, through_cons, through_nil, if_true, add_zero]
  refine and_iff_left ⟨fun p => ?_, fun n => credits_zero db n⟩
  by_cases hp : payment.id = p
  · subst hp
    rw [if_pos rfl]
    exact spends_of_room hpay hc (h.paymentTotals _ _ hpaid) (hroom _ hpaid)
  · rw [if_neg hp]
    exact spends_zero db p

theorem opens_of_payable {invoice : Invoice} {orgId : ℕ}
    (h : findInvoice db invoice.id orgId = some invoice) (hp : invoice.status.payable = true) :
    invoice.opens = true := by
  simp [Invoice.opens, (findInvoice_some.1 h).2.2, hp]

theorem conserves_allocate_iff {orgId paymentId invoiceId : ℕ} {amount : ℚ} (h : Stored db)
    (hown : SameAccount db paymentId invoiceId)
    (hok : allocate db orgId paymentId invoiceId amount = .ok db') :
    Conserves noteCurrency db db' ↔ db.Accepts invoiceId (toDecimal amount) := by
  obtain ⟨hpos, payment, invoice, db₁, id, hpay, hinv, href, -, hins, rfl⟩ := allocate_ok hok
  obtain ⟨hpayment, -, hlive⟩ := findPayment_some.1 hpay
  obtain rfl : payment.id = paymentId := (Table.find?_eq_some.1 hpayment).2
  obtain rfl : invoice.id = invoiceId := (Table.find?_eq_some.1 (findInvoice_some.1 hinv).1).2
  have hcounts : payment.counts = true := by
    simp [Payment.counts, hlive, isPaymentSettled, allocate_settled hok hpay]
  exact conserves_finalized_iff noteCurrency h (toDecimal_nonneg hpos) hpayment
    (findInvoice_some.1 hinv).1 hcounts
    (opens_of_payable hinv (payable_of_not_refused href)) hown hins

theorem conserves_unapply_iff {orgId paymentId invoiceId : ℕ} {bindingRep : Option String}
    (hown : SameAccount db paymentId invoiceId)
    (hok : unapply db orgId paymentId invoiceId bindingRep = .ok db') :
    Conserves noteCurrency db db' ↔ ∀ row ∈ liveAllocation db paymentId invoiceId,
      db.Accepts invoiceId (-row.amount) ∧ db.Spends paymentId (-row.amount) := by
  obtain ⟨row, hrow, -, rfl⟩ := unapply_ok hok
  obtain ⟨hmem, rfl, rfl, hlive⟩ := liveAllocation_some hrow
  have hstatements : Settles db (db.mark true row) [] := settles_of_statements rfl rfl rfl
  have hsettles := hstatements.refresh (j := row.invoiceId) List.not_mem_nil
  have htransfers := (transfers_mark hmem hlive).congr (SameBooks.refresh _ row.invoiceId)
  rw [conserves_iff hsettles htransfers (by simpa using hown) (by simp), hrow]
  simp only [List.mem_singleton, forall_eq, through_cons, through_nil, if_true, add_zero,
    Option.mem_some_iff, forall_eq']
  refine and_congr_right fun _ => ⟨fun hp => by simpa using hp.1 row.paymentId, fun hp => ?_⟩
  refine ⟨fun p => ?_, fun n => credits_zero db n⟩
  by_cases hid : row.paymentId = p
  · subst hid
    rwa [if_pos rfl]
  · rw [if_neg hid]
    exact spends_zero db p

theorem conserves_reallocate_iff {orgId paymentId fromInvoiceId toInvoiceId : ℕ} {amount : Option ℚ}
    {bindingRep : Option String} (h : Stored db) (hfrom : SameAccount db paymentId fromInvoiceId)
    (hto : SameAccount db paymentId toInvoiceId)
    (hok : reallocate db orgId paymentId fromInvoiceId toInvoiceId amount bindingRep = .ok db') :
    Conserves noteCurrency db db' ↔ ∀ row ∈ liveAllocation db paymentId fromInvoiceId,
      db.Accepts fromInvoiceId (-row.amount) ∧ db.Accepts toInvoiceId (moved amount row) := by
  obtain ⟨hne, payment, row, toInv, db₁, id, hpay, hrow, htoInv, -, -, hins, rfl⟩ :=
    reallocate_ok hok
  obtain ⟨hpayment, -, hpayLive⟩ := findPayment_some.1 hpay
  obtain rfl : payment.id = paymentId := (Table.find?_eq_some.1 hpayment).2
  obtain rfl : toInv.id = toInvoiceId := (Table.find?_eq_some.1 (findInvoice_some.1 htoInv).1).2
  obtain ⟨hmem, hpid, rfl, hlive⟩ := liveAllocation_some hrow
  have hcounts : payment.counts = true := by
    simp [Payment.counts, hpayLive, isPaymentSettled, reallocate_settled hok hpay]
  have hpaid : payment.amount ∈ db.paymentTotal payment.id := by simp [Db.paymentTotal, hpayment]
  have htaken := transfers_mark hmem hlive
  have htransfers := (((htaken.append (transfers_insert hins)).congr
    (SameBooks.refresh _ row.invoiceId)).congr (SameBooks.refresh _ toInv.id))
  obtain ⟨hroom, -, hdb₁⟩ := Db.insertAllocation_ok hins
  have hstatements : Settles db db₁ [] :=
    settles_of_statements (by rw [hdb₁]; rfl) (by rw [hdb₁]; rfl) (by rw [hdb₁]; rfl)
  have hsettles := (hstatements.refresh (j := row.invoiceId)
    List.not_mem_nil).refresh (j := toInv.id)
    (by simpa using Ne.symm hne)
  rw [conserves_iff hsettles htransfers (by simpa [hpid] using ⟨hfrom, hto⟩) (by simp), hrow]
  simp only [List.singleton_append, List.append_nil, List.mem_cons, List.not_mem_nil, or_false,
    forall_eq_or_imp, forall_eq, through_cons, through_nil, if_true, add_zero, hpid, if_neg hne,
    if_neg (Ne.symm hne), zero_add, Option.mem_some_iff, forall_eq']
  constructor
  · rintro ⟨⟨hgets, hgives⟩, -⟩
    exact ⟨hgives, hgets⟩
  · rintro ⟨hgives, hgets⟩
    refine ⟨⟨hgets, hgives⟩, fun p => ?_, fun n => credits_zero db n⟩
    by_cases hid : payment.id = p
    · -- the insert trigger has bounded what is left on the payment
      subst hid
      have hbound := hroom _
        (show payment.amount ∈ (db.mark true row).paymentTotal payment.id from hpaid)
      rw [htaken.allocated] at hbound
      simp only [through_cons, through_nil, hpid, if_true, add_zero] at hbound ⊢
      exact spends_of_room hpayment hcounts (h.paymentTotals _ _ hpaid) (by omega)
    · rw [if_neg hid, if_neg hid, add_zero]
      exact spends_zero db p

/-! ### Credit notes -/

theorem Settles.setNoteStatus {db₁ : Db} {noteId : ℕ} {f : CreditNoteStatus → CreditNoteStatus}
    (h : Settles db db₁ touched) (hn : db₁.creditNotes = db.creditNotes)
    (hf : ∀ st, (f st).posted = st.posted) : Settles db (db₁.setNoteStatus noteId f) touched := by
  refine ⟨h.accounts.trans (.setNoteStatus db₁ noteId f), h.rows, h.derived, fun n => ?_⟩
  rw [Db.standingOf, Db.setNoteStatus]
  simp only [Table.find?_modify, hn]
  by_cases hid : n = noteId
  · rw [if_pos hid, hid]
    cases hrow : db.creditNotes.find? noteId with
    | none => rfl
    | some row => simp only [Option.map_some, Option.elim_some, Db.standing, CreditNote.counts, hf]
  · rw [if_neg hid]
    rfl

theorem Settles.setNoteUsed {db₁ : Db} {note : CreditNote} {release : Bool} {target : ℤ}
    (h : Settles db db₁ touched) (hn : db₁.creditNotes = db.creditNotes) :
    Settles db (setNoteUsed db₁ note release target) touched := by
  have hnext : ∀ next : CreditNoteStatus, next.posted = true → ∀ st : CreditNoteStatus,
      (if st.posted = true then next else st).posted = st.posted := by
    intro next hpost st
    split_ifs with hst
    · rw [hpost, hst]
    · rfl
  unfold Billing.setNoteUsed
  dsimp only
  split_ifs
  · exact h.setNoteStatus hn (hnext .applied rfl)
  · exact h
  · exact h.setNoteStatus hn (hnext .issued rfl)
  · exact h
  · exact h

theorem refreshCreditAll_notes (db : Db) (ids : List ℕ) :
    (ids.foldl refreshPaidStatus db).creditNotes = db.creditNotes := by
  induction ids generalizing db with
  | nil => rfl
  | cons id ids ih =>
    rw [List.foldl_cons, ih, refreshPaidStatus]
    split
    · rfl
    · split_ifs <;> rfl

theorem transfers_replaceApplication {noteId : ℕ} {current : Option CreditNoteApplication}
    {target : ℤ} {invoiceId : Option ℕ}
    (hcur : current = db.applications.rows.find? (ofNote noteId))
    (hok : replaceApplication db noteId current target invoiceId = .ok db') :
    Transfers db db' [] (takenBack noteId current ++ placed noteId target invoiceId) := by
  obtain ⟨db₁, hdb₁, rfl⟩ := replaceApplication_ok hok
  refine Transfers.congr ?_ (SameBooks.refreshCreditAll db₁ _)
  have hback := transfers_released hcur
  rcases hdb₁ with ⟨rfl, hless⟩ | ⟨id, rfl, htarget, hins⟩
  · have hnone : placed noteId target invoiceId = [] := by
      cases invoiceId with
      | none => rfl
      | some id => exact if_neg (by have := hless rfl; omega)
    rwa [hnone, List.append_nil]
  · rw [placed]
    simp only [if_pos htarget]
    exact hback.append (transfers_insertApplication hins)

theorem settles_replaceApplication {noteId : ℕ} {current : Option CreditNoteApplication}
    {target : ℤ} {invoiceId : Option ℕ}
    (hok : replaceApplication db noteId current target invoiceId = .ok db') :
    db'.creditNotes = db.creditNotes ∧
      ∃ all, (∀ j, j ∈ all ↔ j ∈ concerned current invoiceId) ∧ Settles db db' all := by
  obtain ⟨db₁, hdb₁, rfl⟩ := replaceApplication_ok hok
  have hsame : db₁.invoices = db.invoices ∧ db₁.payments = db.payments ∧
      db₁.creditNotes = db.creditNotes := by
    have hrel : (released db current).invoices = db.invoices ∧
        (released db current).payments = db.payments ∧
        (released db current).creditNotes = db.creditNotes := by
      cases current <;> exact ⟨rfl, rfl, rfl⟩
    rcases hdb₁ with ⟨rfl, -⟩ | ⟨id, -, -, hins⟩
    · exact hrel
    · unfold Db.insertApplication at hins
      split_ifs at hins
      cases hins
      exact hrel
  obtain ⟨hi, hp, hn⟩ := hsame
  obtain ⟨all, hall, hs⟩ := (settles_of_statements hi hp hn).refreshCreditAll
    (concerned current invoiceId) (List.nodup_dedup _)
  exact ⟨(refreshCreditAll_notes db₁ _).trans hn, all, fun j => by simpa using hall j, hs⟩

theorem mem_concerned_of_moves {noteId : ℕ} {current : Option CreditNoteApplication} {target : ℤ}
    {invoiceId : Option ℕ} {t : Transfer}
    (h : t ∈ takenBack noteId current ++ placed noteId target invoiceId) :
    t.source = noteId ∧ t.sink ∈ concerned current invoiceId := by
  rw [concerned, List.mem_dedup, List.mem_append]
  rcases List.mem_append.1 h with h | h
  · cases current with
    | none => simp [takenBack] at h
    | some c =>
      obtain rfl : t = ⟨noteId, c.invoiceId, -c.amount⟩ := by simpa [takenBack] using h
      exact ⟨rfl, .inl (by simp)⟩
  · cases invoiceId with
    | none => simp [placed] at h
    | some id =>
      unfold placed at h
      dsimp only at h
      split_ifs at h
      · obtain rfl := List.mem_singleton.1 h
        exact ⟨rfl, .inr (by simp)⟩
      · simp at h

theorem conserves_syncApplication_iff {note : CreditNote} {orgId : ℕ} {release : Bool}
    (hown : ∀ j ∈ appliedInvoices db note orgId release, CreditsAccount noteCurrency db note.id j)
    (hok : syncApplication db note orgId release = .ok db') :
    Conserves noteCurrency db db' ↔ Fits db (.syncApplication note orgId release) := by
  obtain ⟨current, target, invoiceId, db₁, hcur, htarget, rfl, hcase⟩ := syncApplication_cases hok
  have hstands : applicationStands db note orgId release =
      applicationUnchanged current target invoiceId := by
    rw [applicationStands, ← hcur, htarget]
  have happlied : appliedInvoices db note orgId release = concerned current invoiceId := by
    rw [appliedInvoices, ← hcur, htarget]
  have hmoves : applicationMoves db note orgId release =
      takenBack note.id current ++ placed note.id target invoiceId := by
    rw [applicationMoves, ← hcur, htarget]
  rw [Fits, hstands, happlied, hmoves]
  rw [happlied] at hown
  have hbooks : SameBooks db₁ (setNoteUsed db₁ note release target) :=
    SameBooks.of_sameMoney (setNoteUsed_sameTables _ _ _ _).toSameMoney
  rcases hcase with ⟨hsame, rfl⟩ | ⟨hother, hrep⟩
  · refine iff_of_true ?_ fun hne => absurd (hsame.symm.trans hne) (by simp)
    have hstatements : Settles db₁ db₁ [] := settles_of_statements rfl rfl rfl
    have htransfers : Transfers db₁ db₁ [] [] := ⟨by simp, by simp, by simp⟩
    rw [conserves_iff (hstatements.setNoteUsed rfl) (htransfers.congr hbooks) (by simp) (by simp)]
    exact ⟨by simp, spends_zero db₁, credits_zero db₁⟩
  · obtain ⟨hnotes, all, hall, hsettles⟩ := settles_replaceApplication hrep
    have htransfers := (transfers_replaceApplication hcur hrep).congr hbooks
    rw [conserves_iff (hsettles.setNoteUsed hnotes) htransfers (by simp) fun t ht => ?_]
    · simp only [hother, true_imp_iff, hall, through_nil, zero_add]
      refine and_congr_right fun _ => ⟨fun hn => hn.2 note.id,
        fun hn => ⟨spends_zero db, fun n => ?_⟩⟩
      by_cases hid : n = note.id
      · rwa [hid]
      · rw [through_eq_zero fun t ht he => hid (he.symm.trans (mem_concerned_of_moves ht).1)]
        exact credits_zero db n
    · obtain ⟨hsource, hsink⟩ := mem_concerned_of_moves ht
      exact ⟨(hall _).2 hsink, hsource ▸ hown _ hsink⟩

/-! ### Spreading a payment -/

theorem Stored.congr (h : Stored db) (hb : SameBooks db db') : Stored db' where
  paymentTotals p t ht := by
    rw [hb.allocatedOf]
    exact h.paymentTotals p t (hb.paymentTotal p ▸ ht)
  invoiceTotals i t ht := h.invoiceTotals i t (hb.invoiceTotal i ▸ ht)
  allocated i := by
    rw [Db.allocatedTo, hb.allocations]
    exact h.allocated i
  credited i := by
    rw [Db.creditAppliedTo, hb.applications]
    exact h.credited i
  oneApplication n := by
    rw [hb.applications]
    exact h.oneApplication n

/-- The loop has conserved the balance so far, and the open invoices left still owe what they were
listed with. -/
structure Spreading (noteCurrency : ℕ → String) (start : Db) (payment : Payment)
    (rows : List OpenInvoice) (db : Db) : Prop where
  conserves : Conserves noteCurrency start db
  stored : Stored db
  payer : db.payments.find? payment.id = some payment
  distinct : (rows.map fun x => x.invoice.id).Nodup
  listed : ∀ x ∈ rows, db.invoices.find? x.invoice.id = some x.invoice ∧
    x.invoice.opens = true ∧ x.balanceDue = db.due x.invoice ∧
    (sameCurrency payment.currency x.invoice.currency = true →
      payment.currency = x.invoice.currency)

theorem account_of_not_refused {payment : Payment} {invoice : Invoice}
    (h : allocationRefusal payment invoice false = none) :
    payment.organizationId = invoice.organizationId ∧ payment.clientId = invoice.clientId ∧
      sameCurrency payment.currency invoice.currency = true := by
  unfold allocationRefusal at h
  split_ifs at h with h₁ h₂ h₃ h₄
  exact ⟨(not_not.1 h₁).symm, (by simpa using h₃ : invoice.clientId = payment.clientId).symm,
    by simpa using h₄⟩

theorem Spreading.apply {start : Db} {payment : Payment} {x : OpenInvoice} {rest : List OpenInvoice}
    {amount : ℤ} {id : ℕ} {paid : Bool} (hc : payment.counts = true)
    (h : Spreading noteCurrency start payment (x :: rest) db) (hpos : 0 < amount)
    (hle : amount ≤ x.balanceDue)
    (happ : applyAllocation db payment x.invoice amount false true = .ok (db', id, paid)) :
    Spreading noteCurrency start payment rest db' := by
  obtain ⟨href, db₁, hins, hdb'⟩ := applyAllocation_ok happ
  rw [if_pos rfl] at hdb'
  subst hdb'
  obtain ⟨hinv, hopen, hdue, hcur⟩ := h.listed x List.mem_cons_self
  obtain ⟨horg, hclient, hsame⟩ := account_of_not_refused href
  have hown : SameAccount db payment.id x.invoice.id :=
    ⟨payment, x.invoice, h.payer, hinv, horg, hclient, hcur hsame⟩
  have hdistinct := h.distinct
  rw [List.map_cons, List.nodup_cons] at hdistinct
  have haccepts : db.Accepts x.invoice.id amount := by
    rw [Db.Accepts, hinv]
    refine (bears_iff_of_pos Invoice.counts_of_opens hpos).2 ?_
    simp only [shown, hopen, if_true, ← hdue]
    omega
  have hstep := (conserves_finalized_iff noteCurrency h.stored hpos.le h.payer hinv hc hopen hown
    hins).2 haccepts
  obtain ⟨-, -, hdb₁⟩ := Db.insertAllocation_ok hins
  have hbooks := SameBooks.finalize db₁ x.invoice
  have hstored : Stored db := h.stored
  have hothers : ∀ y ∈ rest, x.invoice.id ≠ y.invoice.id := fun y hy he =>
    hdistinct.1 (he ▸ List.mem_map_of_mem (f := fun x : OpenInvoice => x.invoice.id) hy)
  have hpayments : (finalizeIfFullyPaid db₁ x.invoice).1.payments = db.payments := by
    rw [finalizeIfFullyPaid]
    split_ifs <;> rw [hdb₁]
    rfl
  have hrows : ∀ j, x.invoice.id ≠ j →
      (finalizeIfFullyPaid db₁ x.invoice).1.invoices.find? j = db.invoices.find? j := by
    intro j hj
    rw [finalizeIfFullyPaid]
    split_ifs
    · rw [hdb₁]
    · rw [setInvoiceStatus_find, if_neg (Ne.symm hj), hdb₁]
  refine ⟨h.conserves.trans hstep, (hstored.insertAllocation hpos.le hins).congr hbooks,
    hpayments ▸ h.payer, hdistinct.2, fun y hy => ?_⟩
  obtain ⟨hy₁, hy₂, hy₃, hy₄⟩ := h.listed y (List.mem_cons_of_mem _ hy)
  refine ⟨(hrows _ (hothers y hy)).trans hy₁, hy₂, ?_, hy₄⟩
  rw [hy₃, Db.due, Db.due, hbooks.coveredOf, coveredOf_insert hins, if_neg (hothers y hy), add_zero]

theorem listed_opens {orgId clientId : ℕ} {ids : Option (List ℕ)} {x : OpenInvoice}
    (h : x ∈ getInvoicesWithBalance db orgId clientId ids) : x.invoice.opens = true := by
  rw [getInvoicesWithBalance, List.mem_insertionSort] at h
  obtain ⟨i, hi, rfl⟩ := List.mem_map.1 h
  have hcond := (List.mem_filter.1 hi).2
  simp only [decide_eq_true_eq] at hcond
  simp [Invoice.opens, hcond.2.2.1, hcond.2.2.2.1]

theorem conserves_allocateAuto {orgId paymentId : ℕ} {invoiceIds : Option (List ℕ)} (h : Stored db)
    (hown : OwnMoney noteCurrency db (.allocateAuto orgId paymentId invoiceIds))
    (hok : allocateAuto db orgId paymentId invoiceIds = .ok db') :
      Conserves noteCurrency db db' := by
  obtain ⟨payment, remainder, rows, applied, hpay, hrows, happ, rfl⟩ := allocateAuto_ok hok
  obtain ⟨hpayment, -, hlive⟩ := findPayment_some.1 hpay
  obtain rfl : payment.id = paymentId := (Table.find?_eq_some.1 hpayment).2
  have hcounts : payment.counts = true := by
    simp [Payment.counts, hlive, isPaymentSettled, allocateAuto_settled hok hpay]
  have hstart : Spreading noteCurrency db payment rows db := by
    refine ⟨.refl _ db, h, hpayment,
      (hrows.map _).nodup (getInvoicesWithBalance_nodup db orgId payment.clientId invoiceIds),
      fun x hx => ?_⟩
    have hx' := hrows.subset hx
    obtain ⟨hfind, hpayable, hdue⟩ := mem_getInvoicesWithBalance hx'
    exact ⟨hfind, listed_opens hx', hdue, hown payment hpayment x hx'⟩
  refine (allocateAcross_rule (I := Spreading noteCurrency db payment) ?_ ?_ hstart happ).conserves
  · rintro x rest db ⟨hc, hs, hp, hd, hl⟩
    rw [List.map_cons, List.nodup_cons] at hd
    exact ⟨hc, hs, hp, hd.2, fun y hy => hl y (List.mem_cons_of_mem _ hy)⟩
  · exact fun x rest db db' amount id paid hI hpos hle happ => hI.apply hcounts hpos hle happ

end Requests

/-! ### The result -/

/-- **Applying a client's own money conserves the client's balance** exactly when the request
fits. -/
theorem applying_conserves_iff (noteCurrency : ℕ → String) {db db' : Db} {move : MoneyMove}
    (h : Stored db) (hown : OwnMoney noteCurrency db move) (hok : move.run db = .ok db') :
    Conserves noteCurrency db db' ↔ Fits db move := by
  cases move with
  | allocate => exact conserves_allocate_iff h hown hok
  | allocateAuto => exact iff_of_true (conserves_allocateAuto h hown hok) trivial
  | unapply => exact conserves_unapply_iff hown hok
  | reallocate => exact conserves_reallocate_iff h hown.1 hown.2 hok
  | syncApplication => exact conserves_syncApplication_iff hown.2 hok

theorem Stored.of_sound {db : Db} (h : Sound db) (ht : ∀ i ∈ db.invoices.rows, i.total ≤ 9999999999)
    (ho : ∀ a ∈ db.applications.rows, ∀ b ∈ db.applications.rows, a.deleted = false →
      b.deleted = false → a.creditNoteId = b.creditNoteId → a = b) : Stored db where
  paymentTotals := h.payments
  invoiceTotals i t hi := by
    obtain ⟨invoice, hinv, rfl⟩ := Option.map_eq_some_iff.1 hi
    exact ht invoice (Table.find?_eq_some.1 hinv).1
  allocated i := Table.sum_nonneg _ _ fun a ha _ => h.amounts a ha
  credited i := Table.sum_nonneg _ _ fun a ha _ => h.credits a ha
  oneApplication n a ha han b hb hbn := by
    simp only [ofNote, decide_eq_true_eq] at han hbn
    exact ho a ha b hb han.2 hbn.2 (han.1.trans hbn.1.symm)

/-- Two invoices and a payment of 100.00, and a note of 60.00 of the same client. -/
def openNote : Db :=
  { twoInvoices with creditNotes := ⟨[noteOnFirst], by decide⟩ }

/-- The payment of 100.00 on the second invoice, and the note of 60.00 on the first. -/
def besideNote : Db :=
  run Db.after openNote [.allocateAuto 1 1 (some [2]), .syncApplication noteOnFirst 1 false]

theorem besideNote_stored : Stored besideNote := by
  have hstart : Sound openNote :=
    sound_of_unallocated rfl rfl (by decide) (by decide)
  have hgood : StepsMeet Db.after KeepsTotals openNote
      [.allocateAuto 1 1 (some [2]), .syncApplication noteOnFirst 1 false] :=
    ⟨trivial, trivial, trivial⟩
  have hsound : Sound besideNote := (always_of_step sound_step hstart hgood).last
  exact Stored.of_sound hsound (by decide +kernel) (by decide +kernel)

/-- All of the payment, or a part of it, moved from the second invoice to the first. -/
def moveToFirst (amount : Option ℚ) : MoneyMove := .reallocate 1 1 2 1 amount none

theorem moveToFirst_own (amount : Option ℚ) :
    OwnMoney (fun _ => "MXN") besideNote (moveToFirst amount) := by
  have hpay : besideNote.payments.find? 1 =
      some ⟨1, 1, 1, 10000, "MXN", .completed, none, false⟩ := by
    decide +kernel
  have hfirst : besideNote.invoices.find? 1 =
      some ⟨1, 1, 1, 1, 10000, "MXN", .issued, false⟩ := by
    decide +kernel
  have hsecond : besideNote.invoices.find? 2 =
      some ⟨2, 1, 1, 2, 10000, "MXN", .paid, false⟩ := by
    decide +kernel
  exact ⟨⟨_, _, hpay, hsecond, rfl, rfl, rfl⟩, _, _, hpay, hfirst, rfl, rfl, rfl⟩

/-- Moving the 40.00 that the first invoice owes conserves the balance. -/
theorem applying_conserves_moved_in_part :
    Conserves (fun _ => "MXN") besideNote
      (commit besideNote ((moveToFirst (some 40)).run besideNote)) := by
  have hok : (moveToFirst (some 40)).run besideNote =
      .ok (commit besideNote ((moveToFirst (some 40)).run besideNote)) := by
    decide +kernel
  refine (applying_conserves_iff (fun _ => "MXN") besideNote_stored (moveToFirst_own _) hok).2 ?_
  unfold Fits moveToFirst
  decide +kernel

/-- **Moving all of it does not**: the client owed 40.00, and then owes 100.00. -/
theorem reallocation_changes_balance :
    Stored besideNote ∧ OwnMoney (fun _ => "MXN") besideNote (moveToFirst none) ∧
      ∃ db', (moveToFirst none).run besideNote = .ok db' ∧
        netBalance besideNote 1 1 (fun _ => "MXN") "MXN" "MXN" = 4000 ∧
        netBalance db' 1 1 (fun _ => "MXN") "MXN" "MXN" = 10000 := by
  refine ⟨besideNote_stored, moveToFirst_own none,
    commit besideNote ((moveToFirst none).run besideNote), ?_, ?_, ?_⟩ <;> decide +kernel

end Vigabss.Billing
