import Mathlib
import Vigabss.Lib.Transfer
import Vigabss.Billing.Requests

/-!
# Vigabss.Billing.Balance — what a client owes

`computeClientBalance` adds up, currency by currency, the open invoices with what they still owe,
less what is left on completed payments and on standing credit notes.  Each of its queries drops
the rows with nothing left, so every term is clipped at zero.  `figure_eq` reads a figure of the
answer as three sums over the tables.
-/

namespace Vigabss.Billing

open Vigabss.Lib

/-! ### The service -/

/-- An amount under its currency: an entry of the `Map` the balance is added up in. -/
structure CurrencyBalance where
  currency : String
  balance : ℤ
  deriving DecidableEq, Repr

/-- What `computeClientBalance` answers. -/
structure ClientBalance where
  balance : Option ℤ
  currency : Option String
  balances : List CurrencyBalance
  mixedCurrency : Bool
  deriving DecidableEq, Repr

/-- `add(cur, amount)`: the map keeps its entries in the order they came in. -/
def add (byCurrency : List CurrencyBalance) (e : CurrencyBalance) : List CurrencyBalance :=
  if byCurrency.any fun x => x.currency = e.currency then
    byCurrency.map fun x =>
      if x.currency = e.currency then { x with balance := x.balance + e.balance } else x
  else byCurrency ++ [e]

/-- `SUM(amount)` of the note's live applications. -/
def Db.appliedOf (db : Db) (noteId : ℕ) : ℤ :=
  db.applications.sum (ofNote noteId) CreditNoteApplication.amount

section Terms

variable (db : Db) (orgId clientId : ℕ)

/-- The open invoices with something due. -/
def openDues : List CurrencyBalance :=
  ((getInvoicesWithBalance db orgId clientId none).map fun x =>
    ⟨x.invoice.currency, x.balanceDue⟩).filter fun e => 0 < e.balance

/-- The completed payments with money left. -/
def unallocatedRemainders : List CurrencyBalance :=
  ((db.payments.rows.filter fun p =>
      p.clientId = clientId ∧ p.organizationId = orgId ∧ p.deleted = false ∧
        isPaymentSettled p = true).map fun p =>
    (⟨p.currency, p.amount - db.allocatedOf p.id⟩ : CurrencyBalance)).filter fun e => 0 < e.balance

/-- The standing credit notes with credit left; `noteCurrency` is `credit_notes.currency`. -/
def standingCredits (noteCurrency : ℕ → String) : List CurrencyBalance :=
  ((db.creditNotes.rows.filter fun n =>
      n.clientId = clientId ∧ n.organizationId = orgId ∧ n.deleted = false ∧
        n.status.posted = true).map fun n =>
    (⟨noteCurrency n.id, n.total - db.appliedOf n.id⟩ : CurrencyBalance)).filter
      fun e => 0 < e.balance

def CurrencyBalance.neg (e : CurrencyBalance) : CurrencyBalance := ⟨e.currency, -e.balance⟩

/-- The figures by currency, in the order of their codes. -/
def balancesByCurrency (noteCurrency : ℕ → String) : List CurrencyBalance :=
  ((openDues db orgId clientId ++
      (unallocatedRemainders db orgId clientId).map CurrencyBalance.neg ++
      (standingCredits db orgId clientId noteCurrency).map CurrencyBalance.neg).foldl add
    []).insertionSort fun a b => a.currency ≤ b.currency

/-- `computeClientBalance(orgId, clientId)`; `orgCurrency` is the organization's currency. -/
def computeClientBalance (noteCurrency : ℕ → String) (orgCurrency : String) : ClientBalance :=
  match balancesByCurrency db orgId clientId noteCurrency with
  | [] => ⟨some 0, some orgCurrency, [], false⟩
  | [e] => ⟨some e.balance, some e.currency, [e], false⟩
  | balances => ⟨none, none, balances, true⟩

/-- The figure of a list in a currency; 0 when the list has none. -/
def figureOf (balances : List CurrencyBalance) (cur : String) : ℤ :=
  ((balances.find? fun e => e.currency = cur).map CurrencyBalance.balance).getD 0

/-- The client's net balance in a currency. -/
def netBalance (noteCurrency : ℕ → String) (orgCurrency cur : String) : ℤ :=
  figureOf (computeClientBalance db orgId clientId noteCurrency orgCurrency).balances cur

end Terms

/-! ### The terms, row by row -/

/-- The invoice is open or paid, and not deleted: the ones whose status follows what covers them. -/
def Invoice.counts (i : Invoice) : Bool := decide (i.deleted = false) && i.status.creditable

/-- The invoice is one the balance lists. -/
def Invoice.opens (i : Invoice) : Bool := decide (i.deleted = false) && i.status.payable

def Payment.counts (p : Payment) : Bool := decide (p.deleted = false) && isPaymentSettled p

def CreditNote.counts (n : CreditNote) : Bool := decide (n.deleted = false) && n.status.posted

theorem Invoice.counts_of_opens {i : Invoice} (h : i.opens = true) : i.counts = true := by
  simp only [opens, counts, Bool.and_eq_true, decide_eq_true_eq] at h ⊢
  refine ⟨h.1, ?_⟩
  revert h
  cases i.status <;> simp [InvoiceStatus.payable, InvoiceStatus.creditable]

namespace Db

variable (db : Db)

/-- `balance_due`. -/
def due (i : Invoice) : ℤ := i.total - db.coveredOf i.id

/-- What the invoice adds to the balance. -/
def owed (i : Invoice) : ℤ := shown i.opens (db.due i)

/-- What the payment takes off the balance. -/
def unallocated (p : Payment) : ℤ := shown p.counts (p.amount - db.allocatedOf p.id)

/-- What the credit note takes off the balance. -/
def standing (n : CreditNote) : ℤ := shown n.counts (n.total - db.appliedOf n.id)

end Db

section Classes

variable (orgId clientId : ℕ) (cur : String)

/-- The rows of a client in a currency. -/
def invoiceOf (i : Invoice) : Bool :=
  i.organizationId = orgId ∧ i.clientId = clientId ∧ i.currency = cur

@[inherit_doc invoiceOf]
def paidBy (p : Payment) : Bool :=
  p.organizationId = orgId ∧ p.clientId = clientId ∧ p.currency = cur

@[inherit_doc invoiceOf]
def creditedTo (noteCurrency : ℕ → String) (n : CreditNote) : Bool :=
  n.organizationId = orgId ∧ n.clientId = clientId ∧ noteCurrency n.id = cur

end Classes

/-! ### The figure of a currency -/

/-- What a list adds up to in a currency. -/
def totalIn (cur : String) (es : List CurrencyBalance) : ℤ :=
  (es.map fun e => if e.currency = cur then e.balance else 0).sum

theorem figureOf_eq_totalIn {m : List CurrencyBalance} {cur : String}
    (h : (m.map CurrencyBalance.currency).Nodup) : figureOf m cur = totalIn cur m := by
  induction m with
  | nil => rfl
  | cons e m ih =>
    rw [List.map_cons, List.nodup_cons] at h
    by_cases he : e.currency = cur
    · have hnone : totalIn cur m = 0 := by
        have hzero : ∀ x ∈ m, (if x.currency = cur then x.balance else 0) = 0 := fun x hx =>
          if_neg fun hc : x.currency = cur => h.1 (he.trans hc.symm ▸ List.mem_map_of_mem hx)
        rw [totalIn, List.map_congr_left hzero]
        simp
      rw [totalIn, List.map_cons, List.sum_cons, ← totalIn, hnone]
      simp [figureOf, he]
    · rw [totalIn, List.map_cons, List.sum_cons, ← totalIn, ← ih h.2, if_neg he, zero_add]
      simp [figureOf, he]

/-- The map holds one entry a currency, and adding to it adds to that currency's figure. -/
theorem add_spec {m : List CurrencyBalance} (e : CurrencyBalance)
    (h : (m.map CurrencyBalance.currency).Nodup) :
    ((add m e).map CurrencyBalance.currency).Nodup ∧
      ∀ cur, totalIn cur (add m e) = totalIn cur m + totalIn cur [e] := by
  unfold add
  split_ifs with hany
  · have hkeys : (m.map fun x => if x.currency = e.currency then
        { x with balance := x.balance + e.balance } else x).map CurrencyBalance.currency =
        m.map CurrencyBalance.currency := by
      rw [List.map_map]
      refine List.map_congr_left fun x _ => ?_
      simp only [Function.comp_apply]
      split_ifs <;> rfl
    refine ⟨hkeys ▸ h, fun cur => ?_⟩
    simp only [List.any_eq_true, decide_eq_true_eq] at hany
    rw [← figureOf_eq_totalIn h, ← figureOf_eq_totalIn (hkeys ▸ h)]
    by_cases hcur : e.currency = cur
    · subst hcur
      obtain ⟨y, hy, hye⟩ := hany
      clear hkeys h
      induction m with
      | nil => simp at hy
      | cons x m ih =>
        by_cases hx : x.currency = e.currency
        · simp [figureOf, totalIn, hx]
        · have hy' : y ∈ m := by
            rcases List.mem_cons.1 hy with rfl | hy
            · exact absurd hye hx
            · exact hy
          simpa [figureOf, totalIn, hx] using ih hy'
    · have hsame : ∀ m : List CurrencyBalance, figureOf (m.map fun x =>
          if x.currency = e.currency then { x with balance := x.balance + e.balance } else x) cur =
          figureOf m cur := by
        intro m
        induction m with
        | nil => rfl
        | cons x m ih =>
          by_cases hx : x.currency = e.currency
          · have hxc : x.currency ≠ cur := fun hc => hcur (hx ▸ hc)
            simpa [figureOf, hx, hcur] using ih
          · by_cases hxc : x.currency = cur
            · simp [figureOf, hxc, Ne.symm hcur]
            · simpa [figureOf, hx, hxc] using ih
      rw [hsame]
      simp [totalIn, hcur]
  · simp only [List.any_eq_true, decide_eq_true_eq, not_exists, not_and] at hany
    refine ⟨?_, fun cur => by simp [totalIn]⟩
    rw [List.map_append, List.nodup_append]
    refine ⟨h, by simp, fun a ha b hb => ?_⟩
    obtain ⟨x, hx, rfl⟩ := List.mem_map.1 ha
    obtain rfl : b = e.currency := by simpa using hb
    exact hany x hx

theorem foldl_add_spec (es : List CurrencyBalance) {m : List CurrencyBalance}
    (h : (m.map CurrencyBalance.currency).Nodup) :
    ((es.foldl add m).map CurrencyBalance.currency).Nodup ∧
      ∀ cur, totalIn cur (es.foldl add m) = totalIn cur m + totalIn cur es := by
  induction es generalizing m with
  | nil => exact ⟨h, fun cur => by simp [totalIn]⟩
  | cons e es ih =>
    obtain ⟨hnd, htotal⟩ := add_spec e h
    obtain ⟨hnd', htotal'⟩ := ih hnd
    refine ⟨hnd', fun cur => ?_⟩
    rw [List.foldl_cons, htotal', htotal]
    simp [totalIn, add_assoc]

theorem totalIn_append (cur : String) (es es' : List CurrencyBalance) :
    totalIn cur (es ++ es') = totalIn cur es + totalIn cur es' := by
  simp [totalIn]

theorem totalIn_neg (cur : String) (es : List CurrencyBalance) :
    totalIn cur (es.map CurrencyBalance.neg) = -totalIn cur es := by
  induction es with
  | nil => rfl
  | cons e es ih =>
    simp only [totalIn, CurrencyBalance.neg, List.map_cons, List.sum_cons] at ih ⊢
    rw [ih]
    split_ifs <;> ring

theorem totalIn_perm {cur : String} {es es' : List CurrencyBalance} (h : es.Perm es') :
    totalIn cur es = totalIn cur es' := (h.map _).sum_eq

/-- A query that drops the rows with nothing left adds up what the rows show. -/
theorem totalIn_query {α : Type} (rows : List α) (cond opens ofClass : α → Bool)
    (e : α → CurrencyBalance) (cur : String)
    (h : ∀ a, (cond a = true ∧ (e a).currency = cur) ↔ (opens a = true ∧ ofClass a = true)) :
    totalIn cur (((rows.filter cond).map e).filter fun e => 0 < e.balance) =
      (rows.map fun a => if ofClass a then shown (opens a) (e a).balance else 0).sum := by
  induction rows with
  | nil => rfl
  | cons a rows ih =>
    rw [List.map_cons, List.sum_cons, ← ih]
    have ha := h a
    by_cases hc : cond a = true
    · rw [List.filter_cons_of_pos hc, List.map_cons]
      by_cases hb : 0 < (e a).balance
      · rw [List.filter_cons_of_pos (by simpa using hb), totalIn, List.map_cons, List.sum_cons,
          ← totalIn]
        by_cases hcur : (e a).currency = cur
        · obtain ⟨ho, hcl⟩ := ha.1 ⟨hc, hcur⟩
          simp [hcur, ho, hcl, shown, hb.le]
        · have : ¬ (opens a = true ∧ ofClass a = true) := fun hoc => hcur (ha.2 hoc).2
          simp only [if_neg hcur, shown]
          split_ifs <;> simp_all
      · rw [List.filter_cons_of_neg (by simpa using hb)]
        simp only [shown]
        split_ifs <;> omega
    · rw [List.filter_cons_of_neg hc]
      have : ¬ (opens a = true ∧ ofClass a = true) := fun hoc => hc (ha.2 hoc).1
      simp only [shown]
      split_ifs <;> simp_all

/-- **The net balance** is what the client's invoices owe, less what its payments have left, less
what its credit notes have left. -/
theorem netBalance_eq (db : Db) (orgId clientId : ℕ) (noteCurrency : ℕ → String)
    (orgCurrency cur : String) :
    netBalance db orgId clientId noteCurrency orgCurrency cur =
      db.invoices.sum (invoiceOf orgId clientId cur) db.owed -
        db.payments.sum (paidBy orgId clientId cur) db.unallocated -
        db.creditNotes.sum (creditedTo orgId clientId cur noteCurrency) db.standing := by
  have hanswer : (computeClientBalance db orgId clientId noteCurrency orgCurrency).balances =
      balancesByCurrency db orgId clientId noteCurrency := by
    unfold computeClientBalance
    split <;> simp_all
  obtain ⟨hnd, htotal⟩ := foldl_add_spec (m := []) (openDues db orgId clientId ++
    (unallocatedRemainders db orgId clientId).map CurrencyBalance.neg ++
    (standingCredits db orgId clientId noteCurrency).map CurrencyBalance.neg) (by simp)
  have hperm := List.perm_insertionSort (fun a b : CurrencyBalance => a.currency ≤ b.currency)
    ((openDues db orgId clientId ++
      (unallocatedRemainders db orgId clientId).map CurrencyBalance.neg ++
      (standingCredits db orgId clientId noteCurrency).map CurrencyBalance.neg).foldl add [])
  have hopen : totalIn cur (openDues db orgId clientId) =
      db.invoices.sum (invoiceOf orgId clientId cur) db.owed := by
    have hsorted := List.perm_insertionSort olderFirst ((db.invoices.rows.filter fun i =>
      i.clientId = clientId ∧ i.organizationId = orgId ∧ i.deleted = false ∧
        i.status.payable = true ∧ ∀ ids ∈ (none : Option (List ℕ)), ids ≠ [] → i.id ∈ ids).map
          fun i => (⟨i, i.total - db.coveredOf i.id⟩ : OpenInvoice))
    rw [openDues, getInvoicesWithBalance, totalIn_perm ((hsorted.map _).filter _), List.map_map]
    refine totalIn_query _ _ Invoice.opens _ _ cur fun i => ?_
    simp [Invoice.opens, invoiceOf]
    tauto
  have hpaid : totalIn cur (unallocatedRemainders db orgId clientId) =
      db.payments.sum (paidBy orgId clientId cur) db.unallocated := by
    refine totalIn_query _ _ Payment.counts _ _ cur fun p => ?_
    simp [Payment.counts, paidBy]
    tauto
  have hcredit : totalIn cur (standingCredits db orgId clientId noteCurrency) =
      db.creditNotes.sum (creditedTo orgId clientId cur noteCurrency) db.standing := by
    refine totalIn_query _ _ CreditNote.counts _ _ cur fun n => ?_
    simp [CreditNote.counts, creditedTo]
    tauto
  rw [netBalance, hanswer, balancesByCurrency,
    figureOf_eq_totalIn ((hperm.map _).nodup_iff.2 hnd), totalIn_perm hperm, htotal, totalIn_append,
    totalIn_append, totalIn_neg, totalIn_neg, hopen, hpaid, hcredit]
  simp [totalIn]
  ring

end Vigabss.Billing
