import Vigabss.Suspension.Contracts

/-!
# Vigabss.Suspension.Lifted — who settles the debt lifts the suspension

A contract that a rule suspends still owes something overdue, or a payment that settled it is about
to look at the contract.  The payment's look misses a suspension that has read the debt and is not
committed yet; then nobody lifts it.
-/

namespace Vigabss.Suspension

open Vigabss.Lib Vigabss.Billing

/-! ### What a payment leaves of an invoice -/

/-- The payments and the credit of the invoice come out below its total in doubles. -/
def FallsShort (books : Billing.Db) (i : Invoice) : Prop :=
  books.allocatedTo i.id ≤ i.total ∧
    fl (number (books.allocatedTo i.id) + number (books.creditAppliedTo i.id)) < number i.total

/-- The invoice is paid, or as it was and without a new allocation unless in doubles it falls
short. -/
structure LeavesInvoice (i : Invoice) (books books' : Billing.Db) : Prop where
  credit : books'.creditAppliedTo i.id = books.creditAppliedTo i.id
  invoice : books'.invoices.find? i.id = some { i with status := .paid } ∨
    books'.invoices.find? i.id = some i ∧
      (books'.allocatedTo i.id = books.allocatedTo i.id ∨ FallsShort books' i)

theorem LeavesInvoice.refl {i : Invoice} {books : Billing.Db}
    (h : books.invoices.find? i.id = some i) : LeavesInvoice i books books :=
  ⟨rfl, .inr ⟨h, .inl rfl⟩⟩

theorem LeavesInvoice.total {i : Invoice} {books books' : Billing.Db}
    (h : LeavesInvoice i books books') : i.total ∈ books'.invoiceTotal i.id := by
  rcases h.invoice with hpaid | ⟨hsame, -⟩
  · simp [Db.invoiceTotal, hpaid]
  · simp [Db.invoiceTotal, hsame]

section Payments

variable {books books' books₁ : Billing.Db} {i invoice : Invoice} {paymentId id : ℕ} {amount : ℤ}

theorem LeavesInvoice.other (h : LeavesInvoice i books books') (hne : i.id ≠ invoice.id)
    (hins : books'.insertAllocation paymentId invoice.id amount = .ok (books₁, id)) :
    LeavesInvoice i books (finalizeIfFullyPaid books₁ invoice).1 := by
  obtain ⟨-, -, rfl⟩ := Db.insertAllocation_ok hins
  unfold finalizeIfFullyPaid
  dsimp only
  have hsum : ((books'.allocations.insert (fun id => (⟨id, paymentId, invoice.id, amount, false⟩ :
      PaymentAllocation)) fun _ => rfl).sum (toInvoice i.id) PaymentAllocation.amount) =
        books'.allocatedTo i.id := by
    rw [Table.sum_insert]
    simp [Table.share, toInvoice, Ne.symm hne, Db.allocatedTo]
  split_ifs with hshort
  · refine ⟨h.credit, ?_⟩
    simpa only [Db.allocatedTo, FallsShort, hsum, Db.creditAppliedTo] using h.invoice
  · refine ⟨h.credit, ?_⟩
    simpa only [Db.setInvoiceStatus, Table.find?_modify, if_neg hne, Db.allocatedTo, FallsShort,
      hsum, Db.creditAppliedTo] using h.invoice

theorem LeavesInvoice.own (h : LeavesInvoice i books books')
    (hins : books'.insertAllocation paymentId i.id amount = .ok (books₁, id)) :
    LeavesInvoice i books (finalizeIfFullyPaid books₁ i).1 := by
  obtain ⟨-, hroom, rfl⟩ := Db.insertAllocation_ok hins
  have hroom := hroom i.total h.total
  have hsum : ((books'.allocations.insert (fun id => (⟨id, paymentId, i.id, amount, false⟩ :
      PaymentAllocation)) fun _ => rfl).sum (toInvoice i.id) PaymentAllocation.amount) =
        books'.allocatedTo i.id + amount := by
    rw [Table.sum_insert]
    simp [Table.share, toInvoice, Db.allocatedTo]
  unfold finalizeIfFullyPaid
  dsimp only
  split_ifs with hshort
  · refine ⟨h.credit, h.invoice.imp_right fun hsame => ⟨hsame.1, .inr ⟨?_, hshort⟩⟩⟩
    show (_ : Table PaymentAllocation).sum _ _ ≤ _
    rw [hsum]
    exact hroom
  · refine ⟨h.credit, .inl ?_⟩
    simp only [Db.setInvoiceStatus, Table.find?_modify, if_true]
    rcases h.invoice with hpaid | ⟨hsame, -⟩
    · rw [hpaid, Option.map_some]
    · rw [hsame, Option.map_some]

theorem LeavesInvoice.insert (h : LeavesInvoice i books books')
    (hi : books.invoices.find? i.id = some i)
    (hinvoice : books.invoices.find? invoice.id = some invoice)
    (hins : books'.insertAllocation paymentId invoice.id amount = .ok (books₁, id)) :
    LeavesInvoice i books (finalizeIfFullyPaid books₁ invoice).1 := by
  by_cases hid : i.id = invoice.id
  · rw [← hid, hi] at hinvoice
    obtain rfl := Option.some.inj hinvoice
    exact h.own hins
  · exact h.other hid hins

theorem LeavesInvoice.across {payment : Payment} {remainder : ℤ} {rows : List OpenInvoice}
    {applied : Applied} (hi : books.invoices.find? i.id = some i)
    (hrows : ∀ x ∈ rows, books.invoices.find? x.invoice.id = some x.invoice)
    (h : allocateAcrossInvoices payment books remainder rows = .ok applied) :
    LeavesInvoice i books applied.db := by
  refine (allocateAcross_rule (I := fun rows books' =>
    (∀ x ∈ rows, books.invoices.find? x.invoice.id = some x.invoice) ∧
      LeavesInvoice i books books') ?_ ?_ ⟨hrows, LeavesInvoice.refl hi⟩ h).2
  · rintro x rest books' ⟨hrows, hleaves⟩
    exact ⟨fun y hy => hrows y (List.mem_cons_of_mem _ hy), hleaves⟩
  · rintro x rest books' books'' amount id paid ⟨hrows, hleaves⟩ - - happly
    obtain ⟨-, books₁, hins, rfl⟩ := applyAllocation_ok happly
    refine ⟨fun y hy => hrows y (List.mem_cons_of_mem _ hy), ?_⟩
    exact hleaves.insert hi (hrows x List.mem_cons_self) hins

theorem leaves_transaction {call : PaymentCall} (hi : books.invoices.find? i.id = some i)
    (h : call.transaction books = .ok books') : LeavesInvoice i books books' := by
  cases call with
  | allocate orgId paymentId invoiceId amount =>
    obtain ⟨-, payment, invoice, books₁, id, -, hinv, -, -, hins, rfl⟩ := allocate_ok h
    have hfind := (findInvoice_some.1 hinv).1
    obtain rfl := (Table.find?_eq_some.1 hfind).2
    exact (LeavesInvoice.refl hi).insert hi hfind hins
  | allocateAuto orgId paymentId invoiceIds =>
    obtain ⟨payment, remainder, rows, applied, -, hrows, happly, rfl⟩ := allocateAuto_ok h
    exact LeavesInvoice.across hi
      (fun x hx => (mem_getInvoicesWithBalance (hrows.subset hx)).1) happly

end Payments

/-! ### The debt -/

/-- Payments and credit that cover the invoice also reach its total when doubles add them. -/
def SumsUp (books : Billing.Db) (i : Invoice) : Prop :=
  ∀ paid ≤ i.total, i.total ≤ paid + books.creditAppliedTo i.id →
    number i.total ≤ fl (number paid + number (books.creditAppliedTo i.id))

/-- The invoice is the contract's. -/
def Own (terms : ℕ → InvoiceTerms) (contractId : ℕ) (i : Invoice) : Prop :=
  (terms i.id).contract_id = some contractId

/-- A payment that settles the last overdue invoice of the contract marks one of its invoices
paid. -/
theorem own_justPaid {db : DebtDb} {call : PaymentCall} {books' : Billing.Db}
    (h : call.transaction db.books = .ok books') (howed : db.owed = true)
    (hsums : ∀ i ∈ db.books.invoices.rows, db.overdue i = true → SumsUp db.books i)
    (hsettled : ({ db with books := books' } : DebtDb).owed = false) :
    ∃ i ∈ justPaid db.books books', Own db.terms db.contract.id i := by
  obtain ⟨i, hi, hdue⟩ := List.any_eq_true.1 howed
  have hsum := hsums i hi hdue
  have hleaves := leaves_transaction (Table.find?_key hi) h
  simp only [DebtDb.overdue, decide_eq_true_eq] at hdue
  obtain ⟨hown, hlive, hpayable, hpast, hopen, hplan⟩ := hdue
  rcases hleaves.invoice with hpaid | ⟨hsame, halloc⟩
  · refine ⟨i, List.mem_filter.2 ⟨hi, ?_⟩, hown⟩
    have hunpaid : i.status ≠ .paid := by
      intro hstatus
      rw [hstatus] at hpayable
      cases hpayable
    simp [hunpaid, show books'.invoices.find? i.id = _ from hpaid]
  · have hcovered : i.total ≤ books'.coveredOf i.id := by
      by_contra hlt
      refine Bool.false_ne_true (hsettled.symm.trans (List.any_eq_true.2 ⟨i, ?_, ?_⟩))
      · exact (Table.find?_eq_some.1 hsame).1
      · simp only [DebtDb.overdue, decide_eq_true_eq]
        exact ⟨hown, hlive, hpayable, hpast, by omega, hplan⟩
    rw [Db.coveredOf, hleaves.credit] at hcovered
    rcases halloc with hkept | ⟨hle, hshort⟩
    · rw [Db.coveredOf] at hopen
      omega
    · rw [hleaves.credit] at hshort
      exact absurd (hsum _ hle hcovered) (not_le.2 hshort)

/-! ### One statement -/

/-- The contract is suspended, or about to be, and owes nothing overdue. -/
def DebtDb.Stranded (db : DebtDb) : Prop :=
  (db.contract.status = .suspended ∨ db.uncommitted.isSome = true) ∧ db.owed = false

/-- The columns no call here writes, and the lock of an uncommitted status. -/
structure DebtDb.Kept (contract : ServiceContract) (terms : ℕ → InvoiceTerms) (db : DebtDb) :
    Prop where
  contract : db.contract = { contract with status := db.contract.status }
  terms : db.terms = terms
  locked : db.uncommitted.isSome = true → db.locked = true

/-- The call holds the lock of the contract. -/
def DebtTask.locks : DebtTask → Prop
  | suspending | committing => True
  | _ => False

/-- What a call knows of the contract. -/
def DebtTask.Knows (db : DebtDb) : DebtTask → Prop
  | suspending => ¬ db.uncommitted.isSome = true
  | committing => db.uncommitted.isSome = true
  | reconnecting orgId _ => db.contract.deleted = false ∧ db.contract.organization_id = orgId
  | _ => True

/-- The call is going to look at the contract, or to reconnect it. -/
def DebtTask.visits (terms : ℕ → InvoiceTerms) (contractId : ℕ) : DebtTask → Prop
  | looking _ invoices => ∃ i ∈ invoices, Own terms contractId i
  | reconnecting .. => True
  | _ => False

/-- While the contract owes nothing overdue, a payment that looks at it finds no suspension that is
not committed and is the contract's client's own, and a reconnect is not refused; and what covers an
overdue invoice also does so in doubles. -/
def Clear (db : DebtDb) : DebtTask → DebtAnswer → Prop
  | .looking orgId (invoice :: _), _ =>
    Own db.terms db.contract.id invoice → db.owed = true ∨
      db.uncommitted = none ∧ db.contract.organization_id = orgId ∧
        db.contract.client_id = invoice.clientId ∧ db.contract.deleted = false
  | .reconnecting .., a => db.owed = true ∨ a.throws = false
  | .paying _, _ => ∀ i ∈ db.books.invoices.rows, db.overdue i = true → SumsUp db.books i
  | _, _ => True

/-- What a statement keeps. -/
structure KeepsDebt (contract : ServiceContract) (terms : ℕ → InvoiceTerms) (db : DebtDb)
    (t : DebtTask) (a : DebtAnswer) (db' : DebtDb) (t' : DebtTask) : Prop where
  kept : db'.Kept contract terms
  knows : t'.Knows db'
  locks : Threads.KeepsLocks (fun t (_ : Unit) => t.locks) (fun db _ => db.locked = true) db t db'
    t'
  others : ∀ u : DebtTask, u.Knows db → (t.locks → ¬ u.locks) → u.Knows db'
  stranded : Clear db t a → db'.Stranded →
    t'.visits terms contract.id ∨ db.Stranded ∧ ¬ t.visits terms contract.id

section Statements

variable {contract : ServiceContract} {terms : ℕ → InvoiceTerms} {db db' : DebtDb} {t t' : DebtTask}
  {a : DebtAnswer}

theorem DebtDb.Kept.setStatus (h : db.Kept contract terms) (status : ContractStatus) :
    (db.setStatus status).contract = { contract with status } := by
  rw [DebtDb.setStatus, h.contract]

theorem DebtDb.Kept.id (h : db.Kept contract terms) : db.contract.id = contract.id := by
  rw [h.contract]

theorem DebtDb.Kept.columns (h : db.Kept contract terms) (h' : db'.Kept contract terms) :
    db'.contract.deleted = db.contract.deleted ∧
      db'.contract.organization_id = db.contract.organization_id := by
  rw [h.contract, h'.contract]
  exact ⟨rfl, rfl⟩

theorem knows_of_kept (h : db.Kept contract terms) (h' : db'.Kept contract terms) {u : DebtTask}
    (hu : u.Knows db) (huncommitted : u.locks → db'.uncommitted = db.uncommitted) :
    u.Knows db' := by
  obtain ⟨hdeleted, horg⟩ := h.columns h'
  cases u with
  | suspending =>
    show ¬ db'.uncommitted.isSome = true
    rw [huncommitted trivial]
    exact hu
  | committing =>
    show db'.uncommitted.isSome = true
    rw [huncommitted trivial]
    exact hu
  | reconnecting orgId rest => exact ⟨hdeleted ▸ hu.1, horg ▸ hu.2⟩
  | _ => trivial

theorem KeepsDebt.unlocked (h : db.Kept contract terms) (h' : db'.Kept contract terms)
    (hknows : t'.Knows db') (hlocked : db'.locked = db.locked)
    (huncommitted : db'.uncommitted = db.uncommitted) (ht' : ¬ t'.locks)
    (hstranded : Clear db t a → db'.Stranded →
      t'.visits terms contract.id ∨ db.Stranded ∧ ¬ t.visits terms contract.id) :
    KeepsDebt contract terms db t a db' t' where
  kept := h'
  knows := hknows
  locks :=
    { taken := fun _ hk => absurd hk ht'
      held := fun _ _ hk => absurd hk ht'
      kept := fun _ hk _ => hlocked.trans hk }
  others _ hu _ := knows_of_kept h h' hu fun _ => huncommitted
  stranded := hstranded

theorem KeepsDebt.holder (h : db.Kept contract terms) (h' : db'.Kept contract terms)
    (ht : t.locks) (hknows : t'.Knows db') (ht' : t'.locks → db'.locked = true)
    (hvisits : ¬ t.visits terms contract.id) (hstranded : db'.Stranded → db.Stranded) :
    KeepsDebt contract terms db t a db' t' where
  kept := h'
  knows := hknows
  locks :=
    { taken := fun _ _ => .inl ht
      held := fun _ _ hk => ht' hk
      kept := fun _ _ hnot => absurd ht hnot }
  others _ hu hapart := knows_of_kept h h' hu fun hlocks => absurd hlocks (hapart ht)
  stranded := fun _ hs => .inr ⟨hstranded hs, hvisits⟩

theorem owed_of_tomorrow (h : ({ db with today := db.today + 1 } : DebtDb).owed = false) :
    db.owed = false := by
  rw [DebtDb.owed, List.any_eq_false] at h ⊢
  intro i hi hdue
  refine h i hi ?_
  simp only [DebtDb.overdue, decide_eq_true_eq] at hdue ⊢
  obtain ⟨hown, hlive, hpayable, hpast, hopen, hplan⟩ := hdue
  exact ⟨hown, hlive, hpayable, by omega, hopen, hplan⟩

theorem stranded_look {orgId : ℕ} {invoice : Invoice} {rest : List Invoice}
    (h : db.Kept contract terms) (hclear : Clear db (.looking orgId (invoice :: rest)) a)
    (hs : db.Stranded) (hmissed : db.findsSuspended orgId invoice = false) :
    ¬ Own terms contract.id invoice := by
  intro hown
  rw [← h.id, ← h.terms] at hown
  rcases hclear hown with howed | ⟨hnone, horg, hclient, hlive⟩
  · rw [hs.2] at howed
    cases howed
  · have hsus : db.contract.status = .suspended := by
      refine hs.1.resolve_right fun hsome => ?_
      rw [hnone] at hsome
      cases hsome
    simp only [DebtDb.findsSuspended, decide_eq_false_iff_not] at hmissed
    exact hmissed ⟨hown, horg, hclient, hsus, hlive⟩

theorem not_stranded (hstatus : db.contract.status ≠ .suspended)
    (huncommitted : ¬ db.uncommitted.isSome = true) : ¬ db.Stranded := by
  rintro ⟨hsus | hsome, -⟩
  · exact hstatus hsus
  · exact huncommitted hsome

theorem DebtDb.Kept.unlocked (h : db.Kept contract terms) (hfree : db.locked = false) :
    ¬ db.uncommitted.isSome = true := by
  intro hsome
  rw [h.locked hsome] at hfree
  cases hfree

theorem not_stranded_of_reconnect_none {orgId : ℕ} {rest : List Invoice}
    (h : db.Kept contract terms) (hknows : DebtTask.Knows db (.reconnecting orgId rest))
    (hfree : db.locked = false) (hclear : Clear db (.reconnecting orgId rest) a)
    (hr : db.reconnectContract orgId a = none) : ¬ db.Stranded := by
  intro hs
  have howed : db.owed = false := hs.2
  unfold DebtDb.reconnectContract at hr
  split at hr
  · rename_i hrefused
    rcases hrefused with hdeleted | horg | hthrows
    · rw [hknows.1] at hdeleted
      cases hdeleted
    · exact horg hknows.2
    · rcases hclear with hdebt | hclear
      · rw [howed] at hdebt
        cases hdebt
      · rw [hclear] at hthrows
        cases hthrows
  · split at hr
    · cases hr
    · rename_i hsus
      exact not_stranded hsus (h.unlocked hfree) hs

theorem reconnect_some {orgId : ℕ} (h : db.Kept contract terms) (hfree : db.locked = false)
    (hr : db.reconnectContract orgId a = some db') : ¬ db'.Stranded ∧ db'.Kept contract terms ∧
      db'.locked = db.locked ∧ db'.uncommitted = db.uncommitted := by
  have hnone := h.unlocked hfree
  unfold DebtDb.reconnectContract at hr
  split at hr
  · cases hr
  · split at hr
    · obtain rfl := Option.some.inj hr
      refine ⟨not_stranded ?_ hnone, ⟨?_, h.terms, h.locked⟩, rfl, rfl⟩
      · show (if db.contract.activated = true then _ else _ : ContractStatus) ≠ _
        split_ifs <;> exact ContractStatus.noConfusion
      · exact h.setStatus _
    · rename_i hsus
      split at hr
      · obtain rfl := Option.some.inj hr
        exact ⟨not_stranded hsus hnone, h, rfl, rfl⟩
      · cases hr

theorem nextDebt_keeps (a : DebtAnswer) (h : db.Kept contract terms) (hknows : t.Knows db)
    (hlock : t.locks → db.locked = true) :
    KeepsDebt contract terms db t a (nextDebt db t a).1 (nextDebt db t a).2 := by
  have hread : ∀ {t' : DebtTask}, t'.Knows db → ¬ t'.locks → ¬ t.visits terms contract.id →
      KeepsDebt contract terms db t a db t' := fun hknows' ht' hvisits =>
    KeepsDebt.unlocked h h hknows' rfl rfl ht' fun _ hs => .inr ⟨hs, hvisits⟩
  cases t with
  | checking =>
    simp only [nextDebt]
    split_ifs
    · exact hread trivial id id
    · exact hread trivial id id
  | locking =>
    simp only [nextDebt]
    split_ifs with hlocked hactive
    · exact hread trivial id id
    · exact hread trivial id id
    · have hkept : DebtDb.Kept contract terms { db with locked := true } :=
        ⟨h.contract, h.terms, fun _ => rfl⟩
      exact {
        kept := hkept
        knows := h.unlocked (by simpa using hlocked)
        locks :=
          { taken := fun _ _ => .inr hlocked
            held := fun _ _ _ => rfl
            kept := fun _ _ _ => rfl }
        others := fun u hu _ => knows_of_kept h hkept hu fun _ => rfl
        stranded := fun _ hs => .inr ⟨hs, id⟩ }
  | suspending =>
    simp only [nextDebt]
    split_ifs with howed
    · refine KeepsDebt.holder h ⟨h.contract, h.terms, fun _ => hlock trivial⟩ trivial rfl
        (fun _ => hlock trivial) id fun hs => ?_
      have howed' : db.owed = false := hs.2
      rw [howed] at howed'
      cases howed'
    · exact KeepsDebt.holder h ⟨h.contract, h.terms, fun hsome => absurd hsome hknows⟩ trivial
        trivial (fun hk => hk.elim) id id
  | committing =>
    simp only [nextDebt]
    split_ifs with hthrows
    · refine KeepsDebt.holder h ⟨h.contract, h.terms, nofun⟩ trivial trivial (fun hk => hk.elim) id
        fun hs => ⟨.inl ?_, hs.2⟩
      exact hs.1.resolve_right nofun
    · exact KeepsDebt.holder h ⟨h.setStatus _, h.terms, nofun⟩ trivial trivial (fun hk => hk.elim)
        id fun hs => ⟨.inr hknows, hs.2⟩
  | paying call =>
    simp only [nextDebt]
    cases hpay : call.transaction db.books with
    | error failure => exact hread trivial id id
    | ok books =>
      refine KeepsDebt.unlocked h ⟨h.contract, h.terms, h.locked⟩ trivial rfl rfl id
        fun hclear hs => ?_
      by_cases howed : db.owed = true
      · obtain ⟨i, hi, hown⟩ := own_justPaid hpay howed hclear hs.2
        rw [h.id, h.terms] at hown
        exact .inl ⟨i, hi, hown⟩
      · exact .inr ⟨⟨hs.1, by simpa using howed⟩, id⟩
  | looking orgId invoices =>
    cases invoices with
    | nil =>
      refine hread trivial id ?_
      rintro ⟨i, hi, -⟩
      cases hi
    | cons invoice rest =>
      simp only [nextDebt]
      split_ifs with hfinds
      · refine KeepsDebt.unlocked h h ?_ rfl rfl id fun _ _ => .inl trivial
        simp only [DebtDb.findsSuspended, decide_eq_true_eq] at hfinds
        exact ⟨hfinds.2.2.2.2, hfinds.2.1⟩
      · refine KeepsDebt.unlocked h h trivial rfl rfl id fun hclear hs => ?_
        have hother := stranded_look h hclear hs (by simpa using hfinds)
        by_cases hrest : ∃ i ∈ rest, Own terms contract.id i
        · exact .inl hrest
        · refine .inr ⟨hs, ?_⟩
          rintro ⟨i, hi, hown⟩
          rcases List.mem_cons.1 hi with rfl | hi
          · exact hother hown
          · exact hrest ⟨i, hi, hown⟩
  | reconnecting orgId rest =>
    simp only [nextDebt]
    split_ifs with hlocked
    · exact KeepsDebt.unlocked h h hknows rfl rfl id fun _ _ => .inl trivial
    · have hfree : db.locked = false := by simpa using hlocked
      cases hr : db.reconnectContract orgId a with
      | none =>
        exact KeepsDebt.unlocked h h trivial rfl rfl id fun hclear hs =>
          absurd hs (not_stranded_of_reconnect_none h hknows hfree hclear hr)
      | some db' =>
        obtain ⟨hnot, hkept, hsame, huncommitted⟩ := reconnect_some h hfree hr
        exact KeepsDebt.unlocked h hkept trivial hsame huncommitted id fun _ hs => absurd hs hnot
  | midnight =>
    refine KeepsDebt.unlocked h ⟨h.contract, h.terms, h.locked⟩ trivial rfl rfl id fun _ hs => ?_
    exact .inr ⟨⟨hs.1, owed_of_tomorrow hs.2⟩, id⟩
  | done => exact hread trivial id id

end Statements

/-! ### Runs -/

def debtStep (s : Threads DebtDb DebtTask) (e : Turn DebtCall DebtAnswer) :
    Threads DebtDb DebtTask :=
  s.step DebtCall.start nextDebt e

/-- Every call has returned. -/
def AllReturned (s : Threads DebtDb DebtTask) : Prop := ∀ t ∈ s.threads, t = .done

/-- No call is in its transaction, and a suspended contract owes something overdue. -/
structure DebtDb.Starts (db : DebtDb) : Prop where
  unlocked : db.locked = false
  committed : db.uncommitted = none
  owed : db.contract.status = .suspended → db.owed = true

theorem DebtDb.Starts.kept {db : DebtDb} (h : db.Starts) : db.Kept db.contract db.terms := by
  refine ⟨rfl, rfl, fun hsome => ?_⟩
  rw [h.committed] at hsome
  cases hsome

theorem debts_always {db : DebtDb} (h : db.Starts) {turns : List (Turn DebtCall DebtAnswer)}
    (hclear : StepsMeet debtStep (Threads.Meets Clear) (.idle db) turns) :
    Always debtStep (fun s => s.Holds (DebtDb.Kept db.contract db.terms)
      (fun db t => t.Knows db ∧ ∀ _ : Unit, t.locks → db.locked = true)
      fun t u => ∀ _ : Unit, t.locks → ¬ u.locks) (.idle db) turns := by
  refine Threads.holds_locked (fun t (_ : Unit) => t.locks) (fun db _ => db.locked = true) ?_ ?_ ?_
    (Threads.Holds.idle h.kept) hclear
  · rintro db c
    cases c <;> trivial
  · rintro c -
    cases c <;> exact id
  · intro db t a hk hknows hlock _
    have hkeeps := nextDebt_keeps a hk hknows fun ht => hlock () ht
    exact ⟨hkeeps.kept, hkeeps.knows, hkeeps.locks, fun u hu hapart =>
      hkeeps.others u hu (hapart ())⟩

theorem visited_always {db : DebtDb} (h : db.Starts) {turns : List (Turn DebtCall DebtAnswer)}
    (hclear : StepsMeet debtStep (Threads.Meets Clear) (.idle db) turns) :
    Always debtStep (fun s => s.shared.Stranded →
      ∃ t ∈ s.threads, t.visits db.terms db.contract.id) (.idle db) turns := by
  refine (Threads.always_owed ?_ (debts_always h hclear) hclear ?_).mono fun s hs => hs.2
  · rintro db t a hk ⟨hknows, hlock⟩ hgood hs
    exact (nextDebt_keeps a hk hknows fun ht => hlock () ht).stranded hgood hs
  · rintro ⟨hsus | hsome, howed⟩
    · exact absurd (h.owed hsus) (Bool.not_eq_true _ ▸ howed)
    · exact absurd hsome (h.kept.unlocked h.unlocked)

/-- **A payment that settles the debt lifts the suspension**, in every run whose statements are
clear: once all calls have returned, a suspended contract still owes something overdue. -/
theorem suspension_lifted {db : DebtDb} (h : db.Starts) {turns : List (Turn DebtCall DebtAnswer)}
    (hclear : StepsMeet debtStep (Threads.Meets Clear) (.idle db) turns) :
    Always debtStep (fun s => AllReturned s → s.shared.contract.status = .suspended →
      s.shared.owed = true) (.idle db) turns := by
  refine (visited_always h hclear).mono fun s hvisited hreturned hsus => ?_
  by_contra howed
  obtain ⟨t, ht, hvisits⟩ := hvisited ⟨.inl hsus, by simpa using howed⟩
  rw [hreturned t ht] at hvisits
  exact hvisits

/-! ### A payment between the debt and the commit -/

/-- An active contract with one overdue invoice of a cent, and a payment of as much. -/
def owingOne : DebtDb where
  contract := ⟨1, 1, 1, .active, true, false⟩
  locked := false
  uncommitted := none
  books :=
    { payments := ⟨[⟨1, 1, 1, 1, "MXN", .completed, none, false⟩], List.nodup_singleton _⟩
      invoices := ⟨[⟨1, 1, 1, 0, 1, "MXN", .sent, false⟩], List.nodup_singleton _⟩
      allocations := Table.empty
      creditNotes := Table.empty
      applications := Table.empty
      plans := Table.empty
      installments := Table.empty
      ledger := []
      resellerEntries := [] }
  terms _ := ⟨some 1, 0, false⟩
  today := 1

/-- No failure. -/
def plain : DebtAnswer := ⟨false, false⟩

theorem owingOne_starts : owingOne.Starts := ⟨rfl, rfl, nofun⟩

/-- The rule reads the debt, the payment settles it and looks, and then the suspension commits. -/
def settledBetween : List (Turn DebtCall DebtAnswer) :=
  [.call .suspendContract, .turn 0 plain, .turn 0 plain, .turn 0 plain,
    .call (.pay (.allocateAuto 1 1 none)), .turn 1 plain, .turn 1 plain, .turn 1 plain,
    .turn 0 plain]

/-- The rule suspends, and then the payment settles and reconnects. -/
def settledAfter : List (Turn DebtCall DebtAnswer) :=
  [.call .suspendContract, .turn 0 plain, .turn 0 plain, .turn 0 plain, .turn 0 plain,
    .call (.pay (.allocateAuto 1 1 none)), .turn 1 plain, .turn 1 plain, .turn 1 plain,
    .turn 1 plain]

theorem owingOne_sumsUp : SumsUp owingOne.books ⟨1, 1, 1, 0, 1, "MXN", .sent, false⟩ := by
  intro paid hle hcovered
  have hcredit : owingOne.books.creditAppliedTo 1 = 0 := rfl
  simp only [hcredit] at hle hcovered ⊢
  obtain rfl : paid = 1 := by omega
  decide +kernel

theorem settledAfter_clear : StepsMeet debtStep (Threads.Meets Clear) (.idle owingOne)
    settledAfter := by
  refine ⟨trivial, ?_, ?_, ?_, ?_, trivial, ?_, ?_, ?_, ?_, trivial⟩
  · rintro t ⟨⟩
    trivial
  · rintro t ⟨⟩
    trivial
  · rintro t ⟨⟩
    trivial
  · rintro t ⟨⟩
    trivial
  · rintro t ⟨⟩ i hi -
    obtain rfl := List.mem_singleton.1 hi
    exact owingOne_sumsUp
  · rintro t ht
    have hlooking : (run debtStep (.idle owingOne) (settledAfter.take 7)).threads[1]? =
        some (.looking 1 [⟨1, 1, 1, 0, 1, "MXN", .sent, false⟩]) := by decide +kernel
    obtain rfl := Option.some.inj (hlooking.symm.trans ht)
    exact fun _ => .inr ⟨rfl, rfl, rfl, rfl⟩
  · rintro t ht
    have hreconnecting : (run debtStep (.idle owingOne) (settledAfter.take 8)).threads[1]? =
        some (.reconnecting 1 []) := by decide +kernel
    obtain rfl := Option.some.inj (hreconnecting.symm.trans ht)
    exact .inr rfl
  · rintro t ht
    have hlooked : (run debtStep (.idle owingOne) (settledAfter.take 9)).threads[1]? =
        some (.looking 1 []) := by decide +kernel
    obtain rfl := Option.some.inj (hlooked.symm.trans ht)
    trivial

/-- A run in which the payment looks after the commit. -/
theorem suspension_lifted_after : Always debtStep (fun s => AllReturned s →
    s.shared.contract.status = .suspended → s.shared.owed = true) (.idle owingOne) settledAfter :=
  suspension_lifted owingOne_starts settledAfter_clear

/-- **A suspension nobody lifts**: the payment looks at the contract before the suspension it
should lift is committed. -/
theorem suspension_not_lifted :
    ¬ ∀ (db : DebtDb) (turns : List (Turn DebtCall DebtAnswer)), db.Starts →
      Always debtStep (fun s => AllReturned s → s.shared.contract.status = .suspended →
        s.shared.owed = true) (.idle db) turns := by
  intro h
  have hlast := (h owingOne settledBetween owingOne_starts).last
  have hreturned : AllReturned (run debtStep (.idle owingOne) settledBetween) := by
    show ∀ t ∈ _, t = _
    decide +kernel
  have hsus : (run debtStep (.idle owingOne) settledBetween).shared.contract.status =
      .suspended := by
    decide
  have howed : (run debtStep (.idle owingOne) settledBetween).shared.owed = false := by
    decide +kernel
  rw [hlast hreturned hsus] at howed
  cases howed

end Vigabss.Suspension
