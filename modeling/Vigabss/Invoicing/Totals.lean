import Vigabss.Invoicing.Generate

/-!
# Vigabss.Invoicing.Totals — header, lines and ledger of a generated invoice

While `generateInvoice` writes, the sum of the lines is the running subtotal (`Open`); at the end
the header, the lines and the ledger agree (`Agrees`), and a statement that fails leaves nothing.
The read after the commit is the one step whose failure comes too late (`invoice_law_iff`).
-/

namespace Vigabss.Invoicing

open Vigabss.Lib Vigabss.Billing

/-! ### What an invoice should say -/

/-- The lines of an invoice. -/
def itemsOf (db : DB) (id : ℕ) : List ItemRow := db.items.filter fun item => item.invoice_id = id

/-- The ledger entries of an invoice. -/
def postingsOf (db : DB) (id : ℕ) : List InvoicePosting :=
  db.ledger.filter fun posting => posting.reference_id = id

/-- The sum of the lines of an invoice. -/
def linesTotal (db : DB) (id : ℕ) : ℤ := ((itemsOf db id).map ItemRow.amount).sum

/-- **The header, the lines and the ledger agree**: the subtotal is the sum of the lines, the tax
is the subtotal times the rate, rounded once, the total is their sum, and one debit charges it. -/
def Agrees (taxRate : ℚ) (id : ℕ) (db : DB) : Prop :=
  ∃ header debit, db.invoices.find? id = some header ∧
    header.subtotal = linesTotal db id ∧
    header.tax_amount = Money.mul (fromCents header.subtotal) taxRate ∧
    header.total = header.subtotal + header.tax_amount ∧
    postingsOf db id = [debit] ∧ debit.entry_type = .debit ∧ debit.amount = header.total

/-- Lines and ledger entries refer to invoices that were numbered before. -/
structure DB.Linked (db : DB) : Prop where
  items : ∀ item ∈ db.items, item.invoice_id < db.invoices.nextId
  ledger : ∀ posting ∈ db.ledger, posting.reference_id < db.invoices.nextId

theorem DB.Linked.itemsOf_nextId {db : DB} (h : db.Linked) : itemsOf db db.invoices.nextId = [] := by
  rw [itemsOf, List.filter_eq_nil_iff]
  intro item hitem
  have := h.items item hitem
  simp only [decide_eq_true_eq]
  omega

theorem DB.Linked.postingsOf_nextId {db : DB} (h : db.Linked) :
    postingsOf db db.invoices.nextId = [] := by
  rw [postingsOf, List.filter_eq_nil_iff]
  intro posting hposting
  have := h.ledger posting hposting
  simp only [decide_eq_true_eq]
  omega

/-! ### While the lines are written -/

/-- The invoice is open: its header as inserted, its lines summed up so far, and no debit yet. -/
structure Open (header : InvoiceRow) (id : ℕ) (runningSubtotal : ℤ) (db : DB) : Prop where
  header : db.invoices.find? id = some header
  lines : linesTotal db id = runningSubtotal
  ledger : postingsOf db id = []
  linked : db.Linked

variable {header : InvoiceRow} {id : ℕ} {runningSubtotal : ℤ}

theorem linesTotal_concat (db : DB) (item : ItemRow) (id : ℕ) :
    linesTotal { db with items := db.items ++ [item] } id =
      linesTotal db id + if item.invoice_id = id then item.amount else 0 := by
  rw [linesTotal, linesTotal, itemsOf, itemsOf, List.filter_append, List.map_append,
    List.sum_append]
  congr 1
  by_cases h : item.invoice_id = id <;> simp [h]

theorem lt_nextId_of_find? {db : DB} (h : db.invoices.find? id = some header) :
    id < db.invoices.nextId := by
  obtain ⟨hmem, hkey⟩ := Table.find?_eq_some.1 h
  exact hkey ▸ Table.key_lt_nextId hmem

theorem ensures_insertItem {item : ItemRow} (h : item.invoice_id = id) :
    Txn.Ensures (Open header id runningSubtotal) (insertItem item)
      fun _ => Open header id (runningSubtotal + item.amount) := by
  refine Txn.ensures_write fun db hdb => ⟨hdb.header, ?_, hdb.ledger, ?_, hdb.linked.ledger⟩
  · rw [linesTotal_concat, if_pos h, hdb.lines]
  · intro row hrow
    rcases List.mem_append.1 hrow with hrow | hrow
    · exact hdb.linked.items row hrow
    · rw [List.mem_singleton.1 hrow, h]
      exact lt_nextId_of_find? hdb.header

theorem ensures_expireAddon (addonId : ℕ) :
    Txn.Ensures (Open header id runningSubtotal) (expireAddon addonId)
      fun _ => Open header id runningSubtotal :=
  Txn.ensures_write fun _ hdb => ⟨hdb.header, hdb.lines, hdb.ledger, hdb.linked.items,
    hdb.linked.ledger⟩

theorem ensures_billOverage (currency : String) (overage : OverageCharge) :
    Txn.Ensures (Open header id runningSubtotal) (billOverage id currency overage runningSubtotal)
      fun running => Open header id running := by
  rw [billOverage]
  split_ifs with h
  · refine Txn.Ensures.bind (ensures_insertItem rfl) fun _ => Txn.ensures_pure fun db hdb => ?_
    rw [Money.add_fromCents]
    exact hdb
  · exact Txn.ensures_pure fun _ hdb => hdb

theorem ensures_billAddons (period : BillingPeriod) (cycleMonths : ℕ) (addons : List AddonRow)
    (runningSubtotal : ℤ) :
    Txn.Ensures (Open header id runningSubtotal)
      (billAddons id period cycleMonths addons runningSubtotal)
      fun running => Open header id running := by
  induction addons generalizing runningSubtotal with
  | nil => exact Txn.ensures_pure fun _ hdb => hdb
  | cons addon addons ih =>
    rw [billAddons]
    split
    · exact ih runningSubtotal
    · rename_i line _
      refine Txn.Ensures.bind (ensures_insertItem rfl) fun _ => ?_
      have hrest := ih (runningSubtotal + line.amount)
      rw [Money.add_fromCents]
      split_ifs
      · exact Txn.Ensures.bind (ensures_expireAddon addon.id) fun _ => hrest
      · exact hrest

variable (orgId : ℕ) (billingPeriod : PeriodRow) (contract : Contract) (plan : Plan)
  (reads : Reads)

theorem ensures_billExtras :
    Txn.Ensures (Open header id runningSubtotal)
      (billExtras billingPeriod contract plan reads id runningSubtotal)
      fun running => Open header id running := by
  rw [billExtras]
  refine Txn.Ensures.bind (Txn.ensures_keep _) fun overage => ?_
  refine Txn.Ensures.bind (ensures_billOverage _ overage) fun running => ?_
  refine Txn.Ensures.bind (Txn.ensures_keep _) fun addons => ?_
  exact ensures_billAddons _ _ addons running

/-! ### The final totals -/

/-- The header carries the totals of a subtotal. -/
def InvoiceRow.Carries (inv : InvoiceRow) (t : Totals) : Prop :=
  inv.subtotal = t.subtotal ∧ inv.tax_amount = t.taxAmount ∧ inv.total = t.total

/-- The invoice is ready for its debit: its header carries the totals of its lines. -/
def Folded (taxRate : ℚ) (id : ℕ) (finalTotal : ℤ) (db : DB) : Prop :=
  ∃ header, db.invoices.find? id = some header ∧
    header.Carries (totalsOf (linesTotal db id) taxRate) ∧ header.total = finalTotal ∧
    postingsOf db id = [] ∧ db.Linked

theorem ensures_foldTotals {first : Totals} (hfirst : first = totalsOf first.subtotal reads.taxRate)
    (hheader : header.Carries first) (running : ℤ) :
    Txn.Ensures (Open header id running) (foldTotals reads id first running)
      fun finalTotal => Folded reads.taxRate id finalTotal := by
  rw [foldTotals]
  split_ifs with h
  · refine Txn.Ensures.bind (Q := fun _ => Folded reads.taxRate id
      (totalsOf running reads.taxRate).total) (Txn.ensures_write fun db hdb => ?_)
      fun _ => Txn.ensures_pure fun _ hdb => hdb
    refine ⟨withTotals (totalsOf running reads.taxRate) header, ?_, ?_, rfl, hdb.ledger,
      ?_, ?_⟩
    · rw [Table.find?_modify, if_pos rfl, hdb.header, Option.map_some]
    · change InvoiceRow.Carries _ (totalsOf (linesTotal db id) reads.taxRate)
      rw [hdb.lines]
      exact ⟨rfl, rfl, rfl⟩
    · rw [Table.nextId_modify]
      exact hdb.linked.items
    · rw [Table.nextId_modify]
      exact hdb.linked.ledger
  · refine Txn.ensures_pure fun db hdb => ⟨header, hdb.header, ?_, hheader.2.2, hdb.ledger,
      hdb.linked⟩
    have hrunning : running = first.subtotal := by
      by_contra hne
      exact h hne
    rw [hdb.lines, hrunning, ← hfirst]
    exact hheader

theorem ensures_closePeriod {finalTotal : ℤ} {taxRate : ℚ} (periodId invoiceId : ℕ) :
    Txn.Ensures (Folded taxRate id finalTotal) (closePeriod periodId invoiceId)
      fun _ => Folded taxRate id finalTotal :=
  Txn.ensures_write fun _ hdb => by
    obtain ⟨header, hfind, hcarries, hfinal, hnone, hlinked⟩ := hdb
    exact ⟨header, hfind, hcarries, hfinal, hnone, hlinked.items, hlinked.ledger⟩

theorem ensures_insertPosting {finalTotal : ℤ} {taxRate : ℚ} {posting : InvoicePosting}
    (href : posting.reference_id = id) (htype : posting.entry_type = .debit)
    (hamount : posting.amount = finalTotal) :
    Txn.Ensures (Folded taxRate id finalTotal) (insertPosting posting)
      fun _ db => Agrees taxRate id db ∧ db.Linked := by
  refine Txn.ensures_write fun db hdb => ?_
  obtain ⟨header, hfind, ⟨hsub, htax, htotal⟩, hfinal, hnone, hlinked⟩ := hdb
  refine ⟨⟨header, posting, hfind, hsub, ?_, ?_, ?_, htype, hamount.trans hfinal.symm⟩,
    hlinked.items, ?_⟩
  · rw [htax, hsub]
    rfl
  · rw [htotal, hsub, htax]
    exact Money.add_fromCents _ _
  · change (db.ledger ++ [posting]).filter _ = _
    rw [List.filter_append, show db.ledger.filter _ = [] from hnone]
    simp [href]
  · intro row hrow
    rcases List.mem_append.1 hrow with hrow | hrow
    · exact hlinked.ledger row hrow
    · rw [List.mem_singleton.1 hrow, href]
      exact lt_nextId_of_find? hfind

/-! ### The transaction -/

theorem ensures_insertInvoice {before : DB} (hlinked : before.Linked) (invoiceNumber : String)
    (first : Totals) :
    Txn.Ensures (fun db => db = { before with sequences := db.sequences })
      (insertInvoice (newInvoice orgId billingPeriod contract plan reads invoiceNumber first)
        (key_newInvoice orgId billingPeriod contract plan reads invoiceNumber first))
      fun id db => id = before.invoices.nextId ∧
        Open (newInvoice orgId billingPeriod contract plan reads invoiceNumber first id) id 0 db := by
  refine Txn.ensures_statement fun db hdb => ?_
  have hinvoices : db.invoices = before.invoices := by rw [hdb]
  have hitems : db.items = before.items := by rw [hdb]
  have hledger : db.ledger = before.ledger := by rw [hdb]
  refine ⟨by rw [hinvoices], ⟨?_, ?_, ?_, ?_, ?_⟩⟩
  · dsimp only
    rw [Table.find?_insert, if_pos rfl]
  · change ((db.items.filter fun item => item.invoice_id = db.invoices.nextId).map _).sum = 0
    rw [hitems, hinvoices, show before.items.filter _ = [] from hlinked.itemsOf_nextId]
    rfl
  · change db.ledger.filter (fun posting => posting.reference_id = db.invoices.nextId) = []
    rw [hledger, hinvoices]
    exact hlinked.postingsOf_nextId
  · intro item hitem
    have := hlinked.items item (hitems ▸ hitem)
    dsimp only
    rw [Table.nextId_insert, hinvoices]
    omega
  · intro posting hposting
    have := hlinked.ledger posting (hledger ▸ hposting)
    dsimp only
    rw [Table.nextId_insert, hinvoices]
    omega

theorem ensures_nextInvoiceNumber (before : DB) :
    Txn.Ensures (· = before) (nextInvoiceNumber orgId)
      fun _ db => db = { before with sequences := db.sequences } := by
  rw [nextInvoiceNumber]
  refine Txn.Ensures.bind (Q := fun _ db => db = { before with sequences := db.sequences })
    (Txn.ensures_statement fun db hdb => ?_) fun _ => ?_
  · rw [← hdb]
  · exact Txn.Ensures.bind (Txn.ensures_keep _)
      fun _ => Txn.ensures_pure fun _ hdb => hdb

/-- **What the writes leave**: a new invoice whose header, lines and ledger agree. -/
theorem ensures_writeInvoice {before : DB} (hlinked : before.Linked) :
    Txn.Ensures (· = before) (writeInvoice orgId billingPeriod contract plan reads)
      fun id db => id = before.invoices.nextId ∧ Agrees reads.taxRate id db ∧ db.Linked := by
  have hround : ∀ price : ℤ, Money.round (fromCents price) = price := cents_fromCents
  rw [writeInvoice]
  refine Txn.Ensures.bind (ensures_nextInvoiceNumber orgId before) fun invoiceNumber => ?_
  refine Txn.Ensures.bind (ensures_insertInvoice orgId billingPeriod contract plan reads hlinked
    invoiceNumber _) fun id => ?_
  refine Txn.ensures_of_fact fun hid => ?_
  refine Txn.Ensures.bind (ensures_insertItem rfl) fun _ => ?_
  rw [zero_add]
  have hprice : (totalsOf (Money.round (fromCents (effectivePrice contract plan reads)))
      reads.taxRate).subtotal = effectivePrice contract plan reads := hround _
  rw [hprice]
  refine Txn.Ensures.bind (ensures_billExtras billingPeriod contract plan reads) fun running => ?_
  refine Txn.Ensures.bind (ensures_foldTotals reads (by rw [hprice, hround]) ⟨rfl, rfl, rfl⟩ running)
    fun finalTotal => ?_
  refine Txn.Ensures.bind (ensures_closePeriod billingPeriod.id id) fun _ => ?_
  refine Txn.Ensures.bind (ensures_insertPosting rfl rfl rfl) fun _ => ?_
  exact Txn.ensures_pure fun db hdb => ⟨hid, hdb⟩

theorem ensures_invoiceTxn {before : DB} (hlinked : before.Linked) :
    Txn.Ensures (· = before) (invoiceTxn orgId billingPeriod contract plan reads)
      fun id db => if (settledPeriod billingPeriod before).isSome then db = before
        else id = some before.invoices.nextId ∧
          Agrees reads.taxRate before.invoices.nextId db ∧ db.Linked := by
  rw [invoiceTxn]
  refine Txn.Ensures.bind (Q := fun locked db => locked = settledPeriod billingPeriod before ∧
    db = before) (Txn.ensures_read fun db hdb => ⟨by rw [hdb], hdb⟩) fun locked => ?_
  refine Txn.ensures_of_fact fun hlocked => ?_
  rw [← hlocked]
  cases locked with
  | some row => exact Txn.ensures_pure fun db hdb => hdb
  | none =>
    refine Txn.Ensures.bind (Txn.ensures_keep _) fun _ => ?_
    refine Txn.Ensures.bind (Txn.ensures_keep _) fun _ => ?_
    refine Txn.Ensures.bind (ensures_writeInvoice orgId billingPeriod contract plan reads hlinked)
      fun id => Txn.ensures_of_fact fun hid => Txn.ensures_pure fun db hdb => ?_
    subst hid
    exact ⟨rfl, hdb⟩

theorem succeeds_billAddons (invoiceId : ℕ) (period : BillingPeriod) (cycleMonths : ℕ)
    (addons : List AddonRow) (runningSubtotal : ℤ) :
    Txn.Succeeds (billAddons invoiceId period cycleMonths addons runningSubtotal) := by
  induction addons generalizing runningSubtotal with
  | nil => exact Txn.succeeds_pure _
  | cons addon addons ih =>
    rw [billAddons]
    split
    · exact ih runningSubtotal
    · refine (Txn.succeeds_statement _).bind fun _ => ?_
      split_ifs
      · exact (Txn.succeeds_statement _).bind fun _ => ih _
      · exact ih _

theorem succeeds_billExtras (invoiceId : ℕ) (subtotal : ℤ) :
    Txn.Succeeds (billExtras billingPeriod contract plan reads invoiceId subtotal) := by
  rw [billExtras]
  refine (Txn.succeeds_statement _).bind fun overage => ?_
  have hoverage : Txn.Succeeds
      (billOverage invoiceId (invoiceCurrency plan reads) overage subtotal) := by
    rw [billOverage]
    split_ifs
    · exact (Txn.succeeds_statement _).bind fun _ => Txn.succeeds_pure _
    · exact Txn.succeeds_pure _
  refine hoverage.bind fun running => ?_
  exact (Txn.succeeds_statement _).bind fun addons => succeeds_billAddons _ _ _ addons running

/-- Without a fault the transaction goes through. -/
theorem succeeds_invoiceTxn :
    Txn.Succeeds (invoiceTxn orgId billingPeriod contract plan reads) := by
  rw [invoiceTxn]
  refine (Txn.succeeds_statement _).bind fun locked => ?_
  cases locked with
  | some row => exact Txn.succeeds_pure _
  | none =>
    refine (Txn.succeeds_statement _).bind fun _ => (Txn.succeeds_statement _).bind fun _ => ?_
    refine Txn.Succeeds.bind ?_ fun _ => Txn.succeeds_pure _
    rw [writeInvoice]
    have hnumber : Txn.Succeeds (nextInvoiceNumber orgId) :=
      (Txn.succeeds_statement _).bind fun _ => (Txn.succeeds_statement _).bind fun _ =>
        Txn.succeeds_pure _
    refine hnumber.bind fun number => (Txn.succeeds_statement _).bind fun id => ?_
    refine (Txn.succeeds_statement _).bind fun _ => ?_
    refine (succeeds_billExtras billingPeriod contract plan reads id _).bind fun running => ?_
    have hfold : ∀ first : Totals, Txn.Succeeds (foldTotals reads id first running) := by
      intro first
      rw [foldTotals]
      split_ifs
      · exact (Txn.succeeds_statement _).bind fun _ => Txn.succeeds_pure _
      · exact Txn.succeeds_pure _
    refine (hfold _).bind fun finalTotal => ?_
    exact (Txn.succeeds_statement _).bind fun _ => (Txn.succeeds_statement _).bind fun _ =>
      Txn.succeeds_pure _

/-! ### The whole function -/

/-- The law of `generateInvoice` on a database: whatever statement fails, an error leaves the
database as it was, and an invoice that is there afterwards agrees with its lines and its debit. -/
def InvoiceLaw (given : Option Plan) (db : DB) : Prop :=
  ∀ faults, let result := generateInvoice orgId billingPeriod contract reads given faults db
    (∀ message, result.1 = .error message → result.2 = db) ∧
      (result.2 ≠ db → Agrees reads.taxRate db.invoices.nextId result.2)

/-- What `generateInvoice` leaves: the database as it was, or a new invoice that agrees. -/
theorem generateInvoice_cases (given : Option Plan) {db : DB} (hlinked : db.Linked)
    (faults : Faults) :
    let result := generateInvoice orgId billingPeriod contract reads given faults db
    result.2 = db ∨ (settledPeriod billingPeriod db = none ∧
      Agrees reads.taxRate db.invoices.nextId result.2 ∧ result.2.Linked ∧
      ∀ message, result.1 = .error message → reads.readBack.isSome) := by
  dsimp only
  rw [generateInvoice]
  cases hplan : resolveFullPlan contract given reads with
  | error message => exact Or.inl rfl
  | ok plan =>
    have hensures := ensures_invoiceTxn orgId billingPeriod contract plan reads hlinked
    rcases Txn.atomically_cases hensures faults with ⟨e, heq⟩ | ⟨id, after, heq, hafter⟩
    · left
      simp only [heq]
    · simp only [heq]
      by_cases hsettled : (settledPeriod billingPeriod db).isSome
      · rw [if_pos hsettled] at hafter
        left
        cases findById reads id after with
        | ok invoice => exact hafter
        | error message =>
          simp only [if_pos hsettled]
          exact hafter
      · rw [if_neg hsettled] at hafter
        right
        refine ⟨by simpa using hsettled, ?_⟩
        cases hread : reads.readBack with
        | none => simp [findById, hread, hafter.2.1, hafter.2.2]
        | some message => simp [findById, hread, hafter.2.1, hafter.2.2, if_neg hsettled]

/-- A new invoice is committed before it is read back: when that read fails, the call answers with
an error and the invoice is there. -/
theorem committed_before_read {given : Option Plan} {db : DB} (hlinked : db.Linked) {plan : Plan}
    (hplan : given.or reads.planRow = some plan) {message : String}
    (hread : reads.readBack = some message)
    (hsettled : ¬ (settledPeriod billingPeriod db).isSome) :
    let result := generateInvoice orgId billingPeriod contract reads given noFaults db
    result.1 = .error (generationError contract message) ∧ result.2 ≠ db := by
  have hensures := ensures_invoiceTxn orgId billingPeriod contract plan reads hlinked
  obtain ⟨r, hr⟩ := succeeds_invoiceTxn orgId billingPeriod contract plan reads 0 db
  have hafter := hensures noFaults 0 db rfl r hr
  simp only [if_neg hsettled] at hafter
  obtain ⟨header, _, hfind, _⟩ := hafter.2.1
  have hgenerate : generateInvoice orgId billingPeriod contract reads given noFaults db =
      (.error (generationError contract message), r.2.2) := by
    simp only [generateInvoice, resolveFullPlan, hplan, Txn.atomically, hr, findById, hread,
      if_neg hsettled]
  dsimp only
  rw [hgenerate]
  refine ⟨rfl, fun hsame => ?_⟩
  dsimp only at hsame
  rw [hsame, Table.find?_nextId] at hfind
  cases hfind

/-- **When a failure leaves nothing**: unless a new invoice is committed and the read of it after
the commit fails.  Header, lines and ledger agree in any case. -/
theorem invoice_law_iff (given : Option Plan) {db : DB} (hlinked : db.Linked) :
    InvoiceLaw orgId billingPeriod contract reads given db ↔
      reads.readBack = none ∨ given.or reads.planRow = none ∨
        (settledPeriod billingPeriod db).isSome := by
  constructor
  · intro hlaw
    by_contra hnot
    push_neg at hnot
    obtain ⟨hread, hplan, hsettled⟩ := hnot
    obtain ⟨message, hmessage⟩ := Option.ne_none_iff_exists'.1 hread
    obtain ⟨plan, hplan⟩ := Option.ne_none_iff_exists'.1 hplan
    obtain ⟨herror, hne⟩ := committed_before_read orgId billingPeriod contract reads hlinked hplan
      hmessage hsettled
    exact hne ((hlaw noFaults).1 _ herror)
  · intro hcond faults
    dsimp only
    have hcases := generateInvoice_cases orgId billingPeriod contract reads given hlinked faults
    dsimp only at hcases
    constructor
    · intro message herror
      rcases hcases with hsame | ⟨hnone, _, _, hread⟩
      · exact hsame
      · have hread := hread message herror
        rcases hcond with hnoread | hnoplan | hsome
        · rw [hnoread] at hread
          cases hread
        · rw [generateInvoice, resolveFullPlan, hnoplan]
        · rw [hnone] at hsome
          cases hsome
    · intro hne
      rcases hcases with hsame | ⟨_, hagrees, _, _⟩
      · exact absurd hsame hne
      · exact hagrees

/-! ### An invoice that is committed and reported as failed -/

/-- March of 2026, to be invoiced. -/
def march : PeriodRow where
  id := 1
  contract_id := 1
  period := ⟨⟨24314, 1, by decide⟩, ⟨24314, 31, by decide⟩, .pending, ⟨24314, 1, by decide⟩⟩
  invoice_id := none

theorem first_is_billing_day : (1 : ℤ) ≤ 1 ∧ (1 : ℤ) ≤ 28 := by decide

theorem january_2026_starts : (1 : ℤ) ≤ 1 ∧ 1 ≤ daysIn 24312 := by decide

/-- A contract on the plan below, from 1 January 2026. -/
def homeContract : Contract :=
  ⟨1, 1, 1, none, none, ⟨none, ⟨24312, 1, january_2026_starts⟩, 1, first_is_billing_day⟩⟩

/-- What is read, and the read of the invoice that fails. -/
def lostConnection : Reads where
  planRow := some ⟨"Home 100", 50000, some "MXN", some .monthly, .none, 0, 0⟩
  orgCurrency := "MXN"
  taxRate := 16 / 100
  taxRateId := none
  usage := none
  extraGb := 0
  now := ⟨24315, 1, by decide⟩
  businessToday := ⟨24315, 1, by decide⟩
  readBack := some "Connection lost"

/-- A database with the period of March alone. -/
def marchOnly : DB where
  invoices := ⟨[], List.nodup_nil⟩
  items := []
  ledger := []
  periods := ⟨[march], List.nodup_singleton _⟩
  addons := ⟨[], List.nodup_nil⟩
  sequences := fun _ => 1

theorem marchOnly_linked : marchOnly.Linked :=
  ⟨fun _ h => absurd h List.not_mem_nil, fun _ h => absurd h List.not_mem_nil⟩

theorem invoice_law_iff_march :
    marchOnly.Linked ∧ (InvoiceLaw 1 march homeContract lostConnection none marchOnly ↔
      lostConnection.readBack = none ∨ Option.or none lostConnection.planRow = none ∨
        (settledPeriod march marchOnly).isSome) :=
  ⟨marchOnly_linked, invoice_law_iff 1 march homeContract lostConnection none marchOnly_linked⟩

theorem committed_invoice_reported_as_failed :
    ¬ InvoiceLaw 1 march homeContract lostConnection none marchOnly := by
  intro hlaw
  have hplan : Option.or none lostConnection.planRow =
      some ⟨"Home 100", 50000, some "MXN", some .monthly, .none, 0, 0⟩ := rfl
  obtain ⟨herror, hne⟩ := committed_before_read 1 march homeContract lostConnection
    marchOnly_linked hplan rfl (by decide)
  exact hne ((hlaw noFaults).1 _ herror)

end Vigabss.Invoicing
