import Vigabss.Billing.GroupCredits

/-!
# Vigabss.Billing.GroupLedger — the ledger credits of a group payment

Each member is credited what was applied to its invoices, the primary also the rest.  Restoring a
deleted payment credits the whole of it to its client, so a member loses its credit to the primary:
`group_credits_iff` says exactly when both laws hold.
-/

namespace Vigabss.Billing

open Vigabss.Lib

/-! ### The books of a group payment -/

def LedgerEntry.signed (e : LedgerEntry) : ℤ :=
  match e.entryType with
  | .credit => e.amount
  | .debit => -e.amount

/-- A client's balance in a currency, positive for credit. -/
def Db.ledgerBalance (db : Db) (clientId : ℕ) (currency : String) : ℤ :=
  Journal.net (fun e : LedgerEntry => (e.clientId, e.currency)) LedgerEntry.signed db.ledger
    (clientId, currency)

/-- The credits of a payment. -/
def Db.paymentCredits (db : Db) (paymentId : ℕ) : List LedgerEntry :=
  db.ledger.filter fun e =>
    e.entryType = .credit ∧ e.referenceType = .payment ∧ e.referenceId = paymentId

/-- What a payment credits to a client. -/
def Db.creditedTo (db : Db) (paymentId clientId : ℕ) : ℤ :=
  Journal.net LedgerEntry.clientId LedgerEntry.amount (db.paymentCredits paymentId) clientId

/-- The law of the credits: each client gets what is applied to its invoices, the primary also what
is not applied, and together they are the payment. -/
structure CreditsFollow (db : Db) (payment : Payment) (primaryId : ℕ) : Prop where
  client : ∀ c, db.creditedTo payment.id c = db.appliedFor payment.id c +
    if c = primaryId then payment.amount - db.allocatedOf payment.id else 0
  total : ((db.paymentCredits payment.id).map LedgerEntry.amount).sum = payment.amount

/-- What the columns and the keys see to. -/
structure GroupTables (db : Db) : Prop where
  totals : ∀ i, ∀ t ∈ db.invoiceTotal i, t ≤ decimalMax
  covered : ∀ i, 0 ≤ db.coveredOf i
  payer : ∀ a ∈ db.allocations.rows, (db.paymentTotal a.paymentId).isSome = true
  credited : ∀ e ∈ db.ledger, e.referenceType = .payment →
    (db.paymentTotal e.referenceId).isSome = true

/-! ### A settled group payment -/

theorem settleGroup_ok {db : Db} {orgId primaryId : ℕ} {currency : String} {amount : ℚ}
    {rows : List OpenInvoice} {paid : GroupPaid}
    (h : settleGroup db orgId primaryId currency amount rows = .ok paid) :
    paid.payment = groupPayment orgId primaryId amount currency db.payments.nextId ∧
      paid.payment.amount ≤ decimalMax ∧
      ∃ done, spread paid.payment { db with
        payments := db.payments.insert (groupPayment orgId primaryId amount currency)
          (key_groupPayment orgId primaryId amount currency) } amount rows = .ok done ∧
        paid.db = writeGroupLedgerCredits done.db orgId paid.payment.id currency
          (groupCredits done.settled primaryId amount) := by
  unfold settleGroup at h
  obtain ⟨hfits, h⟩ := check_ok h
  obtain ⟨done, hdone, h⟩ := except_bind_ok.1 h
  obtain rfl := Except.ok.inj h
  exact ⟨rfl, not_lt.1 hfits, done, hdone, rfl⟩

/-- The ledger row of a credit. -/
def creditRow (orgId paymentId : ℕ) (currency : String) (e : ℕ × ℤ) : LedgerEntry :=
  ⟨e.1, orgId, .credit, e.2, currency, .payment, paymentId⟩

theorem ledger_writeGroupLedgerCredits {db : Db} {orgId paymentId : ℕ} {currency : String}
    {entries : List (ℕ × ℤ)} (h : Entered entries) :
    (writeGroupLedgerCredits db orgId paymentId currency (numbers entries)).ledger =
      db.ledger ++ entries.map (creditRow orgId paymentId currency) := by
  rw [writeGroupLedgerCredits, numbers, List.map_map]
  refine congrArg (db.ledger ++ ·) (List.map_congr_left fun e he => ?_)
  have hle := (le_abs_self e.2).trans (h.le he)
  simp only [Function.comp, creditRow, toDecimal_number_nonneg (h.pos e he).le hle]

/-- What a group payment has written. -/
structure SettledBooks (db db' : Db) (payment : Payment) (ss : List (OpenInvoice × ℤ)) : Prop where
  amount_le : payment.amount ≤ decimalMax
  shared : shareSum ss ≤ payment.amount
  found : db'.payments.find? payment.id = some payment
  ledger : db'.ledger = db.ledger ++ (creditCents ss payment.clientId payment.amount).map
    (creditRow payment.organizationId payment.id payment.currency)
  applied : ∀ c, db'.appliedFor payment.id c = shareOf ss c
  allocated : db'.allocatedOf payment.id = shareSum ss
  unposted : ∀ e ∈ db.ledger, e.referenceType = .payment → e.referenceId ≠ payment.id

theorem settled_books {db : Db} {orgId primaryId : ℕ} {currency : String} {cents : ℤ}
    {rows : List OpenInvoice} {paid : GroupPaid} (hdb : GroupTables db)
    (hrows : ∀ payment, payment.id = db.payments.nextId → Payable payment rows db)
    (hcents : 0 < number cents)
    (h : settleGroup db orgId primaryId currency (number cents) rows = .ok paid) :
    paid.payment.clientId = primaryId ∧ paid.payment.amount = cents ∧
      SettledBooks db paid.db paid.payment (shares cents rows) := by
  obtain ⟨hpayment, hfits, done, hdone, hpaid⟩ := settleGroup_ok h
  have hle : cents ≤ decimalMax := le_of_toDecimal_number (by rwa [hpayment] at hfits)
  have h0 : 0 < cents := by
    by_contra hneg
    have hq : (cents : ℚ) ≤ 0 := by exact_mod_cast not_lt.1 hneg
    exact absurd hcents (not_lt.2 (fl_nonpos (by linarith)))
  have hamount : paid.payment.amount = cents := by
    rw [hpayment]
    exact toDecimal_number_nonneg h0.le (hle.trans (by norm_num [decimalMax]))
  have hid : paid.payment.id = db.payments.nextId := by rw [hpayment]; rfl
  have hnone : db.paymentTotal paid.payment.id = none := by
    rw [Db.paymentTotal, hid, Table.find?_nextId, Option.map_none]
  -- nothing refers to the new payment yet
  have hfresh : ∀ a ∈ db.allocations.rows, a.paymentId ≠ paid.payment.id := by
    intro a ha he
    have := hdb.payer a ha
    rw [he, hnone] at this
    cases this
  obtain ⟨hpaydue, hdistinct, hclients, hfreshRows⟩ := hrows paid.payment hid
  have hstart : Payable paid.payment rows { db with
      payments := db.payments.insert (groupPayment orgId primaryId (number cents) currency)
        (key_groupPayment orgId primaryId (number cents) currency) } :=
    ⟨hpaydue, hdistinct, hclients, hfreshRows⟩
  obtain ⟨hspread, hsettled⟩ := spread_ok hstart h0.le hle hdone
  have hpos : ∀ s ∈ shares cents rows, 0 < s.2 := fun s => shares_pos
  have hshared := shareSum_le h0.le rows
  have hentered : Entered (creditCents (shares cents rows) primaryId cents) :=
    creditCents_entered hpos hshared hle
  have hcredits : groupCredits done.settled primaryId (number cents) =
      numbers (creditCents (shares cents rows) primaryId cents) := by
    rw [hsettled]
    exact groupCredits_eq hpos hshared hle
  rw [hcredits] at hpaid
  have hzero : ∀ p : PaymentAllocation → Bool,
      (∀ a, p a = true → ofPayment paid.payment.id a = true) →
        db.allocations.sum p PaymentAllocation.amount = 0 := by
    intro p hp
    rw [Table.sum_eq]
    refine List.sum_eq_zero fun v hv => ?_
    obtain ⟨a, ha, rfl⟩ := List.mem_map.1 hv
    refine if_neg fun hpa => ?_
    have := hp a hpa
    simp only [ofPayment, decide_eq_true_eq] at this
    exact hfresh a ha this.1
  refine ⟨by rw [hpayment]; rfl, hamount, ?_⟩
  exact {
    amount_le := hfits
    shared := by rwa [hamount]
    found := by
      have hpayments : paid.db.payments = _ := (congrArg Db.payments hpaid).trans hspread.payments
      rw [hpayments, Table.find?_insert, if_pos hid, hpayment]
    ledger := by
      rw [hpaid, ledger_writeGroupLedgerCredits hentered, hspread.ledger, hamount, hpayment]
      rfl
    applied := fun c => by
      have hstart0 : Db.appliedFor _ paid.payment.id c = 0 :=
        hzero (forClient _ paid.payment.id c) fun a ha => (Bool.and_eq_true _ _ ▸ ha).1
      rw [hpaid]
      exact (hspread.applied c).trans ((congrArg (· + _) hstart0).trans (zero_add _))
    allocated := by
      have hstart0 : Db.allocatedOf _ paid.payment.id = 0 :=
        hzero (ofPayment paid.payment.id) fun _ => id
      rw [hpaid]
      exact hspread.allocated.trans ((congrArg (· + _) hstart0).trans (zero_add _))
    unposted := by
      intro e he hpay hid'
      have := hdb.credited e he hpay
      rw [hid', hnone] at this
      cases this }

/-! ### The request -/

theorem loadSharedGroup_ok {group : Option ClientGroup} {members : List ℕ} {primaryId : ℕ}
    (h : loadSharedGroup group = .ok (members, primaryId)) : members.Nodup := by
  unfold loadSharedGroup at h
  cases group with
  | none => cases h
  | some g =>
    dsimp only at h
    split_ifs at h
    cases hp : g.primary_client_id with
    | none => simp [hp] at h
    | some primary =>
      simp only [hp] at h
      split_ifs at h
      obtain ⟨rfl, -⟩ := Prod.mk.inj (Except.ok.inj h)
      exact g.nodup

theorem requestedInvoices_ok {rows rows' : List OpenInvoice} {ids : Option (List ℕ)}
    (h : requestedInvoices rows ids = .ok rows') : rows'.Sublist rows := by
  unfold requestedInvoices at h
  cases ids with
  | none => exact Except.ok.inj h ▸ List.Sublist.refl _
  | some ids =>
    dsimp only at h
    split_ifs at h
    exact Except.ok.inj h ▸ List.filter_sublist

theorem invoicesIn_ok {rows rows' : List OpenInvoice} {currency : Option String}
    (h : invoicesIn rows currency = .ok rows') : rows'.Sublist rows := by
  unfold invoicesIn at h
  cases currency with
  | none => exact Except.ok.inj h ▸ List.Sublist.refl _
  | some wanted =>
    dsimp only at h
    split_ifs at h
    exact Except.ok.inj h ▸ List.filter_sublist

theorem groupAmount_ok {rows : List OpenInvoice} {asked : Option ℚ} {amount : ℚ}
    (h : groupAmount rows asked = .ok amount) : 0 < amount ∧ ∃ cents, amount = number cents := by
  unfold groupAmount at h
  dsimp only at h
  split_ifs at h with hpos
  obtain rfl := Except.ok.inj h
  refine ⟨hpos, ?_⟩
  cases asked with
  | none => exact ⟨_, rfl⟩
  | some asked => exact ⟨_, rfl⟩

theorem groupRequest_ok {db : Db} {group : Option ClientGroup} {orgId : ℕ} {orgCurrency : String}
    {opts : GroupOpts} {r : GroupRequest} (h : groupRequest db group orgId orgCurrency opts = .ok r) :
    (∃ members : List ℕ, members.Nodup ∧ r.rows.Sublist (groupInvoices db orgId members)) ∧
      0 < r.amount ∧ ∃ cents, r.amount = number cents := by
  unfold groupRequest at h
  obtain ⟨⟨members, primaryId⟩, hgroup, h⟩ := except_bind_ok.1 h
  obtain ⟨rows₁, hrows₁, h⟩ := except_bind_ok.1 h
  obtain ⟨rows₂, hrows₂, h⟩ := except_bind_ok.1 h
  obtain ⟨currency, -, h⟩ := except_bind_ok.1 h
  obtain ⟨amount, hamount, h⟩ := except_bind_ok.1 h
  obtain rfl := Except.ok.inj h
  exact ⟨⟨members, loadSharedGroup_ok hgroup,
    (invoicesIn_ok hrows₂).trans (requestedInvoices_ok hrows₁)⟩, groupAmount_ok hamount⟩

theorem mem_groupInvoices {db : Db} {orgId : ℕ} {members : List ℕ} {x : OpenInvoice}
    (h : x ∈ groupInvoices db orgId members) :
    db.invoices.find? x.invoice.id = some x.invoice ∧
      x.balanceDue = x.invoice.total - db.coveredOf x.invoice.id := by
  rw [groupInvoices, List.mem_insertionSort, List.mem_flatMap] at h
  obtain ⟨m, -, h⟩ := h
  obtain ⟨hfind, -, hbalance⟩ := mem_getInvoicesWithBalance h
  exact ⟨hfind, hbalance⟩

theorem client_of_mem {db : Db} {orgId clientId : ℕ} {ids : Option (List ℕ)} {x : OpenInvoice}
    (h : x ∈ getInvoicesWithBalance db orgId clientId ids) : x.invoice.clientId = clientId := by
  rw [getInvoicesWithBalance, List.mem_insertionSort] at h
  obtain ⟨i, hi, rfl⟩ := List.mem_map.1 h
  have hcond := (List.mem_filter.1 hi).2
  simp only [decide_eq_true_eq] at hcond
  exact hcond.1

theorem groupInvoices_nodup {db : Db} {orgId : ℕ} {members : List ℕ} (h : members.Nodup) :
    ((groupInvoices db orgId members).map fun x => x.invoice.id).Nodup := by
  have hperm := (List.perm_insertionSort olderFirst
    (members.flatMap fun m => getInvoicesWithBalance db orgId m none)).map fun x => x.invoice.id
  refine hperm.nodup_iff.2 ?_
  rw [List.map_flatMap, List.nodup_flatMap]
  refine ⟨fun m _ => getInvoicesWithBalance_nodup db orgId m none, ?_⟩
  refine h.imp fun {m n} hne => ?_
  -- one invoice is of one client
  intro i hm hn
  obtain ⟨x, hx, rfl⟩ := List.mem_map.1 hm
  obtain ⟨y, hy, hid⟩ := List.mem_map.1 hn
  obtain ⟨hfindx, -, -⟩ := mem_getInvoicesWithBalance hx
  obtain ⟨hfindy, -, -⟩ := mem_getInvoicesWithBalance hy
  rw [hid, hfindx, Option.some.injEq] at hfindy
  exact hne ((client_of_mem hx).symm.trans (hfindy ▸ client_of_mem hy))

theorem payable_of_request {db : Db} {orgId : ℕ} {members : List ℕ} {rows : List OpenInvoice}
    {payment : Payment} (hdb : GroupTables db) (hm : members.Nodup)
    (hrows : rows.Sublist (groupInvoices db orgId members))
    (hid : payment.id = db.payments.nextId) : Payable payment rows db where
  due x hx := by
    obtain ⟨hfind, hbalance⟩ := mem_groupInvoices (hrows.subset hx)
    have htotal := hdb.totals x.invoice.id x.invoice.total (by
      rw [Db.invoiceTotal, hfind]
      rfl)
    have := hdb.covered x.invoice.id
    omega
  distinct := (hrows.map _).nodup (groupInvoices_nodup hm)
  clients x hx := by
    rw [Db.clientOf, (mem_groupInvoices (hrows.subset hx)).1]
    rfl
  fresh x _ a ha hlive := by
    have hpayer := hdb.payer a ha
    simp only [ofPayment, decide_eq_true_eq] at hlive
    rw [hlive.1, Db.paymentTotal, hid, Table.find?_nextId] at hpayer
    cases hpayer

/-! ### The law of the credits -/

section Law

variable {db db' : Db} {payment : Payment} {ss : List (OpenInvoice × ℤ)} (hpos : ∀ s ∈ ss, 0 < s.2)
  (h : SettledBooks db db' payment ss)

include h in
theorem SettledBooks.credits : db'.paymentCredits payment.id =
    (creditCents ss payment.clientId payment.amount).map
      (creditRow payment.organizationId payment.id payment.currency) := by
  rw [Db.paymentCredits, h.ledger, List.filter_append]
  have hold : db.ledger.filter (fun e => decide (e.entryType = .credit ∧
      e.referenceType = .payment ∧ e.referenceId = payment.id)) = [] := by
    refine List.filter_eq_nil_iff.2 fun e he => ?_
    simp only [decide_eq_true_eq]
    rintro ⟨-, hpay, hid⟩
    exact h.unposted e he hpay hid
  rw [hold, List.nil_append]
  refine List.filter_eq_self.2 fun e he => ?_
  obtain ⟨d, -, rfl⟩ := List.mem_map.1 he
  exact decide_eq_true ⟨rfl, rfl, rfl⟩

include hpos h in
/-- **The credits follow the shares** just when the rest is credited exactly. -/
theorem SettledBooks.follow_iff : CreditsFollow db' payment payment.clientId ↔
    creditedRest ss payment.amount = payment.amount - shareSum ss := by
  have hcredited : ∀ c, db'.creditedTo payment.id c = shareOf ss c +
      if c = payment.clientId then creditedRest ss payment.amount else 0 := by
    intro c
    rw [Db.creditedTo, h.credits, Journal.net_map]
    exact net_creditCents hpos h.shared h.amount_le c
  constructor
  · intro hfollow
    have := hfollow.client payment.clientId
    rw [hcredited, if_pos rfl, if_pos rfl, h.applied, h.allocated] at this
    omega
  · intro hrest
    refine ⟨fun c => ?_, ?_⟩
    · rw [hcredited, h.applied, h.allocated, hrest]
    · rw [h.credits, List.map_map]
      have htotal : ((creditCents ss payment.clientId payment.amount).map Prod.snd).sum =
          shareSum ss + creditedRest ss payment.amount :=
        sum_creditCents hpos h.shared h.amount_le
      rw [hrest] at htotal
      exact htotal.trans (by ring)

end Law

/-! ### Deleting and restoring -/

theorem moveAllocations_keeps {db db' : Db} {cond : PaymentAllocation → Bool} {deleted : Bool}
    (h : moveAllocations db cond deleted = .ok db') :
    db'.ledger = db.ledger ∧ db'.payments = db.payments := by
  obtain ⟨-, rfl⟩ := moveAllocations_ok.1 h
  rw [refreshAll_eq, Db.markAll_eq]
  exact ⟨rfl, rfl⟩

/-- The ledger without the credits of a payment. -/
def withoutPayment (ledger : List LedgerEntry) (paymentId : ℕ) : List LedgerEntry :=
  ledger.filter fun e => ¬ (e.referenceType = .payment ∧ e.referenceId = paymentId)

theorem withoutPayment_twice (ledger : List LedgerEntry) (paymentId : ℕ) :
    withoutPayment (withoutPayment ledger paymentId) paymentId =
      withoutPayment ledger paymentId := by
  simp [withoutPayment, List.filter_filter]

/-- A restored payment is credited to its client in one row. -/
theorem restored_ledger {db deleted restored : Db} {orgId : ℕ} {payment : Payment}
    {bindingRep : Option String} (hfind : db.payments.find? payment.id = some payment)
    (hdel : deletePayment db orgId payment.id bindingRep = .ok deleted)
    (hres : restorePayment deleted orgId payment.id = .ok restored) :
    restored.ledger = withoutPayment db.ledger payment.id ++
      [creditRow orgId payment.id payment.currency (payment.clientId, payment.amount)] := by
  obtain ⟨old, hold, -, db₁, hmove, rfl⟩ := deletePayment_ok.1 hdel
  obtain rfl : payment = old :=
    Option.some.inj (hfind.symm.trans (findPayment_some.1 hold).1)
  obtain ⟨hledger₁, hpayments₁⟩ := moveAllocations_keeps hmove
  obtain ⟨gone, hgone, -, -, -, -, hmove₂⟩ := restorePayment_ok.1 hres
  have hgone' : gone = { payment with deleted := true } := by
    have hset : (db₁.setPayment payment.id id true).payments.find? payment.id = _ :=
      Table.find?_modify db₁.payments payment.id payment.id
        (fun p => { p with status := id p.status, deleted := true }) fun _ => rfl
    have hfind₁ : db₁.payments.find? payment.id = some payment := by
      rw [hpayments₁]
      exact hfind
    rw [hset, if_pos rfl, hfind₁] at hgone
    exact (Option.some.inj hgone).symm
  subst hgone'
  obtain ⟨hledger₂, -⟩ := moveAllocations_keeps hmove₂
  rw [hledger₂]
  refine congrArg (· ++ _) ?_
  refine (congrArg (fun l => withoutPayment l payment.id) hledger₁).trans ?_
  exact withoutPayment_twice db.ledger payment.id

section Restored

variable {db db' deleted restored : Db} {orgId : ℕ} {payment : Payment}
  {ss : List (OpenInvoice × ℤ)} {bindingRep : Option String} (hpos : ∀ s ∈ ss, 0 < s.2)
  (h : SettledBooks db db' payment ss)
  (hdel : deletePayment db' orgId payment.id bindingRep = .ok deleted)
  (hres : restorePayment deleted orgId payment.id = .ok restored)

include h hdel hres in
theorem SettledBooks.ledger_restored : restored.ledger = db.ledger ++
    [creditRow orgId payment.id payment.currency (payment.clientId, payment.amount)] := by
  rw [restored_ledger h.found hdel hres, h.ledger, withoutPayment, List.filter_append]
  have hold : withoutPayment db.ledger payment.id = db.ledger :=
    List.filter_eq_self.2 fun e he => decide_eq_true fun hpay => h.unposted e he hpay.1 hpay.2
  have hnew : ((creditCents ss payment.clientId payment.amount).map
      (creditRow payment.organizationId payment.id payment.currency)).filter
        (fun e => ¬ (e.referenceType = .payment ∧ e.referenceId = payment.id)) = [] := by
    refine List.filter_eq_nil_iff.2 fun e he => ?_
    obtain ⟨d, -, rfl⟩ := List.mem_map.1 he
    simp [creditRow]
  rw [hnew, List.append_nil]
  exact congrArg (· ++ _) hold

theorem net_creditRows (orgId paymentId : ℕ) (currency : String) (entries : List (ℕ × ℤ)) (c : ℕ)
    (cur : String) :
    Journal.net (fun e : LedgerEntry => (e.clientId, e.currency)) LedgerEntry.signed
        (entries.map (creditRow orgId paymentId currency)) (c, cur) =
      if currency = cur then Journal.net Prod.fst Prod.snd entries c else 0 := by
  rw [Journal.net_map]
  by_cases hcur : currency = cur
  · simp [Journal.net, creditRow, LedgerEntry.signed, hcur]
  · simp [Journal.net, creditRow, hcur]

theorem shareOf_nonneg {ss : List (OpenInvoice × ℤ)} (hpos : ∀ s ∈ ss, 0 < s.2) (c : ℕ) :
    0 ≤ shareOf ss c :=
  shareSum_nonneg fun s hs => hpos s (List.mem_filter.1 hs).1

theorem shareOf_eq_zero_iff {ss : List (OpenInvoice × ℤ)} (hpos : ∀ s ∈ ss, 0 < s.2) {c : ℕ} :
    shareOf ss c = 0 ↔ ∀ s ∈ ss, s.1.invoice.clientId ≠ c := by
  induction ss with
  | nil => simp [shareOf, shareSum]
  | cons s ss ih =>
    have hs := hpos s List.mem_cons_self
    have hss : ∀ t ∈ ss, 0 < t.2 := fun t ht => hpos t (List.mem_cons_of_mem _ ht)
    have hrest := shareOf_nonneg hss c
    rw [shareOf_cons, List.forall_mem_cons, ← ih hss]
    split_ifs with hc
    · simp only [hc, ne_eq, not_true_eq_false, false_and, iff_false]
      omega
    · simp [hc]

theorem shareOf_eq_shareSum {ss : List (OpenInvoice × ℤ)} {c : ℕ}
    (h : ∀ s ∈ ss, s.1.invoice.clientId = c) : shareOf ss c = shareSum ss := by
  rw [shareOf, List.filter_eq_self.2 fun s hs => decide_eq_true (h s hs)]

include hpos h hdel hres in
/-- **The balances come back** just when all shares are the primary's, and the rest is credited
exactly. -/
theorem SettledBooks.restored_iff :
    (∀ c currency, restored.ledgerBalance c currency = db'.ledgerBalance c currency) ↔
      (∀ s ∈ ss, s.1.invoice.clientId = payment.clientId) ∧
        creditedRest ss payment.amount = payment.amount - shareSum ss := by
  have hbalances : ∀ c cur, restored.ledgerBalance c cur = db'.ledgerBalance c cur ↔
      (payment.currency = cur → (if payment.clientId = c then payment.amount else 0) =
        shareOf ss c + if c = payment.clientId then creditedRest ss payment.amount else 0) := by
    intro c cur
    rw [Db.ledgerBalance, Db.ledgerBalance, h.ledger_restored hdel hres, h.ledger, Journal.net_append,
      Journal.net_append, net_creditRows,
      ← net_creditCents hpos h.shared h.amount_le, add_right_inj]
    have hrow := net_creditRows orgId payment.id payment.currency
      [(payment.clientId, payment.amount)] c cur
    rw [List.map_singleton] at hrow
    rw [hrow]
    by_cases hcur : payment.currency = cur
    · by_cases hc : payment.clientId = c <;> simp [hcur, hc, Journal.net]
    · simp [hcur]
  constructor
  · intro hsame
    have hclient := fun c => (hbalances c payment.currency).1 (hsame c payment.currency) rfl
    have hall : ∀ s ∈ ss, s.1.invoice.clientId = payment.clientId := by
      intro s hs
      by_contra hne
      have hzero := hclient s.1.invoice.clientId
      rw [if_neg (Ne.symm hne), if_neg hne, add_zero] at hzero
      exact (shareOf_eq_zero_iff hpos).1 hzero.symm s hs rfl
    refine ⟨hall, ?_⟩
    have hprimary := hclient payment.clientId
    rw [if_pos rfl, if_pos rfl, shareOf_eq_shareSum hall] at hprimary
    omega
  · rintro ⟨hall, hrest⟩ c cur
    refine (hbalances c cur).2 fun _ => ?_
    by_cases hc : c = payment.clientId
    · rw [if_pos hc.symm, if_pos hc, hc, shareOf_eq_shareSum hall, hrest]
      ring
    · rw [if_neg (Ne.symm hc), if_neg hc, add_zero,
        (shareOf_eq_zero_iff hpos).2 fun s hs he => hc (he.symm.trans (hall s hs))]

end Restored

/-- The doubles of the shares have not drifted off their cents: what is left of the amount, if
anything, is what the shares leave. -/
def Undrifted (ss : List (OpenInvoice × ℤ)) (cents : ℤ) : Prop :=
  creditedRest ss cents = cents - shareSum ss

theorem undrifted_of_few {cents : ℤ} {rows : List OpenInvoice} (h0 : 0 ≤ cents)
    (hmax : cents ≤ decimalMax) (hfew : rows.length ≤ 2 ^ 17) :
    Undrifted (shares cents rows) cents := by
  have hlength : (shares cents rows).length ≤ rows.length := by
    clear h0 hmax hfew
    induction rows generalizing cents with
    | nil => exact le_rfl
    | cons x rest ih =>
      unfold shares
      split_ifs
      · exact Nat.zero_le _
      · exact ih.trans (Nat.le_succ _)
      · exact Nat.succ_le_succ ih
  have hle := shareSum_le h0 rows
  have hpos : ∀ s ∈ shares cents rows, 0 < s.2 := fun s => shares_pos
  rw [Undrifted, creditedRest, addedCents_of_few hpos (hle.trans hmax) (hlength.trans hfew)]
  exact max_eq_right (sub_nonneg.2 hle)

/-- **When the ledger of a group payment is right.**  The credits follow what was applied just when
the doubles of the shares have not drifted; deleting and restoring the payment leaves every balance
as it was just when, besides, it was applied to no invoice but the primary's own. -/
theorem group_credits_iff {db : Db} {group : Option ClientGroup} {orgId : ℕ} {orgCurrency : String}
    {opts : GroupOpts} {r : GroupRequest} {paid : GroupPaid} (hdb : GroupTables db)
    (hr : groupRequest db group orgId orgCurrency opts = .ok r)
    (hpay : payGroup db group orgId orgCurrency opts = .ok paid) :
    (CreditsFollow paid.db paid.payment r.primaryId ↔
        Undrifted (shares (toDecimal r.amount) r.rows) (toDecimal r.amount)) ∧
      ∀ bindingRep deleted restored,
        deletePayment paid.db orgId paid.payment.id bindingRep = .ok deleted →
        restorePayment deleted orgId paid.payment.id = .ok restored →
        (CreditsFollow paid.db paid.payment r.primaryId ∧
            (∀ c currency, restored.ledgerBalance c currency =
              paid.db.ledgerBalance c currency) ↔
          Undrifted (shares (toDecimal r.amount) r.rows) (toDecimal r.amount) ∧
            ∀ s ∈ shares (toDecimal r.amount) r.rows,
              s.1.invoice.clientId = r.primaryId) := by
  obtain ⟨⟨members, hmembers, hrows⟩, hpositive, cents, hcents⟩ := groupRequest_ok hr
  rw [payGroup, hr] at hpay
  have hsettle : settleGroup db orgId r.primaryId r.currency (number cents) r.rows = .ok paid := by
    rw [← hcents]
    exact hpay
  obtain ⟨hclient, hamount, hbooks⟩ := settled_books hdb
    (fun payment hid => payable_of_request hdb hmembers hrows hid) (hcents ▸ hpositive) hsettle
  have hdecimal : toDecimal r.amount = cents := by
    obtain ⟨hpayment, -⟩ := settleGroup_ok hsettle
    rw [hpayment] at hamount
    rw [hcents]
    exact hamount
  have hpos : ∀ s ∈ shares cents r.rows, 0 < s.2 := fun s => shares_pos
  have hfollow := hbooks.follow_iff hpos
  rw [hclient, hamount] at hfollow
  rw [hdecimal]
  refine ⟨hfollow, fun bindingRep deleted restored hdel hres => ?_⟩
  have hrestored := hbooks.restored_iff hpos hdel hres
  rw [hclient, hamount] at hrestored
  constructor
  · rintro ⟨hcredits, hsame⟩
    exact ⟨hfollow.1 hcredits, (hrestored.1 hsame).1⟩
  · rintro ⟨hsum, hall⟩
    exact ⟨hfollow.2 hsum, hrestored.2 ⟨hall, hsum⟩⟩

/-! ### A payment that is the primary's alone, and one that is not -/

/-- An invoice of 60.00 of the primary, and a later one of 40.00 of another member. -/
def sharedRows : List Invoice :=
  [⟨1, 1, 1, 1, 6000, "MXN", .issued, false⟩, ⟨2, 1, 2, 2, 4000, "MXN", .issued, false⟩]

theorem sharedRows_nodup : (sharedRows.map Keyed.key).Nodup := by decide

def sharedDb : Db :=
  { opened with payments := ⟨[], List.nodup_nil⟩, invoices := ⟨sharedRows, sharedRows_nodup⟩ }

theorem members_nodup : [1, 2].Nodup := by decide

def sharedGroup : ClientGroup := ⟨true, some 1, [1, 2], members_nodup⟩

theorem sharedTables : GroupTables sharedDb where
  totals i t ht := by
    obtain ⟨invoice, hfind, rfl⟩ := Option.map_eq_some_iff.1 ht
    have hrows : ∀ i ∈ sharedRows, i.total ≤ decimalMax := by decide
    exact hrows invoice (Table.find?_eq_some.1 hfind).1
  covered i := le_rfl
  payer a ha := by cases ha
  credited e he := by cases he

/-- The payment deleted and restored, and the database looked at. -/
def reverted (paid : GroupPaid) (look : Db → Bool) : Bool :=
  (deletePayment paid.db 1 paid.payment.id none).toOption.any fun deleted =>
    (restorePayment deleted 1 paid.payment.id).toOption.any look

theorem reverted_ok {paid : GroupPaid} {look : Db → Bool} (h : reverted paid look = true) :
    ∃ deleted restored, deletePayment paid.db 1 paid.payment.id none = .ok deleted ∧
      restorePayment deleted 1 paid.payment.id = .ok restored ∧ look restored = true := by
  obtain ⟨deleted, hdel, h⟩ := exists_ok h
  obtain ⟨restored, hres, h⟩ := exists_ok h
  exact ⟨deleted, restored, hdel, hres, h⟩

/-- A payment of 60.00 is the primary's own, and comes back as it was. -/
theorem group_credits_iff_primary :
    ∃ r paid deleted restored, groupRequest sharedDb (some sharedGroup) 1 "MXN"
        ⟨some 60, none, none⟩ = .ok r ∧
      payGroup sharedDb (some sharedGroup) 1 "MXN" ⟨some 60, none, none⟩ = .ok paid ∧
      deletePayment paid.db 1 paid.payment.id none = .ok deleted ∧
      restorePayment deleted 1 paid.payment.id = .ok restored ∧
      CreditsFollow paid.db paid.payment r.primaryId ∧
      ∀ c currency, restored.ledgerBalance c currency = paid.db.ledgerBalance c currency := by
  have hrequest : ∃ r, groupRequest sharedDb (some sharedGroup) 1 "MXN" ⟨some 60, none, none⟩ =
      .ok r ∧ decide (0 ≤ toDecimal r.amount ∧ toDecimal r.amount ≤ decimalMax ∧
        r.rows.length ≤ 2 ∧ ∀ s ∈ shares (toDecimal r.amount) r.rows,
          s.1.invoice.clientId = r.primaryId) = true := exists_ok (by decide +kernel)
  have hpaid : ∃ paid, payGroup sharedDb (some sharedGroup) 1 "MXN" ⟨some 60, none, none⟩ =
      .ok paid ∧ reverted paid (fun _ => true) = true := exists_ok (by decide +kernel)
  obtain ⟨r, hr, hown⟩ := hrequest
  obtain ⟨h0, hmax, hfew, hall⟩ := of_decide_eq_true hown
  obtain ⟨paid, hpay, hback⟩ := hpaid
  obtain ⟨deleted, restored, hdel, hres, -⟩ := reverted_ok hback
  obtain ⟨-, hrestored⟩ := group_credits_iff sharedTables hr hpay
  exact ⟨r, paid, deleted, restored, hr, hpay, hdel, hres,
    (hrestored none deleted restored hdel hres).2
      ⟨undrifted_of_few h0 hmax (hfew.trans (by norm_num)), hall⟩⟩

/-- **A restored payment is credited to the primary alone**: the member's 40.00 are gone. -/
theorem restored_to_primary :
    GroupTables sharedDb ∧ ∃ paid deleted restored,
      payGroup sharedDb (some sharedGroup) 1 "MXN" ⟨none, none, none⟩ = .ok paid ∧
      deletePayment paid.db 1 paid.payment.id none = .ok deleted ∧
      restorePayment deleted 1 paid.payment.id = .ok restored ∧
      paid.db.ledgerBalance 2 "MXN" = 4000 ∧ restored.ledgerBalance 2 "MXN" = 0 ∧
      ¬ ∀ c currency, restored.ledgerBalance c currency = paid.db.ledgerBalance c currency := by
  have hpaid : ∃ paid, payGroup sharedDb (some sharedGroup) 1 "MXN" ⟨none, none, none⟩ =
      .ok paid ∧ (decide (paid.db.ledgerBalance 2 "MXN" = 4000) &&
        reverted paid fun restored => decide (restored.ledgerBalance 2 "MXN" = 0)) = true :=
    exists_ok (by decide +kernel)
  obtain ⟨paid, hpay, h⟩ := hpaid
  obtain ⟨hmember, hback⟩ := Bool.and_eq_true_iff.1 h
  obtain ⟨deleted, restored, hdel, hres, hgone⟩ := reverted_ok hback
  have hmember := of_decide_eq_true hmember
  have hgone := of_decide_eq_true hgone
  refine ⟨sharedTables, paid, deleted, restored, hpay, hdel, hres, hmember, hgone,
    fun hsame => ?_⟩
  have := hsame 2 "MXN"
  omega

end Vigabss.Billing
