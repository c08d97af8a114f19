import Vigabss.Billing.GroupPayments

/-!
# Vigabss.Billing.GroupShares — what a group payment applies to each invoice

The loop of `payGroup` works on JavaScript numbers.  On cents it applies the `shares`: the amount
spread over the invoices, oldest first, until it is used up.
-/

namespace Vigabss.Billing

open Vigabss.Lib

/-! ### Cents as numbers -/

theorem number_lt_number {c d : ℤ} (hc : |c| ≤ 2 * decimalMax) (hd : |d| ≤ 2 * decimalMax) :
    number c < number d ↔ c < d := by
  have hnc := abs_le.1 (number_close hc)
  have hnd := abs_le.1 (number_close hd)
  norm_num at hnc hnd
  constructor
  · intro hlt
    by_contra hle
    rcases (not_lt.1 hle).eq_or_lt with rfl | hgt
    · exact lt_irrefl _ hlt
    · have : (d : ℚ) + 1 ≤ c := by exact_mod_cast hgt
      linarith [hnc.1, hnd.2]
  · intro hlt
    have : (c : ℚ) + 1 ≤ d := by exact_mod_cast hlt
    linarith [hnc.2, hnd.1]

theorem min_number {c d : ℤ} (hc : |c| ≤ 2 * decimalMax) (hd : |d| ≤ 2 * decimalMax) :
    min (number c) (number d) = number (min c d) := by
  rcases lt_or_ge c d with hlt | hge
  · rw [min_eq_left hlt.le, min_eq_left ((number_lt_number hc hd).2 hlt).le]
  · rw [min_eq_right hge, min_eq_right]
    exact not_lt.1 fun h => absurd ((number_lt_number hc hd).1 h) (not_lt.2 hge)

theorem half_lt_number_iff {d : ℤ} (h : |d| ≤ 2 * decimalMax) :
    fl (5 / 1000) < number d ↔ 0 < d := by
  have hhalf : (0 : ℚ) ≤ fl (5 / 1000) := fl_nonneg (by norm_num)
  constructor
  · exact fun hlt => (number_pos_iff h).1 (hhalf.trans_lt hlt)
  · intro hpos
    have hclose : fl (5 / 1000) ≤ number d := by
      by_contra hlt
      have hzero := (abs_number_lt_iff h).1 (by
        rw [abs_of_pos ((number_pos_iff h).2 hpos)]
        exact not_le.1 hlt)
      omega
    refine lt_of_le_of_ne hclose fun heq => ?_
    have hd := abs_le.1 (number_close h)
    have hf := abs_le.1 (abs_fl_sub_le (q := 5 / 1000) (n := 0) (by norm_num) (by
      rw [abs_of_pos (by norm_num)]
      norm_num))
    have hone : (1 : ℚ) ≤ d := by exact_mod_cast hpos
    rw [← heq] at hd
    norm_num at hd hf
    linarith [hd.1, hf.2]

theorem toDecimal_number_nonneg {d : ℤ} (h0 : 0 ≤ d) (h : d ≤ 2 * decimalMax) :
    toDecimal (number d) = d := by
  have hnum : 0 ≤ number d := fl_nonneg (by positivity)
  have hcents := toDecimal_abs_number (d := d) (by rwa [abs_of_nonneg h0])
  rwa [abs_of_nonneg hnum, abs_of_nonneg h0] at hcents

theorem round2_nonpos {n : ℚ} (h : n ≤ 0) : round2 n ≤ 0 := by
  have hscaled : fl (n * 100) ≤ 0 := fl_nonpos (by linarith)
  have hround : mathRound (fl (n * 100)) < 1 := Int.floor_lt.2 (by push_cast; linarith)
  have hcents : (mathRound (fl (n * 100)) : ℚ) ≤ 0 := by exact_mod_cast Int.lt_add_one_iff.1 hround
  exact fl_nonpos (by linarith)

theorem half_le_fl {q : ℚ} (h : 1 ≤ q) : q / 2 ≤ fl q := by
  have hpos : 0 < q := by linarith
  have hlow : (2 : ℚ) ^ Int.log 2 q ≤ q := by
    exact_mod_cast Int.zpow_log_le_self (b := 2) (by norm_num) hpos
  have hlog : 0 ≤ Int.log 2 q := by
    rw [Int.log_of_one_le_right 2 h]
    exact Int.natCast_nonneg _
  have hlt : |q| < 2 ^ (Int.log 2 q + 1) := by
    rw [abs_of_pos hpos]
    exact_mod_cast Int.lt_zpow_succ_log_self (b := 2) (by norm_num) q
  have herror := abs_le.1 (abs_fl_sub_le (by omega) hlt)
  have hweight : (2 : ℚ) ^ (Int.log 2 q + 1 - 54) ≤ q / 2 := by
    calc (2 : ℚ) ^ (Int.log 2 q + 1 - 54) ≤ 2 ^ (Int.log 2 q - 1) :=
          zpow_le_zpow_right₀ (by norm_num) (by omega)
      _ = 2 ^ Int.log 2 q / 2 := by rw [zpow_sub₀ (by norm_num), zpow_one]
      _ ≤ q / 2 := by linarith
  linarith [herror.1]

theorem le_of_toDecimal_number {m : ℤ} (h : toDecimal (number m) ≤ decimalMax) :
    m ≤ decimalMax := by
  rcases le_or_gt m (2 * decimalMax) with hle | hgt
  · rcases le_or_gt m 0 with hneg | hpos
    · exact hneg.trans (by norm_num [decimalMax])
    · rwa [toDecimal_number_nonneg hpos.le hle] at h
  · exfalso
    have hq : ((2 * decimalMax + 1 : ℤ) : ℚ) ≤ m := by exact_mod_cast hgt
    norm_num [decimalMax] at hq
    have hhalf : (m : ℚ) / 100 / 2 ≤ number m := half_le_fl (by linarith)
    have hnum : 0 ≤ number m := by linarith
    rw [toDecimal, if_pos hnum] at h
    have hfloor := Int.floor_le_iff.1 h
    norm_num [decimalMax] at hfloor
    linarith

/-! ### The spread in cents -/

/-- The invoices that `cents` are applied to, oldest first, and what each of them gets. -/
def shares : ℤ → List OpenInvoice → List (OpenInvoice × ℤ)
  | _, [] => []
  | cents, x :: rest =>
    if cents ≤ 0 then []
    else if x.balanceDue ≤ 0 then shares cents rest
    else (x, min cents x.balanceDue) :: shares (cents - min cents x.balanceDue) rest

/-- What the shares add up to. -/
def shareSum (ss : List (OpenInvoice × ℤ)) : ℤ := (ss.map Prod.snd).sum

/-- What is applied to the invoices of a client. -/
def shareOf (ss : List (OpenInvoice × ℤ)) (clientId : ℕ) : ℤ :=
  shareSum (ss.filter fun s => s.1.invoice.clientId = clientId)

@[simp] theorem shareSum_cons (s : OpenInvoice × ℤ) (ss : List (OpenInvoice × ℤ)) :
    shareSum (s :: ss) = s.2 + shareSum ss := by simp [shareSum]

theorem shareOf_cons (s : OpenInvoice × ℤ) (ss : List (OpenInvoice × ℤ)) (c : ℕ) :
    shareOf (s :: ss) c = (if s.1.invoice.clientId = c then s.2 else 0) + shareOf ss c := by
  unfold shareOf
  by_cases h : s.1.invoice.clientId = c <;> simp [h]

theorem shares_pos {cents : ℤ} {rows : List OpenInvoice} {s : OpenInvoice × ℤ}
    (h : s ∈ shares cents rows) : 0 < s.2 := by
  induction rows generalizing cents with
  | nil => cases h
  | cons x rest ih =>
    unfold shares at h
    split_ifs at h with hcents hbalance
    · cases h
    · exact ih h
    · rcases List.mem_cons.1 h with rfl | h
      · exact lt_min (not_le.1 hcents) (not_le.1 hbalance)
      · exact ih h

theorem shareSum_le {cents : ℤ} (h0 : 0 ≤ cents) (rows : List OpenInvoice) :
    shareSum (shares cents rows) ≤ cents := by
  induction rows generalizing cents with
  | nil => exact h0
  | cons x rest ih =>
    unfold shares
    split_ifs with hcents hbalance
    · exact h0
    · exact ih h0
    · have hmin := min_le_left cents x.balanceDue
      have := ih (sub_nonneg.2 hmin)
      rw [shareSum_cons]
      omega

theorem spread_stop {payment : Payment} {db : Db} {r : ℤ} (hr : |r| ≤ 2 * decimalMax) (h : r ≤ 0)
    (rows : List OpenInvoice) : spread payment db (number r) rows = .ok ⟨db, [], []⟩ := by
  cases rows with
  | nil => rfl
  | cons x rest =>
    rw [spread, if_pos]
    exact not_lt.1 fun hlt => absurd ((half_lt_number_iff hr).1 hlt) (not_lt.2 h)

theorem OpenInvoice.due_eq {x : OpenInvoice} (h : |x.balanceDue| ≤ 2 * decimalMax) :
    x.due = number x.balanceDue := round2_number h

theorem spread_skip {payment : Payment} {db : Db} {r : ℤ} (hr : |r| ≤ 2 * decimalMax) (hpos : 0 < r)
    {x : OpenInvoice} (hx : x.balanceDue ≤ 0) (rest : List OpenInvoice) :
    spread payment db (number r) (x :: rest) = spread payment db (number r) rest := by
  have hdue : x.due ≤ 0 := by
    refine round2_nonpos (fl_nonpos ?_)
    have : (x.balanceDue : ℚ) ≤ 0 := by exact_mod_cast hx
    linarith
  rw [spread, if_neg (not_le.2 ((half_lt_number_iff hr).2 hpos))]
  simp [max_eq_left hdue]

theorem insertAllocation_ne_duplicate {db : Db} {paymentId invoiceId : ℕ} {amount : ℤ}
    (hfresh : ∀ a ∈ db.allocations.rows, ofPayment paymentId a = true → a.invoiceId ≠ invoiceId) :
    db.insertAllocation paymentId invoiceId amount ≠ .error .duplicateEntry := by
  have hguard : ∀ total already message,
      Db.guardTrigger total already amount message ≠ .error .duplicateEntry := by
    intro total already message h
    unfold Db.guardTrigger at h
    split at h
    · cases h
    · split_ifs at h
      cases h
  have hlive : db.duplicatesLive ⟨db.allocations.nextId, paymentId, invoiceId, amount, false⟩ =
      false := by
    simp only [Db.duplicatesLive, List.any_eq_false, decide_eq_true_eq]
    rintro a ha ⟨hpayment, hinvoice, hdeleted, -⟩
    exact hfresh a ha (by simp [ofPayment, hpayment, hdeleted]) hinvoice
  intro h
  unfold Db.insertAllocation at h
  rcases except_bind_error.1 h with h | ⟨-, -, h⟩
  · exact hguard _ _ _ h
  rcases except_bind_error.1 h with h | ⟨-, -, h⟩
  · exact hguard _ _ _ h
  · rw [hlive] at h
    cases h

theorem applyAllocation_ne_duplicate {db : Db} {payment : Payment} {invoice : Invoice} {amount : ℤ}
    {anyClient finalize : Bool}
    (hfresh : ∀ a ∈ db.allocations.rows, ofPayment payment.id a = true → a.invoiceId ≠ invoice.id) :
    applyAllocation db payment invoice amount anyClient finalize ≠
      .error (insertFailure .duplicateEntry) := by
  intro h
  unfold applyAllocation at h
  cases hr : allocationRefusal payment invoice anyClient with
  | some refusal =>
    -- no refusal has the code of a duplicate
    rw [hr] at h
    unfold allocationRefusal at hr
    split_ifs at hr <;> obtain rfl := Option.some.inj hr <;> simp [insertFailure] at h
  | none =>
    rw [hr] at h
    cases hi : db.insertAllocation payment.id invoice.id amount with
    | error err =>
      simp only [hi] at h
      cases err with
      | duplicateEntry => exact insertAllocation_ne_duplicate hfresh hi
      | signal message => simp [insertFailure] at h
    | ok r =>
      simp only [hi] at h
      split_ifs at h

/-- The loop applies to an invoice, and goes on with the rest of the money. -/
theorem spread_apply {payment : Payment} {db : Db} {r : ℤ} {x : OpenInvoice}
    {rest : List OpenInvoice} {done : Spread} (hr : |r| ≤ decimalMax) (hpos : 0 < r)
    (hx : 0 < x.balanceDue) (hx' : x.balanceDue ≤ decimalMax)
    (hfresh : ∀ a ∈ db.allocations.rows, ofPayment payment.id a = true →
      a.invoiceId ≠ x.invoice.id)
    (h : spread payment db (number r) (x :: rest) = .ok done) :
    ∃ db' id paid later,
      applyAllocation db payment x.invoice (min r x.balanceDue) true true = .ok (db', id, paid) ∧
        spread payment db' (number (r - min r x.balanceDue)) rest = .ok later ∧
        done.db = later.db ∧
        done.settled =
          ⟨x.invoice.id, x.invoice.clientId, number (min r x.balanceDue)⟩ :: later.settled := by
  have hwide : decimalMax ≤ 2 * decimalMax := by norm_num [decimalMax]
  have hx0 : |x.balanceDue| ≤ 2 * decimalMax := by
    rw [abs_of_pos hx]
    exact hx'.trans hwide
  have hr0 : |r| ≤ 2 * decimalMax := hr.trans hwide
  set v := min r x.balanceDue with hv
  have hvpos : 0 < v := lt_min hpos hx
  have hvle : v ≤ decimalMax := (min_le_right _ _).trans hx'
  have hvabs : |v| ≤ 2 * decimalMax := by
    rw [abs_of_pos hvpos]
    exact hvle.trans hwide
  have hdue : max 0 x.due = number x.balanceDue := by
    rw [x.due_eq hx0, max_eq_right ((number_pos_iff hx0).2 hx).le]
  have happly : round2 (min (number r) (number x.balanceDue)) = number v := by
    rw [min_number hr0 hx0, round2_number hvabs]
  have hrest : round2 (fl (number r - number v)) = number (r - v) := by
    refine round2_difference hr0 hvabs ?_
    have := abs_sub_abs_le_abs_sub r v
    have hvr : v ≤ r := min_le_left _ _
    rw [abs_of_nonneg (by omega)]
    rw [abs_of_pos hpos] at hr0
    omega
  rw [spread, if_neg (not_le.2 ((half_lt_number_iff hr0).2 hpos))] at h
  simp only [hdue, happly, if_neg (not_le.2 ((number_pos_iff hx0).2 hx)),
    if_neg (not_le.2 ((number_pos_iff hvabs).2 hvpos)), hrest,
    toDecimal_number_nonneg hvpos.le (hvle.trans hwide)] at h
  cases happ : applyAllocation db payment x.invoice v true true with
  | error err =>
    rw [happ] at h
    dsimp only at h
    split_ifs at h with hdup
    exact absurd (hdup ▸ happ) (applyAllocation_ne_duplicate hfresh)
  | ok applied =>
    obtain ⟨db', id, paid⟩ := applied
    rw [happ] at h
    obtain ⟨later, hlater, hdone⟩ := except_bind_ok.1 h
    obtain rfl := Except.ok.inj hdone
    exact ⟨db', id, paid, later, rfl, hlater, rfl, rfl⟩

/-! ### What the loop leaves behind -/

/-- The client of an invoice. -/
def Db.clientOf (db : Db) (invoiceId : ℕ) : Option ℕ :=
  (db.invoices.find? invoiceId).map Invoice.clientId

/-- A live allocation of the payment to an invoice of the client. -/
def forClient (db : Db) (paymentId clientId : ℕ) (a : PaymentAllocation) : Bool :=
  ofPayment paymentId a && decide (db.clientOf a.invoiceId = some clientId)

/-- What the payment is applied to the invoices of a client. -/
def Db.appliedFor (db : Db) (paymentId clientId : ℕ) : ℤ :=
  db.allocations.sum (forClient db paymentId clientId) PaymentAllocation.amount

/-- What the loop does to the tables. -/
structure Spreads (payment : Payment) (db : Db) (ss : List (OpenInvoice × ℤ)) (db' : Db) :
    Prop where
  ledger : db'.ledger = db.ledger
  payments : db'.payments = db.payments
  clients : ∀ i, db'.clientOf i = db.clientOf i
  applied : ∀ c, db'.appliedFor payment.id c = db.appliedFor payment.id c + shareOf ss c
  allocated : db'.allocatedOf payment.id = db.allocatedOf payment.id + shareSum ss

theorem Spreads.refl (payment : Payment) (db : Db) : Spreads payment db [] db where
  ledger := rfl
  payments := rfl
  clients _ := rfl
  applied _ := (add_zero _).symm
  allocated := (add_zero _).symm

theorem finalize_eq (db : Db) (invoice : Invoice) :
    (finalizeIfFullyPaid db invoice).1 =
      { db with invoices := (finalizeIfFullyPaid db invoice).1.invoices } := by
  unfold finalizeIfFullyPaid
  dsimp only
  split_ifs <;> rfl

theorem clientOf_finalize (db : Db) (invoice : Invoice) (i : ℕ) :
    (finalizeIfFullyPaid db invoice).1.clientOf i = db.clientOf i := by
  unfold finalizeIfFullyPaid
  dsimp only
  split_ifs
  · rfl
  · rw [Db.clientOf, setInvoiceStatus_find]
    split_ifs with h
    · rw [h, Option.map_map]
      rfl
    · rfl

theorem Spreads.trans {payment : Payment} {db db' db'' : Db} {s : OpenInvoice × ℤ}
    {ss : List (OpenInvoice × ℤ)} (h : Spreads payment db [s] db')
    (h' : Spreads payment db' ss db'') : Spreads payment db (s :: ss) db'' where
  ledger := h'.ledger.trans h.ledger
  payments := h'.payments.trans h.payments
  clients i := (h'.clients i).trans (h.clients i)
  applied c := by
    rw [h'.applied, h.applied, shareOf_cons, shareOf_cons]
    simp [shareOf, shareSum, add_assoc]
  allocated := by
    rw [h'.allocated, h.allocated, shareSum_cons, shareSum_cons]
    simp [shareSum, add_assoc]

theorem spreads_apply {payment : Payment} {db db' : Db} {x : OpenInvoice} {v : ℤ} {id : ℕ}
    {paid : Bool} (hclient : db.clientOf x.invoice.id = some x.invoice.clientId)
    (h : applyAllocation db payment x.invoice v true true = .ok (db', id, paid)) :
    Spreads payment db [(x, v)] db' ∧ ∀ a ∈ db'.allocations.rows,
      a ∈ db.allocations.rows ∨ a.invoiceId = x.invoice.id := by
  obtain ⟨-, db₁, hins, hdb'⟩ := applyAllocation_ok h
  rw [if_pos rfl] at hdb'
  subst hdb'
  obtain ⟨-, -, rfl⟩ := Db.insertAllocation_ok hins
  set db₁ : Db := { db with
    allocations := db.allocations.insert (fun id => ⟨id, payment.id, x.invoice.id, v, false⟩)
      (fun _ => rfl) } with hdb₁
  have hfin : (finalizeIfFullyPaid db₁ x.invoice).1.allocations = db₁.allocations := by
    rw [finalize_eq]
  refine ⟨⟨by rw [finalize_eq], by rw [finalize_eq],
    fun i => (clientOf_finalize db₁ x.invoice i).trans rfl, fun c => ?_, ?_⟩, ?_⟩
  · have hfor : forClient (finalizeIfFullyPaid db₁ x.invoice).1 payment.id c =
        forClient db payment.id c := by
      funext a
      rw [forClient, clientOf_finalize]
      rfl
    rw [Db.appliedFor, hfin, hfor, hdb₁, Table.sum_insert]
    by_cases hc : x.invoice.clientId = c <;>
      simp [Db.appliedFor, Table.share, forClient, ofPayment, hclient, hc, shareOf, shareSum]
  · rw [Db.allocatedOf, hfin, hdb₁, Table.sum_insert]
    simp [Db.allocatedOf, Table.share, ofPayment, shareSum]
  · intro a ha
    rw [hfin, hdb₁, Table.mem_insert] at ha
    rcases ha with ha | rfl
    · exact .inl ha
    · exact .inr rfl

/-- The invoices that a loop can start with. -/
structure Payable (payment : Payment) (rows : List OpenInvoice) (db : Db) : Prop where
  due : ∀ x ∈ rows, x.balanceDue ≤ decimalMax
  distinct : (rows.map fun x => x.invoice.id).Nodup
  clients : ∀ x ∈ rows, db.clientOf x.invoice.id = some x.invoice.clientId
  fresh : ∀ x ∈ rows, ∀ a ∈ db.allocations.rows, ofPayment payment.id a = true →
    a.invoiceId ≠ x.invoice.id

/-- **The loop applies the shares**, and the numbers it remembers are their cents. -/
theorem spread_ok {payment : Payment} {db : Db} {r : ℤ} {rows : List OpenInvoice} {done : Spread}
    (hrows : Payable payment rows db) (h0 : 0 ≤ r) (hr : r ≤ decimalMax)
    (h : spread payment db (number r) rows = .ok done) :
    Spreads payment db (shares r rows) done.db ∧
      done.settled = (shares r rows).map fun s =>
        ⟨s.1.invoice.id, s.1.invoice.clientId, number s.2⟩ := by
  have hwide : decimalMax ≤ 2 * decimalMax := by norm_num [decimalMax]
  induction rows generalizing db r done with
  | nil =>
    obtain rfl := Except.ok.inj h
    exact ⟨Spreads.refl payment db, rfl⟩
  | cons x rest ih =>
    have habs : |r| ≤ decimalMax := by rwa [abs_of_nonneg h0]
    obtain ⟨hdue, hdistinct, hclients, hfresh⟩ := hrows
    rw [List.map_cons, List.nodup_cons] at hdistinct
    have hrest : Payable payment rest db :=
      ⟨fun y hy => hdue y (List.mem_cons_of_mem _ hy), hdistinct.2,
        fun y hy => hclients y (List.mem_cons_of_mem _ hy),
        fun y hy => hfresh y (List.mem_cons_of_mem _ hy)⟩
    unfold shares
    split_ifs with hstop hskip
    · rw [spread_stop (habs.trans hwide) hstop] at h
      obtain rfl := Except.ok.inj h
      exact ⟨Spreads.refl payment db, rfl⟩
    · rw [spread_skip (habs.trans hwide) (not_le.1 hstop) hskip] at h
      exact ih hrest h0 hr h
    · obtain ⟨db', id, paid, later, happ, hlater, hdb, hsettled⟩ :=
        spread_apply habs (not_le.1 hstop) (not_le.1 hskip) (hdue x List.mem_cons_self)
          (hfresh x List.mem_cons_self) h
      obtain ⟨hstep, hadded⟩ := spreads_apply (hclients x List.mem_cons_self) happ
      have hleft := min_le_left r x.balanceDue
      have hv : 0 < min r x.balanceDue := lt_min (not_le.1 hstop) (not_le.1 hskip)
      have hrest' : Payable payment rest db' := by
        refine ⟨hrest.due, hrest.distinct, fun y hy => ?_, fun y hy a ha hlive => ?_⟩
        · rw [hstep.clients]
          exact hrest.clients y hy
        · rcases hadded a ha with ha | ha
          · exact hrest.fresh y hy a ha hlive
          · -- the row just added is for `x`, which does not come again
            rw [ha]
            exact fun he => hdistinct.1
              (he ▸ List.mem_map_of_mem (f := fun x : OpenInvoice => x.invoice.id) hy)
      obtain ⟨hspreads, hsettled'⟩ := ih hrest' (by omega) (by omega) hlater
      rw [hdb]
      exact ⟨hstep.trans hspreads, by rw [hsettled, hsettled', List.map_cons]⟩

end Vigabss.Billing
