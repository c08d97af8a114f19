import Vigabss.LateFees.Application

/-!
# Vigabss.LateFees.Bounds — once a month, at most so often, never on a fee

Over any interleaving of runs, the fees of an invoice are in different months for each rule, its
header grows by its fee lines and their tax alone, and a percentage is taken of no more than the
original charge.  The total cap is read before the fee is booked, so it holds while no fee of
another month is booked in between (`late_fees_capped`).
-/

namespace Vigabss.LateFees

open Vigabss.Lib Vigabss.Billing
open Vigabss.Invoicing (ItemRow)

/-! ### Sums over fees and lines -/

/-- The sum of the lines of an invoice. -/
def linesTotal (items : List ItemRow) (invoiceId : ℕ) : ℤ :=
  ((items.filter fun item => item.invoice_id = invoiceId).map ItemRow.amount).sum

/-- The tax of the fee lines of an invoice. -/
def feeTaxOf (fees : List FeeRow) (taxRate : ℚ) (invoiceId : ℕ) : ℤ :=
  ((fees.filter fun fee => fee.invoice_id = invoiceId).map fun fee =>
    lineTax taxRate fee.amount).sum

theorem feesOf_concat (fees : List FeeRow) (fee : FeeRow) (id : ℕ) :
    feesOf (fees ++ [fee]) id = feesOf fees id + if fee.invoice_id = id then fee.amount else 0 := by
  rw [feesOf, feesOf, List.filter_append, List.map_append, List.sum_append]
  congr 1
  by_cases h : fee.invoice_id = id <;> simp [h]

theorem feeTaxOf_concat (fees : List FeeRow) (fee : FeeRow) (taxRate : ℚ) (id : ℕ) :
    feeTaxOf (fees ++ [fee]) taxRate id =
      feeTaxOf fees taxRate id + if fee.invoice_id = id then lineTax taxRate fee.amount else 0 := by
  rw [feeTaxOf, feeTaxOf, List.filter_append, List.map_append, List.sum_append]
  congr 1
  by_cases h : fee.invoice_id = id <;> simp [h]

theorem linesTotal_concat (items : List ItemRow) (item : ItemRow) (id : ℕ) :
    linesTotal (items ++ [item]) id =
      linesTotal items id + if item.invoice_id = id then item.amount else 0 := by
  rw [linesTotal, linesTotal, List.filter_append, List.map_append, List.sum_append]
  congr 1
  by_cases h : item.invoice_id = id <;> simp [h]

/-- The fees of a pair in other months. -/
def otherMonths (fees : List FeeRow) (invoiceId ruleId : ℕ) (periodKey : ℤ) : ℕ :=
  ((feesUnder fees invoiceId ruleId).filter fun fee => fee.period_key ≠ periodKey).length

theorem otherMonths_of_none {fees : List FeeRow} {invoiceId ruleId : ℕ} {periodKey : ℤ}
    (h : feesInPeriod fees invoiceId ruleId periodKey = []) :
    otherMonths fees invoiceId ruleId periodKey = (feesUnder fees invoiceId ruleId).length := by
  rw [otherMonths, List.filter_eq_self.2]
  intro fee hfee
  have := List.filter_eq_nil_iff.1 h fee hfee
  simpa using this

theorem feesUnder_concat_length (fees : List FeeRow) (fee : FeeRow) (invoiceId ruleId : ℕ) :
    (feesUnder (fees ++ [fee]) invoiceId ruleId).length = (feesUnder fees invoiceId ruleId).length +
      if fee.invoice_id = invoiceId ∧ fee.late_fee_rule_id = ruleId then 1 else 0 := by
  rw [feesUnder, feesUnder, List.filter_append, List.length_append]
  congr 1
  by_cases h : fee.invoice_id = invoiceId ∧ fee.late_fee_rule_id = ruleId <;> simp [h]

/-! ### The laws -/

/-- What a fee is told apart by. -/
def FeeRow.key (fee : FeeRow) : ℕ × ℕ × ℤ := (fee.invoice_id, fee.late_fee_rule_id, fee.period_key)

/-- **The header is its lines plus their tax**: `original` is the row before any fee. -/
structure Balanced (db : DB) (original row : InvoiceRow) : Prop where
  subtotal : row.subtotal = linesTotal db.items row.id
  tax : row.tax_amount = original.tax_amount + feeTaxOf db.fees original.tax_rate row.id
  total : row.total = row.subtotal + row.tax_amount

/-- **The laws of late fees**, for a database that started as `base`. -/
structure FeeLaws (base : DB) (s : System) : Prop where
  oncePerMonth : (s.db.fees.map FeeRow.key).Nodup
  capped : ∀ invoiceId, ∀ rule ∈ s.db.rules.rows, ∀ max ∈ rule.max_applications,
    ((feesUnder s.db.fees invoiceId rule.id).length : ℤ) ≤ Max.max 0 max
  neverCompounds : ∀ r ∈ s.runs.rows, ∀ invoice ∈ r.invoices, ∃ original,
    base.invoices.find? invoice.id = some original ∧
      percentBase invoice (feesOf s.db.fees invoice.id) ≤ max 0 original.subtotal / 100 + 1 / 2 ^ 20
  balanced : ∀ row ∈ s.db.invoices.rows, ∃ original,
    base.invoices.find? row.id = some original ∧ Balanced s.db original row

/-- Before any fee: the headers agree with their lines, and their amounts fit their columns. -/
structure Untouched (base : DB) : Prop where
  fees : base.fees = []
  fits : ∀ row ∈ base.invoices.rows, row.Fits
  subtotal : ∀ row ∈ base.invoices.rows, row.subtotal = linesTotal base.items row.id
  total : ∀ row ∈ base.invoices.rows, row.total = row.subtotal + row.tax_amount

/-- What the run has counted is still so, when it is about to book a fee of a capped rule: the
fees of other months that it has seen are all there are. -/
def LateRun.countCurrent (db : DB) (r : LateRun) : Bool :=
  match r.invoices, r.pending, r.phase with
  | invoice :: _, rule :: _, .priced alreadyApplied _ =>
    rule.max_applications = none ∨
      otherMonths db.fees invoice.id rule.id r.periodKey = alreadyApplied
  | _, _, _ => true

/-- Each fee of a capped rule is booked on a count that is still current. -/
def CountCurrent (s : System) : Event → Prop
  | .step runId _ => ∀ r ∈ s.runs.find? runId, r.countCurrent s.db
  | _ => True

instance (s : System) : (event : Event) → Decidable (CountCurrent s event)
  | .step runId _ => inferInstanceAs (Decidable (∀ r ∈ s.runs.find? runId, r.countCurrent s.db))
  | .start .. => .isTrue trivial
  | .stop _ => .isTrue trivial
  | .elsewhere _ => .isTrue trivial

/-! ### The base of a percentage -/

theorem unpaidShare_mem (invoice : LateInvoice) (priorFees : ℤ) :
    0 ≤ unpaidShare invoice priorFees ∧ unpaidShare invoice priorFees ≤ 1 := by
  rw [unpaidShare]
  split_ifs with h
  · refine ⟨le_min zero_le_one (fl_nonneg (div_nonneg (le_max_left _ _) h.le)), min_le_left _ _⟩
  · exact ⟨le_rfl, zero_le_one⟩

/-- Of no more than the net amount, but for the rounding of doubles. -/
theorem percentBase_le {invoice : LateInvoice} {priorFees original : ℤ}
    (hsub : |invoice.subtotal| ≤ 2 * decimalMax) (hprior : |priorFees| ≤ 2 * decimalMax)
    (h : invoice.subtotal - priorFees ≤ original) :
    percentBase invoice priorFees ≤ max 0 original / 100 + 1 / 2 ^ 20 := by
  obtain ⟨hshare0, hshare1⟩ := unpaidShare_mem invoice priorFees
  have ha := abs_le.1 (number_close hsub)
  have hb := abs_le.1 (number_close hprior)
  have hca : |(invoice.subtotal : ℚ)| ≤ 2 * 9999999999 := by exact_mod_cast hsub
  have hcb : |(priorFees : ℚ)| ≤ 2 * 9999999999 := by exact_mod_cast hprior
  have hnet : (invoice.subtotal : ℚ) - priorFees ≤ original := by exact_mod_cast h
  rw [abs_le] at hca hcb
  rw [percentBase]
  generalize number invoice.subtotal = a at ha
  generalize number priorFees = b at hb
  generalize unpaidShare invoice priorFees = share at hshare0 hshare1
  norm_num at ha hb
  have hlt : |a - b| < 2 ^ (30 : ℤ) := by
    rw [abs_lt]
    constructor <;> norm_num <;> linarith [ha.1, ha.2, hb.1, hb.2, hca.1, hca.2, hcb.1, hcb.2]
  have hx := abs_le.1 (abs_fl_sub_le (by norm_num) hlt)
  rw [abs_lt] at hlt
  generalize fl (a - b) = x at hx
  norm_num at hx hlt
  have hxlt : |x| < 2 ^ (31 : ℤ) := by
    rw [abs_lt]
    constructor <;> norm_num <;> linarith [hx.1, hx.2, hlt.1, hlt.2]
  have hylt : |x * share| < 2 ^ (31 : ℤ) := by
    rw [abs_mul, abs_of_nonneg hshare0]
    exact lt_of_le_of_lt (mul_le_of_le_one_right (abs_nonneg x) hshare1) hxlt
  have hy := (abs_le.1 (abs_fl_sub_le (by norm_num) hylt)).2
  norm_num at hy
  have hmax : x * share ≤ max 0 x := by
    rcases le_total 0 x with hpos | hneg
    · exact (mul_le_of_le_one_right hpos hshare1).trans (le_max_right _ _)
    · exact (mul_nonpos_of_nonpos_of_nonneg hneg hshare0).trans (le_max_left _ _)
  have hcases : max 0 x ≤ max 0 (original : ℚ) / 100 + 1 / 2 ^ 22 := by
    refine max_le ?_ ?_
    · have : (0 : ℚ) ≤ max 0 (original : ℚ) := le_max_left _ _
      positivity
    · have : (original : ℚ) ≤ max 0 (original : ℚ) := le_max_right _ _
      norm_num
      linarith [hx.2, ha.2, hb.1]
  have hbase := hmax.trans hcases
  norm_num at hbase ⊢
  linarith

/-! ### The invariant -/

/-- A row has grown from the row before any fee by its fees and their tax. -/
structure Grown (base db : DB) (row : InvoiceRow) : Prop where
  fits : row.Fits
  origin : ∃ original, base.invoices.find? row.id = some original ∧
    original.tax_rate = row.tax_rate ∧
    row.subtotal = original.subtotal + feesOf db.fees row.id ∧
    row.tax_amount = original.tax_amount + feeTaxOf db.fees original.tax_rate row.id ∧
    row.total = original.total + feesOf db.fees row.id +
      feeTaxOf db.fees original.tax_rate row.id
  lines : linesTotal db.items row.id = linesTotal base.items row.id + feesOf db.fees row.id

/-- The database part of the invariant. -/
structure DBSound (base db : DB) : Prop where
  oncePerMonth : (db.fees.map FeeRow.key).Nodup
  capped : ∀ invoiceId, ∀ rule ∈ db.rules.rows, ∀ max ∈ rule.max_applications,
    ((feesUnder db.fees invoiceId rule.id).length : ℤ) ≤ Max.max 0 max
  grown : ∀ row ∈ db.invoices.rows, Grown base db row

/-- The copy of an invoice in memory is no larger than the row. -/
structure Snapshot (db : DB) (invoice : LateInvoice) : Prop where
  fits : Fits invoice.subtotal
  row : ∃ row, db.invoices.find? invoice.id = some row ∧ invoice.tax_rate = row.tax_rate ∧
    invoice.subtotal ≤ row.subtotal

/-- The count that a phase remembers is below the cap of the rule. -/
def Phase.Below (rule : LateFeeRule) : Phase → Prop
  | .check => True
  | .counted alreadyApplied => ∀ max ∈ rule.max_applications, (alreadyApplied : ℤ) < max
  | .priced alreadyApplied feeAmount =>
    (∀ max ∈ rule.max_applications, (alreadyApplied : ℤ) < max) ∧ 0 < feeAmount

/-- What a run in flight holds in memory. -/
structure RunSound (db : DB) (r : LateRun) : Prop where
  rules : ∀ rule ∈ r.rules, rule ∈ db.rules.rows
  pending : ∀ rule ∈ r.pending, rule ∈ db.rules.rows
  snapshots : ∀ invoice ∈ r.invoices, Snapshot db invoice
  phase : ∀ rule ∈ r.pending.head?, r.phase.Below rule

/-- The database has only grown: the same rules, and every row at least what it was. -/
structure Grows (db db' : DB) : Prop where
  rules : db'.rules = db.rules
  rows : ∀ id row, db.invoices.find? id = some row → ∃ row', db'.invoices.find? id = some row' ∧
    row'.tax_rate = row.tax_rate ∧ row.subtotal ≤ row'.subtotal

theorem Grows.refl (db : DB) : Grows db db :=
  ⟨rfl, fun _ row h => ⟨row, h, rfl, le_rfl⟩⟩

variable {base db db' : DB} {r : LateRun} {invoice : LateInvoice}

theorem Snapshot.grows (h : Snapshot db invoice) (hgrows : Grows db db') :
    Snapshot db' invoice := by
  obtain ⟨row, hrow, hrate, hle⟩ := h.row
  obtain ⟨row', hrow', hrate', hle'⟩ := hgrows.rows _ _ hrow
  exact ⟨h.fits, row', hrow', hrate.trans hrate'.symm, hle.trans hle'⟩

theorem RunSound.grows (h : RunSound db r) (hgrows : Grows db db') : RunSound db' r where
  rules := by
    rw [hgrows.rules]
    exact h.rules
  pending := by
    rw [hgrows.rules]
    exact h.pending
  snapshots := fun invoice hinvoice => (h.snapshots invoice hinvoice).grows hgrows
  phase := h.phase

theorem RunSound.skipRule (h : RunSound db r) : RunSound db r.skipRule where
  rules := h.rules
  pending := fun rule hrule => h.pending rule (List.mem_of_mem_tail hrule)
  snapshots := h.snapshots
  phase := fun _ _ => trivial

theorem RunSound.skipInvoice (h : RunSound db r) : RunSound db r.skipInvoice where
  rules := h.rules
  pending := h.rules
  snapshots := fun invoice hinvoice => h.snapshots invoice (List.mem_of_mem_tail hinvoice)
  phase := fun _ _ => trivial

theorem RunSound.price (h : RunSound db r) {alreadyApplied : ℕ} (feeAmount : ℤ)
    (hbelow : ∀ rule ∈ r.pending.head?, ∀ max ∈ rule.max_applications,
      (alreadyApplied : ℤ) < max) : RunSound db (r.price alreadyApplied feeAmount) := by
  rw [LateRun.price]
  split_ifs with hfee
  · exact h.skipRule
  · exact ⟨h.rules, h.pending, h.snapshots, fun rule hrule => ⟨hbelow rule hrule, not_le.1 hfee⟩⟩

/-! ### Booking a fee -/

theorem bookFee_some {organizationId : ℕ} {rule : LateFeeRule} {periodKey feeAmount : ℤ}
    (h : bookFee db organizationId invoice rule periodKey feeAmount = some db') :
    ∃ row, db.invoices.find? invoice.id = some row ∧
      feesInPeriod db.fees invoice.id rule.id periodKey = [] ∧ Fits feeAmount ∧
      (addLine invoice.tax_rate feeAmount row).Fits ∧ db' = { db with
        fees := db.fees ++ [⟨invoice.id, rule.id, organizationId, feeAmount, periodKey⟩]
        items := db.items ++ [feeItem rule invoice.id feeAmount]
        invoices := db.invoices.modify invoice.id (addLine invoice.tax_rate feeAmount)
          (key_addLine invoice.tax_rate feeAmount) } := by
  rw [bookFee] at h
  cases hrow : db.invoices.find? invoice.id with
  | none =>
    rw [hrow] at h
    cases h
  | some row =>
    simp only [hrow] at h
    split_ifs at h with hcheck
    push_neg at hcheck
    exact ⟨row, rfl, hcheck.1, hcheck.2.1, hcheck.2.2, (Option.some.inj h).symm⟩

theorem grows_of_bookFee {organizationId : ℕ} {rule : LateFeeRule} {periodKey feeAmount : ℤ}
    (hfee : 0 < feeAmount)
    (h : bookFee db organizationId invoice rule periodKey feeAmount = some db') :
    Grows db db' := by
  obtain ⟨row, hrow, _, _, _, rfl⟩ := bookFee_some h
  refine ⟨rfl, fun id row' hrow' => ?_⟩
  simp only [Table.find?_modify]
  split_ifs with hid
  · subst hid
    obtain rfl : row' = row := Option.some.inj (hrow'.symm.trans hrow)
    refine ⟨addLine invoice.tax_rate feeAmount row', by rw [hrow, Option.map_some], rfl, ?_⟩
    change row'.subtotal ≤ row'.subtotal + feeAmount
    omega
  · exact ⟨row', hrow', rfl, le_rfl⟩

/-- **Booking a fee keeps the database sound**, when the count is below the cap. -/
theorem DBSound.bookFee (h : DBSound base db) {organizationId : ℕ} {rule : LateFeeRule}
    {periodKey feeAmount : ℤ} (hsnapshot : Snapshot db invoice) (hrule : rule ∈ db.rules.rows)
    (hcount : ∀ max ∈ rule.max_applications,
      ((feesUnder db.fees invoice.id rule.id).length : ℤ) < max)
    (hbook : bookFee db organizationId invoice rule periodKey feeAmount = some db') :
    DBSound base db' := by
  obtain ⟨row, hrow, hnone, hfits, hrowfits, rfl⟩ := bookFee_some hbook
  obtain ⟨row', hrow', hrate, _⟩ := hsnapshot.row
  obtain rfl : row' = row := Option.some.inj (hrow'.symm.trans hrow)
  refine ⟨?_, ?_, ?_⟩
  · -- the unique key: there is no fee of this month yet
    rw [List.map_append, List.nodup_append]
    refine ⟨h.oncePerMonth, List.nodup_singleton _, fun k hk k' hk' => ?_⟩
    obtain ⟨fee, hfee, rfl⟩ := List.mem_map.1 hk
    rw [List.map_singleton, List.mem_singleton] at hk'
    subst hk'
    intro heq
    simp only [FeeRow.key, Prod.mk.injEq] at heq
    have hmem : fee ∈ feesInPeriod db.fees invoice.id rule.id periodKey := by
      simp [feesInPeriod, feesUnder, hfee, heq]
    rw [hnone] at hmem
    cases hmem
  · intro invoiceId rule' hrule' max hmax
    have hold := h.capped invoiceId rule' hrule' max hmax
    simp only [feesUnder_concat_length]
    split_ifs with hpair
    · obtain ⟨rfl, hid⟩ := hpair
      obtain rfl : rule = rule' := Table.eq_of_key_eq hrule hrule' hid
      have := hcount max hmax
      push_cast
      omega
    · push_cast
      omega
  · intro row₁ hrow₁
    have hrow₁ : row₁ ∈ (db.invoices.modify invoice.id (addLine invoice.tax_rate feeAmount)
      (key_addLine invoice.tax_rate feeAmount)).rows := hrow₁
    rcases Table.mem_modify.1 hrow₁ with ⟨hmem, hid⟩ | ⟨row₂, hrow₂, rfl⟩
    · -- another invoice: neither its fees nor its lines have changed
      obtain ⟨hfit, ⟨original, horig, htaxrate, hsub, htax, htotal⟩, hlines⟩ := h.grown row₁ hmem
      have hne : ¬ invoice.id = row₁.id := fun heq => hid heq.symm
      refine ⟨hfit, ⟨original, horig, htaxrate, ?_⟩, ?_⟩
      · simp only [feesOf_concat, feeTaxOf_concat, if_neg hne, add_zero]
        exact ⟨hsub, htax, htotal⟩
      · simp only [feesOf_concat, linesTotal_concat, feeItem, if_neg hne, add_zero]
        exact hlines
    · obtain rfl : row₂ = row' := Option.some.inj (hrow₂.symm.trans hrow)
      obtain ⟨hmem, hid⟩ := Table.find?_eq_some.1 hrow
      have hid : row₂.id = invoice.id := hid
      obtain ⟨_, ⟨original, horig, htaxrate, hsub, htax, htotal⟩, hlines⟩ := h.grown row₂ hmem
      have hrate' : original.tax_rate = invoice.tax_rate := htaxrate.trans hrate.symm
      refine ⟨hrowfits, ⟨original, horig, htaxrate, ?_⟩, ?_⟩
      · simp only [feesOf_concat, feeTaxOf_concat, addLine, hid, if_true, hrate']
        rw [hid] at hsub htax htotal
        rw [hrate'] at htax htotal
        omega
      · simp only [feesOf_concat, linesTotal_concat, feeItem, addLine, hid, if_true]
        rw [hid] at hlines
        omega

/-! ### Steps -/

theorem centsOf_add {a b : ℤ} (ha : Fits a) (hb : Fits b) :
    centsOf (fl (number a + number b)) = a + b := by
  have hsum : |a + b| ≤ 2 * decimalMax := (abs_add_le a b).trans (by
    have ha : |a| ≤ decimalMax := ha
    have hb : |b| ≤ decimalMax := hb
    omega)
  have hwide : decimalMax ≤ 2 * decimalMax := by norm_num [decimalMax]
  have hna := abs_le.1 (number_close (le_trans ha hwide))
  have hnb := abs_le.1 (number_close (le_trans hb hwide))
  have hs : |((a : ℚ) + b)| ≤ 2 * 9999999999 := by exact_mod_cast hsum
  rw [abs_le] at hs
  have hlt : |number a + number b| < 2 ^ (28 : ℤ) := by
    rw [abs_lt]
    constructor <;> norm_num at hna hnb ⊢ <;>
      linarith [hna.1, hna.2, hnb.1, hnb.2, hs.1, hs.2]
  have hfl := abs_le.1 (abs_fl_sub_le (by norm_num) hlt)
  refine mathRound_cents hsum ?_
  push_cast
  rw [abs_le]
  constructor <;> norm_num at hna hnb hfl ⊢ <;>
    linarith [hna.1, hna.2, hnb.1, hnb.2, hfl.1, hfl.2]

theorem Snapshot.sync (h : Snapshot db invoice) {organizationId : ℕ} {rule : LateFeeRule}
    {periodKey feeAmount : ℤ} (hfee : 0 < feeAmount)
    (hbook : bookFee db organizationId invoice rule periodKey feeAmount = some db') :
    Snapshot db' (invoice.sync feeAmount) := by
  obtain ⟨row, hrow, _, hfits, hrowfits, rfl⟩ := bookFee_some hbook
  obtain ⟨row', hrow', hrate, hle⟩ := h.row
  obtain rfl : row' = row := Option.some.inj (hrow'.symm.trans hrow)
  have hsub : (invoice.sync feeAmount).subtotal = invoice.subtotal + feeAmount :=
    centsOf_add h.fits hfits
  have hnew : |row'.subtotal + feeAmount| ≤ decimalMax := hrowfits.1
  have hold : |invoice.subtotal| ≤ decimalMax := h.fits
  rw [abs_le] at hnew hold
  refine ⟨?_, addLine invoice.tax_rate feeAmount row', ?_, hrate, ?_⟩
  · rw [hsub, Fits, abs_le]
    omega
  · change (db.invoices.modify invoice.id (addLine invoice.tax_rate feeAmount)
      (key_addLine invoice.tax_rate feeAmount)).find? invoice.id = _
    rw [Table.find?_modify, if_pos rfl, hrow, Option.map_some]
  · rw [hsub]
    change invoice.subtotal + feeAmount ≤ row'.subtotal + feeAmount
    omega

/-- What a step of a run leaves. -/
structure StepSound (base db : DB) (r : LateRun) (next : DB × LateRun) : Prop where
  grows : Grows db next.1
  db : DBSound base next.1
  run : RunSound next.1 next.2
  id : next.2.id = r.id

theorem StepSound.of_read (hdb : DBSound base db) {next : LateRun} (hrun : RunSound db next)
    (hid : next.id = r.id) : StepSound base db r (db, next) :=
  ⟨Grows.refl db, hdb, hrun, hid⟩

theorem id_price (r : LateRun) (alreadyApplied : ℕ) (feeAmount : ℤ) :
    (r.price alreadyApplied feeAmount).id = r.id := by
  rw [LateRun.price]
  split_ifs <;> rfl

/-- **A statement of a run** keeps the database and the run sound. -/
theorem next_sound (hdb : DBSound base db) (hrun : RunSound db r) {rule : LateFeeRule}
    {invoices : List LateInvoice} {rules : List LateFeeRule}
    (hinvoices : r.invoices = invoice :: invoices)
    (hpending : r.pending = rule :: rules) (goesThrough : Bool)
    (hcurrent : r.countCurrent db) :
    StepSound base db r (r.next db invoice rule goesThrough) := by
  have hhead : ∀ rule' ∈ r.pending.head?, rule' = rule := by
    intro rule' hrule'
    rw [hpending] at hrule'
    exact (Option.some.inj hrule').symm
  have hphase := hrun.phase rule (by rw [hpending]; rfl)
  have hsnapshot := hrun.snapshots invoice (by rw [hinvoices]; exact List.mem_cons_self)
  have hrule := hrun.pending rule (by rw [hpending]; exact List.mem_cons_self)
  rw [LateRun.next]
  cases hp : r.phase with
  | check =>
    dsimp only
    split_ifs with hskip
    · exact .of_read hdb hrun.skipRule rfl
    · push_neg at hskip
      have hbelow := hskip.2.2
      cases rule.fee_type with
      | percent =>
        refine .of_read hdb ⟨hrun.rules, hrun.pending, hrun.snapshots, fun rule' hrule' => ?_⟩ rfl
        rw [hhead rule' hrule']
        exact hbelow
      | flat =>
        refine .of_read hdb (hrun.price _ fun rule' hrule' => ?_) (id_price r _ _)
        rw [hhead rule' hrule']
        exact hbelow
  | counted alreadyApplied =>
    rw [hp] at hphase
    refine .of_read hdb (hrun.price _ fun rule' hrule' => ?_) (id_price r _ _)
    rw [hhead rule' hrule']
    exact hphase
  | priced alreadyApplied feeAmount =>
    rw [hp] at hphase
    obtain ⟨hbelow, hfee⟩ := hphase
    dsimp only
    cases hbook : bookFee db r.organizationId invoice rule r.periodKey feeAmount with
    | none => exact .of_read hdb hrun.skipRule rfl
    | some db' =>
      dsimp only
      split_ifs
      · have hgrows := grows_of_bookFee hfee hbook
        have hnone := (bookFee_some hbook).choose_spec.2.1
        have hcount : ∀ max ∈ rule.max_applications,
            ((feesUnder db.fees invoice.id rule.id).length : ℤ) < max := by
          intro max hmax
          rw [LateRun.countCurrent, hinvoices, hpending, hp] at hcurrent
          rcases of_decide_eq_true hcurrent with hnocap | hcurrent
          · rw [hnocap] at hmax
            cases hmax
          · rw [← otherMonths_of_none hnone, hcurrent]
            exact hbelow max hmax
        refine ⟨hgrows, hdb.bookFee hsnapshot hrule hcount hbook, ?_, rfl⟩
        have hskip := hrun.skipRule.grows hgrows
        refine ⟨hskip.rules, hskip.pending, fun invoice' hinvoice' => ?_, hskip.phase⟩
        rcases List.mem_cons.1 hinvoice' with rfl | hinvoice'
        · exact hsnapshot.sync hfee hbook
        · exact hskip.snapshots invoice' (List.mem_of_mem_tail hinvoice')
      · exact .of_read hdb hrun.skipRule rfl

theorem advance_sound (hdb : DBSound base db) (hrun : RunSound db r) (goesThrough : Bool)
    (hcurrent : r.countCurrent db) : StepSound base db r (r.advance db goesThrough) := by
  rw [LateRun.advance]
  cases hinvoices : r.invoices with
  | nil => exact .of_read hdb hrun rfl
  | cons invoice invoices =>
    dsimp only
    split_ifs
    · exact .of_read hdb hrun.skipInvoice rfl
    · refine .of_read hdb ⟨hrun.rules, hrun.pending, fun i hi => ?_, hrun.phase⟩ rfl
      exact hrun.snapshots i (hinvoices ▸ hi)
    · cases hpending : r.pending with
      | nil => exact .of_read hdb hrun.skipInvoice rfl
      | cons rule rules => exact next_sound hdb hrun hinvoices hpending goesThrough hcurrent

/-! ### Runs -/

/-- **The invariant** of a database and the runs on it. -/
structure SystemSound (base : DB) (s : System) : Prop where
  db : DBSound base s.db
  runs : ∀ r ∈ s.runs.rows, RunSound s.db r

theorem newRun_sound (hdb : DBSound base db) (organizationId : ℕ) (today periodKey : ℤ) (id : ℕ) :
    RunSound db (newRun db organizationId today periodKey id) := by
  have hrules : ∀ rule ∈ activeRules db organizationId, rule ∈ db.rules.rows :=
    fun _ h => (List.mem_filter.1 h).1
  refine ⟨hrules, hrules, fun invoice hinvoice => ?_, fun _ _ => trivial⟩
  obtain ⟨row, hrow, rfl⟩ := List.mem_map.1 hinvoice
  have hmem := (List.mem_filter.1 hrow).1
  exact ⟨(hdb.grown row hmem).fits.1, row, Table.find?_key hmem, rfl, le_rfl⟩

theorem find?_restand (standing : ℕ → Standing) (id : ℕ) :
    (db.restand standing).invoices.find? id =
      (db.invoices.find? id).map (withStanding standing) := by
  change (db.invoices.rows.map (withStanding standing)).find? _ = _
  rw [List.find?_map]
  rfl

theorem DBSound.restand (h : DBSound base db) (standing : ℕ → Standing) :
    DBSound base (db.restand standing) where
  oncePerMonth := h.oncePerMonth
  capped := h.capped
  grown := by
    intro row hrow
    obtain ⟨row, hmem, rfl⟩ := List.mem_map.1 hrow
    obtain ⟨hfits, horigin, hlines⟩ := h.grown row hmem
    exact ⟨hfits, horigin, hlines⟩

theorem grows_restand (standing : ℕ → Standing) : Grows db (db.restand standing) := by
  refine ⟨rfl, fun id row hrow => ⟨withStanding standing row, ?_, rfl, le_rfl⟩⟩
  rw [find?_restand, hrow, Option.map_some]

theorem SystemSound.step {s : System} (h : SystemSound base s) (event : Event)
    (hcurrent : CountCurrent s event) : SystemSound base (step s event) := by
  cases event with
  | start organizationId today periodKey =>
    refine ⟨h.db, fun r hr => ?_⟩
    have hr : r ∈ (s.runs.insert (newRun s.db organizationId today periodKey)
      (key_newRun s.db organizationId today periodKey)).rows := hr
    rcases Table.mem_insert.1 hr with hr | rfl
    · exact h.runs r hr
    · exact newRun_sound h.db organizationId today periodKey _
  | step runId goesThrough =>
    rw [LateFees.step]
    cases hr : s.runs.find? runId with
    | none => exact h
    | some r =>
      have hmem := (Table.find?_eq_some.1 hr).1
      have hnext := advance_sound h.db (h.runs r hmem) goesThrough (hcurrent r hr)
      refine ⟨hnext.db, fun r' hr' => ?_⟩
      rcases Table.mem_put.1 hr' with rfl | ⟨hr', _⟩
      · exact hnext.run
      · exact (h.runs r' hr').grows hnext.grows
  | stop runId =>
    refine ⟨h.db, fun r hr => ?_⟩
    exact h.runs r (Table.mem_remove.1 hr).1
  | elsewhere standing =>
    refine ⟨h.db.restand standing, fun r hr => ?_⟩
    exact (h.runs r hr).grows (grows_restand standing)

theorem Untouched.sound (h : Untouched base) : SystemSound base ⟨base, ⟨[], List.nodup_nil⟩⟩ where
  db := by
    refine ⟨?_, ?_, fun row hrow => ⟨h.fits row hrow, ⟨row, Table.find?_key hrow, rfl, ?_⟩, ?_⟩⟩
    · rw [h.fees]
      exact List.nodup_nil
    · intro invoiceId rule _ max _
      rw [h.fees]
      exact le_max_left 0 max
    · simp [h.fees, feesOf, feeTaxOf]
    · simp [h.fees, feesOf]
  runs := fun _ hr => absurd hr List.not_mem_nil

/-- What the invariant says. -/
theorem SystemSound.laws {s : System} (hbase : Untouched base) (h : SystemSound base s) :
    FeeLaws base s where
  oncePerMonth := h.db.oncePerMonth
  capped := h.db.capped
  neverCompounds := by
    intro r hr invoice hinvoice
    obtain ⟨hfits, row, hrow, _, hle⟩ := (h.runs r hr).snapshots invoice hinvoice
    obtain ⟨hmem, hid⟩ := Table.find?_eq_some.1 hrow
    have hid : row.id = invoice.id := hid
    obtain ⟨hrowfits, ⟨original, horig, _, hsub, _⟩, _⟩ := h.db.grown row hmem
    rw [hid] at horig hsub
    have horigfits := (hbase.fits original (Table.find?_eq_some.1 horig).1).1
    have h1 : |invoice.subtotal| ≤ decimalMax := hfits
    have h2 : |row.subtotal| ≤ decimalMax := hrowfits.1
    have h3 : |original.subtotal| ≤ decimalMax := horigfits
    rw [abs_le] at h1 h2 h3
    refine ⟨original, horig, ?_⟩
    have hprior : |feesOf s.db.fees invoice.id| ≤ 2 * decimalMax := by
      rw [abs_le]
      omega
    have hsubtotal : |invoice.subtotal| ≤ 2 * decimalMax := by
      rw [abs_le]
      omega
    have hnet : invoice.subtotal - feesOf s.db.fees invoice.id ≤ original.subtotal := by omega
    exact_mod_cast percentBase_le hsubtotal hprior hnet
  balanced := by
    intro row hrow
    obtain ⟨_, ⟨original, horig, _, hsub, htax, htotal⟩, hlines⟩ := h.db.grown row hrow
    obtain ⟨hmem, hid⟩ := Table.find?_eq_some.1 horig
    have hid : original.id = row.id := hid
    have hsub0 := hbase.subtotal original hmem
    have htotal0 := hbase.total original hmem
    rw [hid] at hsub0
    exact ⟨original, horig, by omega, htax, by omega⟩

/-- A reminder fee of 50.00, once for an invoice. -/
def reminderFee : LateFeeRule := ⟨1, 1, "Reminder", .flat, 5000, 0, some 1, true⟩

/-- An overdue invoice of 1,000.00 and 16%. -/
def overdueInvoice : InvoiceRow :=
  ⟨1, 1, 100000, 16000, 116000, 16 / 100, ⟨.overdue, 0, false, false, false, false, 0⟩⟩

def oneOverdue : DB where
  rules := ⟨[reminderFee], List.nodup_singleton _⟩
  invoices := ⟨[overdueInvoice], List.nodup_singleton _⟩
  items := [⟨1, "Internet service", 1, 100000, 100000⟩]
  fees := []

theorem oneOverdue_untouched : Untouched oneOverdue where
  fees := rfl
  fits := by decide
  subtotal := by decide
  total := by decide

/-- A run of January counts no fee, then one of February counts none; both book. -/
def acrossMonths : List Event :=
  [.start 1 31 24312, .start 1 32 24313, .step 1 true, .step 1 true, .step 2 true, .step 2 true,
    .step 1 true, .step 2 true]

/-- One run of each month, one after the other. -/
def oneAfterAnother : List Event :=
  [.start 1 31 24312, .step 1 true, .step 1 true, .step 1 true, .start 1 32 24313, .step 2 true,
    .step 2 true]

end Vigabss.LateFees
