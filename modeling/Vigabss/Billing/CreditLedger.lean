import Vigabss.Lib.Journal
import Vigabss.Billing.Conserving

/-!
# Vigabss.Billing.CreditLedger — the balance ledger follows the credit notes

`creditNoteLedgerService`: every path that writes a credit note ends in `syncCreditNoteLedger`,
which appends one row to `client_balance_ledger` for the difference between what the note's rows
amount to and what the note stands for.  The service works on JavaScript numbers; `sync_brings`
says that on cents it is exact.
-/

namespace Vigabss.Billing

open Vigabss.Lib

/-! ### The service -/

/-- The columns of `credit_notes` that only the ledger rows are made from. -/
structure NoteDetails where
  creditNoteNumber : String
  currency : String
  deriving DecidableEq, Repr

/-- A row of `client_balance_ledger` under `reference_type = 'credit_note'`. -/
structure CreditPosting where
  clientId : ℕ
  organizationId : ℕ
  entryType : EntryType
  amount : ℤ
  currency : Option String
  referenceId : ℕ
  description : String
  entryDate : ℕ
  deriving DecidableEq, Repr

/-- The note, the client and the organization of a row. -/
def CreditPosting.account (e : CreditPosting) : ℕ × ℕ × ℕ :=
  (e.referenceId, e.clientId, e.organizationId)

/-- `signedAmountSql`, positive for what the client owes. -/
def CreditPosting.signedAmount (e : CreditPosting) : ℤ :=
  match e.entryType with
  | .debit => e.amount
  | .credit => -e.amount

/-- What the rows under a key credit. -/
def creditOf {κ : Type} [DecidableEq κ] (key : CreditPosting → κ) (postings : List CreditPosting)
    (k : κ) : ℤ :=
  Journal.net key (fun e => -e.signedAmount) postings k

/-- `round2(n)`. -/
def round2 (n : ℚ) : ℚ := fl (mathRound (fl (n * 100)) / 100)

/-- `ledgerTarget(note)`. -/
def ledgerTarget (note : CreditNote) : ℚ :=
  if note.deleted then 0
  else if note.status.posted then round2 (number note.total) else 0

/-- `postedCredit(exec, note, orgId)`. -/
def postedCredit (postings : List CreditPosting) (note : CreditNote) (orgId : ℕ) : ℚ :=
  let net := Journal.net CreditPosting.account CreditPosting.signedAmount postings
    (note.id, note.clientId, orgId)
  round2 (-number net)

/-- `describe(note, diff, target, label)`; an empty label is an absent one. -/
def describe (note : CreditNote) (details : NoteDetails) (diff target : ℚ)
    (label : String) : String :=
  let name := "Credit Note " ++
    if details.creditNoteNumber = "" then toString note.id else details.creditNoteNumber
  let suffix := if label = "" then "" else " (" ++ label ++ ")"
  if 0 < diff then if 0 < target then name ++ suffix else name
  else if target ≤ 0 then "Reversal: " ++ name ++ suffix
  else "Adjustment: " ++ name ++ suffix

/-- What `INSERT INTO client_balance_ledger` fails with when `amount` does not fit its column. -/
def outOfRange (column : String) : SqlError :=
  .signal ("Out of range value for column '" ++ column ++ "' at row 1")

/-- The largest amount of a `DECIMAL(10, 2)` column. -/
def decimalMax : ℤ := 9999999999

/-- `syncCreditNoteLedger(exec, note, orgId, { target, label })`: the rows after it, and the credit
it appended. -/
def syncCreditNoteLedger (postings : List CreditPosting) (note : CreditNote)
    (details : NoteDetails) (orgId today : ℕ) (target : Option ℚ) (label : String) :
    Except SqlError (List CreditPosting × ℚ) :=
  if note.clientId = 0 then .ok (postings, 0)
  else
    let target := target.elim (ledgerTarget note) round2
    let credited := postedCredit postings note orgId
    let diff := round2 (fl (target - credited))
    if |diff| < fl (5 / 1000) then .ok (postings, 0)
    else if decimalMax < toDecimal |diff| then .error (outOfRange "amount")
    else
      let entry : CreditPosting := {
        clientId := note.clientId
        organizationId := orgId
        entryType := if 0 < diff then .credit else .debit
        amount := toDecimal |diff|
        currency := if details.currency = "" then none else some details.currency
        referenceId := note.id
        description := String.ofList ((describe note details diff target label).toList.take 255)
        entryDate := today }
      .ok (postings ++ [entry], diff)

/-! ### The arithmetic is exact on cents -/

theorem number_close {c : ℤ} (h : |c| ≤ 2 * decimalMax) : |number c - c / 100| ≤ 1 / 2 ^ 26 := by
  have hc : |(c : ℚ)| ≤ 2 * 9999999999 := by exact_mod_cast h
  have hlt : |(c : ℚ) / 100| < 2 ^ (28 : ℤ) := by
    rw [abs_div, abs_of_pos (by norm_num : (0 : ℚ) < 100)]
    norm_num
    linarith
  exact (abs_fl_sub_le (by norm_num) hlt).trans (by norm_num)

theorem number_near {c : ℤ} (h : |c| ≤ 2 * 10 ^ 12) : |number c - c / 100| ≤ 1 / 2 ^ 19 := by
  have hc : |(c : ℚ)| ≤ 2 * 10 ^ 12 := by exact_mod_cast h
  have hlt : |(c : ℚ) / 100| < 2 ^ (35 : ℤ) := by
    rw [abs_div, abs_of_pos (by norm_num : (0 : ℚ) < 100)]
    norm_num
    linarith
  exact (abs_fl_sub_le (by norm_num) hlt).trans (by norm_num)

theorem mathRound_near {x : ℚ} {c : ℤ} (h : |c| ≤ 2 * 10 ^ 12) (hx : |x - c / 100| ≤ 1 / 2 ^ 9) :
    mathRound (fl (x * 100)) = c := by
  have hc : |(c : ℚ)| ≤ 2 * 10 ^ 12 := by exact_mod_cast h
  rw [abs_le] at hx hc
  have hlt : |x * 100| < 2 ^ (42 : ℤ) := by
    rw [abs_lt]
    constructor <;> norm_num at hx ⊢ <;> linarith [hx.1, hx.2, hc.1, hc.2]
  have hfl := abs_le.1 (abs_fl_sub_le (by norm_num) hlt)
  apply mathRound_eq
  rw [abs_lt]
  constructor <;> norm_num at hx hfl ⊢ <;> linarith [hx.1, hx.2, hfl.1, hfl.2]

theorem mathRound_cents {x : ℚ} {c : ℤ} (h : |c| ≤ 2 * decimalMax)
    (hx : |x - c / 100| ≤ 1 / 2 ^ 20) : mathRound (fl (x * 100)) = c :=
  mathRound_near (h.trans (by norm_num [decimalMax])) (hx.trans (by norm_num))

theorem round2_eq {x : ℚ} {c : ℤ} (h : |c| ≤ 2 * decimalMax) (hx : |x - c / 100| ≤ 1 / 2 ^ 20) :
    round2 x = number c := by
  rw [round2, mathRound_cents h hx, number]

theorem round2_number {c : ℤ} (h : |c| ≤ 2 * decimalMax) : round2 (number c) = number c :=
  round2_eq h ((number_close h).trans (by norm_num))

theorem round2_fl {x : ℚ} {c : ℤ} (h : |c| ≤ 2 * decimalMax) (hx : |x - c / 100| ≤ 1 / 2 ^ 22) :
    round2 (fl x) = number c := by
  have hc : |(c : ℚ)| ≤ 2 * 9999999999 := by exact_mod_cast h
  rw [abs_le] at hc hx
  norm_num at hx
  have hlt : |x| < 2 ^ (28 : ℤ) := by
    rw [abs_lt]
    constructor <;> norm_num <;> linarith [hx.1, hx.2, hc.1, hc.2]
  have hfl := abs_le.1 (abs_fl_sub_le (by norm_num) hlt)
  norm_num at hfl
  refine round2_eq h ?_
  rw [abs_le]
  constructor <;> norm_num <;> linarith [hx.1, hx.2, hfl.1, hfl.2]

theorem round2_add {a b : ℤ} (ha : |a| ≤ 2 * decimalMax) (hb : |b| ≤ 2 * decimalMax)
    (hab : |a + b| ≤ 2 * decimalMax) : round2 (fl (number a + number b)) = number (a + b) := by
  have hna := abs_le.1 (number_close ha)
  have hnb := abs_le.1 (number_close hb)
  refine round2_fl hab ?_
  push_cast
  norm_num at hna hnb
  rw [abs_le]
  constructor <;> norm_num <;> linarith [hna.1, hna.2, hnb.1, hnb.2]

theorem round2_difference {a b : ℤ} (ha : |a| ≤ 2 * decimalMax) (hb : |b| ≤ 2 * decimalMax)
    (hab : |a - b| ≤ 2 * decimalMax) : round2 (fl (number a - number b)) = number (a - b) := by
  have hna := abs_le.1 (number_close ha)
  have hnb := abs_le.1 (number_close hb)
  refine round2_fl hab ?_
  push_cast
  norm_num at hna hnb
  rw [abs_le]
  constructor <;> norm_num <;> linarith [hna.1, hna.2, hnb.1, hnb.2]

theorem round2_sub {t c : ℤ} (ht : |t| ≤ decimalMax) (hc : |c| ≤ decimalMax) :
    round2 (fl (number t - number c)) = number (t - c) := by
  have hwide : decimalMax ≤ 2 * decimalMax := by norm_num [decimalMax]
  exact round2_difference (ht.trans hwide) (hc.trans hwide) ((abs_sub t c).trans (by linarith))

theorem number_zero : number 0 = 0 := by
  simp [number, fl]

theorem abs_number_lt_iff {d : ℤ} (h : |d| ≤ 2 * decimalMax) :
    |number d| < fl (5 / 1000) ↔ d = 0 := by
  have hhalf := abs_le.1 (abs_fl_sub_le (q := 5 / 1000) (n := 0) (by norm_num) (by
    rw [abs_of_pos (by norm_num)]
    norm_num))
  norm_num at hhalf
  constructor
  · intro hlt
    by_contra hne
    have hone : (1 : ℚ) ≤ |(d : ℚ)| := by exact_mod_cast Int.one_le_abs hne
    have hclose := number_close h
    have htri : |(d : ℚ) / 100| ≤ |number d - d / 100| + |number d| := by
      have := abs_sub_abs_le_abs_sub ((d : ℚ) / 100) (number d)
      rw [abs_sub_comm] at this
      linarith
    rw [abs_div, abs_of_pos (by norm_num : (0 : ℚ) < 100)] at htri
    norm_num at hclose
    linarith [hhalf.1, hhalf.2]
  · rintro rfl
    rw [number_zero, abs_zero]
    linarith [hhalf.1]

theorem number_pos_iff {d : ℤ} (h : |d| ≤ 2 * decimalMax) : 0 < number d ↔ 0 < d := by
  have hclose := abs_le.1 (number_close h)
  norm_num at hclose
  constructor
  · intro hpos
    by_contra hle
    rcases (not_lt.1 hle).eq_or_lt with rfl | hneg
    · exact absurd hpos (by simp [number_zero])
    · have : (d : ℚ) ≤ -1 := by exact_mod_cast Int.le_sub_one_of_lt hneg
      linarith [hclose.2]
  · intro hpos
    have : (1 : ℚ) ≤ d := by exact_mod_cast hpos
    linarith [hclose.1]

theorem toDecimal_abs_number {d : ℤ} (h : |d| ≤ 2 * decimalMax) : toDecimal |number d| = |d| := by
  have hround : mathRound (|number d| * 100) = |d| := by
    apply mathRound_eq
    have hclose := number_close h
    have hle := abs_abs_sub_abs_le_abs_sub (number d) ((d : ℚ) / 100)
    have habs : |(d : ℚ) / 100| = |(d : ℚ)| / 100 := by
      rw [abs_div, abs_of_pos (by norm_num : (0 : ℚ) < 100)]
    rw [habs] at hle
    push_cast
    have := abs_le.1 (hle.trans hclose)
    rw [abs_lt]
    constructor <;> norm_num at this ⊢ <;> linarith [this.1, this.2]
  rw [toDecimal, if_pos (abs_nonneg _)]
  exact hround

/-! ### What a sync does -/

/-- What a note stands for on its client's account. -/
def CreditNote.credit (note : CreditNote) : ℤ := if note.counts = true then note.total else 0

theorem ledgerTarget_eq {note : CreditNote} (h : |note.total| ≤ decimalMax) :
    ledgerTarget note = number note.credit := by
  have hwide : |note.total| ≤ 2 * decimalMax := by
    unfold decimalMax at *
    omega
  unfold ledgerTarget CreditNote.credit CreditNote.counts
  cases note.deleted <;> cases note.status.posted <;> simp [round2_number hwide, number_zero]

theorem round2_zero : round2 0 = number 0 := by
  rw [← number_zero, round2_number (by norm_num [decimalMax])]

section Sync

variable {postings postings' : List CreditPosting} {note : CreditNote} {details : NoteDetails}
  {orgId today : ℕ} {target : Option ℚ} {label : String} {diff : ℚ} {t : ℤ}

/-- The entry that a sync appends for a difference of `d` cents. -/
def noteEntry (note : CreditNote) (details : NoteDetails) (orgId today : ℕ) (target : ℚ)
    (label : String) (d : ℤ) : CreditPosting where
  clientId := note.clientId
  organizationId := orgId
  entryType := if 0 < d then .credit else .debit
  amount := |d|
  currency := if details.currency = "" then none else some details.currency
  referenceId := note.id
  description :=
    String.ofList ((describe note details (number d) target label).toList.take 255)
  entryDate := today

theorem noteEntry_credit (target : ℚ) (d : ℤ) :
    -(noteEntry note details orgId today target label d).signedAmount = d := by
  by_cases hd : 0 < d
  · simp [noteEntry, CreditPosting.signedAmount, hd, abs_of_pos hd]
  · simp [noteEntry, CreditPosting.signedAmount, hd, abs_of_nonpos (not_lt.1 hd)]

theorem postedCredit_eq
    (h : |creditOf CreditPosting.account postings (note.id, note.clientId, orgId)| ≤ decimalMax) :
    postedCredit postings note orgId =
      number (creditOf CreditPosting.account postings (note.id, note.clientId, orgId)) := by
  rw [creditOf, Journal.net_neg] at h ⊢
  rw [abs_neg] at h
  have hwide := h.trans (by norm_num [decimalMax] : decimalMax ≤ 2 * decimalMax)
  refine round2_eq (by rwa [abs_neg]) ?_
  have hclose := number_close hwide
  push_cast
  rw [show ∀ x y : ℚ, -x - -y / 100 = -(x - y / 100) by intro x y; ring, abs_neg]
  exact hclose.trans (by norm_num)

/-- **A sync on cents**: nothing when the note's rows credit its target, and else one row for the
difference, if its column can hold it. -/
theorem syncCreditNoteLedger_eq (hclient : note.clientId ≠ 0)
    (htarget : target.elim (ledgerTarget note) round2 = number t) (ht : |t| ≤ decimalMax)
    (hposted : |creditOf CreditPosting.account postings (note.id, note.clientId, orgId)| ≤
      decimalMax) :
    syncCreditNoteLedger postings note details orgId today target label =
      let d := t - creditOf CreditPosting.account postings (note.id, note.clientId, orgId)
      if d = 0 then .ok (postings, 0)
      else if decimalMax < |d| then .error (outOfRange "amount")
      else .ok (postings ++ [noteEntry note details orgId today (number t) label d], number d) := by
  have hd : |t - creditOf CreditPosting.account postings (note.id, note.clientId, orgId)| ≤
      2 * decimalMax := (abs_sub _ _).trans (by linarith)
  unfold syncCreditNoteLedger
  simp only [if_neg hclient, htarget, postedCredit_eq hposted, round2_sub ht hposted,
    abs_number_lt_iff hd, toDecimal_abs_number hd, number_pos_iff hd]
  rfl

theorem syncCreditNoteLedger_brings (hclient : note.clientId ≠ 0)
    (htarget : target.elim (ledgerTarget note) round2 = number t) (ht : |t| ≤ decimalMax)
    (hposted : |creditOf CreditPosting.account postings (note.id, note.clientId, orgId)| ≤
      decimalMax)
    (h : syncCreditNoteLedger postings note details orgId today target label =
      .ok (postings', diff)) :
    Journal.Brings CreditPosting.account (fun e => -e.signedAmount) postings postings'
      (note.id, note.clientId, orgId) t := by
  rw [syncCreditNoteLedger_eq hclient htarget ht hposted] at h
  dsimp only at h
  split_ifs at h with hzero hrange
  · cases h
    exact .inl ⟨by unfold creditOf at hzero; omega, rfl⟩
  · cases h
    refine .inr ⟨by unfold creditOf at hzero; omega, noteEntry note details orgId today (number t)
      label _, rfl, ?_, rfl⟩
    exact noteEntry_credit _ _

end Sync

end Vigabss.Billing
