import Vigabss.Gateway.Orders

/-!
# Vigabss.Gateway.Standing — where the reports leave a transaction

The reports on a transaction move the books in two ways only: a success that comes before every
dispute and refund posts the capture, and a refund takes the payment back.  `outcome` says so
without the order of the rest, and each report keeps the row and the books in line with it.
-/

namespace Vigabss.Gateway

open Vigabss.Lib Vigabss.Billing

/-! ### What the reports come to -/

/-- The reports post the capture of a transaction that they find as `tx`, if it is not posted. -/
def captures (tx : PaymentTransaction) (statuses : List GatewayStatus) : Bool :=
  tx.gatewayStatus ≠ .disputed ∧ tx.gatewayStatus ≠ .refunded ∧ successFirst statuses = true

/-- The transaction is disputed or refunded, or a report has been decisive. -/
def closed (tx : PaymentTransaction) (statuses : List GatewayStatus) : Prop :=
  tx.gatewayStatus = .disputed ∨ tx.gatewayStatus = .refunded ∨
    (statuses.find? decisive).isSome = true

/-- The books with the capture posted or not, and the payment of the transaction. -/
def postedBooks (db : Billing.Db) (tx : PaymentTransaction) (capture : Bool) :
    Billing.Db × Option ℕ :=
  match tx.paymentId with
  | some id => (db, some id)
  | none =>
    if capture then
      match post db tx with
      | .ok (applied, id) => (applied.db, some id)
      | .error _ => (db, none)
    else (db, none)

/-- The books that the reports lead to. -/
def outcome (db : Billing.Db) (tx : PaymentTransaction) (statuses : List GatewayStatus) :
    Billing.Db :=
  let books := postedBooks db tx (captures tx statuses)
  if GatewayStatus.refunded ∈ statuses then backed books.1 tx.organizationId books.2 else books.1

section Reports

variable {tx : PaymentTransaction} {statuses : List GatewayStatus} {n : GatewayStatus}

theorem successFirst_append_of_ne (h : n ≠ .succeeded) :
    successFirst (statuses ++ [n]) = successFirst statuses := by
  unfold successFirst
  rw [List.find?_append]
  cases statuses.find? decisive with
  | some x => rfl
  | none => cases n <;> first | rfl | exact absurd rfl h

theorem captures_append_of_ne (h : n ≠ .succeeded) :
    captures tx (statuses ++ [n]) = captures tx statuses := by
  unfold captures
  rw [successFirst_append_of_ne h]

theorem closed_append_of_decisive (h : decisive n = true) : closed tx (statuses ++ [n]) := by
  refine .inr (.inr ?_)
  rw [List.find?_append]
  cases statuses.find? decisive <;> simp [h]

theorem closed_append_of_not (h : decisive n = false) :
    closed tx (statuses ++ [n]) ↔ closed tx statuses := by
  unfold closed
  rw [List.find?_append]
  cases statuses.find? decisive <;> simp [h]

theorem captures_append_of_open (h : ¬ closed tx statuses) :
    captures tx (statuses ++ [.succeeded]) = true := by
  simp only [closed, not_or, Bool.not_eq_true, Option.isSome_eq_false_iff,
    Option.isNone_iff_eq_none] at h
  obtain ⟨hdisputed, hrefunded, hfind⟩ := h
  have hfirst : successFirst (statuses ++ [.succeeded]) = true := by
    unfold successFirst
    rw [List.find?_append, hfind]
    rfl
  simp [captures, hdisputed, hrefunded, hfirst]

theorem captures_append_of_closed (h : closed tx statuses) :
    captures tx (statuses ++ [.succeeded]) = captures tx statuses := by
  unfold captures
  rcases h with h | h | h
  · simp [h]
  · simp [h]
  · obtain ⟨x, hx⟩ := Option.isSome_iff_exists.1 h
    unfold successFirst
    rw [List.find?_append, hx]
    rfl

theorem find?_append_of_mem (h : n ∈ statuses) :
    (statuses ++ [n]).find? decisive = statuses.find? decisive := by
  rw [List.find?_append]
  cases hfind : statuses.find? decisive with
  | some x => rfl
  | none =>
    have hnot := List.find?_eq_none.1 hfind n h
    simp [hnot]

theorem not_refunded_of_open (h : ¬ closed tx statuses) : GatewayStatus.refunded ∉ statuses := by
  intro hmem
  refine h (.inr (.inr ?_))
  exact List.find?_isSome.2 ⟨.refunded, hmem, rfl⟩

end Reports

/-! ### Where the transaction stands -/

/-- After the reports, the row of the transaction and the books. -/
structure Standing (books : Billing.Db) (tx : PaymentTransaction) (statuses : List GatewayStatus)
    (db : Db) : Prop where
  row : ∃ settled status, db.transactions.find? tx.id = some { tx with
      paymentId := (postedBooks books tx (captures tx statuses)).2
      settledInvoiceId := settled
      gatewayStatus := status } ∧
    (tx.paymentId = none → captures tx statuses = false →
      ((status = .disputed ∨ status = .refunded) ↔ closed tx statuses))
  billing : db.billing = outcome books tx statuses

section Standing

variable {books : Billing.Db} {tx : PaymentTransaction} {statuses : List GatewayStatus} {db : Db}

theorem standing_start (h : db.transactions.find? tx.id = some tx) :
    Standing db.billing tx [] db := by
  have hcaptures : captures tx [] = false := by simp [captures, successFirst]
  have hposted : postedBooks db.billing tx false = (db.billing, tx.paymentId) := by
    unfold postedBooks
    cases tx.paymentId <;> rfl
  refine ⟨⟨tx.settledInvoiceId, tx.gatewayStatus, ?_, fun _ _ => ?_⟩, ?_⟩
  · rw [hcaptures, hposted]
    exact h
  · simp [closed]
  · simp [outcome, hcaptures, hposted]

theorem Standing.again (h : Standing books tx statuses db) {n : GatewayStatus}
    (hmem : n ∈ statuses) : Standing books tx (statuses ++ [n]) db := by
  have hfind := find?_append_of_mem hmem
  have hcaptures : captures tx (statuses ++ [n]) = captures tx statuses := by
    unfold captures successFirst
    rw [hfind]
  have hclosed : closed tx (statuses ++ [n]) ↔ closed tx statuses := by
    unfold closed
    rw [hfind]
  have hrefunded :
      GatewayStatus.refunded ∈ statuses ++ [n] ↔ GatewayStatus.refunded ∈ statuses := by
    rw [List.mem_append, List.mem_singleton]
    exact ⟨fun h => h.elim id fun heq => heq ▸ hmem, .inl⟩
  obtain ⟨settled, status, hrow, hstatus⟩ := h.row
  refine ⟨⟨settled, status, ?_, ?_⟩, ?_⟩
  · rw [hcaptures]
    exact hrow
  · rw [hcaptures, hclosed]
    exact hstatus
  · rw [h.billing, outcome, outcome, hcaptures]
    simp only [hrefunded]

theorem find?_written {t : ℕ} {row : PaymentTransaction}
    (h : db.transactions.find? t = some row) (n : GatewayStatus) :
    (db.setGatewayStatus t n).transactions.find? t = some { row with gatewayStatus := n } := by
  rw [find?_setGatewayStatus, if_pos rfl, h]
  rfl

theorem Standing.refunded (h : Standing books tx statuses db) :
    Standing books tx (statuses ++ [.refunded]) (move db tx.id .refunded) := by
  have hcaptures : captures tx (statuses ++ [.refunded]) = captures tx statuses :=
    captures_append_of_ne (by decide)
  obtain ⟨settled, status, hrow, -⟩ := h.row
  have hallowed : isAllowedGatewayTransition status .refunded = true := by cases status <;> rfl
  have hwritten := find?_written hrow .refunded
  rw [move_eq _ hrow, if_pos hallowed, settle, reverseRefund_eq hwritten]
  refine ⟨⟨settled, .refunded, ?_, fun _ _ => ?_⟩, ?_⟩
  · rw [hcaptures]
    exact hwritten
  · exact ⟨fun _ => closed_append_of_decisive rfl, fun _ => .inr rfl⟩
  · show backed db.billing tx.organizationId _ = _
    rw [h.billing, outcome, outcome, hcaptures]
    dsimp only
    rw [if_pos (List.mem_append_right statuses (List.mem_singleton_self _))]
    split_ifs
    · exact backed_backed ..
    · rfl

/-- A report other than a success or a refund moves the status at most. -/
theorem Standing.other (h : Standing books tx statuses db) {n : GatewayStatus}
    (hsucceeded : n ≠ .succeeded) (hrefunded : n ≠ .refunded) :
    Standing books tx (statuses ++ [n]) (move db tx.id n) := by
  have hcaptures := @captures_append_of_ne tx statuses n hsucceeded
  have hbooks : outcome books tx (statuses ++ [n]) = outcome books tx statuses := by
    rw [outcome, outcome, hcaptures]
    simp [hrefunded.symm]
  have hsettle : ∀ db : Db, settle db tx.id n = db := by
    intro db
    cases n <;> first | rfl | contradiction
  obtain ⟨settled, status, hrow, hstatus⟩ := h.row
  rw [move_eq _ hrow, hsettle]
  by_cases hallowed : isAllowedGatewayTransition status n = true
  · rw [if_pos hallowed]
    refine ⟨⟨settled, n, ?_, fun hpaid hcapture => ?_⟩, ?_⟩
    · rw [hcaptures]
      exact find?_written hrow n
    · rw [hcaptures] at hcapture
      cases hdecisive : decisive n with
      | true =>
        refine ⟨fun _ => closed_append_of_decisive hdecisive, fun _ => ?_⟩
        cases n <;> first | exact .inl rfl | exact .inr rfl | contradiction
      | false =>
        rw [closed_append_of_not hdecisive, ← hstatus hpaid hcapture]
        cases n <;> cases status <;> simp_all [decisive, isAllowedGatewayTransition,
          gatewayTransitions]
    · rw [hbooks]
      exact h.billing
  · rw [if_neg hallowed]
    refine ⟨⟨settled, status, ?_, fun hpaid hcapture => ?_⟩, ?_⟩
    · rw [hcaptures]
      exact hrow
    · rw [hcaptures] at hcapture
      cases hdecisive : decisive n with
      | true =>
        refine ⟨fun _ => closed_append_of_decisive hdecisive, fun _ => ?_⟩
        cases n <;> cases status <;> simp_all [decisive, isAllowedGatewayTransition,
          gatewayTransitions]
      | false =>
        rw [closed_append_of_not hdecisive]
        exact hstatus hpaid hcapture
    · rw [hbooks]
      exact h.billing

theorem reconcile_paid {row : PaymentTransaction} {id : ℕ}
    (hrow : db.transactions.find? tx.id = some row) (hpaid : row.paymentId = some id) :
    settle db tx.id .succeeded = db := by
  refine @settle_of_ok db db tx.id (.alreadyReconciled id) ?_
  unfold reconcilePayment
  rw [hrow]
  dsimp only
  rw [hpaid]

theorem reconcile_unpaid {row : PaymentTransaction}
    (hrow : db.transactions.find? tx.id = some row) (hpaid : row.paymentId = none)
    (hstatus : row.gatewayStatus = .succeeded) :
    (∀ err, post db.billing row = .error err → settle db tx.id .succeeded = db) ∧
    ∀ applied id, post db.billing row = .ok (applied, id) →
      (settle db tx.id .succeeded).billing = applied.db ∧
        ∃ settled, (settle db tx.id .succeeded).transactions.find? tx.id =
          some { row with paymentId := some id, settledInvoiceId := settled } := by
  obtain ⟨-, (hid : row.id = tx.id)⟩ := Table.find?_eq_some.1 hrow
  have heq := reconcilePayment_eq hrow hpaid hstatus
  constructor
  · intro err hpost
    rw [hpost] at heq
    exact settle_of_error heq
  · intro applied id hpost
    rw [hpost] at heq
    rw [settle_of_ok heq]
    refine ⟨rfl, applied.justPaid.head?.or row.settledInvoiceId, ?_⟩
    have hfind : db.transactions.find? row.id = some row := hid ▸ hrow
    exact (find?_linked hfind applied id tx.id).trans (if_pos hid.symm)

theorem postedBooks_none {capture : Bool} (h : (postedBooks books tx capture).2 = none) :
    (postedBooks books tx capture).1 = books := by
  unfold postedBooks at h ⊢
  cases hpaid : tx.paymentId with
  | some id => rfl
  | none =>
    rw [hpaid] at h
    dsimp only at h ⊢
    split_ifs at h ⊢
    · cases hpost : post books tx with
      | error err => rfl
      | ok r =>
        rw [hpost] at h
        cases h
    · rfl

/-- A success posts the capture when no dispute and no refund came before it. -/
theorem Standing.succeeded (h : Standing books tx statuses db) :
    Standing books tx (statuses ++ [.succeeded]) (move db tx.id .succeeded) := by
  have hrefunded : GatewayStatus.refunded ∈ statuses ++ [.succeeded] ↔
      GatewayStatus.refunded ∈ statuses := by simp
  obtain ⟨settled, status, hrow, hstatus⟩ := h.row
  have hwritten := find?_written hrow .succeeded
  rw [move_eq _ hrow]
  by_cases hopen : tx.paymentId = none ∧ captures tx statuses = false ∧ ¬ closed tx statuses
  · -- the first decisive report: it is let through, and the capture is posted
    obtain ⟨hunpaid, hnot, hopen⟩ := hopen
    have hcaptures := captures_append_of_open hopen
    have hbefore : postedBooks books tx (captures tx statuses) = (books, none) := by
      rw [postedBooks, hunpaid, hnot]
      rfl
    have hbilling : db.billing = books := by
      rw [h.billing, outcome, hbefore]
      exact if_neg (not_refunded_of_open hopen)
    have hallowed : isAllowedGatewayTransition status .succeeded = true := by
      have hfree := mt (hstatus hunpaid hnot).1 hopen
      cases status <;> simp_all [isAllowedGatewayTransition, gatewayTransitions]
    rw [if_pos hallowed]
    rw [hbefore] at hwritten
    have hpost := reconcile_unpaid hwritten rfl rfl
    have hsame : post (db.setGatewayStatus tx.id .succeeded).billing
        { tx with
          paymentId := none
          settledInvoiceId := settled
          gatewayStatus := .succeeded } = post books tx := by
      rw [← hbilling]
      rfl
    dsimp only at hpost
    rw [hsame] at hpost
    have hout : outcome books tx (statuses ++ [.succeeded]) = (postedBooks books tx true).1 := by
      rw [outcome, hcaptures]
      exact if_neg (mt hrefunded.1 (not_refunded_of_open hopen))
    have hclosed : ∀ s : Prop, captures tx (statuses ++ [.succeeded]) = false → s := by
      intro s hfalse
      rw [hcaptures] at hfalse
      cases hfalse
    cases hp : post books tx with
    | error err =>
      have hafter : postedBooks books tx true = (books, none) := by
        rw [postedBooks, hunpaid, hp]
        rfl
      rw [hpost.1 err hp]
      refine ⟨⟨settled, .succeeded, ?_, fun _ => hclosed _⟩, ?_⟩
      · rw [hcaptures, hafter]
        exact hwritten
      · rw [hout, hafter]
        exact hbilling
    | ok r =>
      obtain ⟨applied, id⟩ := r
      have hafter : postedBooks books tx true = (applied.db, some id) := by
        rw [postedBooks, hunpaid, hp]
        rfl
      obtain ⟨hbooks, settled', hfind⟩ := hpost.2 applied id hp
      refine ⟨⟨settled', .succeeded, ?_, fun _ => hclosed _⟩, ?_⟩
      · rw [hcaptures, hafter]
        exact hfind
      · rw [hout, hafter]
        exact hbooks
  · have hcaptures : tx.paymentId = none →
        captures tx (statuses ++ [.succeeded]) = captures tx statuses := by
      intro hunpaid
      by_cases hclosed : closed tx statuses
      · exact captures_append_of_closed hclosed
      · rw [captures_append_of_open hclosed]
        by_contra hne
        exact hopen ⟨hunpaid, by simpa using Ne.symm hne, hclosed⟩
    have hposted : postedBooks books tx (captures tx (statuses ++ [.succeeded])) =
        postedBooks books tx (captures tx statuses) := by
      cases hpaid : tx.paymentId with
      | none => rw [hcaptures hpaid]
      | some id => rw [postedBooks, postedBooks, hpaid]
    have hout : outcome books tx (statuses ++ [.succeeded]) = outcome books tx statuses := by
      rw [outcome, outcome, hposted]
      simp only [hrefunded]
    by_cases hallowed : isAllowedGatewayTransition status .succeeded = true
    · -- let through: the capture is posted already, or cannot be
      have hcapture : tx.paymentId = none → captures tx statuses = true := by
        intro hunpaid
        by_contra hnot
        rw [Bool.not_eq_true] at hnot
        have hclosed : closed tx statuses := by
          by_contra hclosed
          exact hopen ⟨hunpaid, hnot, hclosed⟩
        rcases (hstatus hunpaid hnot).2 hclosed with rfl | rfl
        · exact absurd hallowed (by decide)
        · exact absurd hallowed (by decide)
      have hstays : settle (db.setGatewayStatus tx.id .succeeded) tx.id .succeeded =
          db.setGatewayStatus tx.id .succeeded := by
        cases hpay : (postedBooks books tx (captures tx statuses)).2 with
        | some id => exact reconcile_paid hwritten hpay
        | none =>
          have hbilling : db.billing = books := by
            rw [h.billing, outcome, hpay, backed_none, ite_self]
            exact postedBooks_none hpay
          have hunpaid : tx.paymentId = none := by
            cases hpaid : tx.paymentId with
            | none => rfl
            | some id =>
              rw [postedBooks, hpaid] at hpay
              cases hpay
          rw [hpay] at hwritten
          have hpost := reconcile_unpaid hwritten rfl rfl
          have hsame : post (db.setGatewayStatus tx.id .succeeded).billing
              { tx with
                paymentId := none
                settledInvoiceId := settled
                gatewayStatus := .succeeded } = post books tx := by
            rw [← hbilling]
            rfl
          dsimp only at hpost
          rw [hsame] at hpost
          cases hp : post books tx with
          | error err => exact hpost.1 err hp
          | ok r =>
            rw [postedBooks, hunpaid, hcapture hunpaid, hp] at hpay
            cases hpay
      rw [if_pos hallowed, hstays]
      refine ⟨⟨settled, .succeeded, ?_, fun hunpaid hnot => ?_⟩, ?_⟩
      · rw [hposted]
        exact hwritten
      · rw [hcaptures hunpaid, hcapture hunpaid] at hnot
        cases hnot
      · rw [hout]
        exact h.billing
    · rw [if_neg hallowed]
      refine ⟨⟨settled, status, ?_, fun hunpaid hnot => ?_⟩, ?_⟩
      · rw [hposted]
        exact hrow
      · rw [hcaptures hunpaid] at hnot
        rw [hstatus hunpaid hnot]
        exact ⟨fun _ => closed_append_of_decisive rfl, fun _ => by
          by_contra hclosed
          exact hopen ⟨hunpaid, hnot, hclosed⟩⟩
      · rw [hout]
        exact h.billing

/-- **One report**: it takes the standing of the transaction along. -/
theorem Standing.move (h : Standing books tx statuses db) (n : GatewayStatus) :
    Standing books tx (statuses ++ [n]) (move db tx.id n) := by
  by_cases hsucceeded : n = .succeeded
  · exact hsucceeded ▸ h.succeeded
  by_cases hrefunded : n = .refunded
  · exact hrefunded ▸ h.refunded
  · exact h.other hsucceeded hrefunded

end Standing

end Vigabss.Gateway
