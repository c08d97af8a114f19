import Vigabss.Gateway.Orders

/-!
# Vigabss.Gateway.RefundRaces — refund calls beside the webhooks of refunds

A refund call claims its transaction, asks the provider, and gives the claim back on any error.
Where an error means that no money moved, and no refund was confirmed before, the transaction of
every confirmed refund stays refunded and its payment is taken back.  An answer that is lost breaks
the first, a refusal after a webhook the second.
-/

namespace Vigabss.Gateway

open Vigabss.Lib Vigabss.Billing

/-! ### The calls and the law -/

/-- The event reports nothing but a refund. -/
def ReportsRefund (e : Incoming) : Prop := ∀ report ∈ e.report, report.2 = .refunded

/-- A refund that the staff asks for, or a delivery of a refund event. -/
inductive RefundAct where
  | refund (r : RefundCall)
  | webhook (e : Incoming) (h : ReportsRefund e)

def RefundAct.start : RefundAct → Task
  | .refund r => .refundSelect r
  | .webhook e _ => .select e

/-- The payment of the transaction is reversed, or it has none. -/
def Reversed (s : State) (t : ℕ) : Prop := ∀ p ∈ paymentOf s.db t, p.status = .refunded

/-- The payment of the transaction has been taken back. -/
def TakenBack (s : State) (t : ℕ) : Prop := ∃ p ∈ paymentOf s.db t, p.status = .refunded

/-- `gateway_status` of the transaction. -/
def statusOf (s : State) (t : ℕ) : Option GatewayStatus :=
  (s.db.transactions.find? t).map PaymentTransaction.gatewayStatus

def Task.isDone : Task → Prop
  | .done _ => True
  | _ => False

/-- A refund request comes after one whose outcome is unknown. -/
def AsksAgain (t : ℕ) (later earlier : Happening) : Prop :=
  later = .requested t ∧ earlier = .unanswered t

instance (t : ℕ) (later earlier : Happening) : Decidable (AsksAgain t later earlier) :=
  inferInstanceAs (Decidable (later = .requested t ∧ earlier = .unanswered t))

/-- The law on the refunds of a transaction. -/
structure RefundLaw (t : ℕ) (s : Threads State Task) : Prop where
  confirmed : (∀ u ∈ s.threads, u.isDone) → .confirmed t ∈ s.shared.log →
    statusOf s.shared t = some .refunded ∧ Reversed s.shared t
  apart : ¬ (TakenBack s.shared t ∧ statusOf s.shared t = some .succeeded)
  once : s.shared.log.Pairwise fun later earlier => ¬ AsksAgain t later earlier

/-- A captured transaction before any refund; no other transaction has its payment. -/
structure Captured (s : State) (t : ℕ) : Prop where
  log : s.log = []
  status : statusOf s t = some .succeeded
  single : ∀ tx ∈ s.db.transactions.rows, ∀ tx' ∈ s.db.transactions.rows,
    tx.paymentId ≠ none → tx.paymentId = tx'.paymentId → tx.id = tx'.id
  standing : ¬ TakenBack s t

/-! ### What a statement relies on -/

/-- The payment of the transaction can be taken back, or has been. -/
def reversible (s : State) (t : ℕ) : Bool :=
  (paymentOf s.db t).all fun p => p.status = .refunded ∨ (refundPayment s.db.billing p).isOk

/-- No statement fails, no answer of the provider is lost, a refused refund gives its claim up
before any refund is confirmed, and a payment that is to be taken back can be. -/
def Answered (s : State) : Task → Reply → Prop
  | .refundRequest _ _, reply => reply ≠ .provider .lost
  | .refundRelease r, reply => reply ≠ .fails ∧ .confirmed r.transactionId ∉ s.log
  | .reverse _ t, reply => reply ≠ .fails ∧ reversible s t = true
  | .refundReverse r _, reply => reply ≠ .fails ∧ reversible s r.transactionId = true
  | _, reply => reply ≠ .fails

instance (s : State) : (t : Task) → (reply : Reply) → Decidable (Answered s t reply)
  | .refundRequest _ _, reply => inferInstanceAs (Decidable (reply ≠ .provider .lost))
  | .refundRelease r, reply =>
    inferInstanceAs (Decidable (reply ≠ .fails ∧ .confirmed r.transactionId ∉ s.log))
  | .reverse _ t, reply => inferInstanceAs (Decidable (reply ≠ .fails ∧ reversible s t = true))
  | .refundReverse r _, reply =>
    inferInstanceAs (Decidable (reply ≠ .fails ∧ reversible s r.transactionId = true))
  | .select _, reply | .claim _ _, reply | .insert _, reply | .find _ _ _ _, reply
  | .findById _ _ _ _ _, reply | .write _ _ _ _, reply | .link _ _ _, reply | .reconcile _ _, reply
  | .finish _ _ _ _, reply | .fail _, reply | .sweepSelect _ _, reply | .sweep _, reply
  | .refundSelect _, reply | .refundClaim _ _, reply | .refundReference _ _, reply
  | .done _, reply => inferInstanceAs (Decidable (reply ≠ .fails))

/-! ### Taking payments back -/

section Reversal

variable {s s' : State} {t : ℕ}

theorem paymentIn_backed_of_ne {db : Billing.Db} {o o' : ℕ} {id id' : Option ℕ}
    (h : id = none ∨ id ≠ id') : paymentIn (backed db o' id') o id = paymentIn db o id := by
  unfold backed
  cases hpay : paymentIn db o' id' with
  | none => rfl
  | some payment =>
    dsimp only
    split_ifs
    · rfl
    · cases hrefund : refundPayment db payment with
      | error err => rfl
      | ok db' =>
        obtain ⟨invoices, rfl⟩ := refundPayment_ok hrefund
        cases id with
        | none => rfl
        | some n =>
          unfold paymentIn at hpay
          obtain ⟨n', rfl, hfilter⟩ := Option.bind_eq_some_iff.1 hpay
          obtain ⟨-, (rfl : payment.id = n')⟩ :=
            Table.find?_eq_some.1 (Option.filter_eq_some_iff.1 hfilter).1
          have hne : n ≠ payment.id := fun heq => h.elim nofun fun h => h (congrArg some heq)
          show ((takenBack db payment).payments.find? n).filter _ = _
          rw [takenBack_payments, Db.setPayment, Table.find?_modify, if_neg hne]
          rfl

theorem transactions_reverse (s : State) (u : ℕ) :
    (s.reverse u).db.transactions = s.db.transactions := by
  show (reverseRefund s.db u).transactions = _
  rcases reverseRefund_cases s.db u with h | ⟨_, billing, -, -, -, h⟩ <;> rw [h]

/-- A payment that can be taken back is reversed afterwards. -/
theorem reversed_reverse (h : reversible s t = true) : Reversed (s.reverse t) t := by
  intro p hp
  cases htx : s.db.transactions.find? t with
  | none =>
    have hnone : paymentOf (s.reverse t).db t = none := by
      unfold paymentOf
      rw [transactions_reverse, htx]
      rfl
    rw [hnone] at hp
    cases hp
  | some tx =>
    have hpay : paymentOf (s.reverse t).db t =
        paymentIn (backed s.db.billing tx.organizationId tx.paymentId) tx.organizationId
          tx.paymentId := by
      have htx' : (s.reverse t).db.transactions.find? t = some tx := by
        rw [transactions_reverse]
        exact htx
      rw [paymentOf_eq htx']
      show paymentIn (reverseRefund s.db t).billing _ _ = _
      rw [reverseRefund_eq htx]
    rw [hpay] at hp
    unfold reversible at h
    rw [paymentOf_eq htx] at h
    cases hold : paymentIn s.db.billing tx.organizationId tx.paymentId with
    | none =>
      have hstay : backed s.db.billing tx.organizationId tx.paymentId = s.db.billing := by
        rw [backed, hold]
      rw [hstay, hold] at hp
      cases hp
    | some payment =>
      rw [hold] at h
      by_cases hrefunded : payment.status = .refunded
      · have hstay : backed s.db.billing tx.organizationId tx.paymentId = s.db.billing := by
          rw [backed, hold]
          exact if_pos hrefunded
        rw [hstay, hold] at hp
        cases hp
        exact hrefunded
      · cases hrefund : refundPayment s.db.billing payment with
        | error err =>
          simp only [Option.all_some, hrefunded, false_or, hrefund, decide_eq_true_eq] at h
          cases h
        | ok db' =>
          have hback : backed s.db.billing tx.organizationId tx.paymentId = db' := by
            simp only [backed, hold, hrefunded, if_false, hrefund]
          rw [hback, paymentIn_refund hold hrefund] at hp
          cases hp
          rfl

end Reversal

/-! ### What every statement keeps -/

/-- The call has the claim on the transaction. -/
def Claims (t : ℕ) : Task → Prop
  | .refundRequest r _ | .refundRelease r => r.transactionId = t
  | _ => False

/-- The call is still to take the payment back. -/
def Owes (t : ℕ) : Task → Prop
  | .link _ u _ | .reverse _ u => u = t
  | .refundReference r _ | .refundReverse r _ => r.transactionId = t
  | _ => False

/-- A call reports refunds only, and takes back what is confirmed. -/
def Follows (t : ℕ) (s : State) : Task → Prop
  | .select e | .claim e _ | .insert e => ReportsRefund e
  | .find _ _ _ newStatus | .findById _ _ _ _ newStatus | .write _ _ newStatus _ =>
    newStatus = .refunded
  | .link _ u newStatus => newStatus = .refunded ∧ (u = t → .confirmed t ∈ s.log)
  | .reverse _ u => u = t → .confirmed t ∈ s.log
  | .refundReference r _ | .refundReverse r _ => r.transactionId = t → .confirmed t ∈ s.log
  | .reconcile _ _ | .sweepSelect _ _ | .sweep _ => False
  | _ => True

/-- The row of the transaction, refunded once a refund is confirmed; its payment is taken back only
then. -/
structure Guarded (t : ℕ) (tx : PaymentTransaction) (s : State) : Prop where
  row : ∃ status, s.db.transactions.find? t = some { tx with gatewayStatus := status } ∧
    (.confirmed t ∈ s.log → status = .refunded)
  single : ∀ tx ∈ s.db.transactions.rows, ∀ tx' ∈ s.db.transactions.rows,
    tx.paymentId ≠ none → tx.paymentId = tx'.paymentId → tx.id = tx'.id
  back : TakenBack s t → .confirmed t ∈ s.log
  answered : .unanswered t ∉ s.log

/-- What a statement of a call does to the transaction and to what the calls know of it. -/
structure Carries (t : ℕ) (tx : PaymentTransaction) (s : State) (u : Task) (s' : State)
    (u' : Task) : Prop where
  guarded : Guarded t tx s'
  follows : Follows t s' u'
  grows : ∀ x ∈ s.log, x ∈ s'.log
  status : statusOf s t = some .refunded → statusOf s' t = some .refunded ∨ Claims t u
  claims : Claims t u' →
    statusOf s' t = some .refunded ∧ (Claims t u ∨ statusOf s t ≠ some .refunded)
  owed : .confirmed t ∈ s'.log → ¬ Reversed s' t →
    Owes t u' ∨ (.confirmed t ∈ s.log ∧ ¬ Reversed s t) ∧ ¬ Owes t u

section Step

variable {t : ℕ} {tx : PaymentTransaction} {s s' : State} {u u' : Task}

theorem Guarded.statusOf (h : Guarded t tx s) {status : GatewayStatus} :
    statusOf s t = some status ↔
      s.db.transactions.find? t = some { tx with gatewayStatus := status } := by
  obtain ⟨status', hrow, -⟩ := h.row
  unfold Gateway.statusOf
  rw [hrow]
  constructor
  · intro heq
    obtain rfl : status' = status := by simpa using heq
    rfl
  · intro heq
    have := congrArg PaymentTransaction.gatewayStatus (Option.some.inj heq)
    simpa using this

theorem Guarded.refunded (h : Guarded t tx s) (hconfirmed : .confirmed t ∈ s.log) :
    Gateway.statusOf s t = some .refunded := by
  obtain ⟨status, hrow, hstatus⟩ := h.row
  exact h.statusOf.2 (hstatus hconfirmed ▸ hrow)

theorem Guarded.congr (h : Guarded t tx s) (hdb : s'.db = s.db) (hlog : s'.log = s.log) :
    Guarded t tx s' := by
  obtain ⟨row, single, back, answered⟩ := h
  unfold TakenBack at back
  refine ⟨?_, ?_, ?_, ?_⟩
  · rw [hdb, hlog]
    exact row
  · rw [hdb]
    exact single
  · unfold TakenBack
    rw [hdb, hlog]
    exact back
  · rw [hlog]
    exact answered

theorem Guarded.note (h : Guarded t tx s) {x : Happening} (hconfirmed : x ≠ .confirmed t)
    (hunanswered : x ≠ .unanswered t) : Guarded t tx (s.note x) := by
  obtain ⟨status, hrow, hstatus⟩ := h.row
  refine ⟨⟨status, hrow, fun hmem => hstatus ?_⟩, h.single, fun hback => ?_, fun hmem => ?_⟩
  · exact (List.mem_cons.1 hmem).resolve_left (Ne.symm hconfirmed)
  · exact List.mem_cons_of_mem _ (h.back hback)
  · exact h.answered ((List.mem_cons.1 hmem).resolve_left (Ne.symm hunanswered))

theorem Guarded.confirm (h : Guarded t tx s) {v : ℕ}
    (hstatus : v = t → Gateway.statusOf s t = some .refunded) :
    Guarded t tx (s.note (.confirmed v)) := by
  by_cases hv : v = t
  · subst hv
    have hrow := h.statusOf.1 (hstatus rfl)
    refine ⟨⟨_, hrow, fun _ => rfl⟩, h.single, fun _ => List.mem_cons_self, fun hmem => ?_⟩
    exact h.answered ((List.mem_cons.1 hmem).resolve_left (by simp))
  · exact h.note (fun heq => hv (by injection heq)) (by simp)

/-- A status is written that keeps a confirmed refund. -/
theorem Guarded.writeStatus (h : Guarded t tx s) {v : ℕ} {status : GatewayStatus}
    (hkeeps : v = t → .confirmed t ∈ s.log → status = .refunded) :
    Guarded t tx (s.writeStatus v status) ∧
      (v = t → Gateway.statusOf (s.writeStatus v status) t = some status) ∧
      (v ≠ t → Gateway.statusOf (s.writeStatus v status) t = Gateway.statusOf s t) ∧
      (s.writeStatus v status).db.billing = s.db.billing := by
  unfold State.writeStatus
  cases hv : s.db.transactions.find? v with
  | none =>
    refine ⟨h, fun heq => ?_, fun _ => rfl, rfl⟩
    obtain ⟨_, hrow, -⟩ := h.row
    rw [heq, hrow] at hv
    cases hv
  | some row =>
    have hfind := find?_setGatewayStatus s.db v t status
    obtain ⟨status', hrow, hstatus'⟩ := h.row
    have hlog : ∀ x : Happening, (∀ b a, x ≠ .wrote v b a) →
        x ∈ .wrote v row.gatewayStatus status :: s.log → x ∈ s.log :=
      fun x hx hmem => (List.mem_cons.1 hmem).resolve_left (hx _ _)
    have hrow' : ∃ status'', (s.db.setGatewayStatus v status).transactions.find? t =
        some { tx with gatewayStatus := status'' } ∧
          (.confirmed t ∈ s.log → status'' = .refunded) ∧
          (v = t → status'' = status) ∧ (v ≠ t → status'' = status') := by
      by_cases heq : t = v
      · subst heq
        rw [if_pos rfl, hrow] at hfind
        exact ⟨status, hfind, hkeeps rfl, fun _ => rfl, fun hne => absurd rfl hne⟩
      · rw [if_neg heq, hrow] at hfind
        exact ⟨status', hfind, hstatus', fun hvt => absurd hvt.symm heq, fun _ => rfl⟩
    obtain ⟨status'', hrow'', hconf, hpos, hneg⟩ := hrow'
    refine ⟨⟨⟨status'', hrow'', fun hmem => hconf (hlog _ (by simp) hmem)⟩, ?_, ?_, ?_⟩, ?_, ?_,
      rfl⟩
    · have hold : ∀ x ∈ (s.db.setGatewayStatus v status).transactions.rows,
          ∃ y ∈ s.db.transactions.rows, y.id = x.id ∧ y.paymentId = x.paymentId := by
        intro x hx
        rcases Db.mem_setGatewayStatus.1 hx with ⟨hx, -⟩ | ⟨y, hy, rfl⟩
        · exact ⟨x, hx, rfl, rfl⟩
        · exact ⟨y, (Table.find?_eq_some.1 hy).1, rfl, rfl⟩
      intro x hx y hy hne heq
      obtain ⟨x', hx', hid, hpay⟩ := hold x hx
      obtain ⟨y', hy', hid', hpay'⟩ := hold y hy
      rw [← hid, ← hid']
      exact h.single x' hx' y' hy' (hpay ▸ hne) (by rw [hpay, hpay', heq])
    · rintro ⟨p, hp, hrefunded⟩
      rw [paymentOf_eq hrow''] at hp
      refine List.mem_cons_of_mem _ (h.back ⟨p, ?_, hrefunded⟩)
      rw [paymentOf_eq hrow]
      exact hp
    · exact fun hmem => h.answered (hlog _ (by simp) hmem)
    · intro heq
      show ((s.db.setGatewayStatus v status).transactions.find? t).map _ = _
      rw [hrow'', hpos heq]
      rfl
    · intro hne
      show ((s.db.setGatewayStatus v status).transactions.find? t).map _ =
        (s.db.transactions.find? t).map _
      rw [hrow'', hneg hne, hrow]

/-- The reversal of another transaction takes another payment back. -/
theorem Guarded.paymentOf_reverse (h : Guarded t tx s) {v : ℕ} (hv : v ≠ t) :
    Gateway.paymentOf (s.reverse v).db t = Gateway.paymentOf s.db t := by
  obtain ⟨status, hrow, -⟩ := h.row
  have hrow' : (s.reverse v).db.transactions.find? t =
      some { tx with gatewayStatus := status } := by
    rw [transactions_reverse]
    exact hrow
  rw [paymentOf_eq hrow', paymentOf_eq hrow]
  cases hfind : s.db.transactions.find? v with
  | none =>
    have hnone : Gateway.paymentOf s.db v = none := by
      unfold Gateway.paymentOf
      rw [hfind]
      rfl
    have hstay : (s.reverse v).db = s.db := by
      show reverseRefund s.db v = s.db
      unfold reverseRefund
      rw [hnone]
    rw [hstay]
  | some other =>
    have hbilling : (s.reverse v).db.billing =
        backed s.db.billing other.organizationId other.paymentId := by
      show (reverseRefund s.db v).billing = _
      rw [reverseRefund_eq hfind]
    rw [hbilling]
    refine paymentIn_backed_of_ne ?_
    by_contra hsame
    obtain ⟨hsome, heq⟩ := not_or.1 hsame
    obtain ⟨hmem, hid⟩ := Table.find?_eq_some.1 hrow
    obtain ⟨hmem', hid'⟩ := Table.find?_eq_some.1 hfind
    have hone := h.single _ hmem other hmem' hsome (not_not.1 heq)
    exact hv (hid'.symm.trans (hone.symm.trans hid))

theorem Guarded.reverse (h : Guarded t tx s) {v : ℕ} (hconfirmed : v = t → .confirmed t ∈ s.log) :
    Guarded t tx (s.reverse v) := by
  have hrows := transactions_reverse s v
  refine ⟨?_, ?_, fun hback => ?_, h.answered⟩
  · rw [hrows]
    exact h.row
  · rw [hrows]
    exact h.single
  · by_cases hv : v = t
    · exact hconfirmed hv
    · unfold TakenBack at hback
      rw [h.paymentOf_reverse hv] at hback
      exact h.back hback

theorem carries_quiet (h : Guarded t tx s) (hdb : s'.db = s.db) (hlog : s'.log = s.log)
    (hfollows : Follows t s' u')
    (hclaims : Claims t u' → Claims t u ∧ Gateway.statusOf s t = some .refunded)
    (howes : Owes t u → Owes t u') : Carries t tx s u s' u' := by
  have hstatus : Gateway.statusOf s' t = Gateway.statusOf s t := by
    unfold Gateway.statusOf
    rw [hdb]
  refine ⟨h.congr hdb hlog, hfollows, ?_, ?_, ?_, ?_⟩
  · rw [hlog]
    exact fun _ => id
  · rw [hstatus]
    exact .inl
  · intro hc
    rw [hstatus]
    exact ⟨(hclaims hc).2, .inl (hclaims hc).1⟩
  · intro hconfirmed hnot
    by_cases howe : Owes t u
    · exact .inl (howes howe)
    · refine .inr ⟨⟨hlog ▸ hconfirmed, ?_⟩, howe⟩
      unfold Reversed at hnot ⊢
      rw [hdb] at hnot
      exact hnot

/-- A status is written: `refunded`, or another one by the call that has the claim. -/
theorem carries_writeStatus (h : Guarded t tx s) {v : ℕ} {status : GatewayStatus}
    (hkeeps : v = t → status = .refunded ∨ .confirmed t ∉ s.log ∧ Claims t u)
    (hfollows : Follows t (s.writeStatus v status) u')
    (hclaims : Claims t u' →
      v = t ∧ status = .refunded ∧ Gateway.statusOf s t ≠ some .refunded)
    (howes : ¬ Owes t u) : Carries t tx s u (s.writeStatus v status) u' := by
  obtain ⟨hguarded, hwritten, hother, hbilling⟩ := h.writeStatus
    fun hv hconfirmed => (hkeeps hv).resolve_right fun hnot => hnot.1 hconfirmed
  have hgrows : ∀ x ∈ s.log, x ∈ (s.writeStatus v status).log := by
    intro x hx
    unfold State.writeStatus
    split
    · exact hx
    · exact List.mem_cons_of_mem _ hx
  refine ⟨hguarded, hfollows, hgrows, fun hrefunded => ?_, fun hc => ?_, fun hconfirmed hnot =>
    .inr ⟨⟨?_, fun hreversed => hnot ?_⟩, howes⟩⟩
  · by_cases hv : v = t
    · rcases hkeeps hv with rfl | ⟨-, hc⟩
      · exact .inl (hwritten hv)
      · exact .inr hc
    · exact .inl ((hother hv).trans hrefunded)
  · obtain ⟨hv, rfl, hne⟩ := hclaims hc
    exact ⟨hwritten hv, .inr hne⟩
  · unfold State.writeStatus at hconfirmed
    split at hconfirmed
    · exact hconfirmed
    · simpa using hconfirmed
  · obtain ⟨status₀, hrow₀, -⟩ := h.row
    obtain ⟨status₁, hrow₁, -⟩ := hguarded.row
    intro p hp
    rw [paymentOf_eq hrow₁, hbilling] at hp
    refine hreversed p ?_
    rw [paymentOf_eq hrow₀]
    exact hp

/-- A webhook writes its report, and owes the reversal. -/
theorem carries_writeReport (h : Guarded t tx s) (v event : ℕ) (piRef : Option String)
    (howes : ¬ Owes t u) :
    Carries t tx s u (s.writeReport v .refunded piRef) (.link event v .refunded) := by
  obtain ⟨hguarded, hwritten, hother, hbilling⟩ := @Guarded.writeStatus t tx s h v .refunded
    fun _ _ => rfl
  have hreport : s.writeReport v .refunded piRef =
      ((s.writeStatus v .refunded).writeReference v piRef).note (.confirmed v) := rfl
  have hguarded' : Guarded t tx ((s.writeStatus v .refunded).writeReference v piRef) :=
    hguarded.congr rfl rfl
  have hstatus : Gateway.statusOf (s.writeReport v .refunded piRef) t =
      Gateway.statusOf (s.writeStatus v .refunded) t := rfl
  have hlog : ∀ x ∈ s.log, x ∈ (s.writeReport v .refunded piRef).log := by
    intro x hx
    rw [hreport]
    refine List.mem_cons_of_mem _ ?_
    show x ∈ (s.writeStatus v .refunded).log
    unfold State.writeStatus
    split
    · exact hx
    · exact List.mem_cons_of_mem _ hx
  refine ⟨?_, ⟨rfl, fun hv => ?_⟩, hlog, fun hrefunded => .inl ?_, fun hc => hc.elim,
    fun hconfirmed hnot => ?_⟩
  · rw [hreport]
    exact hguarded'.confirm fun hv => hwritten hv
  · rw [hreport, hv]
    exact List.mem_cons_self
  · rw [hstatus]
    by_cases hv : v = t
    · exact hwritten hv
    · exact (hother hv).trans hrefunded
  · by_cases hv : v = t
    · exact .inl hv
    refine .inr ⟨⟨?_, fun hreversed => hnot ?_⟩, howes⟩
    · rw [hreport] at hconfirmed
      have hmem := (List.mem_cons.1 hconfirmed).resolve_left
        fun heq => hv (by injection heq with heq; exact heq.symm)
      have hmem : Happening.confirmed t ∈ (s.writeStatus v .refunded).log := hmem
      unfold State.writeStatus at hmem
      split at hmem
      · exact hmem
      · simpa using hmem
    · obtain ⟨status₀, hrow₀, -⟩ := h.row
      obtain ⟨status₁, hrow₁, -⟩ := hguarded.row
      intro p hp
      have hp : p ∈ paymentOf (s.writeStatus v .refunded).db t := hp
      rw [paymentOf_eq hrow₁, hbilling] at hp
      refine hreversed p ?_
      rw [paymentOf_eq hrow₀]
      exact hp

theorem carries_reverse (h : Guarded t tx s) {v : ℕ} (hreversible : reversible s v = true)
    (hconfirmed : v = t → .confirmed t ∈ s.log) (howes : Owes t u → v = t) (answer : Answer)
    {s' : State} (hdb : s'.db = (s.reverse v).db) (hguarded : Guarded t tx s')
    (hgrows : ∀ x ∈ s.log, x ∈ s'.log) (hback : .confirmed t ∈ s'.log → .confirmed t ∈ s.log) :
    Carries t tx s u s' (.done answer) := by
  refine ⟨hguarded, trivial, hgrows, fun hrefunded => .inl ?_, fun hc => hc.elim,
    fun hmem hnot => .inr ?_⟩
  · rw [← hrefunded]
    unfold Gateway.statusOf
    rw [hdb, transactions_reverse]
  · by_cases hv : v = t
    · subst hv
      refine absurd ?_ hnot
      unfold Reversed
      rw [hdb]
      exact reversed_reverse hreversible
    · refine ⟨⟨hback hmem, fun hreversed => hnot ?_⟩, fun howe => hv (howes howe)⟩
      unfold Reversed at hreversed ⊢
      rw [hdb, h.paymentOf_reverse hv]
      exact hreversed

theorem carries_note (h : Guarded t tx s) {x : Happening} (hconfirmed : x ≠ .confirmed t)
    (hunanswered : x ≠ .unanswered t) (hfollows : Follows t s u')
    (hfollows' : Follows t s u' → Follows t (s.note x) u')
    (hclaims : Claims t u' → Claims t u ∧ Gateway.statusOf s t = some .refunded)
    (howes : ¬ Owes t u) : Carries t tx s u (s.note x) u' := by
  refine ⟨h.note hconfirmed hunanswered, hfollows' hfollows, fun _ => List.mem_cons_of_mem _,
    .inl, fun hc => ⟨(hclaims hc).2, .inl (hclaims hc).1⟩,
    fun hmem hnot => .inr ⟨⟨?_, hnot⟩, howes⟩⟩
  exact (List.mem_cons.1 hmem).resolve_left (Ne.symm hconfirmed)

/-- The provider confirms the refund of a call, which owes the reversal. -/
theorem carries_confirm (h : Guarded t tx s) {v : ℕ} {s' : State} (hsame : s'.db = s.db)
    (hs' : Guarded t tx s') (hlog : ∀ x ∈ s.log, x ∈ s'.log)
    (hold : .confirmed t ∈ s'.log → .confirmed t ∈ s.log)
    (hstatus : v = t → Gateway.statusOf s t = some .refunded) (howes : ¬ Owes t u)
    (hfollows : (v = t → .confirmed t ∈ (s'.note (.confirmed v)).log) →
      Follows t (s'.note (.confirmed v)) u') (hclaims : ¬ Claims t u')
    (hnext : v = t → Owes t u') : Carries t tx s u (s'.note (.confirmed v)) u' := by
  have hstatus' : ∀ s'' : State, s''.db = s.db → Gateway.statusOf s'' t = Gateway.statusOf s t := by
    intro s'' hdb
    unfold Gateway.statusOf
    rw [hdb]
  refine ⟨hs'.confirm fun hv => (hstatus' s' hsame).trans (hstatus hv), hfollows ?_,
    fun x hx => List.mem_cons_of_mem _ (hlog x hx), fun hr => .inl ?_, fun hc => (hclaims hc).elim,
    fun hmem hnot => ?_⟩
  · rintro rfl
    exact List.mem_cons_self
  · exact (hstatus' (s'.note _) hsame).trans hr
  · by_cases hv : v = t
    · exact .inl (hnext hv)
    · have hmem := (List.mem_cons.1 hmem).resolve_left
        fun heq => hv (by injection heq with heq; exact heq.symm)
      refine .inr ⟨⟨hold hmem, fun hreversed => hnot ?_⟩, howes⟩
      unfold Reversed at hreversed ⊢
      have hdb : (s'.note (.confirmed v)).db = s.db := hsame
      rw [hdb]
      exact hreversed

theorem follows_begin {e : Incoming} (he : ReportsRefund e) (event : ℕ) (s : State) :
    Follows t s (e.begin event) ∧ ¬ Claims t (e.begin event) := by
  unfold Incoming.begin
  split
  · rename_i gatewayRef newStatus hreport
    exact ⟨he (gatewayRef, newStatus) hreport, id⟩
  · split_ifs <;> exact ⟨trivial, id⟩

theorem follows_matched (e : Incoming) (event : ℕ) (row : PaymentTransaction) (s : State) :
    Follows t s (e.matched event .refunded row) ∧ ¬ Claims t (e.matched event .refunded row) := by
  unfold Incoming.matched
  split_ifs
  · exact ⟨rfl, id⟩
  · exact ⟨trivial, id⟩

/-- **One statement** of a refund call or of a delivery. -/
theorem carries_next (h : Guarded t tx s) (hfollows : Follows t s u)
    (hclaims : Claims t u → Gateway.statusOf s t = some .refunded) {reply : Reply}
    (hanswered : Answered s u reply) :
    Carries t tx s u (next s u reply).1 (next s u reply).2 := by
  cases u with
  | select e =>
    simp only [next, if_neg hanswered]
    split
    · exact carries_quiet h rfl rfl hfollows False.elim False.elim
    · split_ifs
      · exact carries_quiet h rfl rfl hfollows False.elim False.elim
      · exact carries_quiet h rfl rfl trivial False.elim False.elim
  | claim e event =>
    simp only [next, if_neg hanswered]
    split
    · exact carries_quiet h rfl rfl trivial False.elim False.elim
    · exact carries_quiet h rfl rfl (follows_begin hfollows event _).1
        (fun hc => ((follows_begin hfollows event s).2 hc).elim) False.elim
  | insert e =>
    simp only [next, if_neg hanswered]
    split
    · exact carries_quiet h rfl rfl trivial False.elim False.elim
    · exact carries_quiet h rfl rfl (follows_begin hfollows _ _).1
        (fun hc => ((follows_begin hfollows _ s).2 hc).elim) False.elim
  | find e event gatewayRef newStatus =>
    obtain rfl : newStatus = .refunded := hfollows
    simp only [next, if_neg hanswered]
    split
    · exact carries_quiet h rfl rfl (follows_matched ..).1
        (fun hc => ((follows_matched e event _ s).2 hc).elim) False.elim
    · exact carries_quiet h rfl rfl rfl False.elim False.elim
    · exact carries_quiet h rfl rfl trivial False.elim False.elim
  | findById e event v o newStatus =>
    obtain rfl : newStatus = .refunded := hfollows
    simp only [next, if_neg hanswered]
    split
    · exact carries_quiet h rfl rfl (follows_matched ..).1
        (fun hc => ((follows_matched e event _ s).2 hc).elim) False.elim
    · exact carries_quiet h rfl rfl trivial False.elim False.elim
  | write event v newStatus piRef =>
    obtain rfl : newStatus = .refunded := hfollows
    simp only [next, if_neg hanswered]
    exact carries_writeReport h v event piRef id
  | link event v newStatus =>
    obtain ⟨rfl, hconfirmed⟩ := hfollows
    simp only [next, if_neg hanswered]
    exact carries_quiet h rfl rfl hconfirmed False.elim id
  | reconcile event v => exact hfollows.elim
  | reverse event v =>
    simp only [next, if_neg hanswered.1]
    have hlog : ∀ x : Happening, x ∈ ((s.reverse v).note (.processed event)).log ↔
        x = .processed event ∨ x ∈ s.log := fun _ => List.mem_cons
    refine carries_reverse h hanswered.2 hfollows id _ rfl
      ((h.reverse hfollows).note (by simp) (by simp)) (fun x hx => (hlog x).2 (.inr hx))
      fun hmem => ((hlog _).1 hmem).resolve_left (by simp)
  | finish event v status answer =>
    simp only [next, if_neg hanswered]
    split_ifs
    · have hset : Guarded t tx (s.setEvent event v status) := h.congr rfl rfl
      refine ⟨hset.note (by simp) (by simp), trivial, fun _ => List.mem_cons_of_mem _, .inl,
        fun hc => hc.elim, fun hmem hnot => .inr ⟨⟨?_, hnot⟩, id⟩⟩
      exact (List.mem_cons.1 hmem).resolve_left (by simp)
    · exact carries_quiet h rfl rfl trivial False.elim False.elim
  | fail event =>
    simp only [next, if_neg hanswered]
    exact carries_quiet h rfl rfl trivial False.elim False.elim
  | sweepSelect orgId limit => exact hfollows.elim
  | sweep ids => exact hfollows.elim
  | refundSelect r =>
    simp only [next, if_neg hanswered]
    split
    · rename_i row provider _ _
      cases refundRefusal r row with
      | none => exact carries_quiet h rfl rfl trivial False.elim False.elim
      | some message => exact carries_quiet h rfl rfl trivial False.elim False.elim
    · exact carries_quiet h rfl rfl trivial False.elim False.elim
  | refundClaim r provider =>
    simp only [next, if_neg hanswered]
    split
    · rename_i row hrow
      obtain ⟨hfind, hstatus⟩ := find?_of_findById hrow
      refine carries_writeStatus h (fun _ => .inl rfl) trivial (fun hc => ⟨hc, rfl, ?_⟩) id
      have hc : r.transactionId = t := hc
      unfold Gateway.statusOf
      rw [← hc, hfind, Option.map_some, hstatus]
      simp
    · exact carries_quiet h rfl rfl trivial False.elim False.elim
  | refundRequest r provider =>
    have hrelease : Carries t tx s (.refundRequest r provider) s (.refundRelease r) :=
      carries_quiet h rfl rfl trivial (fun hc => ⟨hc, hclaims hc⟩) False.elim
    cases provider with
    | manual =>
      exact carries_confirm h rfl h (fun _ => id) id hclaims id id id id
    | other => exact hrelease
    | stripe | conekta =>
      have hasked : Guarded t tx (s.note (.requested r.transactionId)) := h.note (by simp) (by simp)
      simp only [next]
      split
      · rename_i ref
        refine carries_confirm h rfl hasked (fun _ => List.mem_cons_of_mem _)
          (fun hmem => (List.mem_cons.1 hmem).resolve_left (by simp)) hclaims id ?_ ?_ ?_
        · intro hfollows
          cases truthy ref <;> exact hfollows
        · cases truthy ref <;> exact id
        · cases truthy ref <;> exact id
      · exact absurd rfl hanswered
      · exact carries_note h (by simp) (by simp) trivial id (fun hc => ⟨hc, hclaims hc⟩) id
      · exact hrelease
  | refundRelease r =>
    simp only [next, if_neg hanswered.1]
    split
    · refine carries_writeStatus h (fun hv => .inr ⟨hv ▸ hanswered.2, hv⟩) trivial False.elim id
    · exact carries_quiet h rfl rfl trivial False.elim False.elim
  | refundReference r ref =>
    simp only [next, if_neg hanswered]
    exact carries_quiet h rfl rfl hfollows False.elim id
  | refundReverse r ref =>
    simp only [next, if_neg hanswered.1]
    exact carries_reverse h hanswered.2 hfollows id _ rfl (h.reverse hfollows) (fun _ => id) id
  | done answer => exact carries_quiet h rfl rfl trivial False.elim False.elim

theorem Follows.grows (h : Follows t s u) (hgrows : ∀ x ∈ s.log, x ∈ s'.log) : Follows t s' u := by
  cases u with
  | link event v newStatus => exact ⟨h.1, fun hv => hgrows _ (h.2 hv)⟩
  | reverse event v => exact fun hv => hgrows _ (h hv)
  | refundReference r ref => exact fun hv => hgrows _ (h hv)
  | refundReverse r ref => exact fun hv => hgrows _ (h hv)
  | select | claim | insert | find | findById | write | reconcile | finish | fail | sweepSelect
  | sweep | refundSelect | refundClaim | refundRequest | refundRelease | done => exact h

end Step

/-! ### Runs -/

/-- What a call knows, with the claim while it has it. -/
def Knows (t : ℕ) (s : State) (u : Task) : Prop :=
  Follows t s u ∧ (Claims t u → statusOf s t = some .refunded)

/-- No two calls have the claim. -/
def OneClaim (t : ℕ) (u w : Task) : Prop := ¬ (Claims t u ∧ Claims t w)

theorem knows_start (t : ℕ) (s : State) (c : RefundAct) : Knows t s c.start := by
  cases c with
  | refund r => exact ⟨trivial, False.elim⟩
  | webhook e he => exact ⟨he, False.elim⟩

theorem not_claims_start (t : ℕ) (c : RefundAct) : ¬ Claims t c.start := by
  cases c <;> exact id

theorem not_owes_done {t : ℕ} {u : Task} (h : u.isDone) : ¬ Owes t u := by
  cases u with
  | done answer => exact id
  | select | claim | insert | find | findById | write | link | reconcile | reverse | finish | fail
  | sweepSelect | sweep | refundSelect | refundClaim | refundRequest | refundRelease
  | refundReference | refundReverse => exact h.elim

theorem guarded_start {s : State} {t : ℕ} (h : Captured s t) : ∃ tx, Guarded t tx s := by
  obtain ⟨tx, hrow, hstatus⟩ := Option.map_eq_some_iff.1 h.status
  refine ⟨tx, ⟨tx.gatewayStatus, hrow, ?_⟩, h.single, fun hback => absurd hback h.standing, ?_⟩
  · rw [h.log]
    exact fun hmem => by cases hmem
  · rw [h.log]
    exact List.not_mem_nil

/-- **Refund calls and refund webhooks**, in any order: where no answer is lost, a refused refund
gives its claim up before any refund is confirmed, and payments can be taken back, a confirmed
refund leaves the transaction refunded and its payment reversed. -/
theorem refund_law {s : State} {t : ℕ} (hs : Captured s t) {turns : List (Turn RefundAct Reply)}
    (hanswered : StepsMeet (Threads.step RefundAct.start next) (Threads.Meets Answered)
      (Threads.idle s) turns) :
    Always (Threads.step RefundAct.start next) (RefundLaw t) (Threads.idle s) turns := by
  obtain ⟨tx, hguarded⟩ := guarded_start hs
  have hall := @Threads.holds_always _ _ _ _ RefundAct.start next (Guarded t tx) (Knows t)
    (OneClaim t) Answered (fun u w h hwu => h hwu.symm) (knows_start t)
    (fun c w h => not_claims_start t c h.1) ?_ _ (Threads.Holds.idle hguarded) turns hanswered
  · have howed := @Threads.always_owed _ _ _ _ RefundAct.start next (Guarded t tx) (Knows t)
      (OneClaim t) Answered (fun s => .confirmed t ∈ s.log ∧ ¬ Reversed s t) (Owes t) ?_ _ turns
      hall hanswered ?_
    · refine howed.mono fun s h => ⟨fun hdone hconfirmed => ⟨?_, ?_⟩, ?_, ?_⟩
      · exact h.1.shared.refunded hconfirmed
      · by_contra hnot
        obtain ⟨u, hu, howes⟩ := h.2 ⟨hconfirmed, hnot⟩
        exact not_owes_done (hdone u hu) howes
      · rintro ⟨hback, hsucceeded⟩
        rw [h.1.shared.refunded (h.1.shared.back hback)] at hsucceeded
        cases hsucceeded
      · refine List.Pairwise.imp_of_mem (fun {later earlier} _ hearlier _ => ?_)
          (List.pairwise_of_forall fun _ _ => trivial)
        rintro ⟨-, rfl⟩
        exact h.1.shared.answered hearlier
    · intro s u reply hG hL hmeets hdebt
      exact (carries_next hG hL.1 hL.2 hmeets).owed hdebt.1 hdebt.2
    · intro hdebt
      have hnil : Happening.confirmed t ∈ s.log := hdebt.1
      rw [hs.log] at hnil
      cases hnil
  · intro s u reply hG hL hmeets
    have hstep := carries_next hG hL.1 hL.2 hmeets
    refine ⟨hstep.guarded, ⟨hstep.follows, fun hc => (hstep.claims hc).1⟩, fun w hw hone =>
      ⟨⟨hw.1.grows hstep.grows, fun hc => ?_⟩, ?_⟩⟩
    · exact (hstep.status (hw.2 hc)).resolve_right fun hu => hone ⟨hu, hc⟩
    · rintro ⟨hc, hcw⟩
      rcases (hstep.claims hc).2 with hu | hne
      · exact hone ⟨hu, hcw⟩
      · exact hne (hw.2 hcw)

/-! ### A refund whose answer is lost -/

/-- A captured charge of 100.00, posted as a payment. -/
def capturedState : State where
  db := ⟨⟨⟨[⟨7, 1, 1, 10000, "MXN", .completed, none, false⟩], by decide⟩, .empty, .empty, .empty,
    .empty, .empty, .empty, [], []⟩,
    ⟨[⟨1, some 7, 1, none, none, 1, 10000, "MXN", .succeeded⟩], by decide⟩⟩
  gatewayReferenceId := fun _ => "pi_1"
  events := .empty
  log := []

theorem capturedState_captured : Captured capturedState 1 where
  log := rfl
  status := rfl
  single := by decide
  standing := by
    rintro ⟨p, hp, hrefunded⟩
    cases hp
    cases hrefunded

/-- A refund of the whole amount. -/
def refundCall : RefundCall := ⟨1, 1, none, none, some .stripe⟩

def refundedEvent : Incoming :=
  ⟨.stripe, "evt_1", "charge.refunded",
    { id := some "ch_1", paymentIntent := some "pi_1", refunded := true }, some 1⟩

theorem refundedEvent_reports : ReportsRefund refundedEvent := by
  intro report hreport
  have hvalue : refundedEvent.report = some ("pi_1", .refunded) := by decide
  rw [hvalue] at hreport
  cases hreport
  rfl

/-- The webhook comes in while the provider is still to answer the refund call. -/
theorem refund_law_overlapping :
    Always (Threads.step RefundAct.start next) (RefundLaw 1) (Threads.idle capturedState)
      [.call (.refund refundCall), .turn 0 .ok, .turn 0 .ok,
        .call (.webhook refundedEvent refundedEvent_reports), .turn 1 .ok, .turn 1 .ok, .turn 1 .ok,
        .turn 0 (.provider (.refunded (some "re_1"))), .turn 1 .ok, .turn 0 .ok, .turn 1 .ok,
        .turn 0 .ok, .turn 1 .ok] :=
  refund_law capturedState_captured (by decide)

/-- The provider refunds, the answer times out, and a second call asks for the refund again. -/
theorem refund_asked_again :
    Captured capturedState 1 ∧
      ¬ Always (Threads.step RefundAct.start next) (RefundLaw 1) (Threads.idle capturedState)
        [.call (.refund refundCall), .turn 0 .ok, .turn 0 .ok, .turn 0 (.provider .lost),
          .turn 0 .ok, .call (.refund refundCall), .turn 1 .ok, .turn 1 .ok,
          .turn 1 (.provider (.refunded (some "re_2")))] := by
  refine ⟨capturedState_captured, fun h => ?_⟩
  have honce := h.last.once
  exact absurd honce (by decide)

end Vigabss.Gateway
