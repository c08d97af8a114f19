import Vigabss.Gateway.Mirror
import Vigabss.Gateway.Webhooks

/-!
# Vigabss.Gateway.Orders — the events of a transaction, in any order

A provider delivers the events of a transaction in any order, some of them more than once.  One
delivery after another, the books end up the same in two orders just when a success comes before
every dispute and refund in both of them or in neither: the transition table drops a success that
comes later, and with it the capture.
-/

namespace Vigabss.Gateway

open Vigabss.Lib Vigabss.Billing

/-! ### One delivery at a time -/

/-- A call that nothing interleaves with, for so many statements, all of which go well. -/
def alone (s : State) (t : Task) : ℕ → State × Task
  | 0 => (s, t)
  | n + 1 => alone (next s t .ok).1 (next s t .ok).2 n

/-- `processWebhookEvent`, with nothing beside it. -/
def processWebhookEvent (s : State) (e : Incoming) : State := (alone s (.select e) 8).1

/-- What the events report, in the order of their deliveries. -/
def reported (events : List Incoming) : List GatewayStatus :=
  events.filterMap fun e => e.report.map Prod.snd

/-- The status of a transaction whose money came in, whether or not it stayed. -/
def decisive : GatewayStatus → Bool
  | .succeeded | .disputed | .refunded => true
  | _ => false

/-- A success comes before every dispute and every refund. -/
def successFirst (statuses : List GatewayStatus) : Bool :=
  statuses.find? decisive = some .succeeded

@[simp] theorem alone_succ (s : State) (t : Task) (n : ℕ) :
    alone s t (n + 1) = alone (next s t .ok).1 (next s t .ok).2 n := rfl

@[simp] theorem alone_done (s : State) (answer : Answer) (n : ℕ) :
    alone s (.done answer) n = (s, .done answer) := by
  induction n with
  | zero => rfl
  | succ n ih => exact ih

/-! ### Posting and taking back, on the books alone -/

/-- The payment of a transaction, in its organization. -/
def paymentIn (db : Billing.Db) (organizationId : ℕ) (paymentId : Option ℕ) : Option Payment :=
  paymentId.bind fun id => (db.payments.find? id).filter fun p => p.organizationId = organizationId

/-- The books with a payment taken back. -/
def backed (db : Billing.Db) (organizationId : ℕ) (paymentId : Option ℕ) : Billing.Db :=
  match paymentIn db organizationId paymentId with
  | none => db
  | some payment =>
    if payment.status = .refunded then db
    else
      match refundPayment db payment with
      | .error _ => db
      | .ok db => db

theorem paymentOf_eq {db : Db} {t : ℕ} {tx : PaymentTransaction}
    (h : db.transactions.find? t = some tx) :
    paymentOf db t = paymentIn db.billing tx.organizationId tx.paymentId := by
  unfold paymentOf paymentIn
  rw [h]
  rfl

theorem reverseRefund_eq {db : Db} {t : ℕ} {tx : PaymentTransaction}
    (h : db.transactions.find? t = some tx) :
    reverseRefund db t =
      { db with billing := backed db.billing tx.organizationId tx.paymentId } := by
  unfold reverseRefund backed
  rw [paymentOf_eq h]
  cases paymentIn db.billing tx.organizationId tx.paymentId with
  | none => rfl
  | some payment =>
    dsimp only
    split_ifs
    · rfl
    · cases refundPayment db.billing payment <;> rfl

theorem paymentIn_refund {db db' : Billing.Db} {organizationId : ℕ} {paymentId : Option ℕ}
    {payment : Payment} (h : paymentIn db organizationId paymentId = some payment)
    (hok : refundPayment db payment = .ok db') :
    paymentIn db' organizationId paymentId = some { payment with status := .refunded } := by
  obtain ⟨invoices, rfl⟩ := refundPayment_ok hok
  unfold paymentIn at h ⊢
  obtain ⟨id, rfl, h⟩ := Option.bind_eq_some_iff.1 h
  obtain ⟨hfind, horg⟩ := (Option.filter_eq_some_iff).1 h
  obtain ⟨-, (rfl : payment.id = id)⟩ := Table.find?_eq_some.1 hfind
  show ((takenBack db payment).payments.find? payment.id).filter _ = _
  rw [takenBack_payments, Db.setPayment, Table.find?_modify, if_pos rfl, hfind]
  exact Option.filter_eq_some_iff.2 ⟨rfl, horg⟩

theorem backed_none (db : Billing.Db) (organizationId : ℕ) :
    backed db organizationId none = db := rfl

theorem backed_backed (db : Billing.Db) (organizationId : ℕ) (paymentId : Option ℕ) :
    backed (backed db organizationId paymentId) organizationId paymentId =
      backed db organizationId paymentId := by
  cases hpay : paymentIn db organizationId paymentId with
  | none =>
    have hstay : backed db organizationId paymentId = db := by rw [backed, hpay]
    rw [hstay, hstay]
  | some payment =>
    by_cases hrefunded : payment.status = .refunded
    · have hstay : backed db organizationId paymentId = db := by
        rw [backed, hpay]
        exact if_pos hrefunded
      rw [hstay, hstay]
    cases hr : refundPayment db payment with
    | error err =>
      have hstay : backed db organizationId paymentId = db := by
        simp only [backed, hpay, hrefunded, if_false, hr]
      rw [hstay, hstay]
    | ok db' =>
      have hback : backed db organizationId paymentId = db' := by
        simp only [backed, hpay, hrefunded, if_false, hr]
      rw [hback, backed, paymentIn_refund hpay hr]
      exact if_pos rfl

theorem isSome_backed (db : Billing.Db) (organizationId : ℕ) (paymentId : Option ℕ) :
    (paymentIn (backed db organizationId paymentId) organizationId paymentId).isSome =
      (paymentIn db organizationId paymentId).isSome := by
  cases hpay : paymentIn db organizationId paymentId with
  | none =>
    rw [backed, hpay]
    show (paymentIn db organizationId paymentId).isSome = _
    rw [hpay]
  | some payment =>
    rw [backed, hpay]
    dsimp only
    split_ifs with hrefunded
    · rw [hpay]
    · cases hr : refundPayment db payment with
      | error err => rw [hpay]
      | ok db' => rw [paymentIn_refund hpay hr]; rfl

theorem paymentIn_post {db : Billing.Db} {tx : PaymentTransaction} {applied : Applied} {id : ℕ}
    (h : post db tx = .ok (applied, id)) :
    paymentIn applied.db tx.organizationId (some id) = some (captured tx id) := by
  unfold post at h
  obtain ⟨_, happ, hout⟩ := except_bind_ok.1 h
  cases hout
  have hpayments := (SameAccounts.allocateAcross happ).payments
  have hfind : (db.payments.insert (captured tx) fun _ => rfl).find? db.payments.nextId =
      some (captured tx db.payments.nextId) :=
    (Table.find?_insert db.payments (captured tx) (fun _ => rfl) _).trans (if_pos rfl)
  rw [paymentIn, Option.bind_some, hpayments]
  exact Option.filter_eq_some_iff.2 ⟨hfind, by simp [captured]⟩

/-! ### The move that an event makes -/

/-- What follows once the status is written: the capture is posted, or the payment taken back. -/
def settle (db : Db) (t : ℕ) : GatewayStatus → Db
  | .succeeded => db.after (.reconcilePayment t)
  | .refunded => reverseRefund db t
  | _ => db

theorem settle_of_ok {db db' : Db} {t : ℕ} {answer : Reconciled}
    (h : reconcilePayment db t = .ok (db', answer)) : settle db t .succeeded = db' := by
  simp only [settle, Db.after, h]

theorem settle_of_error {db : Db} {t : ℕ} {err : Failure} (h : reconcilePayment db t = .error err) :
    settle db t .succeeded = db := by
  simp only [settle, Db.after, h]

/-- What a report does to the database, once its transaction is found. -/
def move (db : Db) (t : ℕ) (newStatus : GatewayStatus) : Db :=
  match db.transactions.find? t with
  | none => db
  | some tx =>
    if isAllowedGatewayTransition tx.gatewayStatus newStatus then
      settle (db.setGatewayStatus t newStatus) t newStatus
    else db

theorem move_eq {db : Db} {t : ℕ} {tx : PaymentTransaction} (newStatus : GatewayStatus)
    (h : db.transactions.find? t = some tx) :
    move db t newStatus = if isAllowedGatewayTransition tx.gatewayStatus newStatus then
      settle (db.setGatewayStatus t newStatus) t newStatus else db := by
  unfold move
  rw [h]

/-- The keys of the recorded events, in the order of the records. -/
def State.keys (s : State) : List (ℕ × Provider × String) :=
  s.events.rows.map WebhookEvent.dedupKey

@[simp] theorem setEvent_keys (s : State) (event : ℕ) (transactionId : Option ℕ)
    (status : EventStatus) : (s.setEvent event transactionId status).keys = s.keys := by
  show (s.events.rows.map _).map _ = _
  rw [List.map_map]
  refine List.map_congr_left fun row _ => ?_
  show WebhookEvent.dedupKey (if _ then _ else _) = _
  split_ifs <;> rfl

/-- A delivery has left the database `db`; the references and the recorded events are the same. -/
structure Leaves (s : State) (db : Db) (s' : State) : Prop where
  db : s'.db = db
  refs : s'.gatewayReferenceId = s.gatewayReferenceId
  keys : s'.keys = s.keys

theorem leaves_setEvent (s : State) (event : ℕ) (transactionId : Option ℕ) (status : EventStatus) :
    Leaves s s.db (s.setEvent event transactionId status) := ⟨rfl, rfl, setEvent_keys ..⟩

theorem leaves_reconcile (s : State) (event t n : ℕ) :
    Leaves s (settle s.db t .succeeded) (alone s (.reconcile event t) (n + 2)).1 := by
  cases hr : reconcilePayment s.db t with
  | error err =>
    rw [settle_of_error hr]
    simp only [alone_succ, next, State.reconcile, hr, reduceCtorEq, if_false, alone_done]
    exact leaves_setEvent s event none .failed
  | ok r =>
    obtain ⟨db', answer⟩ := r
    rw [settle_of_ok hr]
    cases answer <;>
      simp only [alone_succ, next, State.reconcile, hr, reduceCtorEq, if_false, alone_done] <;>
      exact ⟨rfl, rfl, rfl⟩

theorem leaves_link (s : State) (event t : ℕ) (newStatus : GatewayStatus) (n : ℕ) :
    Leaves s (settle s.db t newStatus) (alone s (.link event t newStatus) (n + 3)).1 := by
  have hlinked := leaves_setEvent s event (some t) .processed
  cases newStatus with
  | succeeded =>
    have hlast := leaves_reconcile (s.setEvent event (some t) .processed) event t n
    exact ⟨hlast.db, hlast.refs, hlast.keys.trans hlinked.keys⟩
  | refunded | pending | failed | disputed | cancelled =>
    simp only [alone_succ, next, reduceCtorEq, if_false, alone_done]
    exact ⟨rfl, rfl, hlinked.keys⟩

/-- A delivery has made its move, and recorded no other event. -/
structure Moves (t : ℕ) (newStatus : GatewayStatus) (piRef : Option String) (s s' : State) :
    Prop where
  db : s'.db = move s.db t newStatus
  refs : ∃ ref ∈ s.gatewayReferenceId t :: piRef.toList,
    s'.gatewayReferenceId = Function.update s.gatewayReferenceId t ref
  keys : s'.keys = s.keys

theorem writeReport_spec {s : State} {t : ℕ} {tx : PaymentTransaction} (newStatus : GatewayStatus)
    (piRef : Option String) (h : s.db.transactions.find? t = some tx) :
    (s.writeReport t newStatus piRef).db = s.db.setGatewayStatus t newStatus ∧
      (s.writeReport t newStatus piRef).gatewayReferenceId =
        Function.update s.gatewayReferenceId t (piRef.getD (s.gatewayReferenceId t)) ∧
      (s.writeReport t newStatus piRef).keys = s.keys := by
  have hwrite : s.writeStatus t newStatus =
      { s with
        db := s.db.setGatewayStatus t newStatus
        log := .wrote t tx.gatewayStatus newStatus :: s.log } := by
    unfold State.writeStatus
    rw [h]
  unfold State.writeReport
  rw [hwrite]
  dsimp only
  split_ifs <;> exact ⟨rfl, rfl, rfl⟩

/-- A delivery that has read its transaction makes the move. -/
theorem moves_matched {s : State} {t : ℕ} {tx : PaymentTransaction}
    (h : s.db.transactions.find? t = some tx) (e : Incoming) (event : ℕ)
    (newStatus : GatewayStatus) (n : ℕ) :
    Moves t newStatus e.piRef s (alone s (e.matched event newStatus tx) (n + 4)).1 := by
  obtain ⟨-, (rfl : tx.id = t)⟩ := Table.find?_eq_some.1 h
  unfold Incoming.matched
  by_cases hallowed : isAllowedGatewayTransition tx.gatewayStatus newStatus = true
  · rw [if_pos hallowed]
    obtain ⟨hdb, hrefs, hkeys⟩ := writeReport_spec newStatus e.piRef h
    show Moves _ _ _ s (alone (s.writeReport tx.id newStatus e.piRef) (.link event tx.id newStatus)
      (n + 3)).1
    have hlast := leaves_link (s.writeReport tx.id newStatus e.piRef) event tx.id newStatus n
    refine ⟨?_, ⟨_, ?_, hlast.refs.trans hrefs⟩, hlast.keys.trans hkeys⟩
    · rw [move_eq newStatus h, if_pos hallowed, ← hdb]
      exact hlast.db
    · cases e.piRef <;> simp
  · rw [if_neg hallowed]
    have hlast := leaves_setEvent s event (some tx.id) .ignored
    have halone : (alone s (.finish event (some tx.id) .ignored .ignored) (n + 4)).1 =
        s.setEvent event (some tx.id) .ignored := by
      simp only [alone_succ, next, reduceCtorEq, if_false, alone_done]
    rw [halone]
    refine ⟨?_, ⟨_, List.mem_cons_self, ?_⟩, hlast.keys⟩
    · rw [move_eq newStatus h, if_neg hallowed]
      exact hlast.db
    · rw [Function.update_eq_self]
      exact hlast.refs

/-- The first statements of a delivery: a record that is not to be processed again ends it, and
else the event is recorded and the delivery begins. -/
theorem alone_select (s : State) (e : Incoming) (n : ℕ) :
    (e.dedupKey ∈ s.keys ∧ (alone s (.select e) (n + 2)).1 = s) ∨
      ∃ s₁ event, s₁.db = s.db ∧ s₁.gatewayReferenceId = s.gatewayReferenceId ∧
        (∀ key ∈ s₁.keys, key ∈ s.keys ∨ key = e.dedupKey) ∧
        alone s (.select e) (n + 2) = alone s₁ (e.begin event) n := by
  cases hrow : s.eventOf e with
  | none =>
    have hkeys : (s.insertEvent e).keys = s.keys ++ [e.dedupKey] := by
      show (s.events.rows ++ [_]).map _ = _
      rw [List.map_append]
      rfl
    refine .inr ⟨s.insertEvent e, s.events.nextId, rfl, rfl, fun key hkey => ?_, ?_⟩
    · rw [hkeys, List.mem_append, List.mem_singleton] at hkey
      exact hkey
    · simp only [alone_succ, next, reduceCtorEq, if_false, hrow]
  | some row =>
    have hmem : row ∈ s.events.rows := List.mem_of_find?_eq_some hrow
    have hkey : row.dedupKey = e.dedupKey := by simpa using List.find?_some hrow
    have hin : e.dedupKey ∈ s.keys := hkey ▸ List.mem_map_of_mem hmem
    by_cases hagain : row.status.reclaimable = true
    · have hfind : (s.events.find? row.id).filter (fun r => r.status.reclaimable) = some row :=
        Option.filter_eq_some_iff.2 ⟨Table.find?_key hmem, hagain⟩
      refine .inr ⟨s.setEvent row.id none .processing, row.id, rfl, rfl, fun key hkey => ?_, ?_⟩
      · rw [setEvent_keys] at hkey
        exact .inl hkey
      · simp only [alone_succ, next, reduceCtorEq, if_false, hrow, if_pos hagain, hfind]
    · refine .inl ⟨hin, ?_⟩
      simp only [alone_succ, next, reduceCtorEq, if_false, hrow, if_neg hagain, alone_done]

/-- The transaction that an event finds: by the reference, or by its metadata. -/
def State.lookup (s : State) (e : Incoming) (gatewayRef : String) : Option ℕ :=
  ((s.findByReference gatewayRef e.organizationId).or
    (e.fallback.bind fun (transactionId, organizationId) =>
      s.findById transactionId organizationId)).map PaymentTransaction.id

/-- The statements that look for the transaction come to the one that `lookup` names. -/
theorem alone_find {s : State} {e : Incoming} {gatewayRef : String} {t : ℕ}
    (h : s.lookup e gatewayRef = some t) (event : ℕ) (newStatus : GatewayStatus) (n : ℕ) :
    ∃ tx k, s.db.transactions.find? t = some tx ∧
      alone s (.find e event gatewayRef newStatus) (n + 6) =
        alone s (e.matched event newStatus tx) (k + 4) := by
  unfold State.lookup at h
  obtain ⟨tx, htx, rfl⟩ := Option.map_eq_some_iff.1 h
  cases href : s.findByReference gatewayRef e.organizationId with
  | some found =>
    rw [href] at htx
    obtain rfl : found = tx := Option.some.inj htx
    have hmem : found ∈ s.db.transactions.rows := List.mem_of_find?_eq_some href
    refine ⟨found, n + 1, Table.find?_key hmem, ?_⟩
    simp only [alone_succ, next, reduceCtorEq, if_false, href]
  | none =>
    rw [href, Option.none_or] at htx
    obtain ⟨⟨transactionId, organizationId⟩, hfallback, hfind⟩ := Option.bind_eq_some_iff.1 htx
    have hmem : tx ∈ s.db.transactions.rows :=
      (Table.find?_eq_some.1 (Option.filter_eq_some_iff.1 hfind).1).1
    have hfound : s.findById transactionId organizationId = some tx := hfind
    refine ⟨tx, n, Table.find?_key hmem, ?_⟩
    simp only [alone_succ, next, reduceCtorEq, if_false, href, hfallback, hfound]

/-- **One delivery** of an event that reports on a transaction: it is a duplicate, or makes the
move. -/
theorem processWebhookEvent_report {s : State} {e : Incoming} {gatewayRef : String}
    {newStatus : GatewayStatus} {t : ℕ} (hreport : e.report = some (gatewayRef, newStatus))
    (hlookup : s.lookup e gatewayRef = some t) :
    (e.dedupKey ∈ s.keys ∧ processWebhookEvent s e = s) ∨
      ∃ s₁, s₁.db = s.db ∧ s₁.gatewayReferenceId = s.gatewayReferenceId ∧
        (∀ key ∈ s₁.keys, key ∈ s.keys ∨ key = e.dedupKey) ∧
        Moves t newStatus e.piRef s₁ (processWebhookEvent s e) := by
  rcases alone_select s e 6 with hdup | ⟨s₁, event, hdb, hrefs, hkeys, halone⟩
  · exact .inl hdup
  have hlookup₁ : s₁.lookup e gatewayRef = some t := by
    rw [← hlookup]
    unfold State.lookup State.findByReference State.findById
    rw [hdb, hrefs]
  obtain ⟨tx, k, htx, hfind⟩ := alone_find hlookup₁ event newStatus 0
  have hbegin : e.begin event = .find e event gatewayRef newStatus := by
    unfold Incoming.begin
    rw [hreport]
  refine .inr ⟨s₁, hdb, hrefs, hkeys, ?_⟩
  unfold processWebhookEvent
  rw [halone, hbegin, hfind]
  exact moves_matched htx e event newStatus k

theorem processWebhookEvent_other {s : State} {e : Incoming} (hreport : e.report = none) :
    (processWebhookEvent s e).db = s.db ∧
      (processWebhookEvent s e).gatewayReferenceId = s.gatewayReferenceId ∧
      ∀ key ∈ (processWebhookEvent s e).keys, key ∈ s.keys ∨ key = e.dedupKey := by
  unfold processWebhookEvent
  rcases alone_select s e 6 with ⟨-, hdup⟩ | ⟨s₁, event, hdb, hrefs, hkeys, halone⟩
  · rw [hdup]
    exact ⟨rfl, rfl, fun _ => .inl⟩
  · have hbegin : ∃ status answer, e.begin event = .finish event none status answer := by
      unfold Incoming.begin
      rw [hreport]
      dsimp only
      split_ifs
      · exact ⟨_, _, rfl⟩
      · exact ⟨_, _, rfl⟩
    obtain ⟨status, answer, hbegin⟩ := hbegin
    have hlast : Leaves s₁ s₁.db (alone s₁ (.finish event none status answer) 6).1 := by
      simp only [alone_succ, next, reduceCtorEq, if_false, alone_done]
      split_ifs <;> exact ⟨rfl, rfl, setEvent_keys ..⟩
    rw [halone, hbegin]
    exact ⟨hlast.db.trans hdb, hlast.refs.trans hrefs,
      fun key hkey => hkeys key (hlast.keys ▸ hkey)⟩

end Vigabss.Gateway
