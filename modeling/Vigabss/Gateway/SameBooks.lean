import Vigabss.Gateway.Settled
import Vigabss.Gateway.Standing

/-!
# Vigabss.Gateway.SameBooks — two orders of the same events

What a run of deliveries leaves in the books depends on the reports in two ways only: whether a
success came before every dispute and refund, and whether a refund came at all.  The second is the
same in every order of the same events; so the first decides whether two orders agree.
-/

namespace Vigabss.Gateway

open Vigabss.Lib Vigabss.Billing

/-! ### The events find their transaction in every state -/

/-- The transactions, by what the statements that look for one read of the table. -/
def owners (db : Db) : List (ℕ × ℕ) := db.transactions.rows.map fun tx => (tx.id, tx.organizationId)

theorem owners_modify {billing : Billing.Db} {transactions : Table PaymentTransaction} {t : ℕ}
    {f : PaymentTransaction → PaymentTransaction} (hf : ∀ tx, Keyed.key (f tx) = Keyed.key tx)
    (h : ∀ tx, (f tx).organizationId = tx.organizationId) :
    owners ⟨billing, transactions.modify t f hf⟩ = owners ⟨billing, transactions⟩ := by
  show (transactions.rows.map _).map _ = _
  rw [List.map_map]
  refine List.map_congr_left fun tx _ => ?_
  show (PaymentTransaction.id (if _ then _ else _),
    PaymentTransaction.organizationId (if _ then _ else _)) = _
  split_ifs
  · exact Prod.ext (hf tx) (h tx)
  · rfl

theorem owners_settle (db : Db) (t : ℕ) (n : GatewayStatus) :
    owners (settle db t n) = owners db := by
  cases n with
  | succeeded =>
    show owners (db.after (.reconcilePayment t)) = _
    simp only [Db.after]
    cases hrow : db.transactions.find? t with
    | none =>
      unfold reconcilePayment
      rw [hrow]
    | some tx =>
      cases hpaid : tx.paymentId with
      | some id =>
        unfold reconcilePayment
        simp only [hrow, hpaid]
      | none =>
        by_cases hstatus : tx.gatewayStatus = .succeeded
        · rw [reconcilePayment_eq hrow hpaid hstatus]
          cases post db.billing tx with
          | error err => rfl
          | ok r => exact owners_modify _ fun _ => rfl
        · unfold reconcilePayment
          simp only [hrow, hpaid, ne_eq, hstatus, not_false_eq_true, if_true]
  | refunded =>
    rcases reverseRefund_cases db t with h | ⟨_, billing, -, -, -, h⟩
    · show owners (reverseRefund db t) = _
      rw [h]
    · show owners (reverseRefund db t) = _
      rw [h]
      rfl
  | pending | failed | disputed | cancelled => rfl

theorem owners_move (db : Db) (t : ℕ) (n : GatewayStatus) : owners (move db t n) = owners db := by
  unfold move
  split
  · rfl
  · split_ifs
    · rw [owners_settle]
      exact owners_modify _ fun _ => rfl
    · rfl

/-- What an event finds depends on the owners and on the references. -/
theorem lookup_congr {s s' : State} (howners : owners s.db = owners s'.db)
    (hrefs : s.gatewayReferenceId = s'.gatewayReferenceId) (e : Incoming) (gatewayRef : String) :
    s.lookup e gatewayRef = s'.lookup e gatewayRef := by
  have hbyRef : ∀ u : State, (u.findByReference gatewayRef e.organizationId).map
      PaymentTransaction.id = ((owners u.db).find? fun x =>
        u.gatewayReferenceId x.1 = gatewayRef ∧ ∀ o ∈ e.organizationId, x.2 = o).map Prod.fst := by
    intro u
    rw [owners, List.find?_map, Option.map_map]
    rfl
  have hbyId : ∀ (u : State) (t o : ℕ), (u.findById t o).map PaymentTransaction.id =
      (((owners u.db).find? fun x => x.1 = t).filter fun x => x.2 = o).map Prod.fst := by
    intro u t o
    rw [owners, List.find?_map]
    unfold State.findById Table.find?
    show _ = (Option.filter _ (Option.map _ (u.db.transactions.rows.find? fun a =>
      decide (Keyed.key a = t)))).map _
    cases u.db.transactions.rows.find? fun a => decide (Keyed.key a = t) with
    | none => rfl
    | some tx =>
      by_cases ho : tx.organizationId = o <;> simp [Option.filter, ho]
  unfold State.lookup
  rw [Option.map_or, Option.map_or, hbyRef, hbyRef, howners, hrefs, Option.map_bind,
    Option.map_bind]
  congr 2
  funext ⟨t, o⟩
  show (s.findById t o).map _ = (s'.findById t o).map _
  rw [hbyId, hbyId, howners]

/-- Events about one transaction that were not delivered before: an id of the provider names one
event, and every event that reports a status finds the transaction, whichever of the references
that the events bring it carries. -/
structure EventsOf (s : State) (tx : PaymentTransaction) (events : List Incoming) : Prop where
  row : s.db.transactions.find? tx.id = some tx
  fresh : ∀ e ∈ events, e.dedupKey ∉ s.keys
  one : ∀ e ∈ events, ∀ e' ∈ events, e.dedupKey = e'.dedupKey → e = e'
  found : ∀ e ∈ events, ∀ report ∈ e.report,
    ∀ ref ∈ s.gatewayReferenceId tx.id :: events.filterMap Incoming.piRef,
      (s.writeReference tx.id (some ref)).lookup e report.1 = some tx.id

theorem EventsOf.congr {s : State} {tx : PaymentTransaction} {as bs : List Incoming}
    (h : EventsOf s tx as) (hsame : ∀ e, e ∈ bs ↔ e ∈ as) : EventsOf s tx bs where
  row := h.row
  fresh e he := h.fresh e ((hsame e).1 he)
  one e he e' he' := h.one e ((hsame e).1 he) e' ((hsame e').1 he')
  found e he report hreport ref href := by
    refine h.found e ((hsame e).1 he) report hreport ref ?_
    simp only [List.mem_cons, List.mem_filterMap] at href ⊢
    exact href.imp_right fun ⟨e, he, href⟩ => ⟨e, (hsame e).1 he, href⟩

/-! ### Runs of deliveries -/

/-- After the deliveries `past`, of the events `all`. -/
structure After (s₀ : State) (tx : PaymentTransaction) (all past : List Incoming) (s : State) :
    Prop where
  standing : Standing s₀.db.billing tx (reported past) s.db
  owners : owners s.db = owners s₀.db
  refs : ∃ ref ∈ s₀.gatewayReferenceId tx.id :: all.filterMap Incoming.piRef,
    s.gatewayReferenceId = Function.update s₀.gatewayReferenceId tx.id ref
  keys : ∀ key ∈ s.keys, key ∈ s₀.keys ∨ ∃ e ∈ past, e.dedupKey = key

section Runs

variable {s₀ s : State} {tx : PaymentTransaction} {all past : List Incoming}

theorem after_start (h : EventsOf s₀ tx all) : After s₀ tx all [] s₀ where
  standing := standing_start h.row
  owners := rfl
  refs := ⟨_, List.mem_cons_self, (Function.update_eq_self ..).symm⟩
  keys _ hkey := .inl hkey

theorem reported_append (events : List Incoming) (e : Incoming) :
    reported (events ++ [e]) = reported events ++ (e.report.map Prod.snd).toList := by
  unfold reported
  rw [List.filterMap_append]
  congr 1

/-- One more delivery. -/
theorem After.delivery (h : After s₀ tx all past s) (hevents : EventsOf s₀ tx all)
    (hpast : ∀ e ∈ past, e ∈ all) {e : Incoming} (he : e ∈ all) :
    After s₀ tx all (past ++ [e]) (processWebhookEvent s e) := by
  have hkeep : ∀ key, (key ∈ s.keys ∨ key = e.dedupKey) →
      key ∈ s₀.keys ∨ ∃ e' ∈ past ++ [e], e'.dedupKey = key := by
    rintro key (hkey | rfl)
    · exact (h.keys key hkey).imp_right fun ⟨e', he', heq⟩ =>
        ⟨e', List.mem_append_left _ he', heq⟩
    · exact .inr ⟨e, by simp, rfl⟩
  have hreported := reported_append past e
  cases hreport : e.report with
  | none =>
    obtain ⟨hdb, hrefs, hkeys⟩ := @processWebhookEvent_other s e hreport
    rw [hreport, Option.map_none, Option.toList_none, List.append_nil] at hreported
    refine ⟨?_, ?_, ?_, fun key hkey => hkeep key (hkeys key hkey)⟩
    · rw [hreported, hdb]
      exact h.standing
    · rw [hdb]
      exact h.owners
    · rw [hrefs]
      exact h.refs
  | some report =>
    obtain ⟨gatewayRef, n⟩ := report
    rw [hreport, Option.map_some, Option.toList_some] at hreported
    obtain ⟨ref, href, hrefs⟩ := h.refs
    have hsame : s.lookup e gatewayRef =
        (s₀.writeReference tx.id (some ref)).lookup e gatewayRef := by
      refine lookup_congr ?_ ?_ e gatewayRef
      · exact h.owners
      · exact hrefs
    have hlookup : s.lookup e gatewayRef = some tx.id :=
      hsame.trans (hevents.found e he (gatewayRef, n) hreport ref href)
    rcases processWebhookEvent_report hreport hlookup with ⟨hkey, hdup⟩ | ⟨s₁, hdb, hrefs₁, hkeys,
      hmoves⟩
    · -- a duplicate: its report is among the past ones
      obtain ⟨e', he', heq⟩ := (h.keys _ hkey).resolve_left (hevents.fresh e he)
      obtain rfl := hevents.one e' (hpast e' he') e he heq
      have hmem : n ∈ reported past := List.mem_filterMap.2 ⟨e', he', by rw [hreport]; rfl⟩
      rw [hdup]
      refine ⟨?_, h.owners, h.refs, fun key hkey => hkeep key (.inl hkey)⟩
      rw [hreported]
      exact h.standing.again hmem
    · refine ⟨?_, ?_, ?_, fun key hkey => hkeep key (hkeys key (hmoves.keys ▸ hkey))⟩
      · rw [hreported, hmoves.db, hdb]
        exact h.standing.move n
      · rw [hmoves.db, owners_move, hdb]
        exact h.owners
      · obtain ⟨ref', href', hupdate⟩ := hmoves.refs
        refine ⟨ref', ?_, ?_⟩
        · rw [hrefs₁, hrefs, Function.update_self] at href'
          rcases List.mem_cons.1 href' with rfl | href'
          · exact href
          · refine List.mem_cons_of_mem _ (List.mem_filterMap.2 ⟨e, he, ?_⟩)
            exact Option.mem_toList.1 href'
        · rw [hupdate, hrefs₁, hrefs, Function.update_idem]

/-- **A run of deliveries**, step by step. -/
theorem after_run (hevents : EventsOf s₀ tx all) :
    After s₀ tx all all (run processWebhookEvent s₀ all) := by
  have hsteps : ∀ (rest past : List Incoming) (s : State), (∀ e ∈ past ++ rest, e ∈ all) →
      After s₀ tx all past s → After s₀ tx all (past ++ rest) (run processWebhookEvent s rest) := by
    intro rest
    induction rest with
    | nil =>
      intro past s _ h
      rw [List.append_nil]
      exact h
    | cons e rest ih =>
      intro past s hin h
      have hnext := h.delivery hevents (fun e' he' => hin e' (List.mem_append_left _ he'))
        (hin e (by simp))
      rw [run_cons, List.append_cons]
      refine ih (past ++ [e]) _ (fun e' he' => hin e' ?_) hnext
      rwa [← List.append_cons] at he'
  exact hsteps all [] s₀ (fun e he => he) (after_start hevents)

end Runs

/-! ### The books -/

/-- What the events leave in the books of the client: the status of the transaction's payment, its
live allocations, the status of every invoice, and the client's net amount in each currency. -/
structure Books where
  payment : Option PaymentStatus
  allocations : List PaymentAllocation
  invoices : List (ℕ × InvoiceStatus)
  net : String → ℤ

/-- The books of a client around a payment. -/
def booksOf (db : Billing.Db) (clientId : ℕ) (payment : Option Payment) : Books where
  payment := payment.map Payment.status
  allocations := payment.elim [] fun p => db.allocations.rows.filter (ofPayment p.id)
  invoices := db.invoices.rows.map fun invoice => (invoice.id, invoice.status)
  net currency := ((db.ledger.filter fun entry =>
    entry.clientId = clientId ∧ entry.currency = currency).map signed).sum

def State.books (s : State) (tx : PaymentTransaction) : Books :=
  booksOf s.db.billing tx.clientId (paymentOf s.db tx.id)

/-- The capture of a transaction can be posted once it has succeeded. -/
def postable (s : State) (tx : PaymentTransaction) : Bool :=
  (reconcilePayment (s.db.setGatewayStatus tx.id .succeeded) tx.id).isOk

theorem postable_eq {s : State} {tx : PaymentTransaction}
    (h : s.db.transactions.find? tx.id = some tx) (hpaid : tx.paymentId = none) :
    postable s tx = (post s.db.billing tx).isOk := by
  have hpost : post (s.db.setGatewayStatus tx.id .succeeded).billing
      { tx with gatewayStatus := .succeeded } = post s.db.billing tx := rfl
  unfold postable
  rw [reconcilePayment_eq (find?_written h .succeeded) hpaid rfl, hpost]
  cases post s.db.billing tx <;> rfl

theorem After.books {s₀ s : State} {tx : PaymentTransaction} {all past : List Incoming}
    (h : After s₀ tx all past s) :
    s.books tx = booksOf (outcome s₀.db.billing tx (reported past)) tx.clientId
      (paymentIn (outcome s₀.db.billing tx (reported past)) tx.organizationId
        (postedBooks s₀.db.billing tx (captures tx (reported past))).2) := by
  obtain ⟨settled, status, hrow, -⟩ := h.standing.row
  unfold State.books
  rw [paymentOf_eq hrow, h.standing.billing]

theorem isSome_payment {books : Billing.Db} {tx : PaymentTransaction}
    {statuses : List GatewayStatus} (hunpaid : tx.paymentId = none)
    (hpost : (post books tx).isOk = true) :
    (paymentIn (outcome books tx statuses) tx.organizationId
      (postedBooks books tx (captures tx statuses)).2).isSome = captures tx statuses := by
  have hposted : (paymentIn (postedBooks books tx (captures tx statuses)).1 tx.organizationId
      (postedBooks books tx (captures tx statuses)).2).isSome = captures tx statuses := by
    unfold postedBooks
    rw [hunpaid]
    dsimp only
    cases captures tx statuses with
    | false => rfl
    | true =>
      cases hp : post books tx with
      | error err =>
        rw [hp] at hpost
        cases hpost
      | ok r =>
        obtain ⟨applied, id⟩ := r
        exact (congrArg Option.isSome (paymentIn_post hp)).trans rfl
  unfold outcome
  dsimp only
  split_ifs
  · rw [isSome_backed]
    exact hposted
  · exact hposted

/-- A pending charge of 100.00 on an open invoice. -/
def pendingCharge : PaymentTransaction :=
  ⟨1, none, 1, some 1, none, 1, 10000, "MXN", .pending⟩

def pendingState : State where
  db := { oneInvoice with transactions := ⟨[pendingCharge], by decide⟩ }
  gatewayReferenceId := fun _ => "pi_1"
  events := .empty
  log := []

/-- The provider captures the charge. -/
def capturedEvent : Incoming :=
  ⟨.stripe, "evt_1", "payment_intent.succeeded", { id := some "pi_1" }, some 1⟩

/-- The cardholder disputes it. -/
def disputedEvent : Incoming :=
  ⟨.stripe, "evt_2", "charge.dispute.created", { id := some "du_1", paymentIntent := some "pi_1" },
    some 1⟩

theorem pending_events : EventsOf pendingState pendingCharge [capturedEvent, disputedEvent] where
  row := by decide
  fresh := by decide
  one := by decide
  found := by decide +kernel

end Vigabss.Gateway
