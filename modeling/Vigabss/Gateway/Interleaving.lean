import Vigabss.Gateway.Webhooks

/-!
# Vigabss.Gateway.Interleaving — deliveries, refunds and the sweep side by side

However the calls on a transaction interleave, its capture is posted at most once, and an event is
processed to success at most once: the first rests on the row lock of `reconcilePayment`, the second
on the claim of the event's record.  The status has no such guard.  It is written after a read, and
given back by a refused refund; where every such statement still finds what it relies on, the status
never goes back.
-/

namespace Vigabss.Gateway

open Vigabss.Lib Vigabss.Billing

/-! ### What is to hold -/

/-- A payment is posted for the transaction. -/
def Happening.posts (t : ℕ) : Happening → Bool
  | .posted t' _ => t' = t
  | _ => false

/-- The event is processed to success. -/
def Happening.processes (event : ℕ) : Happening → Bool
  | .processed event' => event' = event
  | _ => false

/-- A write does not take a captured or disputed transaction back to where it is not captured. -/
def Happening.Forward : Happening → Prop
  | .wrote _ before after =>
    before = .succeeded ∨ before = .disputed → after ≠ .failed ∧ after ≠ .pending
  | _ => True

/-- After a confirmed refund, a write does not lead out of `refunded`. -/
def KeepsRefund (later earlier : Happening) : Prop :=
  ∀ t after, earlier = .confirmed t → later = .wrote t .refunded after → after = .refunded

/-- The law on what has happened. -/
structure Orderly (s : State) : Prop where
  posted : ∀ t, s.log.countP (Happening.posts t) ≤ 1
  processed : ∀ event, s.log.countP (Happening.processes event) ≤ 1
  forward : ∀ h ∈ s.log, h.Forward
  final : s.log.Pairwise KeepsRefund

/-! ### The statements on a transaction -/

/-- A transaction that is posted has its payment, and the log is in order. -/
structure Sound (s : State) : Prop where
  linked : ∀ t paymentId, .posted t paymentId ∈ s.log →
    ∃ tx, s.db.transactions.find? t = some tx ∧ tx.paymentId ≠ none
  posted : ∀ t, s.log.countP (Happening.posts t) ≤ 1
  forward : ∀ h ∈ s.log, h.Forward
  final : s.log.Pairwise KeepsRefund

/-- The payment of every transaction is what it was. -/
def SamePayments (db db' : Db) : Prop :=
  ∀ t tx, db.transactions.find? t = some tx →
    ∃ tx', db'.transactions.find? t = some tx' ∧ tx'.paymentId = tx.paymentId

section Statements

variable {s s' : State}

theorem Sound.congr (h : Sound s) (hdb : s'.db = s.db) (hlog : s'.log = s.log) : Sound s' where
  linked := by
    rw [hdb, hlog]
    exact h.linked
  posted := by
    rw [hlog]
    exact h.posted
  forward := by
    rw [hlog]
    exact h.forward
  final := by
    rw [hlog]
    exact h.final

theorem Sound.note (h : Sound s) {x : Happening} (hposts : ∀ t, x.posts t = false)
    (hwrites : ∀ t before after, x ≠ .wrote t before after) : Sound (s.note x) where
  linked t paymentId hmem := by
    rcases List.mem_cons.1 hmem with rfl | hmem
    · have := hposts t
      simp [Happening.posts] at this
    · exact h.linked t paymentId hmem
  posted t := by
    show (x :: s.log).countP _ ≤ 1
    rw [List.countP_cons_of_neg (by simp [hposts])]
    exact h.posted t
  forward := by
    intro y hy
    rcases List.mem_cons.1 hy with rfl | hy
    · cases y with
      | wrote t before after => exact absurd rfl (hwrites t before after)
      | posted | processed | requested | unanswered | confirmed => trivial
    · exact h.forward y hy
  final := List.pairwise_cons.2
    ⟨fun _ _ t after _ hwrote => absurd hwrote (hwrites t .refunded after), h.final⟩

theorem samePayments_setGatewayStatus (db : Db) (t : ℕ) (status : GatewayStatus) :
    SamePayments db (db.setGatewayStatus t status) := by
  intro u tx htx
  rw [find?_setGatewayStatus]
  by_cases hu : u = t
  · subst hu
    rw [if_pos rfl, htx]
    exact ⟨_, rfl, rfl⟩
  · rw [if_neg hu]
    exact ⟨tx, htx, rfl⟩

/-- A status is written over one that it may follow. -/
theorem Sound.writeStatus (h : Sound s) {t : ℕ} {status : GatewayStatus}
    (hforward : ∀ tx ∈ s.db.transactions.find? t,
      Happening.Forward (.wrote t tx.gatewayStatus status))
    (hfinal : ∀ tx ∈ s.db.transactions.find? t, tx.gatewayStatus = .refunded →
      status = .refunded ∨ .confirmed t ∉ s.log) :
    Sound (s.writeStatus t status) := by
  unfold State.writeStatus
  cases htx : s.db.transactions.find? t with
  | none => exact h
  | some tx =>
    refine ⟨fun u paymentId hmem => ?_, fun u => ?_, fun x hx => ?_, ?_⟩
    · rcases List.mem_cons.1 hmem with heq | hmem
      · cases heq
      · obtain ⟨row, hrow, hlinked⟩ := h.linked u paymentId hmem
        obtain ⟨row', hrow', hsame⟩ := samePayments_setGatewayStatus s.db t status u row hrow
        exact ⟨row', hrow', hsame ▸ hlinked⟩
    · show (_ :: s.log).countP _ ≤ 1
      rw [List.countP_cons_of_neg (by simp [Happening.posts])]
      exact h.posted u
    · rcases List.mem_cons.1 hx with rfl | hx
      · exact hforward tx htx
      · exact h.forward x hx
    · refine List.pairwise_cons.2 ⟨fun x hx u after hconfirmed hwrote => ?_, h.final⟩
      injection hwrote with ht hbefore hafter
      subst ht hafter hconfirmed
      exact (hfinal tx htx hbefore).resolve_right (not_not.2 hx)

/-- `reconcilePayment` on the state: nothing is posted, or the capture is, of a transaction that has
no payment. -/
theorem reconcile_cases {t : ℕ} (h : s.reconcile t = some s') :
    s' = s ∨ ∃ tx paymentId db, s.db.transactions.find? t = some tx ∧ tx.paymentId = none ∧
      s' = { s with db, log := .posted t paymentId :: s.log } ∧
      (∃ tx', db.transactions.find? t = some tx' ∧ tx'.paymentId ≠ none) ∧
      ∀ u, u ≠ t → db.transactions.find? u = s.db.transactions.find? u := by
  unfold State.reconcile at h
  cases htx : s.db.transactions.find? t with
  | none =>
    unfold reconcilePayment at h
    rw [htx] at h
    exact .inl (Option.some.inj h).symm
  | some tx =>
    obtain ⟨-, (rfl : tx.id = t)⟩ := Table.find?_eq_some.1 htx
    cases hpaid : tx.paymentId with
    | some id =>
      unfold reconcilePayment at h
      simp only [htx, hpaid] at h
      exact .inl (Option.some.inj h).symm
    | none =>
      by_cases hstatus : tx.gatewayStatus = .succeeded
      · rw [reconcilePayment_eq htx hpaid hstatus] at h
        cases hpost : post s.db.billing tx with
        | error err =>
          rw [hpost] at h
          cases h
        | ok r =>
          obtain ⟨applied, id⟩ := r
          rw [hpost] at h
          have hfind := find?_linked htx applied id
          refine .inr ⟨tx, id, _, rfl, hpaid, (Option.some.inj h).symm,
            ⟨tx.linked applied id, (hfind tx.id).trans (if_pos rfl), by
              simp [PaymentTransaction.linked]⟩, fun u hu => (hfind u).trans (if_neg hu)⟩
      · unfold reconcilePayment at h
        simp only [htx, hpaid, ne_eq, hstatus, not_false_eq_true, if_true] at h
        exact .inl (Option.some.inj h).symm

theorem Sound.reconcile (h : Sound s) {t : ℕ} (hok : s.reconcile t = some s') : Sound s' := by
  rcases reconcile_cases hok with rfl | ⟨tx, paymentId, db, htx, hpaid, rfl, hlinked, hothers⟩
  · exact h
  have hnever : ∀ x ∈ s.log, x.posts t = false := by
    intro x hx
    cases x with
    | posted u id =>
      by_contra hposts
      have hu : u = t := by simpa [Happening.posts] using hposts
      subst hu
      obtain ⟨row, hrow, hne⟩ := h.linked u id hx
      rw [htx] at hrow
      cases hrow
      exact hne hpaid
    | wrote | processed | requested | unanswered | confirmed => rfl
  refine ⟨fun u id hmem => ?_, fun u => ?_, fun x hx => ?_, ?_⟩
  · by_cases hu : u = t
    · exact hu ▸ hlinked
    · rcases List.mem_cons.1 hmem with heq | hmem
      · injection heq with heq
        exact absurd heq hu
      · rw [hothers u hu]
        exact h.linked u id hmem
  · show (_ :: s.log).countP _ ≤ 1
    by_cases hu : u = t
    · subst hu
      have hzero : s.log.countP (Happening.posts u) = 0 :=
        List.countP_eq_zero.2 fun x hx => by simp [hnever x hx]
      rw [List.countP_cons_of_pos (by simp [Happening.posts]), hzero]
    · rw [List.countP_cons_of_neg (by simpa [Happening.posts] using Ne.symm hu)]
      exact h.posted u
  · rcases List.mem_cons.1 hx with rfl | hx
    · trivial
    · exact h.forward x hx
  · refine List.pairwise_cons.2 ⟨fun x hx u after hconfirmed hwrote => ?_, h.final⟩
    cases hwrote

theorem Sound.reverse (h : Sound s) (t : ℕ) : Sound (s.reverse t) := by
  have htransactions : (s.reverse t).db.transactions = s.db.transactions := by
    show (reverseRefund s.db t).transactions = _
    rcases reverseRefund_cases s.db t with h | ⟨_, billing, -, -, -, h⟩
    · rw [h]
    · rw [h]
  refine ⟨?_, h.posted, h.forward, h.final⟩
  rw [htransactions]
  exact h.linked

end Statements

/-! ### One statement -/

/-- The statement still finds what its call relies on: a webhook writes a status that the present
one may move to, and a refused refund gives its claim up before any refund is confirmed. -/
def Heeds (s : State) : Task → Reply → Prop
  | .write _ t newStatus _, _ => ∀ tx ∈ s.db.transactions.find? t,
    isAllowedGatewayTransition tx.gatewayStatus newStatus = true
  | .refundRelease r, _ => .confirmed r.transactionId ∉ s.log
  | _, _ => True

instance (s : State) : (t : Task) → (reply : Reply) → Decidable (Heeds s t reply)
  | .write _ t newStatus _, _ => inferInstanceAs (Decidable (∀ tx ∈ s.db.transactions.find? t,
    isAllowedGatewayTransition tx.gatewayStatus newStatus = true))
  | .refundRelease r, _ => inferInstanceAs (Decidable (.confirmed r.transactionId ∉ s.log))
  | .select _, _ | .claim _ _, _ | .insert _, _ | .find _ _ _ _, _ | .findById _ _ _ _ _, _
  | .link _ _ _, _ | .reconcile _ _, _ | .reverse _ _, _ | .finish _ _ _ _, _ | .fail _, _
  | .sweepSelect _ _, _ | .sweep _, _ | .refundSelect _, _ | .refundClaim _ _, _
  | .refundRequest _ _, _ | .refundReference _ _, _ | .refundReverse _ _, _ | .done _, _ =>
    .isTrue trivial

section Next

variable {s : State}

theorem Sound.setEvent (h : Sound s) (event : ℕ) (t : Option ℕ) (status : EventStatus) :
    Sound (s.setEvent event t status) := h.congr rfl rfl

theorem allowed_forward (t : ℕ) {before after : GatewayStatus}
    (h : isAllowedGatewayTransition before after = true) :
    Happening.Forward (.wrote t before after) ∧ (before = .refunded → after = .refunded) := by
  constructor
  · rintro (rfl | rfl) <;> constructor <;> rintro rfl <;> cases h
  · rintro rfl
    simpa [isAllowedGatewayTransition, gatewayTransitions] using h

theorem Sound.writeReport (h : Sound s) {t : ℕ} {newStatus : GatewayStatus}
    (hallowed : ∀ tx ∈ s.db.transactions.find? t,
      isAllowedGatewayTransition tx.gatewayStatus newStatus = true) (piRef : Option String) :
    Sound (s.writeReport t newStatus piRef) := by
  have hwritten : Sound ((s.writeStatus t newStatus).writeReference t piRef) := by
    refine Sound.congr (h.writeStatus ?_ ?_) rfl rfl
    · exact fun tx htx => (allowed_forward t (hallowed tx htx)).1
    · exact fun tx htx hrefunded => .inl ((allowed_forward t (hallowed tx htx)).2 hrefunded)
  unfold State.writeReport
  dsimp only
  split_ifs
  · exact hwritten.note (fun _ => rfl) (by simp)
  · exact hwritten

/-- **One statement** keeps the log of the transactions in order. -/
theorem Sound.next (h : Sound s) (t : Task) (reply : Reply) (hheeds : Heeds s t reply) :
    Sound (Gateway.next s t reply).1 := by
  have hprocessed : ∀ event, ∀ u, Happening.posts u (.processed event) = false := fun _ _ => rfl
  cases t with
  | select e =>
    simp only [Gateway.next]
    split_ifs
    · exact h
    · split
      · exact h
      · split_ifs <;> exact h
  | claim e event =>
    simp only [Gateway.next]
    split_ifs
    · exact h
    · split
      · exact h
      · exact h.setEvent _ _ _
  | insert e =>
    simp only [Gateway.next]
    split_ifs
    · exact h
    · split
      · exact h
      · exact h.congr rfl rfl
  | find e event gatewayRef newStatus =>
    simp only [Gateway.next]
    split_ifs
    · exact h
    · split <;> exact h
  | findById e event t o newStatus =>
    simp only [Gateway.next]
    split_ifs
    · exact h
    · split <;> exact h
  | write event t newStatus piRef =>
    simp only [Gateway.next]
    split_ifs
    · exact h
    · exact h.writeReport hheeds piRef
  | link event t newStatus =>
    simp only [Gateway.next]
    split_ifs
    · exact h
    · split
      · exact h.setEvent _ _ _
      · exact h.setEvent _ _ _
      · exact (h.setEvent _ _ _).note (hprocessed event) (by simp)
  | reconcile event t =>
    simp only [Gateway.next]
    split
    · exact h
    · rename_i s' hs'
      split_ifs at hs'
      exact (h.reconcile hs').note (hprocessed event) (by simp)
  | reverse event t =>
    simp only [Gateway.next]
    split_ifs
    · exact h.note (hprocessed event) (by simp)
    · exact (h.reverse t).note (hprocessed event) (by simp)
  | finish event t status answer =>
    simp only [Gateway.next]
    split_ifs
    · exact h
    · exact (h.setEvent _ _ _).note (hprocessed event) (by simp)
    · exact h.setEvent _ _ _
  | fail event =>
    simp only [Gateway.next]
    split_ifs
    · exact h
    · exact h.setEvent _ _ _
  | sweepSelect orgId limit => exact h
  | sweep ids =>
    cases ids with
    | nil => exact h
    | cons id ids =>
      simp only [Gateway.next]
      split_ifs
      · exact h
      · cases hs' : s.reconcile id with
        | none => exact h
        | some s' => exact h.reconcile hs'
  | refundSelect r =>
    simp only [Gateway.next]
    split_ifs
    · exact h
    · split <;> exact h
  | refundClaim r provider =>
    simp only [Gateway.next]
    split_ifs
    · exact h
    · split
      · rename_i tx htx
        obtain ⟨hrow, hstatus⟩ := find?_of_findById htx
        refine h.writeStatus (fun row hrow' => ?_) (fun row hrow' hrefunded => .inl rfl)
        rintro -
        exact ⟨by decide, by decide⟩
      · exact h
  | refundRequest r provider =>
    have hasked : Sound (s.note (.requested r.transactionId)) := h.note (fun _ => rfl) (by simp)
    have hconfirmed : ∀ {s : State}, Sound s → Sound (s.note (.confirmed r.transactionId)) :=
      fun h => h.note (fun _ => rfl) (by simp)
    have hunanswered : ∀ {s : State}, Sound s → Sound (s.note (.unanswered r.transactionId)) :=
      fun h => h.note (fun _ => rfl) (by simp)
    cases provider with
    | manual => exact hconfirmed h
    | other => exact h
    | stripe | conekta =>
      simp only [Gateway.next]
      split
      · exact hconfirmed hasked
      · exact hunanswered hasked
      · exact hasked
      · exact h
  | refundRelease r =>
    simp only [Gateway.next]
    split_ifs
    · exact h
    · split
      · rename_i tx htx
        obtain ⟨hrow, hstatus⟩ := find?_of_findById htx
        refine h.writeStatus (fun row hrow' => ?_) (fun row hrow' hrefunded => .inr hheeds)
        rintro -
        exact ⟨by decide, by decide⟩
      · exact h
  | refundReference r ref =>
    simp only [Gateway.next]
    split_ifs
    · exact h
    · exact h.congr rfl rfl
  | refundReverse r ref =>
    simp only [Gateway.next]
    split_ifs
    · exact h
    · exact h.reverse _
  | done answer => exact h

end Next

/-! ### The records of the events -/

/-- The record of the event is in hand, or done with. -/
def Live (s : State) (event : ℕ) : Prop :=
  ∃ row, s.events.find? event = some row ∧ row.status.reclaimable = false

/-- How often the event was processed to success. -/
def times (s : State) (event : ℕ) : ℕ := s.log.countP (Happening.processes event)

/-- The record that a delivery has claimed. -/
def owned : Task → Option ℕ
  | .find _ event _ _ | .findById _ event _ _ _ | .write event _ _ _ | .link event _ _
  | .reconcile event _ | .reverse event _ | .finish event _ _ _ | .fail event => some event
  | _ => none

/-- An event that is answered as processed is recorded so. -/
def Task.Consistent : Task → Prop
  | .finish _ _ status answer => answer = .processed → status = .processed
  | _ => True

/-- An event was processed at most once, and then its record is not claimed again. -/
def Recorded (s : State) : Prop := ∀ event, times s event ≤ 1 ∧ (0 < times s event → Live s event)

/-- The record that a delivery has claimed is not processed yet. -/
def Held (s : State) (t : Task) : Prop :=
  (∀ event ∈ owned t, Live s event ∧ times s event = 0) ∧ t.Consistent

/-- No two deliveries have claimed one record. -/
def Apart (t u : Task) : Prop := ∀ event ∈ owned t, event ∉ owned u

/-- A statement touches one record at most: the one that its delivery has claimed, or one that
nobody has. -/
structure Touches (s : State) (t : Task) (s' : State) (t' : Task) (touched : Option ℕ) : Prop where
  others : ∀ event, touched ≠ some event →
    (Live s event → Live s' event) ∧ times s' event = times s event
  mine : ∀ event ∈ touched, owned t = some event ∨ ¬ Live s event
  keeps : ∀ event ∈ owned t', touched = some event
  settled : ∀ event ∈ touched, times s' event ≤ 1 ∧ (0 < times s' event → Live s' event) ∧
    (owned t' = some event → Live s' event ∧ times s' event = 0)
  consistent : t'.Consistent

/-- The records and what was processed of them are the same. -/
structure SameRecords (s s' : State) : Prop where
  events : s'.events = s.events
  times : ∀ event, times s' event = times s event

section Records

variable {s s' : State} {t t' : Task}

theorem SameRecords.refl (s : State) : SameRecords s s := ⟨rfl, fun _ => rfl⟩

theorem SameRecords.trans {s'' : State} (h : SameRecords s s') (h' : SameRecords s' s'') :
    SameRecords s s'' :=
  ⟨h'.events.trans h.events, fun event => (h'.times event).trans (h.times event)⟩

theorem SameRecords.live (h : SameRecords s s') {event : ℕ} : Live s' event ↔ Live s event := by
  unfold Live
  rw [h.events]

theorem SameRecords.note (s : State) {x : Happening} (h : ∀ event, x.processes event = false) :
    SameRecords s (s.note x) :=
  ⟨rfl, fun event => List.countP_cons_of_neg (by simp [h event])⟩

theorem SameRecords.writeStatus (s : State) (t : ℕ) (status : GatewayStatus) :
    SameRecords s (s.writeStatus t status) := by
  unfold State.writeStatus
  split
  · exact .refl s
  · exact ⟨rfl, fun event => List.countP_cons_of_neg (by simp [Happening.processes])⟩

theorem SameRecords.writeReport (s : State) (t : ℕ) (newStatus : GatewayStatus)
    (piRef : Option String) : SameRecords s (s.writeReport t newStatus piRef) := by
  have hwritten : SameRecords s ((s.writeStatus t newStatus).writeReference t piRef) :=
    (SameRecords.writeStatus s t newStatus).trans ⟨rfl, fun _ => rfl⟩
  unfold State.writeReport
  dsimp only
  split_ifs
  · exact hwritten.trans (SameRecords.note _ fun _ => rfl)
  · exact hwritten

theorem SameRecords.reconcile {t : ℕ} (h : s.reconcile t = some s') : SameRecords s s' := by
  rcases reconcile_cases h with rfl | ⟨tx, paymentId, db, -, -, rfl, -, -⟩
  · exact .refl _
  · exact ⟨rfl, fun event => List.countP_cons_of_neg (by simp [Happening.processes])⟩

theorem times_processed (s : State) (event event' : ℕ) :
    times (s.note (.processed event)) event' =
      times s event' + if event = event' then 1 else 0 := by
  show List.countP _ (_ :: s.log) = _
  rw [List.countP_cons]
  simp [Happening.processes, times]

theorem touches_same (hheld : Held s t) (h : SameRecords s s')
    (howned : owned t' = none ∨ owned t' = owned t) (hconsistent : t'.Consistent) :
    Touches s t s' t' (owned t) where
  others event _ := ⟨h.live.2, h.times event⟩
  mine event hevent := .inl hevent
  keeps event hevent := by
    rcases howned with hnone | hsame
    · rw [hnone] at hevent
      cases hevent
    · exact hsame ▸ hevent
  settled event hevent := by
    obtain ⟨hlive, hzero⟩ := hheld.1 event hevent
    rw [h.times event, hzero]
    exact ⟨by omega, fun hpos => absurd hpos (by omega), fun _ => ⟨h.live.2 hlive, rfl⟩⟩
  consistent := hconsistent

theorem touches_processed (hheld : Held s t) (h : SameRecords s s') {event : ℕ}
    (howned : owned t = some event) (answer : Answer) :
    Touches s t (s'.note (.processed event)) (.done answer) (some event) where
  others other hne := by
    rw [times_processed, if_neg fun heq => hne (congrArg some heq), h.times other]
    exact ⟨h.live.2, rfl⟩
  mine other hother := .inl (howned.trans hother)
  keeps _ hnone := by cases hnone
  settled other hother := by
    obtain rfl : event = other := Option.some.inj hother
    obtain ⟨hlive, hzero⟩ := hheld.1 event howned
    rw [times_processed, if_pos rfl, h.times event, hzero]
    exact ⟨le_rfl, fun _ => h.live.2 hlive, fun hnone => by cases hnone⟩
  consistent := trivial

theorem find?_setEvent (s : State) (event : ℕ) (transactionId : Option ℕ) (status : EventStatus)
    (other : ℕ) : (s.setEvent event transactionId status).events.find? other =
      if other = event then (s.events.find? event).map fun row =>
        { row with status, transactionId := transactionId.or row.transactionId }
      else s.events.find? other :=
  Table.find?_modify s.events event other
    (fun row => { row with status, transactionId := transactionId.or row.transactionId })
    fun _ => rfl

theorem live_setEvent_of_ne {event other : ℕ} (h : other ≠ event) (transactionId : Option ℕ)
    (status : EventStatus) : Live (s.setEvent event transactionId status) other ↔ Live s other := by
  unfold Live
  rw [find?_setEvent, if_neg h]

theorem live_setEvent_self {event : ℕ} {row : WebhookEvent} (h : s.events.find? event = some row)
    (transactionId : Option ℕ) {status : EventStatus} (hstatus : status.reclaimable = false) :
    Live (s.setEvent event transactionId status) event := by
  unfold Live
  rw [find?_setEvent, if_pos rfl, h]
  exact ⟨_, rfl, hstatus⟩

theorem touches_setEvent (hheld : Held s t) {event : ℕ} (howned : owned t = some event)
    (transactionId : Option ℕ) {status : EventStatus}
    (hnext : owned t' = none ∨ owned t' = some event ∧ status.reclaimable = false)
    (hconsistent : t'.Consistent) :
    Touches s t (s.setEvent event transactionId status) t' (some event) where
  others other hne := ⟨(live_setEvent_of_ne (fun heq => hne (congrArg some heq.symm)) _ _).2, rfl⟩
  mine other hother := .inl (howned.trans hother)
  keeps other hother := by
    rcases hnext with hnone | ⟨hsame, -⟩
    · rw [hnone] at hother
      cases hother
    · exact hsame.symm.trans hother
  settled other hother := by
    obtain rfl : event = other := Option.some.inj hother
    obtain ⟨⟨row, hrow, -⟩, hzero⟩ := hheld.1 event howned
    have hzero' : times (s.setEvent event transactionId status) event = 0 := hzero
    rw [hzero']
    refine ⟨by omega, fun hpos => absurd hpos (by omega), fun hgoes => ?_⟩
    rcases hnext with hnone | ⟨-, hstatus⟩
    · rw [hnone] at hgoes
      cases hgoes
    · exact ⟨live_setEvent_self hrow transactionId hstatus, rfl⟩
  consistent := hconsistent

theorem touches_setEvent_processed (hheld : Held s t) {event : ℕ} (howned : owned t = some event)
    (transactionId : Option ℕ) (answer : Answer) :
    Touches s t ((s.setEvent event transactionId .processed).note (.processed event))
      (.done answer) (some event) where
  others other hne := by
    rw [times_processed, if_neg fun heq => hne (congrArg some heq)]
    exact ⟨(live_setEvent_of_ne (fun heq => hne (congrArg some heq.symm)) _ _).2, rfl⟩
  mine other hother := .inl (howned.trans hother)
  keeps _ hnone := by cases hnone
  settled other hother := by
    obtain rfl : event = other := Option.some.inj hother
    obtain ⟨⟨row, hrow, -⟩, hzero⟩ := hheld.1 event howned
    have hzero' : times (s.setEvent event transactionId .processed) event = 0 := hzero
    rw [times_processed, if_pos rfl, hzero']
    exact ⟨le_rfl, fun _ => live_setEvent_self hrow transactionId rfl, fun hnone => by cases hnone⟩
  consistent := trivial

theorem owned_begin (e : Incoming) (event : ℕ) :
    owned (e.begin event) = some event ∧ (e.begin event).Consistent := by
  unfold Incoming.begin
  split
  · exact ⟨rfl, trivial⟩
  · split_ifs
    · exact ⟨rfl, fun _ => rfl⟩
    · exact ⟨rfl, fun h => by cases h⟩

theorem owned_matched (e : Incoming) (event : ℕ) (newStatus : GatewayStatus)
    (tx : PaymentTransaction) : owned (e.matched event newStatus tx) = some event ∧
      (e.matched event newStatus tx).Consistent := by
  unfold Incoming.matched
  split_ifs
  · exact ⟨rfl, trivial⟩
  · exact ⟨rfl, fun h => by cases h⟩

/-- A delivery claims a record that may be processed again. -/
theorem touches_claim (hrecorded : Recorded s) (e : Incoming) {event : ℕ} {row : WebhookEvent}
    (hrow : s.events.find? event = some row) (hfree : row.status.reclaimable = true) :
    Touches s (.claim e event) (s.setEvent event none .processing) (e.begin event)
      (some event) where
  others other hne := ⟨(live_setEvent_of_ne (fun heq => hne (congrArg some heq.symm)) _ _).2, rfl⟩
  mine other hother := by
    obtain rfl : event = other := Option.some.inj hother
    refine .inr ?_
    rintro ⟨row', hrow', hlive⟩
    rw [hrow] at hrow'
    cases hrow'
    rw [hfree] at hlive
    cases hlive
  keeps other hother := (owned_begin e event).1.symm.trans hother
  settled other hother := by
    obtain rfl : event = other := Option.some.inj hother
    have hlive := @live_setEvent_self s event row hrow none .processing rfl
    have hzero : times s event = 0 := by
      by_contra hpos
      obtain ⟨row', hrow', hlive'⟩ := (hrecorded event).2 (by omega)
      rw [hrow] at hrow'
      cases hrow'
      rw [hfree] at hlive'
      cases hlive'
    have hzero' : times (s.setEvent event none .processing) event = 0 := hzero
    rw [hzero']
    exact ⟨by omega, fun _ => hlive, fun _ => ⟨hlive, rfl⟩⟩
  consistent := (owned_begin e event).2

/-- A delivery records an event. -/
theorem touches_insert (hrecorded : Recorded s) (e : Incoming) :
    Touches s (.insert e) (s.insertEvent e) (e.begin s.events.nextId) (some s.events.nextId) := by
  have hfind : ∀ event, (s.insertEvent e).events.find? event =
      if event = s.events.nextId then some (State.newEvent e s.events.nextId)
      else s.events.find? event :=
    Table.find?_insert s.events (State.newEvent e) fun _ => rfl
  have hnew : ¬ Live s s.events.nextId := by
    rintro ⟨row, hrow, -⟩
    rw [Table.find?_nextId] at hrow
    cases hrow
  refine ⟨fun other hne => ⟨fun hlive => ?_, rfl⟩, fun other hother => ?_, fun other hother => ?_,
    fun other hother => ?_, (owned_begin e _).2⟩
  · unfold Live
    rw [hfind, if_neg fun heq => hne (congrArg some heq.symm)]
    exact hlive
  · obtain rfl : s.events.nextId = other := Option.some.inj hother
    exact .inr hnew
  · exact (owned_begin e _).1.symm.trans hother
  · obtain rfl : s.events.nextId = other := Option.some.inj hother
    have hlive : Live (s.insertEvent e) s.events.nextId := by
      unfold Live
      rw [hfind, if_pos rfl]
      exact ⟨_, rfl, rfl⟩
    have hzero : times s s.events.nextId = 0 := by
      by_contra hpos
      exact hnew ((hrecorded _).2 (by omega))
    have hzero' : times (s.insertEvent e) s.events.nextId = 0 := hzero
    rw [hzero']
    exact ⟨by omega, fun _ => hlive, fun _ => ⟨hlive, rfl⟩⟩

/-- **One statement** touches one record at most, and only one that its delivery may. -/
theorem touches_next (hrecorded : Recorded s) (hheld : Held s t) (reply : Reply) :
    ∃ touched, Touches s t (next s t reply).1 (next s t reply).2 touched := by
  have hsame := SameRecords.refl s
  cases t with
  | select e =>
    refine ⟨_, touches_same hheld ?_ (.inl ?_) ?_⟩ <;> simp only [next] <;> split_ifs
    · exact hsame
    · split
      · exact hsame
      · split_ifs <;> exact hsame
    · rfl
    · split
      · rfl
      · split_ifs <;> rfl
    · trivial
    · split
      · trivial
      · split_ifs <;> trivial
  | claim e event =>
    simp only [next]
    split_ifs
    · exact ⟨_, touches_same hheld hsame (.inl rfl) trivial⟩
    · split
      · exact ⟨_, touches_same hheld hsame (.inl rfl) trivial⟩
      · rename_i row hrow
        obtain ⟨hrow, hfree⟩ := Option.filter_eq_some_iff.1 hrow
        exact ⟨_, touches_claim hrecorded e hrow hfree⟩
  | insert e =>
    simp only [next]
    split_ifs
    · exact ⟨_, touches_same hheld hsame (.inl rfl) trivial⟩
    · split
      · exact ⟨_, touches_same hheld hsame (.inl rfl) trivial⟩
      · exact ⟨_, touches_insert hrecorded e⟩
  | find e event gatewayRef newStatus =>
    simp only [next]
    split_ifs
    · exact ⟨_, touches_same hheld hsame (.inr rfl) trivial⟩
    · split
      · exact ⟨_, touches_same hheld hsame (.inr (owned_matched ..).1) (owned_matched ..).2⟩
      · exact ⟨_, touches_same hheld hsame (.inr rfl) trivial⟩
      · exact ⟨_, touches_same hheld hsame (.inr rfl) fun h => by cases h⟩
  | findById e event t o newStatus =>
    simp only [next]
    split_ifs
    · exact ⟨_, touches_same hheld hsame (.inr rfl) trivial⟩
    · split
      · exact ⟨_, touches_same hheld hsame (.inr (owned_matched ..).1) (owned_matched ..).2⟩
      · exact ⟨_, touches_same hheld hsame (.inr rfl) fun h => by cases h⟩
  | write event t newStatus piRef =>
    simp only [next]
    split_ifs
    · exact ⟨_, touches_same hheld hsame (.inr rfl) trivial⟩
    · exact ⟨_, touches_same hheld (.writeReport ..) (.inr rfl) trivial⟩
  | link event t newStatus =>
    simp only [next]
    split_ifs
    · exact ⟨_, touches_same hheld hsame (.inr rfl) trivial⟩
    · split
      · exact ⟨_, touches_setEvent hheld rfl _ (.inr ⟨rfl, rfl⟩) trivial⟩
      · exact ⟨_, touches_setEvent hheld rfl _ (.inr ⟨rfl, rfl⟩) trivial⟩
      · exact ⟨_, touches_setEvent_processed hheld rfl _ _⟩
  | reconcile event t =>
    simp only [next]
    split
    · exact ⟨_, touches_same hheld hsame (.inr rfl) trivial⟩
    · rename_i s' hs'
      split_ifs at hs'
      exact ⟨_, touches_processed hheld (.reconcile hs') rfl _⟩
  | reverse event t =>
    simp only [next]
    split_ifs
    · exact ⟨_, touches_processed hheld hsame rfl _⟩
    · exact ⟨_, touches_processed hheld (⟨rfl, fun _ => rfl⟩ : SameRecords s (s.reverse t)) rfl _⟩
  | finish event t status answer =>
    simp only [next]
    split_ifs with hfails hprocessed
    · exact ⟨_, touches_same hheld hsame (.inr rfl) trivial⟩
    · obtain rfl : status = .processed := hheld.2 hprocessed
      exact ⟨_, touches_setEvent_processed hheld rfl _ _⟩
    · exact ⟨_, touches_setEvent hheld rfl _ (.inl rfl) trivial⟩
  | fail event =>
    simp only [next]
    split_ifs
    · exact ⟨_, touches_same hheld hsame (.inl rfl) trivial⟩
    · exact ⟨_, touches_setEvent hheld rfl _ (.inl rfl) trivial⟩
  | sweepSelect orgId limit =>
    refine ⟨_, touches_same hheld hsame (.inl ?_) ?_⟩ <;> simp only [next] <;> split_ifs
    · rfl
    · rfl
    · trivial
    · trivial
  | sweep ids =>
    cases ids with
    | nil => exact ⟨_, touches_same hheld hsame (.inl rfl) trivial⟩
    | cons id ids =>
      refine ⟨_, touches_same hheld ?_ (.inl rfl) trivial⟩
      simp only [next]
      split_ifs
      · exact hsame
      · cases hs' : s.reconcile id with
        | none => exact hsame
        | some s' => exact .reconcile hs'
  | refundSelect r =>
    refine ⟨_, touches_same hheld ?_ (.inl ?_) ?_⟩ <;> simp only [next] <;> split_ifs
    · exact hsame
    · split <;> exact hsame
    · rfl
    · split
      · cases refundRefusal r _ <;> rfl
      · rfl
    · trivial
    · split
      · cases refundRefusal r _ <;> trivial
      · trivial
  | refundClaim r provider =>
    simp only [next]
    split_ifs
    · exact ⟨_, touches_same hheld hsame (.inl rfl) trivial⟩
    · split
      · exact ⟨_, touches_same hheld (.writeStatus ..) (.inl rfl) trivial⟩
      · exact ⟨_, touches_same hheld hsame (.inl rfl) trivial⟩
  | refundRequest r provider =>
    have hasked : SameRecords s (s.note (.requested r.transactionId)) := .note s fun _ => rfl
    cases provider with
    | manual => exact ⟨_, touches_same hheld (.note s fun _ => rfl) (.inl rfl) trivial⟩
    | other => exact ⟨_, touches_same hheld hsame (.inl rfl) trivial⟩
    | stripe | conekta =>
      simp only [next]
      split
      · rename_i ref
        refine ⟨_, touches_same hheld (hasked.trans (.note _ fun _ => rfl)) (.inl ?_) ?_⟩
        · cases truthy ref <;> rfl
        · cases truthy ref <;> trivial
      · exact ⟨_, touches_same hheld (hasked.trans (.note _ fun _ => rfl)) (.inl rfl) trivial⟩
      · exact ⟨_, touches_same hheld hasked (.inl rfl) trivial⟩
      · exact ⟨_, touches_same hheld hsame (.inl rfl) trivial⟩
  | refundRelease r =>
    simp only [next]
    split_ifs
    · exact ⟨_, touches_same hheld hsame (.inl rfl) trivial⟩
    · split
      · exact ⟨_, touches_same hheld (.writeStatus ..) (.inl rfl) trivial⟩
      · exact ⟨_, touches_same hheld hsame (.inl rfl) trivial⟩
  | refundReference r ref =>
    simp only [next]
    split_ifs
    · exact ⟨_, touches_same hheld hsame (.inl rfl) trivial⟩
    · exact ⟨_, touches_same hheld ⟨rfl, fun _ => rfl⟩ (.inl rfl) trivial⟩
  | refundReverse r ref =>
    simp only [next]
    split_ifs
    · exact ⟨_, touches_same hheld hsame (.inl rfl) trivial⟩
    · exact ⟨_, touches_same hheld ⟨rfl, fun _ => rfl⟩ (.inl rfl) trivial⟩
  | done answer => exact ⟨_, touches_same hheld hsame (.inl rfl) trivial⟩

/-- What a statement does to the records of all deliveries. -/
theorem records_next (hrecorded : Recorded s) (hheld : Held s t) (reply : Reply) :
    Recorded (next s t reply).1 ∧ Held (next s t reply).1 (next s t reply).2 ∧
      ∀ u, Held s u → Apart t u →
        Held (next s t reply).1 u ∧ Apart (next s t reply).2 u := by
  obtain ⟨touched, htouches⟩ := touches_next hrecorded hheld reply
  have hfree : ∀ u, Held s u → Apart t u → ∀ event ∈ owned u, touched ≠ some event := by
    intro u hu hapart event hevent htouched
    rcases htouches.mine event htouched with hmine | hnot
    · exact hapart event hmine hevent
    · exact hnot (hu.1 event hevent).1
  refine ⟨fun event => ?_, ⟨fun event hevent => ?_, htouches.consistent⟩, fun u hu hapart =>
    ⟨⟨fun event hevent => ?_, hu.2⟩, fun event hevent hother => ?_⟩⟩
  · by_cases hevent : touched = some event
    · obtain ⟨honce, hdone, -⟩ := htouches.settled event hevent
      exact ⟨honce, hdone⟩
    · obtain ⟨hlive, htimes⟩ := htouches.others event hevent
      rw [htimes]
      exact ⟨(hrecorded event).1, fun hpos => hlive ((hrecorded event).2 hpos)⟩
  · exact (htouches.settled event (htouches.keeps event hevent)).2.2 hevent
  · obtain ⟨hlive, htimes⟩ := htouches.others event (hfree u hu hapart event hevent)
    rw [htimes]
    exact ⟨hlive (hu.1 event hevent).1, (hu.1 event hevent).2⟩
  · exact hfree u hu hapart event hother (htouches.keeps event hevent)

end Records

/-! ### Runs -/

theorem owned_start (c : Call) : owned c.start = none ∧ c.start.Consistent := by
  cases c <;> exact ⟨rfl, trivial⟩

/-- A pending charge of 100.00. -/
def chargeState : State where
  db := ⟨⟨.empty, .empty, .empty, .empty, .empty, .empty, .empty, [], []⟩,
    ⟨[⟨1, none, 1, none, none, 1, 10000, "MXN", .pending⟩], by decide⟩⟩
  gatewayReferenceId := fun _ => "pi_1"
  events := .empty
  log := []

def succeededEvent : Incoming :=
  ⟨.stripe, "evt_1", "payment_intent.succeeded", { id := some "pi_1" }, some 1⟩

def failedEvent : Incoming :=
  ⟨.stripe, "evt_2", "payment_intent.payment_failed", { id := some "pi_1" }, some 1⟩

end Vigabss.Gateway
