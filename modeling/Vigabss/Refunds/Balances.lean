import Vigabss.Refunds.Requests

/-!
# Vigabss.Refunds.Balances — refunds against the client's balance and the transaction's amount

The balance is computed from invoices, payments and credit notes, so of the methods only a credit
note lowers it; and no method looks at what other requests refunded of the same transaction.
-/

namespace Vigabss.Refunds

open Vigabss.Lib Vigabss.Billing

/-! ### What a transaction is worth -/

/-- The transactions with their amounts. -/
def Desk.amounts (d : Desk) : List (ℕ × ℤ) := d.transactions.rows.map fun t => (t.id, t.amount)

theorem capped_iff (d : Desk) :
    Capped d ↔ ∀ x ∈ d.amounts, refundedOf d.refunds x.1 ≤ x.2 := by
  unfold Capped Desk.amounts
  simp only [List.mem_map]
  constructor
  · rintro h x ⟨t, ht, rfl⟩
    exact h t ht
  · intro h t ht
    exact h (t.id, t.amount) ⟨t, ht, rfl⟩

theorem Capped.congr {d d' : Desk} (h : Capped d) (hamounts : d'.amounts = d.amounts)
    (hrefunds : d'.refunds = d.refunds) : Capped d' := by
  rw [capped_iff] at h ⊢
  rw [hamounts, hrefunds]
  exact h

@[simp] theorem amounts_setGateway (d : Desk) (transactionId : ℕ) (status : GatewayStatus) :
    (d.setGateway transactionId status).amounts = d.amounts := by
  unfold Desk.amounts Desk.setGateway Table.modify
  simp only [List.map_map]
  refine List.map_congr_left fun t _ => ?_
  simp only [Function.comp_apply]
  split_ifs <;> rfl

@[simp] theorem amounts_logRefund (d : Desk) (r : RequestEntry) :
    (d.logRefund r).amounts = d.amounts := rfl

theorem refundedOf_logRefund (d : Desk) (r : RequestEntry) (i : ℕ) :
    refundedOf (d.logRefund r).refunds i =
      (if r.row.payment_id = some i then r.row.amount else 0) + refundedOf d.refunds i := by
  unfold refundedOf Desk.logRefund
  by_cases h : r.row.payment_id = some i
  · simp [h]
  · simp [h]

theorem capped_logRefund {d : Desk} {r : RequestEntry} (h : Capped d) :
    Capped (d.logRefund r) ↔ ∀ t ∈ d.transactions.rows, r.row.payment_id = some t.id →
      refundedOf d.refunds t.id + r.row.amount ≤ t.amount := by
  constructor
  · intro hcap t ht hpay
    have hafter := hcap t ht
    rw [refundedOf_logRefund, if_pos hpay] at hafter
    omega
  · intro hfits t ht
    rw [refundedOf_logRefund]
    split_ifs with hpay
    · have := hfits t ht hpay
      omega
    · have := h t ht
      omega

/-! ### The money step -/

theorem moneyStep_some {d d' : Desk} {r : RequestEntry} {method : RefundMethod} {env : Setting}
    (h : moneyStep d r method env = some d') :
    d'.amounts = d.amounts ∧ d'.refunds = (d.logRefund r).refunds ∧
      (method ≠ .credit_note → d'.ledgers = d.ledgers) ∧
      (method = .credit_note → refundNote d r env = .ok d'.ledgers.books) := by
  cases method with
  | manual =>
    cases h
    exact ⟨rfl, rfl, fun _ => rfl, nofun⟩
  | original_method =>
    simp only [moneyStep, Desk.gatewayRefund] at h
    split at h
    · cases h
    · split_ifs at h
      cases h
      exact ⟨by simp, rfl, fun _ => rfl, nofun⟩
  | credit_balance =>
    simp only [moneyStep] at h
    split_ifs at h
    cases h
    unfold Desk.creditBalance
    simp only
    split
    · exact ⟨rfl, rfl, fun _ => rfl, nofun⟩
    · split_ifs
      · exact ⟨(amounts_logRefund _ r).trans (amounts_setGateway _ _ _), rfl, fun _ => rfl, nofun⟩
      · exact ⟨rfl, rfl, fun _ => rfl, nofun⟩
  | credit_note =>
    simp only [moneyStep] at h
    split at h
    · rename_i books hnote
      cases h
      exact ⟨rfl, rfl, fun hne => absurd rfl hne, fun _ => hnote⟩
    · cases h

/-- The balance with one more credit note. -/
theorem balance_refundNote {d d' : Desk} {r : RequestEntry} {env : Setting} {cur : String}
    (h : refundNote d r env = .ok d'.ledgers.books) :
    d'.balance env r.client_id cur = d.balance env r.client_id cur -
      if refundCurrency d.ledgers.books env r.row.invoice_id = cur then r.row.amount else 0 := by
  obtain ⟨hdb, hdetails⟩ := refundNote_ok h
  have hcurrency : ∀ id, d'.noteCurrency id =
      if id = d.ledgers.books.db.creditNotes.nextId then
        refundCurrency d.ledgers.books env r.row.invoice_id else d.noteCurrency id := by
    intro id
    unfold Desk.noteCurrency
    rw [hdetails, Function.update_apply]
    split_ifs <;> rfl
  have hold : d.ledgers.books.db.creditNotes.sum
      (creditedTo env.orgId r.client_id cur d'.noteCurrency) d.ledgers.books.db.standing =
      d.ledgers.books.db.creditNotes.sum
        (creditedTo env.orgId r.client_id cur d.noteCurrency) d.ledgers.books.db.standing := by
    refine Table.sum_congr (List.map_congr_left fun n hn => ?_)
    have hlt : n.id < d.ledgers.books.db.creditNotes.nextId := Table.key_lt_nextId hn
    have hsame : creditedTo env.orgId r.client_id cur d'.noteCurrency n =
        creditedTo env.orgId r.client_id cur d.noteCurrency n := by
      unfold creditedTo
      rw [hcurrency n.id, if_neg hlt.ne]
    simp only [Table.share, hsame]
  have hnone : d.ledgers.books.db.appliedOf d.ledgers.books.db.creditNotes.nextId = 0 := by
    refine List.sum_eq_zero fun x hx => ?_
    obtain ⟨a, ha, rfl⟩ := List.mem_map.1 hx
    have hlt := d.ledgers.linked a ha
    simp [ofNote, hlt.ne]
  have hnew : Table.share (creditedTo env.orgId r.client_id cur d'.noteCurrency)
      d.ledgers.books.db.standing
      (refundNoteRow r env d.ledgers.books.db.creditNotes.nextId) =
      if refundCurrency d.ledgers.books env r.row.invoice_id = cur then r.row.amount else 0 := by
    have hpos := r.positive
    simp only [Table.share, creditedTo, refundNoteRow, hcurrency, if_true, true_and,
      decide_eq_true_eq, Db.standing, CreditNote.counts, CreditNoteStatus.posted, hnone]
    split_ifs
    · simp [shown]
      omega
    · rfl
  unfold Desk.balance
  rw [netBalance_eq, netBalance_eq, hdb]
  show d.ledgers.books.db.invoices.sum _ d.ledgers.books.db.owed -
      d.ledgers.books.db.payments.sum _ d.ledgers.books.db.unallocated -
      (d.ledgers.books.db.creditNotes.insert (refundNoteRow r env) (key_refundNoteRow r env)).sum _
        d.ledgers.books.db.standing = _
  rw [Table.sum_insert, hold, hnew]
  ring

/-! ### The law -/

/-- A processing that moves no money changes nothing, and one that does leaves what the money step
left, up to the status of the request. -/
theorem processRequest_cases (d : Desk) (requestId : ℕ) (method : RefundMethod) (env : Setting) :
    (paidBack d requestId method env = none ∧ processRequest d requestId method env = d) ∨
      ∃ r d', paidBack d requestId method env = some r ∧ moneyStep d r method env = some d' ∧
        (processRequest d requestId method env).ledgers = d'.ledgers ∧
        (processRequest d requestId method env).amounts = d'.amounts ∧
        (processRequest d requestId method env).refunds = d'.refunds := by
  unfold paidBack processRequest
  cases d.requests.find? requestId with
  | none => exact .inl ⟨rfl, rfl⟩
  | some r =>
    by_cases happ : r.row.status = .approved
    · cases hmoney : moneyStep d r method env with
      | none => exact .inl ⟨by simp [hmoney], by simp [happ, hmoney]⟩
      | some d' =>
        refine .inr ⟨r, d', by simp [happ, hmoney], hmoney, ?_⟩
        simp only [if_pos happ, hmoney]
        split_ifs <;> exact ⟨rfl, rfl, rfl⟩
    · exact .inl ⟨by simp [happ], by simp [happ]⟩

theorem createEntry_keeps (d : Desk) (client_id : ℕ) (amount : ℤ) (payment_id invoice_id : Option ℕ)
    (reason : RefundReason) :
    (createEntry d client_id amount payment_id invoice_id reason).amounts = d.amounts ∧
      (createEntry d client_id amount payment_id invoice_id reason).refunds = d.refunds := by
  unfold createEntry
  split_ifs <;> exact ⟨rfl, rfl⟩

theorem updateEntry_keeps (d : Desk) (requestId : ℕ) (changes : Changes) :
    (updateEntry d requestId changes).amounts = d.amounts ∧
      (updateEntry d requestId changes).refunds = d.refunds := by
  unfold updateEntry
  cases d.requests.find? requestId with
  | none => exact ⟨rfl, rfl⟩
  | some r =>
    simp only
    split_ifs <;> exact ⟨rfl, rfl⟩

theorem reviewEntry_keeps (d : Desk) (requestId : ℕ) (verdict : Verdict) :
    (reviewEntry d requestId verdict).amounts = d.amounts ∧
      (reviewEntry d requestId verdict).refunds = d.refunds := by
  unfold reviewEntry
  cases d.requests.find? requestId with
  | none => exact ⟨rfl, rfl⟩
  | some r =>
    simp only
    split_ifs <;> exact ⟨rfl, rfl⟩

theorem capped_other {d : Desk} {a : Action} (h : Capped d) (hnone : refundMade d a = none) :
    Capped (act d a) := by
  cases a with
  | createRequest client_id amount payment_id invoice_id reason =>
    have hkeep := createEntry_keeps d client_id amount payment_id invoice_id reason
    exact h.congr hkeep.1 hkeep.2
  | updateRequest requestId changes =>
    exact h.congr (updateEntry_keeps d requestId changes).1 (updateEntry_keeps d requestId changes).2
  | reviewRequest requestId verdict =>
    exact h.congr (reviewEntry_keeps d requestId verdict).1 (reviewEntry_keeps d requestId verdict).2
  | processRequest requestId method env =>
    rcases processRequest_cases d requestId method env with ⟨-, heq⟩ | ⟨r, d', hpaid, -⟩
    · show Capped (processRequest d requestId method env)
      rw [heq]
      exact h
    · simp [refundMade, hpaid] at hnone
  | elsewhere ledgers transactionId status =>
    exact h.congr (amounts_setGateway d transactionId status) rfl

theorem balance_congr {d d' : Desk} (h : d'.ledgers = d.ledgers) (env : Setting) (client_id : ℕ)
    (cur : String) : d'.balance env client_id cur = d.balance env client_id cur := by
  unfold Desk.balance Desk.noteCurrency
  rw [h]

/-- What an action does right: the balance falls by a refund, and the caps are kept. -/
def Sound (cur : String) (d : Desk) (a : Action) : Prop := Falls cur d a ∧ Capped (act d a)

/-- **One refund** is sound just when it settles: not by `credit_balance`, with the note in the
client's currency, and within what is left of the transaction. -/
theorem sound_iff_settles {cur : String} {d : Desk} {a : Action} (h : Capped d) :
    Sound cur d a ↔ Settles cur d a := by
  cases hmade : refundMade d a with
  | none =>
    have hfalls : Falls cur d a := fun r method env hsome => by rw [hmade] at hsome; cases hsome
    have hsettles : Settles cur d a := fun r method env hsome => by rw [hmade] at hsome; cases hsome
    exact ⟨fun _ => hsettles, fun _ => ⟨hfalls, capped_other h hmade⟩⟩
  | some made =>
    cases a with
    | processRequest requestId method env =>
      rcases processRequest_cases d requestId method env with
        ⟨hnone, -⟩ | ⟨r, d', hpaid, hmoney, hledgers, hamounts, hrefunds⟩
      · simp [refundMade, hnone] at hmade
      have hsome : refundMade d (.processRequest requestId method env) = some (r, method, env) := by
        simp [refundMade, hpaid]
      obtain ⟨hsame, hlog, hkeep, hnote⟩ := moneyStep_some hmoney
      have hcap : Capped (act d (.processRequest requestId method env)) ↔
          Capped (d.logRefund r) := by
        rw [capped_iff, capped_iff]
        show (∀ x ∈ (processRequest d requestId method env).amounts, _) ↔ _
        rw [hamounts, hsame, show (act d (.processRequest requestId method env)).refunds = _ from
          hrefunds, hlog]
        rfl
      have hbalance : ∀ c, (act d (.processRequest requestId method env)).balance env c cur =
          d'.balance env c cur := fun c => balance_congr hledgers env c cur
      have hpos := r.positive
      have hfall : Falls cur d (.processRequest requestId method env) ↔ method ≠ .credit_balance ∧
          (method = .credit_note →
            refundCurrency d.ledgers.books env r.row.invoice_id = cur) := by
        constructor
        · intro hfalls
          refine ⟨?_, ?_⟩
          · rintro rfl
            have hfell := hfalls r _ env hsome (.inl rfl)
            rw [hbalance, balance_congr (hkeep (by decide)) env r.client_id cur] at hfell
            omega
          · rintro rfl
            have hfell := hfalls r _ env hsome (.inr rfl)
            rw [hbalance, balance_refundNote (hnote rfl)] at hfell
            by_contra hcur
            rw [if_neg hcur] at hfell
            omega
        · rintro ⟨hne, hcur⟩ r₁ m₁ env₁ hsome₁ hm
          rw [hsome] at hsome₁
          cases hsome₁
          obtain rfl := hm.resolve_left hne
          rw [hbalance, balance_refundNote (hnote rfl), if_pos (hcur rfl)]
      constructor
      · rintro ⟨hfalls, hcapped⟩ r₁ m₁ env₁ hsome₁
        rw [hsome] at hsome₁
        cases hsome₁
        obtain ⟨hne, hcur⟩ := hfall.1 hfalls
        exact ⟨hne, hcur, (capped_logRefund h).1 (hcap.1 hcapped)⟩
      · intro hsettles
        obtain ⟨hne, hcur, hfits⟩ := hsettles r method env hsome
        exact ⟨hfall.2 ⟨hne, hcur⟩, hcap.2 ((capped_logRefund h).2 hfits)⟩
    | _ => cases hmade

theorem capped_opening (ledgers : LinkedBooks) (transactions : Table PaymentTransaction)
    (requests : Table RequestEntry) : Capped (Desk.opening ledgers transactions requests) := by
  intro t _
  exact t.nonneg

/-- **Refunds and the books.**  In a run, every refund by `credit_balance` or `credit_note` takes
its amount off the client's balance and no transaction is refunded beyond its amount, just when
every refund settles. -/
theorem refunds_sound_iff (cur : String) (ledgers : LinkedBooks)
    (transactions : Table PaymentTransaction) (requests : Table RequestEntry)
    (actions : List Action) :
    StepsMeet act (Sound cur) (Desk.opening ledgers transactions requests) actions ↔
      StepsMeet act (Settles cur) (Desk.opening ledgers transactions requests) actions :=
  @stepsMeet_congr _ _ act (Sound cur) (Settles cur) Capped (fun _ _ h => sound_iff_settles h)
    (fun _ _ _ hsound => hsound.2) _ (capped_opening ledgers transactions requests) actions

/-! ### A refund to the balance -/

def emptyLedgers : LinkedBooks :=
  ⟨⟨⟨.empty, .empty, .empty, .empty, .empty, .empty, .empty, [], []⟩, fun _ => ⟨"", ""⟩, []⟩, nofun⟩

def mxnSetting : Setting := ⟨1, "MXN", 0, "RCN-1-0", true⟩

/-- A request of 100.00 that is approved and processed by `credit_balance`. -/
def creditedRequest : List Action :=
  [.createRequest 7 10000 none none .overcharge, .reviewRequest 1 .approved,
    .processRequest 1 .credit_balance mxnSetting]

/-- The client's balance does not fall. -/
theorem credit_balance_does_not_fall :
    ¬ StepsMeet act (Sound "MXN") (Desk.opening emptyLedgers .empty .empty) creditedRequest := by
  rintro ⟨-, -, ⟨hfalls, -⟩, -⟩
  have hfell := hfalls _ .credit_balance mxnSetting rfl (.inl rfl)
  revert hfell
  decide

end Vigabss.Refunds
