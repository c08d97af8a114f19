import Vigabss.Cash.Collection

/-!
# Vigabss.Cash.Postings — what the requests of the reseller app post

What a collection and a void have checked when they are accepted, and what they write: the payment,
the entry of the ledger and the stored answer.  `actWrites` says that no other act of the server
touches any of it.
-/

namespace Vigabss.Cash

open Vigabss.Lib
open Billing (ResellerEntry ResellerEntryType SameVouchers KeepsVouchers)

/-! ### What a transaction writes -/

section Transactions

variable {db : Db} {orgId resellerId paymentId : ℕ}

/-- The ledger entries about a payment. -/
def Db.entriesOf (db : Db) (paymentId : ℕ) : List ResellerEntry :=
  db.billing.resellerEntries.filter fun e => e.paymentId = paymentId

/-- The ledger entry of a collection. -/
def Prepared.entry (p : Prepared) (paymentId : ℕ) : ResellerEntry :=
  ⟨p.caller.organizationId, p.collectorId, .collection, p.amount, paymentId⟩

/-- The entry that a void posts against another. -/
def counterpart (e : ResellerEntry) : ResellerEntry :=
  { e with entryType := .collectionVoid, amount := -e.amount }

theorem mapError_ok {ε ε' α : Type} {f : ε → ε'} {r : Except ε α} {a : α} :
    r.mapError f = .ok a ↔ r = .ok a := by
  cases r <;> simp [Except.mapError]

theorem lockReseller_ok {reseller : Reseller} :
    lockReseller db orgId resellerId = .ok reseller ↔
      db.findReseller orgId resellerId = some reseller := by
  unfold lockReseller
  cases db.findReseller orgId resellerId <;> simp

theorem billing_collect_ok {billing billing' : Billing.Db} {clientId : ℕ} {amount : ℤ}
    {currency : String} {invoiceIds : Option (List ℕ)}
    (h : Billing.collect billing orgId resellerId clientId amount currency invoiceIds none =
      .ok billing') :
    (∀ p, p ∈ billing'.payments.rows ↔ p ∈ billing.payments.rows ∨
      p = Billing.collected orgId resellerId clientId amount currency billing.payments.nextId) ∧
    billing'.resellerEntries = billing.resellerEntries ++
      [⟨orgId, resellerId, .collection, amount, billing.payments.nextId⟩] := by
  unfold Billing.collect at h
  obtain ⟨-, h⟩ := check_ok h
  obtain ⟨-, h⟩ := check_ok h
  obtain ⟨applied, happ, h⟩ := except_bind_ok.1 h
  obtain rfl := Except.ok.inj h
  have hsame := SameVouchers.allocateAcross happ
  refine ⟨fun p => ?_, ?_⟩
  · rw [hsame.payments]
    exact Table.mem_insert
  · rw [hsame.resellerEntries]
    rfl

/-- A void of the billing model was of a live payment, which it deletes, and posts the counterpart
of its collection. -/
theorem billing_void_ok {billing billing' : Billing.Db}
    (h : Billing.voidCollection billing orgId resellerId paymentId none = .ok billing') :
    ∃ payment entry, billing.payments.find? paymentId = some payment ∧
      payment.organizationId = orgId ∧ payment.deleted = false ∧
      entry ∈ billing.resellerEntries ∧ entry.organizationId = orgId ∧
      entry.resellerId = resellerId ∧ entry.paymentId = paymentId ∧
      entry.entryType = .collection ∧
      (∀ p, p ∈ billing'.payments.rows ↔ p ∈ billing.payments.rows ∧ p.id ≠ paymentId ∨
        p = { payment with status := .cancelled, deleted := true }) ∧
      billing'.resellerEntries = billing.resellerEntries ++ [counterpart entry] := by
  unfold Billing.voidCollection at h
  cases hpay : (billing.payments.find? paymentId).filter fun p =>
      p.organizationId = orgId ∧ p.resellerId = some resellerId with
  | none =>
    rw [hpay] at h
    cases h
  | some payment =>
    simp only [hpay] at h
    obtain ⟨hlive, h⟩ := check_ok h
    cases hentry : billing.resellerEntries.find? fun e => e.organizationId = orgId ∧
        e.resellerId = resellerId ∧ e.paymentId = paymentId ∧ e.entryType = .collection with
    | none =>
      rw [hentry] at h
      cases h
    | some entry =>
      simp only [hentry] at h
      obtain ⟨db₁, hmove, h⟩ := except_bind_ok.1 h
      obtain rfl := Except.ok.inj h
      have hsame : SameVouchers billing db₁ :=
        SameVouchers.trans
          (⟨rfl, rfl⟩ : SameVouchers billing (Billing.reversePaymentCredit billing paymentId))
          (.moveAllocations (Billing.query_ok.1 hmove))
      obtain ⟨hfind, hof⟩ := Option.filter_eq_some_iff.1 hpay
      simp only [decide_eq_true_eq] at hof
      have hmatch := List.find?_some hentry
      simp only [decide_eq_true_eq] at hmatch
      obtain ⟨horg, hreseller, hid, htype⟩ := hmatch
      have hdeleted : payment.deleted = false := by
        by_contra hdel
        exact hlive (.inl (by simpa using hdel))
      refine ⟨payment, entry, hfind, hof.1, hdeleted, List.mem_of_find?_eq_some hentry, horg,
        hreseller, hid, htype, fun p => ?_, ?_⟩
      · change p ∈ (db₁.setPayment paymentId (fun _ => .cancelled) true).payments.rows ↔ _
        rw [Billing.mem_setPayment, hsame.payments, hfind]
        simp
      · change db₁.resellerEntries ++ _ = _
        rw [hsame.resellerEntries, counterpart, horg, hreseller, hid]

/-- What a transaction that posts has checked and written. -/
structure Posts (db : Db) (p : Prepared) (now : ℤ) (receipt : Receipt) (db' : Db) : Prop where
  paymentId : receipt.paymentId = db.billing.payments.nextId
  payments : ∀ q, q ∈ db'.billing.payments.rows ↔ q ∈ db.billing.payments.rows ∨
    q = Billing.collected p.caller.organizationId p.collectorId p.clientId p.amount p.currency
      receipt.paymentId
  entries : db'.billing.resellerEntries = db.billing.resellerEntries ++ [p.entry receipt.paymentId]
  limit : ∃ reseller, db'.findReseller p.caller.organizationId p.collectorId = some reseller ∧
    db'.ledgerBalance p.caller.organizationId p.collectorId ≤
      db'.effectiveCreditLimit p.caller.organizationId reseller
  /-- An answer under the key that was still stored had expired. -/
  expired : ∀ key ∈ p.storedKey, ∀ a ∈ db.answers,
    a.organizationId = p.caller.organizationId → a.idempotencyKey = key → a.expiresAt ≤ now
  stored : ∀ key ∈ p.storedKey,
    ⟨p.caller.organizationId, key, receipt, now + idempotencyTtlMs⟩ ∈ db'.answers
  kept : ∀ a ∈ db.answers, a ∈ db'.answers ∨
    ∃ key ∈ p.storedKey, a.organizationId = p.caller.organizationId ∧ a.idempotencyKey = key

theorem ledgerBalance_append {db db' : Db} {e : ResellerEntry}
    (hentries : db'.billing.resellerEntries = db.billing.resellerEntries ++ [e])
    (hcash : db'.cashEntries = db.cashEntries) :
    db'.ledgerBalance e.organizationId e.resellerId =
      db.ledgerBalance e.organizationId e.resellerId + e.amount := by
  simp only [Db.ledgerBalance, Db.collectedBalance, hentries, hcash, List.filter_append,
    List.map_append, List.sum_append]
  simp
  omega

theorem checkCollection_ok {p : Prepared} {reseller : Reseller} {u : Unit}
    (h : checkCollection db p reseller = .ok u) :
    db.ledgerBalance p.caller.organizationId reseller.id + p.amount ≤
      db.effectiveCreditLimit p.caller.organizationId reseller := by
  unfold checkCollection at h
  obtain ⟨-, h⟩ := check_ok h
  obtain ⟨-, h⟩ := check_ok h
  obtain ⟨hlimit, -⟩ := check_ok h
  exact not_lt.1 hlimit

theorem openCashSession_eq (db : Db) (orgId userId : ℕ) :
    (db.openCashSession orgId userId).1 =
      { db with sessions := (db.openCashSession orgId userId).1.sessions } := by
  unfold Db.openCashSession
  split <;> rfl

theorem postPayment_ok {p : Prepared} {now : ℤ} {receipt : Receipt} {db' : Db}
    (h : postPayment db p now = .ok (receipt, db')) :
    receipt.paymentId = db.billing.payments.nextId ∧
      Billing.collect db.billing p.caller.organizationId p.collectorId p.clientId p.amount
        p.currency p.invoiceIds none = .ok db'.billing ∧
      db'.resellers = db.resellers ∧ db'.cashEntries = db.cashEntries ∧
      db'.limits = db.limits ∧ db'.answers = db.answers := by
  unfold postPayment at h
  obtain ⟨billing, hbilling, h⟩ := except_bind_ok.1 h
  dsimp only at h
  rw [openCashSession_eq] at h
  obtain ⟨rfl, rfl⟩ := Prod.mk.inj (Except.ok.inj h)
  exact ⟨rfl, mapError_ok.1 hbilling, rfl, rfl, rfl, rfl⟩

/-- Posting a payment within the limit, on tables `db₁` that differ from `db` in the stored
answers only. -/
theorem posts_payment {p : Prepared} {now : ℤ} {receipt : Receipt} {db₁ db₂ db₃ : Db}
    {reseller : Reseller}
    (hfind : db.findReseller p.caller.organizationId p.collectorId = some reseller)
    (h₁ : db₁ = { db with answers := db₁.answers })
    (hcheck : checkCollection db₁ p reseller = .ok ())
    (hpost : postPayment db₁ p now = .ok (receipt, db₂))
    (h₃ : db₃ = { db₂ with answers := db₃.answers }) :
    receipt.paymentId = db.billing.payments.nextId ∧
      (∀ q, q ∈ db₃.billing.payments.rows ↔ q ∈ db.billing.payments.rows ∨
        q = Billing.collected p.caller.organizationId p.collectorId p.clientId p.amount p.currency
          receipt.paymentId) ∧
      db₃.billing.resellerEntries = db.billing.resellerEntries ++ [p.entry receipt.paymentId] ∧
      ∃ reseller, db₃.findReseller p.caller.organizationId p.collectorId = some reseller ∧
        db₃.ledgerBalance p.caller.organizationId p.collectorId ≤
          db₃.effectiveCreditLimit p.caller.organizationId reseller := by
  have hlimit := checkCollection_ok hcheck
  obtain ⟨hid, hcollect, hresellers, hcash, hlimits, -⟩ := postPayment_ok hpost
  rw [h₁] at hid hcollect hresellers hcash hlimits hlimit
  obtain ⟨hpayments, hentries⟩ := billing_collect_ok hcollect
  have hentries : db₃.billing.resellerEntries =
      db.billing.resellerEntries ++ [p.entry receipt.paymentId] := by
    rw [h₃, hid]
    exact hentries
  refine ⟨hid, fun q => ?_, hentries, reseller, ?_, ?_⟩
  · rw [h₃, hid]
    exact hpayments q
  · rw [← hfind, h₃]
    simp only [Db.findReseller, hresellers]
  · have hrid : reseller.id = p.collectorId :=
      (Table.find?_eq_some.1 (Option.filter_eq_some_iff.1 hfind).1).2
    rw [hrid] at hlimit
    have hcash₃ : db₃.cashEntries = db.cashEntries := by
      rw [h₃]
      exact hcash
    have hbalance := ledgerBalance_append hentries hcash₃
    have hcredit : db₃.effectiveCreditLimit p.caller.organizationId reseller =
        db.effectiveCreditLimit p.caller.organizationId reseller := by
      rw [h₃]
      simp only [Db.effectiveCreditLimit, Db.defaultCreditLimit, hlimits]
    rw [hcredit]
    refine le_trans (le_of_eq hbalance) ?_
    exact hlimit

/-- **What an accepted collection does.** -/
theorem collect_ok {p : Prepared} {now : ℤ} {receipt : Receipt} {db' : Db}
    (h : collect db p now = .ok (.posted receipt db')) : Posts db p now receipt db' := by
  unfold collect at h
  obtain ⟨reseller, hlock, h⟩ := except_bind_ok.1 h
  have hfind := lockReseller_ok.1 hlock
  cases hkey : p.storedKey with
  | none =>
    simp only [hkey] at h
    obtain ⟨⟨⟩, hcheck, h⟩ := except_bind_ok.1 h
    obtain ⟨⟨receipt', db₂⟩, hpost, h⟩ := except_bind_ok.1 h
    obtain ⟨rfl, rfl⟩ := Collected.posted.inj (Except.ok.inj h)
    obtain ⟨hid, hpayments, hentries, hlimit⟩ := posts_payment hfind rfl hcheck hpost
      (rfl : db₂ = { db₂ with answers := db₂.answers })
    obtain ⟨-, -, -, -, -, hanswers⟩ := postPayment_ok hpost
    exact ⟨hid, hpayments, hentries, hlimit, by simp [hkey], by simp [hkey],
      fun a ha => .inl (hanswers ▸ ha)⟩
  | some key =>
    simp only [hkey] at h
    cases hstored : db.storedAnswer p.caller.organizationId key now with
    | some replay =>
      simp only [hstored] at h
      cases h
    | none =>
      simp only [hstored] at h
      obtain ⟨⟨⟩, hcheck, h⟩ := except_bind_ok.1 h
      obtain ⟨⟨receipt', db₂⟩, hpost, h⟩ := except_bind_ok.1 h
      obtain ⟨db₃, hstore, h⟩ := except_bind_ok.1 h
      obtain ⟨rfl, rfl⟩ := Collected.posted.inj (Except.ok.inj h)
      unfold Db.storeAnswer at hstore
      split_ifs at hstore
      obtain hdb₃ := (Except.ok.inj hstore).symm
      obtain ⟨hid, hpayments, hentries, hlimit⟩ := posts_payment hfind rfl hcheck hpost
        (by rw [hdb₃] : db₃ = { db₂ with answers := db₃.answers })
      subst hdb₃
      obtain ⟨-, -, -, -, -, hanswers⟩ := postPayment_ok hpost
      refine ⟨hid, hpayments, hentries, hlimit, fun k hk a ha horg hak => ?_, fun k hk => ?_,
        fun a ha => ?_⟩
      · obtain rfl : key = k := by simpa [hkey] using hk
        have hnone := List.find?_eq_none.1 (Option.map_eq_none_iff.1 hstored) a ha
        simp only [decide_eq_true_eq] at hnone
        exact not_lt.1 fun hlt => hnone ⟨horg, hak, hlt⟩
      · obtain rfl : key = k := by simpa [hkey] using hk
        simp
      · by_cases hof : a.organizationId = p.caller.organizationId ∧ a.idempotencyKey = key
        · exact .inr ⟨key, hkey, hof⟩
        · refine .inl (List.mem_append_left _ ?_)
          rw [hanswers]
          refine List.mem_filter.2 ⟨ha, ?_⟩
          simp only [decide_eq_true_eq]
          exact fun h => hof ⟨h.1, h.2.1⟩

theorem voidCollection_ok {businessDate : ℤ → ℤ} {userId : ℕ} {bindingRep : Option String}
    {now : ℤ} {db' : Db}
    (h : voidCollection businessDate db orgId userId resellerId paymentId bindingRep now =
      .ok db') :
    Billing.voidCollection db.billing orgId resellerId paymentId none = .ok db'.billing ∧
      db'.answers = db.answers := by
  unfold voidCollection at h
  obtain ⟨_, -, h⟩ := except_bind_ok.1 h
  split at h
  · obtain ⟨-, h⟩ := check_ok h
    obtain ⟨-, h⟩ := check_ok h
    obtain ⟨-, h⟩ := check_ok h
    obtain ⟨-, -, h⟩ := except_bind_ok.1 h
    obtain ⟨-, -, h⟩ := except_bind_ok.1 h
    obtain ⟨billing, hbilling, h⟩ := except_bind_ok.1 h
    obtain rfl := Except.ok.inj h
    exact ⟨mapError_ok.1 hbilling, rfl⟩
  · cases h

theorem recordEntry_ok {p : PreparedEntry} {db' : Db} (h : recordEntry db p = .ok db') :
    db'.billing = db.billing ∧ db'.answers = db.answers := by
  unfold recordEntry at h
  obtain ⟨reseller, -, h⟩ := except_bind_ok.1 h
  obtain ⟨-, h⟩ := check_ok h
  obtain rfl := Except.ok.inj h
  exact ⟨rfl, rfl⟩

end Transactions

/-! ### What an act writes -/

/-- A collection that was posted. -/
structure Posting where
  prepared : Prepared
  receipt : Receipt
  postedAt : ℤ

namespace Server

variable (businessDate : ℤ → ℤ) (s : Server)

/-- The collection that an act posts. -/
def posting : Act → Option Posting
  | .proceed now request _ =>
    match (s.waiting.find? request).map Waiting.task with
    | some (.collect p) =>
      match Cash.collect s.db p now with
      | .ok (.posted receipt _) => some ⟨p, receipt, now⟩
      | _ => none
    | _ => none
  | _ => none

/-- The payment that an act voids. -/
def voids : Act → Option ℕ
  | .proceed now request bindingRep =>
    match (s.waiting.find? request).map Waiting.task with
    | some (.voidCollection caller collectorId paymentId) =>
      match Cash.voidCollection businessDate s.db caller.organizationId caller.userId collectorId
        paymentId bindingRep now with
      | .ok _ => some paymentId
      | .error _ => none
    | _ => none
  | _ => none

end Server

/-- What an act writes: a collection, a void, or nothing that concerns them. -/
inductive ActWrites (businessDate : ℤ → ℤ) (s : Server) (act : Act) : Prop where
  | posts {posting : Posting} (hposting : s.posting act = some posting)
      (hvoids : s.voids businessDate act = none)
      (hposts : Posts s.db posting.prepared posting.postedAt posting.receipt
        (s.step businessDate act).db)
  | voids {orgId resellerId paymentId : ℕ} (hposting : s.posting act = none)
      (hvoids : s.voids businessDate act = some paymentId)
      (hvoid : Billing.voidCollection s.db.billing orgId resellerId paymentId none =
        .ok (s.step businessDate act).db.billing)
      (hanswers : (s.step businessDate act).db.answers = s.db.answers)
  | other (hposting : s.posting act = none) (hvoids : s.voids businessDate act = none)
      (hkeeps : KeepsVouchers s.db.billing (s.step businessDate act).db.billing)
      (hanswers : (s.step businessDate act).db.answers = s.db.answers)

section Step

variable (businessDate : ℤ → ℤ) (s : Server)

theorem ActWrites.of_same {businessDate : ℤ → ℤ} {s : Server} {act : Act}
    (hposting : s.posting act = none) (hvoids : s.voids businessDate act = none)
    (hbilling : (s.step businessDate act).db.billing = s.db.billing)
    (hanswers : (s.step businessDate act).db.answers = s.db.answers) :
    ActWrites businessDate s act :=
  .other hposting hvoids (hbilling ▸ (SameVouchers.refl _).keeps) hanswers

/-- What a request does behind its lock. -/
theorem actWrites_proceed (now : ℤ) (request : ℕ) (bindingRep : Option String) :
    ActWrites businessDate s (.proceed now request bindingRep) := by
  cases hfind : s.waiting.find? request with
  | none =>
    have hstep : s.step businessDate (.proceed now request bindingRep) = s := by
      simp [Server.step, hfind]
    exact .of_same (by simp [Server.posting, hfind]) (by simp [Server.voids, hfind])
      (by rw [hstep]) (by rw [hstep])
  | some w =>
    obtain ⟨id, task⟩ := w
    cases hrun : task.run businessDate s.db now bindingRep with
    | error failure =>
      have hstep : s.step businessDate (.proceed now request bindingRep) = s.remove request := by
        simp [Server.step, hfind, hrun]
      refine .of_same ?_ ?_ (by rw [hstep]; rfl) (by rw [hstep]; rfl)
      · cases task with
        | collect p =>
          cases hcollect : collect s.db p now with
          | error => simp [Server.posting, hfind, hcollect]
          | ok collected => cases collected <;>
              simp [Task.run, hcollect, bind, Except.bind, pure, Except.pure] at hrun
        | _ => simp [Server.posting, hfind]
      · cases task with
        | voidCollection caller collectorId paymentId =>
          cases hvoid : voidCollection businessDate s.db caller.organizationId caller.userId
            collectorId paymentId bindingRep now with
          | error => simp [Server.voids, hfind, hvoid]
          | ok db => simp [Task.run, hvoid, bind, Except.bind, pure, Except.pure] at hrun
        | _ => simp [Server.voids, hfind]
    | ok result =>
      obtain ⟨answer, db'⟩ := result
      have hstep : (s.step businessDate (.proceed now request bindingRep)).db = db' := by
        simp [Server.step, hfind, hrun]
      cases task with
      | collect p =>
        unfold Task.run at hrun
        obtain ⟨collected, hcollect, hrun⟩ := except_bind_ok.1 hrun
        cases collected with
        | replayed receipt =>
          obtain ⟨-, rfl⟩ := Prod.mk.inj (Except.ok.inj hrun)
          exact .of_same (by simp [Server.posting, hfind, hcollect])
            (by simp [Server.voids, hfind]) (by rw [hstep]) (by rw [hstep])
        | posted receipt db =>
          obtain ⟨-, rfl⟩ := Prod.mk.inj (Except.ok.inj hrun)
          have hposting : s.posting (.proceed now request bindingRep) = some ⟨p, receipt, now⟩ := by
            simp [Server.posting, hfind, hcollect]
          refine .posts hposting (by simp [Server.voids, hfind]) ?_
          rw [hstep]
          exact collect_ok hcollect
      | voidCollection caller collectorId paymentId =>
        unfold Task.run at hrun
        obtain ⟨db, hvoid, hrun⟩ := except_bind_ok.1 hrun
        obtain ⟨-, rfl⟩ := Prod.mk.inj (Except.ok.inj hrun)
        obtain ⟨hbilling, hanswers⟩ := voidCollection_ok hvoid
        have hvoids : s.voids businessDate (.proceed now request bindingRep) = some paymentId := by
          simp [Server.voids, hfind, hvoid]
        exact .voids (by simp [Server.posting, hfind]) hvoids (by rw [hstep]; exact hbilling)
          (by rw [hstep]; exact hanswers)
      | entry p =>
        unfold Task.run at hrun
        obtain ⟨db, hrecord, hrun⟩ := except_bind_ok.1 hrun
        obtain ⟨-, rfl⟩ := Prod.mk.inj (Except.ok.inj hrun)
        obtain ⟨hbilling, hanswers⟩ := recordEntry_ok hrecord
        exact .of_same (by simp [Server.posting, hfind]) (by simp [Server.voids, hfind])
          (by rw [hstep, hbilling]) (by rw [hstep, hanswers])

theorem actWrites (act : Act) : ActWrites businessDate s act := by
  cases act with
  | proceed now request bindingRep => exact actWrites_proceed businessDate s now request bindingRep
  | collect now caller body key =>
    refine .of_same rfl rfl ?_ ?_ <;> simp only [Server.step] <;> split <;> rfl
  | enter orgId userId resellerId body =>
    refine .of_same rfl rfl ?_ ?_ <;> simp only [Server.step] <;> split <;> rfl
  | voidCollection caller paymentId => exact .of_same rfl rfl rfl rfl
  | drop request => exact .of_same rfl rfl rfl rfl
  | closeSession session => exact .of_same rfl rfl rfl rfl
  | manage resellers clients limits => exact .of_same rfl rfl rfl rfl
  | staff event => exact .other rfl rfl (Billing.keeps_after _ event.2) rfl
  | editPayment orgId paymentId amount status currency bindingRep =>
    exact .other rfl rfl (Billing.commit_cases (SameVouchers.refl _).keeps
      fun _ hok => Billing.keeps_editPayment hok) rfl

end Step

end Vigabss.Cash
