import Vigabss.Cash.Postings

/-!
# Vigabss.Cash.Accounts — every collection is accounted for

`Book` follows a run of the server with the collections that it has posted and the payments that it
has voided.  `Accounted` says what they leave in the ledger: the entry of each collection and, once
it is voided, its counterpart; and that the key of a collection posts nothing else for a day.
-/

namespace Vigabss.Cash

open Vigabss.Lib
open Billing (ResellerEntry KeepsVouchers)

/-- A server with what it has posted and voided, in order. -/
structure Book where
  server : Server
  postings : List Posting
  voided : List ℕ

namespace Book

/-- Nothing is posted and no request waits. -/
def start (db : Db) : Book := ⟨⟨db, Table.empty⟩, [], []⟩

def step (businessDate : ℤ → ℤ) (b : Book) (act : Act) : Book where
  server := b.server.step businessDate act
  postings := b.postings ++ (b.server.posting act).toList
  voided := b.voided ++ (b.server.voids businessDate act).toList

end Book

/-- The two collections are of one user and key. -/
def SameKey (p q : Posting) : Prop :=
  p.prepared.caller.organizationId = q.prepared.caller.organizationId ∧
    p.prepared.storedKey.isSome = true ∧ p.prepared.storedKey = q.prepared.storedKey

/-- The ledger entries of a collection: its own and, once it is voided, the counterpart. -/
def Posting.entries (p : Posting) (voided : List ℕ) : List ResellerEntry :=
  p.prepared.entry p.receipt.paymentId ::
    if p.receipt.paymentId ∈ voided then [counterpart (p.prepared.entry p.receipt.paymentId)]
    else []

/-- **Every collection is accounted for.** -/
structure Accounted (b : Book) : Prop where
  entries : ∀ p ∈ b.postings,
    b.server.db.entriesOf p.receipt.paymentId = p.entries b.voided
  /-- No collection is voided twice. -/
  once : b.voided.Nodup
  /-- Two collections of one key are a day apart. -/
  keyed : b.postings.Pairwise fun p q => SameKey p q → p.postedAt + idempotencyTtlMs ≤ q.postedAt

/-! ### The invariant -/

/-- **The invariant**: besides, every entry has its payment, a void leaves its payment deleted, and
the answer of every keyed collection is stored for a day. -/
structure Kept (b : Book) : Prop extends Accounted b where
  payments : ∀ e ∈ b.server.db.billing.resellerEntries, ∃ p ∈ b.server.db.billing.payments.rows,
    p.id = e.paymentId ∧ p.organizationId = e.organizationId
  deleted : ∀ e ∈ b.server.db.billing.resellerEntries, e.entryType = .collectionVoid →
    ∀ p ∈ b.server.db.billing.payments.rows, p.id = e.paymentId → p.deleted = true
  voids : ∀ id ∈ b.voided, ∃ e ∈ b.server.db.billing.resellerEntries,
    e.paymentId = id ∧ e.entryType = .collectionVoid
  answers : ∀ p ∈ b.postings, ∀ key ∈ p.prepared.storedKey, ∃ a ∈ b.server.db.answers,
    a.organizationId = p.prepared.caller.organizationId ∧ a.idempotencyKey = key ∧
      p.postedAt + idempotencyTtlMs ≤ a.expiresAt

section Invariant

variable {businessDate : ℤ → ℤ} {b : Book} {act : Act}

theorem Kept.start {db : Db} (h : db.billing.resellerEntries = []) : Kept (Book.start db) where
  entries p hp := by cases hp
  once := List.nodup_nil
  keyed := List.Pairwise.nil
  payments e he := by simp [Book.start, h] at he
  deleted e he := by simp [Book.start, h] at he
  voids id hid := by cases hid
  answers p hp := by cases hp

theorem Kept.posted (h : Kept b) {p : Posting} (hp : p ∈ b.postings) :
    ∃ q ∈ b.server.db.billing.payments.rows, q.id = p.receipt.paymentId := by
  have hmem : p.prepared.entry p.receipt.paymentId ∈
      b.server.db.entriesOf p.receipt.paymentId := by
    rw [h.entries p hp]
    exact List.mem_cons_self
  obtain ⟨q, hq, hid, -⟩ := h.payments _ (List.mem_filter.1 hmem).1
  exact ⟨q, hq, hid⟩

theorem Kept.posted_lt (h : Kept b) {p : Posting} (hp : p ∈ b.postings) :
    p.receipt.paymentId < b.server.db.billing.payments.nextId := by
  obtain ⟨q, hq, hid⟩ := h.posted hp
  exact hid ▸ Table.key_lt_nextId hq

/-- **An act of others** keeps the invariant. -/
theorem Kept.other (h : Kept b)
    (hkeeps : KeepsVouchers b.server.db.billing (b.server.step businessDate act).db.billing)
    (hanswers : (b.server.step businessDate act).db.answers = b.server.db.answers) :
    Kept ⟨b.server.step businessDate act, b.postings, b.voided⟩ where
  entries p hp := by
    rw [Db.entriesOf, hkeeps.resellerEntries]
    exact h.entries p hp
  once := h.once
  keyed := h.keyed
  payments e he := by
    rw [hkeeps.resellerEntries] at he
    obtain ⟨p, hp, hid, horg⟩ := h.payments e he
    obtain ⟨p', hp', hid', horg', -⟩ := hkeeps.payments p hp
    exact ⟨p', hp', hid'.trans hid, horg'.trans horg⟩
  deleted e he hvoid q hq hqid := by
    rw [hkeeps.resellerEntries] at he
    obtain ⟨p, hp, hid, horg⟩ := h.payments e he
    obtain ⟨p', hp', hid', -, hdel⟩ := hkeeps.payments p hp
    have hvoided : Billing.resellerVoided b.server.db.billing p = true := by
      refine List.any_eq_true.2 ⟨e, he, ?_⟩
      simp [horg, hid, hvoid]
    obtain rfl : q = p' := Table.eq_of_key_eq hq hp' (hqid.trans (hid'.trans hid).symm)
    exact hdel hvoided (h.deleted e he hvoid p hp hid)
  voids id hid := by
    rw [hkeeps.resellerEntries]
    exact h.voids id hid
  answers p hp key hkey := by
    rw [hanswers]
    exact h.answers p hp key hkey

/-- **A collection** that is posted keeps the invariant. -/
theorem Kept.posts (h : Kept b) {posting : Posting}
    (hposts : Posts b.server.db posting.prepared posting.postedAt posting.receipt
      (b.server.step businessDate act).db) :
    Kept ⟨b.server.step businessDate act, b.postings ++ [posting], b.voided⟩ := by
  have hfresh : ∀ e ∈ b.server.db.billing.resellerEntries,
      e.paymentId ≠ posting.receipt.paymentId := by
    intro e he heq
    obtain ⟨p, hp, hid, -⟩ := h.payments e he
    have hlt := Table.key_lt_nextId hp
    exact hlt.ne (hid.trans (heq.trans hposts.paymentId))
  have hmem : ∀ e, e ∈ (b.server.step businessDate act).db.billing.resellerEntries ↔
      e ∈ b.server.db.billing.resellerEntries ∨
        e = posting.prepared.entry posting.receipt.paymentId := by
    intro e
    rw [hposts.entries, List.mem_append, List.mem_singleton]
  refine ⟨⟨fun p hp => ?_, h.once, ?_⟩, fun e he => ?_, fun e he hvoid q hq hqid => ?_,
    fun id hid => ?_, fun p hp key hkey => ?_⟩
  · rw [Db.entriesOf, hposts.entries, List.filter_append]
    rcases List.mem_append.1 hp with hp | hp
    · -- an older collection: the new entry is about another payment
      have hne : posting.receipt.paymentId ≠ p.receipt.paymentId := by
        rw [hposts.paymentId]
        exact (h.posted_lt hp).ne'
      have hold := h.entries p hp
      rw [Db.entriesOf] at hold
      simp [hold, Prepared.entry, hne]
    · -- the new one has no other entry
      obtain rfl := List.mem_singleton.1 hp
      have hnone : p.receipt.paymentId ∉ b.voided := by
        intro hv
        obtain ⟨e, he, hid, -⟩ := h.voids _ hv
        exact hfresh e he hid
      rw [List.filter_eq_nil_iff.2 fun e he => by simpa using hfresh e he]
      simp [Posting.entries, Prepared.entry, hnone]
  · refine List.pairwise_append.2 ⟨h.keyed, List.pairwise_singleton _ _, fun p hp q hq hsame => ?_⟩
    obtain rfl := List.mem_singleton.1 hq
    obtain ⟨horg, hsome, hkey⟩ := hsame
    obtain ⟨key, hk⟩ := Option.isSome_iff_exists.1 hsome
    obtain ⟨a, ha, haorg, hak, hexp⟩ := h.answers p hp key hk
    exact hexp.trans (hposts.expired key (hkey ▸ hk) a ha (haorg.trans horg) hak)
  · rcases (hmem e).1 he with he | rfl
    · obtain ⟨p, hp, hrest⟩ := h.payments e he
      exact ⟨p, (hposts.payments p).2 (.inl hp), hrest⟩
    · exact ⟨_, (hposts.payments _).2 (.inr rfl), rfl, rfl⟩
  · rcases (hmem e).1 he with he | rfl
    · rcases (hposts.payments q).1 hq with hq | rfl
      · exact h.deleted e he hvoid q hq hqid
      · exact absurd hqid.symm (hfresh e he)
    · cases hvoid
  · obtain ⟨e, he, hrest⟩ := h.voids id hid
    exact ⟨e, (hmem e).2 (.inl he), hrest⟩
  · rcases List.mem_append.1 hp with hp | hp
    · obtain ⟨a, ha, haorg, hak, hexp⟩ := h.answers p hp key hkey
      rcases hposts.kept a ha with hkept | ⟨key', hkey', haorg', hak'⟩
      · exact ⟨a, hkept, haorg, hak, hexp⟩
      · -- the answer had expired, and the new one takes its place
        obtain rfl : key' = key := hak'.symm.trans hak
        have hold := hposts.expired key' hkey' a ha haorg' hak
        refine ⟨_, hposts.stored key' hkey', haorg'.symm.trans haorg, rfl, ?_⟩
        have hpos : (0 : ℤ) ≤ idempotencyTtlMs := by decide
        exact hexp.trans (hold.trans (le_add_of_nonneg_right hpos))
    · obtain rfl := List.mem_singleton.1 hp
      exact ⟨_, hposts.stored key hkey, rfl, rfl, le_rfl⟩

/-- **A void** keeps the invariant. -/
theorem Kept.void (h : Kept b) {orgId resellerId paymentId : ℕ}
    (hvoid : Billing.voidCollection b.server.db.billing orgId resellerId paymentId none =
      .ok (b.server.step businessDate act).db.billing)
    (hanswers : (b.server.step businessDate act).db.answers = b.server.db.answers) :
    Kept ⟨b.server.step businessDate act, b.postings, b.voided ++ [paymentId]⟩ := by
  obtain ⟨payment, entry, hfind, horg, hlive, hentry, heorg, -, heid, htype, hpayments,
    hentries⟩ := billing_void_ok hvoid
  obtain ⟨hpmem, hpid⟩ := Table.find?_eq_some.1 hfind
  have hpid : payment.id = paymentId := hpid
  -- a payment that was voided before would be deleted
  have hnew : paymentId ∉ b.voided := by
    intro hv
    obtain ⟨e, he, hid, hev⟩ := h.voids _ hv
    have hdel := h.deleted e he hev payment hpmem (hpid.trans hid.symm)
    rw [hlive] at hdel
    cases hdel
  have hmem : ∀ e, e ∈ (b.server.step businessDate act).db.billing.resellerEntries ↔
      e ∈ b.server.db.billing.resellerEntries ∨ e = counterpart entry := by
    intro e
    rw [hentries, List.mem_append, List.mem_singleton]
  refine ⟨⟨fun p hp => ?_, ?_, h.keyed⟩, fun e he => ?_, fun e he hev q hq hqid => ?_,
    fun id hid => ?_, fun p hp key hkey => ?_⟩
  · have hold := h.entries p hp
    rw [Db.entriesOf, hentries, List.filter_append]
    rw [Db.entriesOf] at hold
    by_cases hid : p.receipt.paymentId = paymentId
    · -- the entry that is voided is the collection's own
      have hown : entry = p.prepared.entry p.receipt.paymentId := by
        have hin : entry ∈ b.server.db.billing.resellerEntries.filter
            (fun e => e.paymentId = p.receipt.paymentId) :=
          List.mem_filter.2 ⟨hentry, by simp [heid, hid]⟩
        rw [hold, Posting.entries, if_neg (hid ▸ hnew)] at hin
        exact List.mem_singleton.1 hin
      rw [hold, hown]
      simp [Posting.entries, Prepared.entry, counterpart, hid, hnew]
    · have hne : entry.paymentId ≠ p.receipt.paymentId := fun heq => hid (heq.symm.trans heid)
      simp [hold, Posting.entries, counterpart, hne, hid]
  · exact List.nodup_append.2 ⟨h.once, List.nodup_singleton _, fun x hx y hy heq => by
      rw [List.mem_singleton.1 hy] at heq
      exact hnew (heq ▸ hx)⟩
  · have hrow : ∀ e₀ ∈ b.server.db.billing.resellerEntries,
        ∃ q ∈ (b.server.step businessDate act).db.billing.payments.rows,
          q.id = e₀.paymentId ∧ q.organizationId = e₀.organizationId := by
      intro e₀ he₀
      obtain ⟨q, hq, hqid, hqorg⟩ := h.payments e₀ he₀
      by_cases hid : q.id = paymentId
      · obtain rfl : q = payment := Table.eq_of_key_eq hq hpmem (hid.trans hpid.symm)
        exact ⟨_, (hpayments _).2 (.inr rfl), hqid, hqorg⟩
      · exact ⟨q, (hpayments q).2 (.inl ⟨hq, hid⟩), hqid, hqorg⟩
    rcases (hmem e).1 he with he | rfl
    · exact hrow e he
    · exact hrow entry hentry
  · rcases (hpayments q).1 hq with ⟨hq, hqne⟩ | rfl
    · rcases (hmem e).1 he with he | rfl
      · exact h.deleted e he hev q hq hqid
      · exact absurd (hqid.trans heid) hqne
    · rfl
  · rcases List.mem_append.1 hid with hid | hid
    · obtain ⟨e, he, hrest⟩ := h.voids id hid
      exact ⟨e, (hmem e).2 (.inl he), hrest⟩
    · obtain rfl := List.mem_singleton.1 hid
      exact ⟨counterpart entry, (hmem _).2 (.inr rfl), heid, rfl⟩
  · rw [hanswers]
    exact h.answers p hp key hkey

/-- **One act** keeps the invariant. -/
theorem Kept.step (h : Kept b) (act : Act) : Kept (b.step businessDate act) := by
  unfold Book.step
  cases actWrites businessDate b.server act with
  | posts hposting hvoids hposts =>
    rw [hposting, hvoids, Option.toList_some, Option.toList_none, List.append_nil]
    exact h.posts hposts
  | voids hposting hvoids hvoid hanswers =>
    rw [hposting, hvoids, Option.toList_some, Option.toList_none, List.append_nil]
    exact h.void hvoid hanswers
  | other hposting hvoids hkeeps hanswers =>
    rw [hposting, hvoids, Option.toList_none, Option.toList_none, List.append_nil,
      List.append_nil]
    exact h.other hkeeps hanswers

end Invariant

/-! ### Every step -/

/-- A collection that an act posts leaves its reseller within the limit, and an act that fails or
answers from the store leaves the tables as they are. -/
structure StepSound (businessDate : ℤ → ℤ) (b : Book) (act : Act) : Prop where
  limit : ∀ p, b.server.posting act = some p → ∃ reseller,
    (b.server.step businessDate act).db.findReseller p.prepared.caller.organizationId
      p.prepared.collectorId = some reseller ∧
    (b.server.step businessDate act).db.ledgerBalance p.prepared.caller.organizationId
      p.prepared.collectorId ≤
      (b.server.step businessDate act).db.effectiveCreditLimit p.prepared.caller.organizationId
        reseller
  failed : ∀ failure, b.server.answer businessDate act = some (.error failure) →
    (b.server.step businessDate act).db = b.server.db
  replayed : ∀ receipt, b.server.answer businessDate act = some (.ok (.replayed receipt)) →
    (b.server.step businessDate act).db = b.server.db

section Steps

variable (businessDate : ℤ → ℤ)

/-- What a request that gets its lock leaves when it fails or is answered from the store. -/
theorem proceed_unchanged {s : Server} {now : ℤ} {request : ℕ} {bindingRep : Option String}
    {answer : Except Failure Answer}
    (h : s.answer businessDate (.proceed now request bindingRep) = some answer)
    (hanswer : (∃ failure, answer = .error failure) ∨ ∃ receipt, answer = .ok (.replayed receipt)) :
    (s.step businessDate (.proceed now request bindingRep)).db = s.db := by
  simp only [Server.answer, Option.map_eq_some_iff] at h
  obtain ⟨w, hfind, h⟩ := h
  simp only [Server.step, hfind]
  cases hrun : w.task.run businessDate s.db now bindingRep with
  | error failure => rfl
  | ok result =>
    rw [hrun] at h
    obtain ⟨answer', db'⟩ := result
    obtain ⟨failure, rfl⟩ | ⟨receipt, rfl⟩ := hanswer
    · cases h
    · obtain rfl : answer' = .replayed receipt := Except.ok.inj h
      have hdb : db' = s.db := by
        cases htask : w.task with
        | collect p =>
          rw [htask] at hrun
          unfold Task.run at hrun
          obtain ⟨collected, -, hrun⟩ := except_bind_ok.1 hrun
          cases collected with
          | replayed => exact (Prod.mk.inj (Except.ok.inj hrun)).2.symm
          | posted => cases (Prod.mk.inj (Except.ok.inj hrun)).1
        | voidCollection caller collectorId paymentId =>
          rw [htask] at hrun
          unfold Task.run at hrun
          obtain ⟨db, -, hrun⟩ := except_bind_ok.1 hrun
          cases (Prod.mk.inj (Except.ok.inj hrun)).1
        | entry p =>
          rw [htask] at hrun
          unfold Task.run at hrun
          obtain ⟨db, -, hrun⟩ := except_bind_ok.1 hrun
          cases (Prod.mk.inj (Except.ok.inj hrun)).1
      exact hdb

theorem answer_unchanged {s : Server} {act : Act} {answer : Except Failure Answer}
    (h : s.answer businessDate act = some answer)
    (hanswer : (∃ failure, answer = .error failure) ∨ ∃ receipt, answer = .ok (.replayed receipt)) :
    (s.step businessDate act).db = s.db := by
  cases act with
  | proceed now request bindingRep => exact proceed_unchanged businessDate h hanswer
  | collect now caller body key =>
    simp only [Server.step]
    split <;> rfl
  | enter orgId userId resellerId body =>
    simp only [Server.step]
    split <;> rfl
  | _ => cases h

theorem stepSound (b : Book) (act : Act) : StepSound businessDate b act where
  limit p hp := by
    cases actWrites businessDate b.server act with
    | posts hposting _ hposts =>
      obtain rfl := Option.some.inj (hposting.symm.trans hp)
      exact hposts.limit
    | voids hposting => cases hposting.symm.trans hp
    | other hposting => cases hposting.symm.trans hp
  failed failure h := answer_unchanged businessDate h (.inl ⟨failure, rfl⟩)
  replayed receipt h := answer_unchanged businessDate h (.inr ⟨receipt, rfl⟩)

theorem stepsSound (b : Book) (acts : List Act) :
    StepsMeet (Book.step businessDate) (StepSound businessDate) b acts := by
  induction acts generalizing b with
  | nil => trivial
  | cons act acts ih => exact ⟨stepSound businessDate b act, ih _⟩

/-- **Collections are accounted for** in every interleaving of requests: each leaves its entry and,
once voided, one counterpart; a user's key posts at most one payment a day; an accepted collection
leaves its reseller within its limit, and one that fails posts nothing. -/
theorem collections_accounted (businessDate : ℤ → ℤ) {db : Db}
    (h : db.billing.resellerEntries = []) (acts : List Act) :
    Always (Book.step businessDate) Accounted (Book.start db) acts ∧
      StepsMeet (Book.step businessDate) (StepSound businessDate) (Book.start db) acts :=
  ⟨(always_of_step (P := Kept) (fun _ act h _ => h.step act) (.start h)
      (stepsMeet_true _ acts)).mono fun _ h => h.toAccounted, stepsSound businessDate _ acts⟩

/-- A reseller, a client without invoices, and an empty ledger. -/
def sampleDb : Db where
  billing := ⟨.empty, .empty, .empty, .empty, .empty, .empty, .empty, [], []⟩
  resellers := Table.empty.put ⟨1, 1, none, .active, none, false⟩
  clients := Table.empty.put ⟨1, 1, false⟩
  sessions := .empty
  cashEntries := []
  takings := []
  answers := []
  limits := fun _ => none
  currencies := fun _ => "MXN"

/-- User 7 collects 500.00 under a key at `now`. -/
def sampleCollect (now : ℤ) : Act :=
  .collect now ⟨1, 7, 1⟩ ⟨some ⟨1, 1, 1, now / 1000 + 900⟩, some 50000, none⟩ (some "key-00001")

theorem collections_accounted_empty :
    Always (Book.step id) Accounted (Book.start sampleDb)
        [sampleCollect 1000, .proceed 2000 1 none] ∧
      StepsMeet (Book.step id) (StepSound id) (Book.start sampleDb)
        [sampleCollect 1000, .proceed 2000 1 none] :=
  collections_accounted id rfl _

instance (p q : Posting) : Decidable (SameKey p q) := by
  unfold SameKey
  infer_instance

/-- A key is free again when its answer has expired: 25 hours later it posts a second payment. -/
theorem key_posts_again_after_a_day :
    ¬ (run (Book.step id) (Book.start sampleDb)
      [sampleCollect 1000, .proceed 2000 1 none, sampleCollect 90000000,
        .proceed 90001000 1 none]).postings.Pairwise fun p q => ¬ SameKey p q := by
  decide

end Steps

end Vigabss.Cash
