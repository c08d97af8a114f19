import Vigabss.Lib.Run
import Vigabss.Radius.Writes

/-!
# Vigabss.Radius.Conservation — posted usage adds up

The usage posted for a session instance is what its counters moved by since the record that
opened it, as long as the instance's `usage_accounting_complete` is set; the flag is never set
again once it is cleared.  `Conserved` is the invariant behind both, kept by every statement that
an event writes.
-/

namespace Vigabss.Radius

open Vigabss.Lib

/-! ### The law -/

/-- The posted total of one counter of a session instance. -/
def Db.posted (db : Db) (f : UsageField) (instanceId : ℕ) : ℤ :=
  postedOf f (db.usage.filter fun post => post.sessionInstanceId = instanceId)

/-- What is posted is the last reading less the baseline: both are there, or neither is. -/
def Balanced (baseline last : Option ℕ) (posted : ℤ) : Prop :=
  last.isSome = baseline.isSome ∧ posted = (last.getD 0 : ℕ) - (baseline.getD 0 : ℕ)

/-- An accounting server, with the counters of the record that opened each session instance. -/
structure Tracked where
  server : Server
  baseline : ℕ → RawUsage

namespace Tracked

/-- The baselines after an event: a record that inserts a row opens its instance. -/
def baselineAfter (config : Config) (s : Tracked) (now : ℤ) : Event → ℕ → RawUsage
  | .record attrs =>
    match normalize config now attrs, ingestAccounting config s.server.db now attrs with
    | .ok r, .ok outcome =>
      if outcome.action = .insert then Function.update s.baseline outcome.sessionInstanceId r.usage
      else s.baseline
    | _, _ => s.baseline
  | _ => s.baseline

def step (config : Config) (s : Tracked) (e : ℕ × Event) : Tracked where
  server := s.server.step config e
  baseline := s.baselineAfter config (s.server.now + e.1) e.2

/-- A server without sessions. -/
def initial (now : ℤ) : Tracked := ⟨⟨Db.empty, now⟩, fun _ _ => none⟩

end Tracked

/-- **The invariant**: rows have instances of their own, posts have the instance of a row and are
not negative, and a complete row balances. -/
structure Conserved (baseline : ℕ → RawUsage) (db : Db) : Prop where
  ownInstance : ∀ row ∈ db.logs.rows, row.sessionInstanceId = some row.id
  known : ∀ post ∈ db.usage, post.sessionInstanceId < db.logs.nextId
  nonneg : ∀ post ∈ db.usage, ∀ f, 0 ≤ post.deltas f
  balanced : ∀ row ∈ db.logs.rows, row.usageAccountingComplete = true → ∀ f, f.octets = true →
    Balanced (baseline row.id f) (row.usageLast f) (db.posted f row.id)

theorem conserved_empty (baseline : ℕ → RawUsage) : Conserved baseline Db.empty := by
  constructor <;> simp [Db.empty, Table.empty]

/-! ### Posts -/

theorem postedOf_append (f : UsageField) (posts posts' : List UsagePost) :
    postedOf f (posts ++ posts') = postedOf f posts + postedOf f posts' := by
  simp [postedOf]

theorem posted_postUsage {db : Db} {posts : List UsagePost} {i : ℕ}
    (h : ∀ post ∈ posts, post.sessionInstanceId = i) (f : UsageField) (j : ℕ) :
    (db.postUsage posts).posted f j = db.posted f j + if j = i then postedOf f posts else 0 := by
  unfold Db.posted
  rw [postUsage_usage, List.filter_append, postedOf_append]
  congr 1
  split_ifs with hj
  · rw [List.filter_eq_self.2 fun post hp => by simpa [hj] using h post hp]
  · rw [List.filter_eq_nil_iff.2 fun post hp => by simpa [h post hp] using Ne.symm hj]
    rfl

theorem Conserved.posted_fresh {baseline : ℕ → RawUsage} {db : Db} (h : Conserved baseline db)
    (f : UsageField) : db.posted f db.logs.nextId = 0 := by
  unfold Db.posted
  rw [List.filter_eq_nil_iff.2 fun post hp => by simpa using (h.known post hp).ne]
  rfl

/-! ### Readings -/

theorem fieldDelta_of_fieldReset {f : UsageField} (hf : f.octets = true) {prior next : Option ℕ}
    (h : fieldReset f false prior next = false) :
    (next <|> prior).isSome = prior.isSome ∧
      fieldDelta false prior next = ((next <|> prior).getD 0 : ℕ) - (prior.getD 0 : ℕ) := by
  cases next with
  | none => simp [fieldDelta]
  | some n =>
    cases prior with
    | none => simp [fieldReset, hf] at h
    | some p =>
      have hle : ¬ n < p := by simpa [fieldReset] using h
      exact ⟨rfl, by simp [fieldDelta, hle]⟩

theorem rowUsage_complete {c : ConnectionLog} {r : Record}
    (h : (rowUsage c r).nextSessionComplete = true) :
    c.usageAccountingComplete = true ∧ ∀ f, f.octets = true →
      (coalesceUsage r.usage c.usageLast f).isSome = (c.usageLast f).isSome ∧
      (rowUsage c r).deltas f =
        ((coalesceUsage r.usage c.usageLast f).getD 0 : ℕ) - ((c.usageLast f).getD 0 : ℕ) := by
  simp only [rowUsage, calculateUsageDelta, Bool.and_eq_true, Bool.not_eq_true',
    decide_eq_false_iff_not, not_exists, Bool.not_eq_true] at h
  obtain ⟨⟨hprior, -⟩, hreset⟩ := h
  exact ⟨hprior, fun f hf => fieldDelta_of_fieldReset hf (hreset f)⟩

/-! ### Statements -/

section Statements

variable {baseline : ℕ → RawUsage} {db : Db} {posts : List UsagePost} {now : ℤ}

/-- Rewriting a row and posting for it keeps the law, if the row stays complete only when the
posts are what its counters moved by. -/
theorem Conserved.rewrite (h : Conserved baseline db) {c : ConnectionLog} (hc : c ∈ db.logs.rows)
    {g : ConnectionLog → ConnectionLog} (hg : ∀ a, (g a).id = a.id)
    (hinst : (g c).sessionInstanceId = some c.id)
    (hposts : ∀ post ∈ posts, post.sessionInstanceId = c.id ∧ ∀ f, 0 ≤ post.deltas f)
    (hmoved : (g c).usageAccountingComplete = true → c.usageAccountingComplete = true ∧
      ∀ f, f.octets = true → ((g c).usageLast f).isSome = (c.usageLast f).isSome ∧
        postedOf f posts = (((g c).usageLast f).getD 0 : ℕ) - ((c.usageLast f).getD 0 : ℕ)) :
    Conserved baseline ((db.updateLog c.id g hg now).postUsage posts) where
  ownInstance := by
    intro row hrow
    rcases (mem_updateLog hc).1 hrow with ⟨hrow, -⟩ | rfl
    · exact h.ownInstance row hrow
    · rw [hinst, hg]
  known := by
    intro post hpost
    simp only [postUsage_logs, updateLog_logs, Table.nextId_modify]
    rw [postUsage_usage, updateLog_usage] at hpost
    rcases List.mem_append.1 hpost with hpost | hpost
    · exact h.known post hpost
    · rw [(hposts post hpost).1]
      exact id_lt_nextId hc
  nonneg := by
    intro post hpost
    rw [postUsage_usage, updateLog_usage] at hpost
    rcases List.mem_append.1 hpost with hpost | hpost
    · exact h.nonneg post hpost
    · exact (hposts post hpost).2
  balanced := by
    intro row hrow hcomplete f hf
    rw [posted_postUsage fun post hp => (hposts post hp).1]
    have husage : (db.updateLog c.id g hg now).posted f row.id = db.posted f row.id := by
      rw [Db.posted, updateLog_usage, Db.posted]
    rw [husage]
    rcases (mem_updateLog hc).1 hrow with ⟨hrow, hne⟩ | rfl
    · rw [if_neg hne, add_zero]
      exact h.balanced row hrow hcomplete f hf
    · obtain ⟨hbefore, hmove⟩ := hmoved hcomplete
      obtain ⟨hsome, hsum⟩ := h.balanced c hc hbefore f hf
      rw [hg, if_pos rfl]
      refine ⟨(hmove f hf).1.trans hsome, ?_⟩
      rw [hsum, (hmove f hf).2]
      ring

/-- Inserting a row and posting for it keeps the law, if a complete row starts from its baseline. -/
theorem Conserved.insert (h : Conserved baseline db) {usage : RawUsage}
    {mk : ℕ → ConnectionLog} (hmk : ∀ n, (mk n).id = n)
    (hinst : ∀ n, (mk n).sessionInstanceId = some n) (hlast : ∀ n, (mk n).usageLast = usage)
    (hposts : ∀ post ∈ posts, post.sessionInstanceId = db.logs.nextId ∧ ∀ f, 0 ≤ post.deltas f)
    (hzero : ∀ f, postedOf f posts = 0) :
    Conserved (Function.update baseline db.logs.nextId usage)
      ((db.insertLog mk hmk now).postUsage posts) where
  ownInstance := by
    intro row hrow
    rcases mem_insertLog.1 hrow with hrow | rfl
    · exact h.ownInstance row hrow
    · rw [hinst, hmk]
  known := by
    intro post hpost
    rw [postUsage_logs, insertLog_logs, Table.nextId_insert]
    rw [postUsage_usage, insertLog_usage] at hpost
    rcases List.mem_append.1 hpost with hpost | hpost
    · exact (h.known post hpost).trans (Nat.lt_succ_self _)
    · rw [(hposts post hpost).1]
      exact Nat.lt_succ_self _
  nonneg := by
    intro post hpost
    rw [postUsage_usage, insertLog_usage] at hpost
    rcases List.mem_append.1 hpost with hpost | hpost
    · exact h.nonneg post hpost
    · exact (hposts post hpost).2
  balanced := by
    intro row hrow hcomplete f hf
    rw [posted_postUsage fun post hp => (hposts post hp).1, hzero, ite_self, add_zero]
    have husage : (db.insertLog mk hmk now).posted f row.id = db.posted f row.id := by
      rw [Db.posted, insertLog_usage, Db.posted]
    rw [husage]
    rcases mem_insertLog.1 hrow with hrow | rfl
    · rw [Function.update_of_ne (id_lt_nextId hrow).ne]
      exact h.balanced row hrow hcomplete f hf
    · rw [hmk, Function.update_self, hlast, h.posted_fresh]
      exact ⟨rfl, by ring⟩

theorem Conserved.close (h : Conserved baseline db) {c : ConnectionLog} (hc : c ∈ db.logs.rows)
    {g : ConnectionLog → ConnectionLog} (hg : ∀ a, (g a).id = a.id)
    (hinst : (g c).sessionInstanceId = c.sessionInstanceId) (hlast : (g c).usageLast = c.usageLast)
    (hflag : (g c).usageAccountingComplete = true → c.usageAccountingComplete = true) :
    Conserved baseline (db.updateLog c.id g hg now) := by
  have hkeep : Conserved baseline ((db.updateLog c.id g hg now).postUsage []) :=
    h.rewrite hc hg (hinst.trans (h.ownInstance c hc)) nofun fun hcomplete => ⟨hflag hcomplete, fun f _ => ⟨by rw [hlast], by rw [hlast, sub_self]; rfl⟩⟩
  rwa [postUsage_nil] at hkeep

end Statements

/-! ### Events -/

section Events

variable {config : Config} {baseline : ℕ → RawUsage} {db : Db} {now : ℤ} {r : Record}

/-- A record posts what its reading moves the counters by, or sets a baseline. -/
theorem Conserved.writes {attrs : Attrs} {o : Outcome} (h : Conserved baseline db)
    (hr : Normalized config now attrs r) (hw : Writes config db now r o) :
    Conserved (if o.action = .insert then Function.update baseline o.sessionInstanceId r.usage
      else baseline) o.db := by
  cases hw with
  | nothing hd ha => exact h
  | enrich hd ht ha =>
    exact h.close (g := enrichRow r now) (current_mem hd).1 (fun _ => rfl) rfl rfl id
  | start ht ha =>
    have hclosed := closeMoved_rule (P := Conserved baseline) ha
      (fun _ _ cause hrow _ hdb =>
        hdb.close (g := syntheticStop cause now) hrow (fun _ => rfl) rfl rfl id) h
    exact hclosed.insert (fun _ => rfl) (fun _ => rfl) (fun _ => rfl)
      (posts_of_record hr.counters) fun _ => posted_baseline ..
  | @correct c hc ht ha =>
    have hmem := (current_mem hc).1
    have hinst : c.sessionInstanceId = some c.id := h.ownInstance c hmem
    refine h.rewrite (g := correctRow c r now) hmem (fun _ => rfl) (by simp [correctRow, hinst]) ?_ fun hcomplete => ?_
    · rw [ConnectionLog.instanceId, hinst]
      exact posts_of_record hr.counters
    · obtain ⟨hbefore, hmove⟩ := rowUsage_complete hcomplete
      exact ⟨hbefore, fun f hf => ⟨(hmove f hf).1, by
        rw [recordUsageDelta_sum, (hmove f hf).2]; rfl⟩⟩
  | outOfOrder hc ht ha =>
    exact h.close (g := outOfOrderRow r now) (current_mem hc).1 (fun _ => rfl) rfl rfl (nomatch ·)
  | @update c hc ht ha =>
    have hmem := (current_mem hc).1
    have hinst : c.sessionInstanceId = some c.id := h.ownInstance c hmem
    refine h.rewrite (g := updateRow c r now) hmem (fun _ => rfl) (by simp [updateRow, hinst]) ?_ fun hcomplete => ?_
    · rw [ConnectionLog.instanceId, hinst]
      exact posts_of_record hr.counters
    · obtain ⟨hbefore, hmove⟩ := rowUsage_complete hcomplete
      exact ⟨hbefore, fun f hf => ⟨(hmove f hf).1, by
        rw [recordUsageDelta_sum, (hmove f hf).2]; rfl⟩⟩
  | late ht ha =>
    exact h.insert (fun _ => rfl) (fun _ => rfl) (fun _ => rfl)
      (posts_of_record hr.counters) fun _ => posted_baseline ..

theorem Conserved.sweep (h : Conserved baseline db) (cond : ConnectionLog → Bool)
    (terminateCause anomalyReason : String) :
    Conserved baseline (closeOpenSessions db now cond terminateCause anomalyReason) := by
  exact closeOpenSessions_rule (fun _ _ hrow _ _ hdb =>
    hdb.close (g := sweptRow terminateCause anomalyReason now) hrow (fun _ => rfl) rfl rfl id) h

theorem Conserved.step {s : Tracked} (h : Conserved s.baseline s.server.db) (e : ℕ × Event) :
    Conserved (s.step config e).baseline (s.step config e).server.db := by
  obtain ⟨elapsed, e⟩ := e
  cases e with
  | record attrs =>
    cases ho : ingestAccounting config s.server.db (s.server.now + elapsed) attrs with
    | error err =>
      cases hr : normalize config (s.server.now + elapsed) attrs with
      | error err' =>
        simp only [Tracked.step, Tracked.baselineAfter, Server.step, Db.after, afterRecord, ho, hr]
        exact h
      | ok r =>
        simp only [Tracked.step, Tracked.baselineAfter, Server.step, Db.after, afterRecord, ho, hr]
        exact h
    | ok o =>
      obtain ⟨r, hr, hw⟩ := ingestAccounting_writes ho
      simp only [Tracked.step, Tracked.baselineAfter, Server.step, Db.after, afterRecord, ho, hr]
      exact h.writes (normalize_ok hr) hw
  | infrastructure organizationId nasId => exact h.sweep ..
  | closeStale organizationId => exact h.sweep ..
  | elsewhere => exact h

end Events

/-! ### The completeness flag -/

/-- The instance `i` has had a row, and its usage is incomplete. -/
def Incomplete (i : ℕ) (db : Db) : Prop :=
  i < db.logs.nextId ∧ ∀ row ∈ db.logs.rows, row.id = i → row.usageAccountingComplete = false

section Flag

variable {config : Config} {i : ℕ} {db : Db} {posts : List UsagePost} {now : ℤ} {r : Record}

theorem Incomplete.rewrite (h : Incomplete i db) {c : ConnectionLog} (hc : c ∈ db.logs.rows)
    {g : ConnectionLog → ConnectionLog} (hg : ∀ a, (g a).id = a.id)
    (hflag : c.usageAccountingComplete = false → (g c).usageAccountingComplete = false) :
    Incomplete i (db.updateLog c.id g hg now) := by
  refine ⟨by simpa using h.1, fun row hrow hi => ?_⟩
  rcases (mem_updateLog hc).1 hrow with ⟨hrow, -⟩ | rfl
  · exact h.2 row hrow hi
  · exact hflag (h.2 c hc ((hg c).symm.trans hi))

theorem Incomplete.insert (h : Incomplete i db) {mk : ℕ → ConnectionLog}
    (hmk : ∀ n, (mk n).id = n) : Incomplete i (db.insertLog mk hmk now) := by
  refine ⟨by rw [insertLog_logs, Table.nextId_insert]; exact h.1.trans (Nat.lt_succ_self _),
    fun row hrow hi => ?_⟩
  rcases mem_insertLog.1 hrow with hrow | rfl
  · exact h.2 row hrow hi
  · -- a new row has a new instance
    exact absurd ((hmk _).symm.trans hi) h.1.ne'

theorem rowUsage_incomplete {c : ConnectionLog} (h : c.usageAccountingComplete = false) :
    (rowUsage c r).nextSessionComplete = false := by
  simp [rowUsage, calculateUsageDelta, h]

theorem Incomplete.writes {o : Outcome} (h : Incomplete i db) (hw : Writes config db now r o) :
    Incomplete i o.db := by
  cases hw with
  | nothing hd ha => exact h
  | enrich hd ht ha => exact h.rewrite (g := enrichRow r now) (current_mem hd).1 (fun _ => rfl) id
  | start ht ha =>
    have hclosed := closeMoved_rule (P := Incomplete i) ha (fun _ _ cause hrow _ hdb =>
      hdb.rewrite (g := syntheticStop cause now) hrow (fun _ => rfl) id) h
    exact hclosed.insert (fun _ => rfl)
  | correct hc ht ha =>
    exact h.rewrite (g := correctRow _ r now) (current_mem hc).1 (fun _ => rfl) rowUsage_incomplete
  | outOfOrder hc ht ha =>
    exact h.rewrite (g := outOfOrderRow r now) (current_mem hc).1 (fun _ => rfl) fun _ => rfl
  | update hc ht ha =>
    exact h.rewrite (g := updateRow _ r now) (current_mem hc).1 (fun _ => rfl) rowUsage_incomplete
  | late ht ha => exact h.insert (fun _ => rfl)

theorem Incomplete.sweep (h : Incomplete i db) (cond : ConnectionLog → Bool)
    (terminateCause anomalyReason : String) :
    Incomplete i (closeOpenSessions db now cond terminateCause anomalyReason) :=
  closeOpenSessions_rule (fun _ _ hrow _ _ hdb =>
    hdb.rewrite (g := sweptRow terminateCause anomalyReason now) hrow (fun _ => rfl) id) h

theorem Incomplete.step (config : Config) {s : Tracked} (h : Incomplete i s.server.db) (e : ℕ × Event) :
    Incomplete i (s.step config e).server.db := by
  obtain ⟨elapsed, e⟩ := e
  cases e with
  | record attrs =>
    simp only [Tracked.step, Server.step, Db.after, afterRecord]
    cases ho : ingestAccounting config s.server.db (s.server.now + elapsed) attrs with
    | error err => exact h
    | ok o =>
      obtain ⟨r, -, hw⟩ := ingestAccounting_writes ho
      exact h.writes hw
  | infrastructure organizationId nasId => exact h.sweep ..
  | closeStale organizationId => exact h.sweep ..
  | elsewhere => exact h

end Flag

/-! ### Every run -/

/-- **Conservation of usage.**  After any events, nothing negative has been posted; the octets
posted for a row whose usage is complete are its last reading less its baseline; and a row whose
usage is incomplete stays so, whatever comes next. -/
theorem usage_conserved (config : Config) (now : ℤ) (events : List (ℕ × Event)) :
    let s := run (Tracked.step config) (Tracked.initial now) events
    (∀ post ∈ s.server.db.usage, ∀ f, 0 ≤ post.deltas f) ∧
    (∀ row ∈ s.server.db.logs.rows, row.usageAccountingComplete = true →
      ∀ f, f.octets = true → Balanced (s.baseline row.instanceId f) (row.usageLast f)
        (s.server.db.posted f row.instanceId)) ∧
    (∀ row ∈ s.server.db.logs.rows, row.usageAccountingComplete = false → ∀ later,
      ∀ row' ∈ (run (Tracked.step config) s later).server.db.logs.rows,
        row'.instanceId = row.instanceId → row'.usageAccountingComplete = false) := by
  intro s
  have hrun : ∀ es, Conserved (run (Tracked.step config) (Tracked.initial now) es).baseline
      (run (Tracked.step config) (Tracked.initial now) es).server.db :=
    run_invariant (P := fun s : Tracked => Conserved s.baseline s.server.db)
      (fun _ e hs => hs.step e) (conserved_empty _)
  have hown : ∀ es, ∀ row ∈ (run (Tracked.step config) (Tracked.initial now) es).server.db.logs.rows,
      row.instanceId = row.id := fun es row hrow => by
    rw [ConnectionLog.instanceId, (hrun es).ownInstance row hrow]
    rfl
  refine ⟨(hrun events).nonneg, fun row hrow => ?_, fun row hrow hflag later row' hrow' hid => ?_⟩
  · rw [hown events row hrow]
    exact (hrun events).balanced row hrow
  · rw [hown events row hrow] at hid
    have hrow₂ := hrow'
    rw [← run_append] at hrow₂
    rw [hown _ row' hrow₂] at hid
    have hlater := run_invariant (P := fun s : Tracked => Incomplete row.id s.server.db)
      (fun _ e hs => hs.step config e) (s := s) ⟨id_lt_nextId hrow, ?_⟩ later
    · exact hlater.2 row' hrow' hid
    · intro other hother hsame
      rw [Table.eq_of_key_eq hother hrow hsame]
      exact hflag

end Vigabss.Radius
