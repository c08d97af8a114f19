import Vigabss.Lib.Run
import Vigabss.Attribution.Trace

/-!
# Vigabss.Attribution.Certainty — a certain answer is never taken back for another

Two direct lookups of one address and past instant, at any two times, name the same session when
both are certain, along every run whose records are `Clean` for the address.  Left out are those
that move a session's known end before its last accounting, take an address from a session, or give
the address to a session which crosses another open one.
-/

namespace Vigabss.Attribution

open Vigabss.Lib Vigabss.Radius

/-! ### Clean records -/

section Clean

variable (config : Config) (address : Address) (db : Db) (now : ℤ) (r : Record)

/-- An eligible row that did not hold the address and holds it now gains it cleanly. -/
def Acquires (c c' : ConnectionLog) : Prop :=
  eligible c = true → address.heldBy c = false → address.heldBy c' = true → Gains address db c'

/-- The tables when a Start inserts its row: the current row and a moved session are closed. -/
def closedFor (close : Option String) : Db :=
  closeMoved (closeCurrent db now (db.current r) close) now r

/-- A record that leaves certain answers about the address as they are. -/
def Clean : Prop :=
  match r.eventType with
  | .start =>
    match startAction config (db.current r) r with
    | .insert close =>
      let row := startRow r now (startUsage r) (closedFor db now r close).logs.nextId
      traceable address row = true → Gains address (closedFor db now r close) row
    | .enrich => ∀ d ∈ db.current r, Acquires address db d (enrichRow r now d)
    | _ => True
  | _ =>
    match updateAction (db.current r) r with
    | .update => ∀ c ∈ db.current r,
        (traceable address c = true → address.heldBy (updateRow c r now c) = true) ∧
          Acquires address db c (updateRow c r now c)
    | .closeOutOfOrder => ∀ c ∈ db.current r, traceable address c = false
    | _ => True

end Clean

/-- An event that leaves certain answers as they are: a clean record, or none at all. -/
def KeepsCertain (config : Config) (address : Address) (s : Server) (e : ℕ × Event) : Prop :=
  match e.2 with
  | .record attrs =>
    match normalize config (s.now + e.1) attrs with
    | .ok r => Clean config address s.db (s.now + e.1) r
    | .error _ => True
  | _ => True

instance (address : Address) (db : Db) (row : ConnectionLog) (first : ℤ) (other : ConnectionLog) :
    Decidable (Crosses address db row first other) := by
  unfold Crosses
  infer_instance

instance (address : Address) (db : Db) (row : ConnectionLog) : Decidable (Gains address db row) := by
  unfold Gains
  infer_instance

instance (address : Address) (db : Db) (c c' : ConnectionLog) :
    Decidable (Acquires address db c c') := by
  unfold Acquires
  infer_instance

instance (config : Config) (address : Address) (db : Db) (now : ℤ) (r : Record) :
    Decidable (Clean config address db now r) := by
  unfold Clean
  split <;> split <;> infer_instance

instance (config : Config) (address : Address) (s : Server) (e : ℕ × Event) :
    Decidable (KeepsCertain config address s e) := by
  unfold KeepsCertain
  split
  · split <;> infer_instance
  · infer_instance

/-! ### One event -/

section Step

variable {config : Config} {address : Address} {db : Db} {now : ℤ} {r : Record}

/-- What an event keeps, and how its state follows. -/
def Extends (address : Address) (db : Db) (now : ℤ) (db' : Db) : Prop :=
  Traced address db' now ∧ Follows address now db db'

theorem Traced.later {now' : ℤ} (h : Traced address db now) (hle : now ≤ now') :
    Traced address db now' :=
  { h with observed := fun e he => (h.observed e he).trans hle }

theorem Traced.extends (h : Traced address db now) : Extends address db now db :=
  ⟨h, .refl now db⟩

theorem Extends.rewrite {db' : Db} (h : Extends address db now db') {c : ConnectionLog}
    {g : ConnectionLog → ConnectionLog} {hg : ∀ a, (g a).id = a.id}
    (hr : Rewrites address db' now c (g c)) :
    Extends address db now (db'.updateLog c.id g hg now) :=
  ⟨hr.traced h.1, h.2.trans hr.follows⟩

theorem Extends.insert {db' : Db} (h : Extends address db now db') (mk : ℕ → ConnectionLog)
    {hmk : ∀ n, (mk n).id = n} (hi : Inserts address db' now (mk db'.logs.nextId)) :
    Extends address db now (db'.insertLog mk hmk now) :=
  ⟨hi.traced h.1, h.2.trans (hi.follows h.1)⟩

theorem Extends.postUsage {db' : Db} (h : Extends address db now db') (posts : List UsagePost) :
    Extends address db now (db'.postUsage posts) :=
  ⟨⟨h.1.own, h.1.ofRow, h.1.stopped, h.1.observed, fun row hrow he => ⟨(h.1.rows row hrow he).sorted,
    (h.1.rows row hrow he).within, (h.1.rows row hrow he).held⟩, h.1.uncrossed⟩, h.2.evidence,
    h.2.rows⟩

theorem rewrites_close {c c' : ConnectionLog} (hc : c ∈ db.logs.rows)
    (ha : directAttribution c' = directAttribution c)
    (ho : c'.organizationId = c.organizationId) (hs : c'.eventAt = c.eventAt)
    (hrec : c'.lastAccountingReceivedAt = some now) (hclosed : c'.isOpen = false)
    (hlast : c'.lastAt = c.lastAt) (he : eligible c' = eligible c)
    (hheld : address.heldBy c' = address.heldBy c) : Rewrites address db now c c' where
  mem := hc
  attribution := ha
  organization := ho
  started := hs
  received := hrec
  stopped _ := ⟨hclosed, hlast⟩
  forward h := ⟨he.symm.trans h, hlast.ge, fun h => hheld.trans h, fun h h' => by
    rw [← hheld, h'] at h
    cases h⟩
  kept h := he.trans (traceable_iff.1 h).1

/-- An open row that moves forward to a record is allowed, if it keeps the address and acquires it
cleanly. -/
theorem rewrites_advance {c c' : ConnectionLog} (hc : c ∈ db.logs.rows) (hopen : c.isOpen = true)
    (ha : directAttribution c' = directAttribution c)
    (ho : c'.organizationId = c.organizationId) (hs : c'.eventAt = c.eventAt)
    (hrec : c'.lastAccountingReceivedAt = some now) (hlast : c.lastAt ≤ c'.lastAt)
    (he : eligible c' = eligible c)
    (hkeep : traceable address c = true → address.heldBy c' = true)
    (hgain : Acquires address db c c') : Rewrites address db now c c' where
  mem := hc
  attribution := ha
  organization := ho
  started := hs
  received := hrec
  stopped h := by
    rw [hopen] at h
    cases h
  forward h := ⟨he.symm.trans h, hlast, fun hh => hkeep (traceable_iff.2 ⟨he.symm.trans h, hh⟩),
    hgain (he.symm.trans h)⟩
  kept h := he.trans (traceable_iff.1 h).1

theorem heldBy_congr {c c' : ConnectionLog} (hv4 : c'.framedIp = c.framedIp)
    (hpfx : c'.framedIpv6Prefix = c.framedIpv6Prefix)
    (hdelegated : c'.ipv6DelegatedPrefix = c.ipv6DelegatedPrefix)
    (hv6 : c'.ipv6Address = c.ipv6Address) : address.heldBy c' = address.heldBy c := by
  cases address <;> simp [Address.heldBy, hv4, hpfx, hdelegated, hv6]

theorem heldBy_enrichRow {d : ConnectionLog} (h : address.heldBy d = true) :
    address.heldBy (enrichRow r now d) = true := by
  cases address with
  | v4 ip =>
    simp only [Address.heldBy, decide_eq_true_eq] at h
    simp [Address.heldBy, enrichRow, h]
  | v6 ip prefixes =>
    simp only [Address.heldBy, enrichRow, Bool.or_eq_true] at h ⊢
    rcases h with (hpfx | hdelegated) | hv6
    · cases hp : d.framedIpv6Prefix with
      | none => simp [hp] at hpfx
      | some p => exact .inl (.inl (by simpa [hp] using hpfx))
    · exact .inl (.inr hdelegated)
    · exact .inr hv6

theorem Extends.writes {o : Outcome} (h : Traced address db now)
    (hw : Writes config db now r o) (hgood : Clean config address db now r) :
    Extends address db now o.db := by
  cases hw with
  | nothing hd ha => exact h.extends
  | @enrich d hd ht ha =>
    simp only [Clean, ht, hd, ha] at hgood
    obtain ⟨hopen, hle, -⟩ := startAction_enrich ha
    exact h.extends.rewrite (g := enrichRow r now) (rewrites_advance (current_mem hd).1 hopen rfl rfl
      rfl rfl hle rfl (fun ht => heldBy_enrichRow (traceable_iff.1 ht).2) (hgood d rfl))
  | @start close ht ha =>
    simp only [Clean, ht, ha] at hgood
    have hclosed : Extends address db now (closedFor db now r close) :=
      closeMoved_rule ha (fun db' row cause hrow _ hdb => hdb.rewrite (g := syntheticStop cause now)
        (rewrites_close hrow rfl rfl rfl rfl rfl rfl rfl (heldBy_congr rfl rfl rfl rfl))) h.extends
    refine (hclosed.insert (startRow r now (startUsage r)) ⟨⟨rfl, rfl⟩, rfl, ?_⟩).postUsage _
    exact fun he hheld => hgood (traceable_iff.2 ⟨he, hheld⟩)
  | @correct c hc ht ha =>
    have hmem := (current_mem hc).1
    obtain ⟨hstopped, -⟩ := updateAction_correctStop ha
    have hown := h.own c hmem
    refine (h.extends.rewrite (g := correctRow c r now) (rewrites_close hmem ?_ rfl rfl rfl hstopped
      rfl rfl (heldBy_congr rfl rfl rfl rfl))).postUsage _
    simp [directAttribution, correctRow, hown]
  | @outOfOrder c hc ht ha =>
    obtain ⟨hopen, htype, -⟩ := updateAction_closeOutOfOrder ha
    rw [← hc] at ha
    simp only [Clean, htype, ha] at hgood
    have hnot := hgood c hc
    refine h.extends.rewrite (g := outOfOrderRow r now) ⟨(current_mem hc).1, rfl, rfl, rfl, rfl,
      fun hclosed => ?_, nofun, fun htr => ?_⟩
    · rw [hopen] at hclosed
      cases hclosed
    · rw [hnot] at htr
      cases htr
  | @update c hc ht ha =>
    have hmem := (current_mem hc).1
    obtain ⟨hopen, hle, -⟩ := updateAction_update ha
    have hown := h.own c hmem
    have hgood' : (traceable address c = true → address.heldBy (updateRow c r now c) = true) ∧
        Acquires address db c (updateRow c r now c) := by
      unfold Clean at hgood
      rw [hc, ha] at hgood
      split at hgood
      · exact absurd ‹_› ht
      · exact hgood c rfl
    refine (h.extends.rewrite (g := updateRow c r now) (rewrites_advance hmem hopen ?_ rfl rfl rfl
      hle rfl hgood'.1 hgood'.2)).postUsage _
    simp [directAttribution, updateRow, hown]
  | late ht ha =>
    -- the row of a missed Start is never eligible
    exact (h.extends.insert (lateRow r now) ⟨⟨rfl, rfl⟩, rfl, nofun⟩).postUsage _

theorem Extends.sweep (h : Traced address db now) (cond : ConnectionLog → Bool)
    (terminateCause anomalyReason : String) :
    Extends address db now (closeOpenSessions db now cond terminateCause anomalyReason) :=
  closeOpenSessions_rule (fun _ _ hrow _ _ hdb =>
    hdb.rewrite (g := sweptRow terminateCause anomalyReason now)
      (rewrites_close hrow rfl rfl rfl rfl rfl rfl rfl (heldBy_congr rfl rfl rfl rfl))) h.extends

/-- **One event** keeps the invariant, and its state follows. -/
theorem extends_step {s : Server} (h : Traced address s.db s.now) (e : ℕ × Event)
    (hgood : KeepsCertain config address s e) :
    Extends address s.db (s.step config e).now (s.step config e).db := by
  obtain ⟨elapsed, e⟩ := e
  have hnow : Traced address s.db (s.now + elapsed) := h.later (by omega)
  cases e with
  | record attrs =>
    simp only [Server.step, Db.after, afterRecord]
    cases ho : ingestAccounting config s.db (s.now + elapsed) attrs with
    | error err => exact hnow.extends
    | ok o =>
      obtain ⟨r, hr, hw⟩ := ingestAccounting_writes ho
      simp only [KeepsCertain, hr] at hgood
      exact .writes hnow hw hgood
  | infrastructure organizationId nasId => exact .sweep hnow ..
  | closeStale organizationId => exact .sweep hnow ..
  | elsewhere => exact hnow.extends

end Step

/-! ### Every run -/

section Run

variable {config : Config} {address : Address}

theorem traced_empty (now : ℤ) : Traced address Db.empty now := by
  constructor <;> simp [Db.empty, Table.empty]

/-- **A clean run** keeps the invariant, and its last state follows its first. -/
theorem extends_run {s : Server} (h : Traced address s.db s.now) (events : List (ℕ × Event))
    (hgood : StepsMeet (Server.step config) (KeepsCertain config address) s events) :
    Traced address (run (Server.step config) s events).db (run (Server.step config) s events).now ∧
      Follows address s.now s.db (run (Server.step config) s events).db ∧
      s.now ≤ (run (Server.step config) s events).now := by
  induction events generalizing s with
  | nil => exact ⟨h, .refl _ _, le_rfl⟩
  | cons e events ih =>
    obtain ⟨htraced, hfollows⟩ := extends_step h e hgood.1
    obtain ⟨hend, hrest, hle⟩ := ih htraced hgood.2
    have hclock : s.now ≤ (s.step config e).now := by
      simp only [Server.step]
      omega
    exact ⟨hend, (hfollows.mono hclock).trans (hrest.mono hclock), hclock.trans hle⟩

end Run

/-! ### Two lookups -/

section Lookups

variable {config : Config} {db : Db} {now : ℤ} {lookup : Lookup}

theorem argmin_cons_of_le {α β : Type} [LinearOrder β] {f : α → β} {a : α} {l : List α} (h : ∀ b ∈ l, f a ≤ f b) :
    (a :: l).argmin f = some a := by
  rw [List.argmin_cons]
  cases hm : l.argmin f with
  | none => rfl
  | some b => exact if_neg (not_lt.2 (h b (List.argmin_mem hm)))

/-- The evidence of an assignment is the first evidence of its row. -/
theorem assignment_eq_first (hdb : Traced lookup.address db now) {row : ConnectionLog}
    {e : AccountingEvent} (h : Candidate config db now lookup row e) :
    e ∈ (holdings lookup.address db row).head? ∧ e.eventAt ≤ lookup.observedAt ∧
      e.observedAt ≤ lookup.observedAt := by
  have hrt := hdb.rows row h.mem h.complete
  have hassigned := h.assigned
  have hfilter : (db.evidence.filter fun e => evidenceOf row lookup.address e && decide
      (e.eventAt ≤ lookup.observedAt) && decide (e.observedAt ≤ lookup.observedAt)) =
      (holdings lookup.address db row).filter fun e => decide (e.eventAt ≤ lookup.observedAt) &&
        decide (e.observedAt ≤ lookup.observedAt) := by
    rw [holdings, List.filter_filter]
    congr 1
    funext e
    rw [Bool.and_assoc, Bool.and_comm]
  rw [assignmentEvidence, hfilter] at hassigned
  have hmem := List.argmin_mem hassigned
  simp only [List.mem_filter, Bool.and_eq_true, decide_eq_true_eq] at hmem
  obtain ⟨hin, hevent, hobserved⟩ := hmem
  refine ⟨?_, hevent, hobserved⟩
  have hsorted := hrt.sorted
  cases hh : holdings lookup.address db row with
  | nil =>
    rw [hh] at hin
    cases hin
  | cons first rest =>
    rw [hh, List.pairwise_cons] at hsorted
    rw [hh] at hin hassigned
    -- the first evidence is known at the instant too, and no other comes before it
    have hfirst : first.eventAt ≤ e.eventAt ∧ first.observedAt ≤ e.observedAt := by
      rcases List.mem_cons.1 hin with rfl | hin
      · exact ⟨le_rfl, le_rfl⟩
      · exact hsorted.1 e hin
    rw [List.filter_cons_of_pos (by
      simp only [Bool.and_eq_true, decide_eq_true_eq]
      exact ⟨hfirst.1.trans hevent, hfirst.2.trans hobserved⟩),
      argmin_cons_of_le fun b hb => ?_] at hassigned
    · obtain rfl := Option.some.inj hassigned
      rfl
    · have hle := hsorted.1 b (List.mem_filter.1 hb).1
      exact max_le_max hle.1 hle.2

theorem Candidate.lastAt (hdb : Traced lookup.address db now) {row : ConnectionLog}
    {e : AccountingEvent} (h : Candidate config db now lookup row e) :
    lookup.observedAt ≤ row.lastAt := by
  have hreaches := h.reaches
  unfold reachesInstant at hreaches
  cases hopen : row.isOpen with
  | true =>
    rw [if_pos hopen, Bool.and_eq_true] at hreaches
    obtain ⟨t, ht, hle⟩ := (Option.any_eq_true _ _).1 hreaches.2
    rw [ConnectionLog.lastAt, ht]
    simpa using hle
  | false =>
    rw [if_neg (by rw [hopen]; exact Bool.false_ne_true)] at hreaches
    obtain ⟨closure, hclosure, hlater⟩ := (Option.any_eq_true _ _).1 hreaches
    have hmem := List.argmax_mem hclosure
    simp only [List.mem_reverse, List.mem_filter, Bool.and_eq_true, decide_eq_true_eq] at hmem
    obtain ⟨hin, hof, htype⟩ := hmem
    have hinst := (evidenceOf_iff.1 hof).2.1.trans (hdb.own row h.mem)
    have hend := (hdb.stopped row h.mem closure hin hinst htype).2
    simp only [decide_eq_true_eq] at hlater
    omega

/-- The row of a candidate's assignment, in a state before: it held the address by then. -/
theorem Candidate.before {db' : Db} {now' : ℤ} (hdb : Traced lookup.address db now)
    (hdb' : Traced lookup.address db' now') (hf : Follows lookup.address now db db')
    (hpast : lookup.observedAt < now) {row : ConnectionLog} {e : AccountingEvent}
    (h : Candidate config db' now' lookup row e) :
    ∃ old ∈ db.logs.rows, Continues lookup.address old row ∧ eligible old = true ∧
      lookup.address.heldBy old = true ∧ e ∈ (holdings lookup.address db old).head? := by
  obtain ⟨hfirst, -, hobserved⟩ := assignment_eq_first hdb' h
  obtain ⟨new, hnew, hlate⟩ := hf.evidence
  have hin := mem_holdings.1 (List.mem_of_mem_head? hfirst)
  obtain ⟨ho, hinst, hheld⟩ := evidenceOf_iff.1 hin.2
  -- what was observed by the instant was there before the first lookup
  have hold : e ∈ db.evidence := by
    have hmem := hin.1
    rw [hnew] at hmem
    rcases List.mem_append.1 hmem with hmem | hmem
    · exact hmem
    · exact absurd (hlate e hmem) (by omega)
  obtain ⟨old, hrow, hid, -⟩ := hdb.ofRow e hold
  obtain ⟨row', hrow', hcont⟩ := hf.rows old hrow
  have hsame : row' = row := by
    refine Table.eq_of_key_eq hrow' h.mem (hcont.id.trans ?_)
    rw [hinst, hdb'.own row h.mem] at hid
    exact (Option.some.inj hid).symm
  subst hsame
  have heligible := hcont.wasEligible h.complete
  have hholdings : holdings lookup.address db' row' = holdings lookup.address db old ++
      new.filter (evidenceOf old lookup.address) := by
    rw [holdings, hnew, List.filter_append, holdings, evidenceOf_congr hcont.organization
      (congrArg DirectAttribution.sessionInstanceId hcont.attribution)]
  have hne : holdings lookup.address db old ≠ [] := by
    refine List.ne_nil_of_mem (mem_holdings.2 ⟨hold, ?_⟩)
    rw [← evidenceOf_congr hcont.organization
      (congrArg DirectAttribution.sessionInstanceId hcont.attribution)]
    exact hin.2
  refine ⟨old, hrow, hcont, heligible, (hdb.rows old hrow heligible).held.2 hne, ?_⟩
  obtain ⟨first, rest, hcons⟩ := List.exists_cons_of_ne_nil hne
  rw [hholdings, hcons] at hfirst
  rw [hcons]
  exact hfirst

/-- **Two certain answers agree**, the second in a state that follows the first. -/
theorem matched_agree {db' : Db} {now' : ℤ} (hdb : Traced lookup.address db now)
    (hdb' : Traced lookup.address db' now') (hf : Follows lookup.address now db db')
    (hpast : lookup.observedAt < now) {a b : DirectAttribution}
    (ha : lookupDirect config db now lookup = .matched a)
    (hb : lookupDirect config db' now' lookup = .matched b) : a = b := by
  obtain ⟨row₁, e₁, rfl, hc₁, hclear₁⟩ := lookupDirect_matched ha
  obtain ⟨row₂, e₂, rfl, hc₂, hclear₂⟩ := lookupDirect_matched hb
  obtain ⟨hfirst₁, hevent₁, -⟩ := assignment_eq_first hdb hc₁
  obtain ⟨-, hevent₂, -⟩ := assignment_eq_first hdb' hc₂
  -- each session in the state of the other lookup
  obtain ⟨row₁', hrow₁', hcont₁⟩ := hf.rows row₁ hc₁.mem
  obtain ⟨row₂', hrow₂', hcont₂, heligible₂, hheld₂, hfirst₂⟩ := hc₂.before hdb hdb' hf hpast
  by_contra hne
  have hid : row₂'.id ≠ row₁.id := by
    intro hid
    have hsame : row₁' = row₂ := Table.eq_of_key_eq hrow₁' hc₂.mem
      (hcont₁.id.trans (hid.symm.trans hcont₂.id.symm))
    exact hne (hsame ▸ hcont₁.attribution).symm
  obtain ⟨htrace₁, hlast₁⟩ := hcont₁.staysTraceable (traceable_iff.2 ⟨hc₁.complete, hc₁.held⟩)
  have hstart₁ := ((hdb.rows row₁ hc₁.mem hc₁.complete).within e₁
    (List.mem_of_mem_head? hfirst₁)).1
  have hstart₂ := ((hdb.rows row₂' hrow₂' heligible₂).within e₂
    (List.mem_of_mem_head? hfirst₂)).1
  -- neither blocks the other, so each is open and started before the other's assignment
  have hfree₁ : row₂'.isOpen = true ∧ row₂'.eventAt < e₁.eventAt := by
    have hfree := hclear₁ row₂' hrow₂'
    simp only [blocks, decide_eq_true_eq, not_and, not_or, not_le] at hfree
    have hfree' := hfree (hcont₂.organization.symm.trans hc₂.organization) hheld₂ hid
      (hstart₂.trans hevent₂)
    cases hopen : row₂'.isOpen with
    | false =>
      have hend := hc₂.lastAt hdb'
      rw [(hcont₂.stopped hopen).2] at hend
      exact absurd hend (not_le.2 (hfree'.1 hopen))
    | true => exact ⟨rfl, hfree'.2 hopen⟩
  have hfree₂ : row₁'.isOpen = true ∧ row₁'.eventAt < e₂.eventAt := by
    have hfree := hclear₂ row₁' hrow₁'
    simp only [blocks, decide_eq_true_eq, not_and, not_or, not_le] at hfree
    have hfree' := hfree (hcont₁.organization.trans hc₁.organization) (traceable_iff.1 htrace₁).2
      (fun h => hid (hcont₂.id.symm.trans (h.symm.trans hcont₁.id)))
      (hcont₁.started.le.trans (hstart₁.trans hevent₁))
    cases hopen : row₁'.isOpen with
    | false => exact absurd ((hc₁.lastAt hdb).trans hlast₁) (not_le.2 (hfree'.1 hopen))
    | true => exact ⟨rfl, hfree'.2 hopen⟩
  have hopen₁ : row₁.isOpen = true := by
    by_contra hclosed
    rw [(hcont₁.stopped (Bool.not_eq_true _ ▸ hclosed)).1] at hfree₂
    cases hfree₂.1
  refine hdb.uncrossed row₁ hc₁.mem hc₁.complete hopen₁ e₁ hfirst₁ row₂' hrow₂' ⟨hid, ?_,
    heligible₂, hfree₁.1, e₂, hfirst₂, ?_, hfree₁.2⟩
  · exact hcont₂.organization.symm.trans (hc₂.organization.trans hc₁.organization.symm)
  · rw [← hcont₁.started]
    exact hfree₂.2

end Lookups

/-! ### Where a certain answer changes -/

/-- Who held the address at 2500 s. -/
def sampleLookup : Lookup := ⟨1, .v4 "200.1.2.3", 2500000⟩

/-- A record of a first subscriber, with the address. -/
def sampleFirst (acctStatusType : String) (eventTimestamp : Option ℤ) : Attrs :=
  { sampleRecord acctStatusType eventTimestamp with framedIpAddress := some "200.1.2.3" }

/-- A record of a second subscriber, with the same address. -/
def sampleSecond (acctStatusType : String) : Attrs :=
  { sampleFirst acctStatusType none with
    userName := "ben", acctSessionId := "s2", clientId := 2, contractId := 2 }

/-- The second subscriber's session goes silent, and the first one gets the address. -/
def reassigned : List (ℕ × Event) :=
  [(1000000, .record (sampleSecond "Start")), (1000000, .record (sampleFirst "Start" none)),
    (1000000, .record (sampleFirst "Interim-Update" none))]

/-- A late Stop moves the first session's end before the instant, and the second session is heard
of again. -/
def movedEnd : List (ℕ × Event) :=
  [(200000, .record (sampleFirst "Stop" (some 2200000))),
    (100000, .record (sampleSecond "Interim-Update"))]

/-- The server after the given events. -/
def sampleServer (events : List (ℕ × Event)) : Server :=
  run (Server.step sampleConfig) ⟨Db.empty, 0⟩ events

/-- The first session is heard of again. -/
def heardAgain : List (ℕ × Event) := [(200000, .record (sampleFirst "Interim-Update" none))]

end Vigabss.Attribution
