import Vigabss.Cgnat.Server

/-!
# Vigabss.Cgnat.Sequence — what clean counters prove

An exporter's counters sum up all that it has sent.  `Clean` counters (no gap, nothing missing,
nothing out of order) prove that its events are one unbroken run of one boot, in the order of
their corrected times.  The invariant `Tallied` is kept record by record, and by batches side by
side because each of them locks the exporters that it writes.
-/

namespace Vigabss.Cgnat

open Vigabss.Lib

/-- The counters show no gap, no missing record and no record out of order. -/
def Exporter.Clean (c : Exporter) : Prop :=
  c.sequenceGapEvents = 0 ∧ c.sequenceMissingRecords = 0 ∧ c.outOfOrderEvents = 0

/-- **One run**: the events are of one boot, their sequence numbers are those from `first` on, none
missing and none twice, up to the exporter's last one, and their corrected times never fall. -/
def OneRun (c : Exporter) (events : List BindingEvent) : Prop :=
  ∃ bootId first, (∀ e ∈ events, e.payload.exporterBootId = bootId) ∧
    events.map (·.payload.sequenceNumber) = List.range' first events.length ∧
    (events ≠ [] → c.lastSequenceNumber = some (first + events.length - 1)) ∧
    (events.map (·.payload.correctedDeviceAt)).Pairwise (· ≤ ·)

/-! ### One exporter -/

/-- **The invariant of an exporter**: with clean counters, its events run from the first to what
it has stored as its last boot, number and time. -/
def Tallied (c : Exporter) (events : List BindingEvent) : Prop :=
  c.sequenceGapEvents = 0 → c.outOfOrderEvents = 0 →
    match c.lastExporterBootId with
    | none => events = [] ∧ c.lastCorrectedDeviceAt = none
    | some bootId => ∃ first n last, (∀ e ∈ events, e.payload.exporterBootId = bootId) ∧
        events.map (·.payload.sequenceNumber) = List.range' first (n + 1) ∧
        c.lastSequenceNumber = some (first + n) ∧ c.lastCorrectedDeviceAt = some last ∧
        (∀ e ∈ events, e.payload.correctedDeviceAt ≤ last) ∧
        (events.map (·.payload.correctedDeviceAt)).Pairwise (· ≤ ·)

theorem Tallied.oneRun {c : Exporter} {events : List BindingEvent} (h : Tallied c events)
    (hclean : c.Clean) : OneRun c events := by
  have h := h hclean.1 hclean.2.2
  split at h
  · obtain ⟨rfl, -⟩ := h
    exact ⟨"", 0, by simp⟩
  · obtain ⟨first, n, last, hboot, hseq, hlast, -, -, hmono⟩ := h
    rename_i bootId _
    have hlen : events.length = n + 1 := by simpa using congrArg List.length hseq
    refine ⟨bootId, first, hboot, by rw [hlen, hseq], fun _ => ?_, hmono⟩
    rw [hlast, hlen, Nat.add_sub_assoc (by omega), Nat.add_sub_cancel]

section Record

variable {c : Exporter} {events : List BindingEvent} {b : Binding} {e : BindingEvent} {now : ℤ}
  {seen : Bool}

/-- With clean counters, the record was the first of its exporter, or continued its run. -/
theorem sequenceState_clean
    (hgap : (sequenceState c b seen).status ≠ .gap)
    (hooo : (sequenceState c b seen).status ≠ .outOfOrder) :
    (sequenceState c b seen).advances = true ∧
      (c.lastExporterBootId = none ∨
        c.lastExporterBootId = some b.exporterBootId ∧
          (∀ last ∈ c.lastCorrectedDeviceAt, last ≤ b.correctedDeviceAt) ∧
          b.sequenceNumber = c.lastSequenceNumber.getD 0 + 1) := by
  unfold sequenceState at hgap hooo ⊢
  cases hboot : c.lastExporterBootId with
  | none =>
    simp only [hboot] at hgap ⊢
    split_ifs at hgap ⊢
    · exact ⟨rfl, .inl trivial⟩
    · exact absurd rfl hgap
  | some bootId =>
    simp only [hboot] at hgap hooo ⊢
    by_cases hne : bootId ≠ b.exporterBootId
    · -- a restart is a gap, or out of order
      rw [if_pos hne] at hgap hooo
      split_ifs at hgap hooo
      · exact absurd rfl hooo
      · exact absurd rfl hgap
    rw [if_neg hne] at hgap hooo ⊢
    by_cases htime : c.lastCorrectedDeviceAt.any (fun last => decide (b.correctedDeviceAt < last))
    · rw [if_pos htime] at hooo
      exact absurd rfl hooo
    rw [if_neg htime] at hgap hooo ⊢
    by_cases hseq : b.sequenceNumber = c.lastSequenceNumber.getD 0 + 1
    · rw [if_pos hseq]
      refine ⟨rfl, .inr ⟨by rw [not_not.1 hne], fun last hlast => ?_, hseq⟩⟩
      simpa [Option.mem_def.1 hlast] using htime
    · rw [if_neg hseq] at hgap hooo
      split_ifs at hgap hooo
      · exact absurd rfl hgap
      · exact absurd rfl hooo

theorem afterRecord_clean (info : SequenceInfo)
    (hgap : (c.afterRecord now info b).sequenceGapEvents = 0)
    (hooo : (c.afterRecord now info b).outOfOrderEvents = 0) :
    c.sequenceGapEvents = 0 ∧ c.outOfOrderEvents = 0 ∧ info.status ≠ .gap ∧
      info.status ≠ .outOfOrder := by
  simp only [Exporter.afterRecord, Nat.add_eq_zero_iff] at hgap hooo
  refine ⟨hgap.1, hooo.1, fun h => ?_, fun h => ?_⟩
  · simp [h] at hgap
  · simp [h] at hooo

theorem raise_advances {stored : Option ℤ} {new : ℤ} (h : ∀ last ∈ stored, last ≤ new) :
    raise true stored new = some new := by
  unfold raise
  split_ifs with hlt
  · rfl
  · cases stored with
    | none => simp at hlt
    | some last =>
      have := h last rfl
      have : last = new := by
        simp at hlt
        omega
      rw [this]

/-- **One record** keeps the tally of its exporter. -/
theorem Tallied.record (h : Tallied c events) (he : e.payload = b) :
    Tallied (c.afterRecord now (sequenceState c b seen) b) (events ++ [e]) := by
  intro hgap hooo
  obtain ⟨hgap, hooo, hs1, hs2⟩ := afterRecord_clean _ hgap hooo
  obtain ⟨hadv, hcases⟩ := sequenceState_clean hs1 hs2
  have hold := h hgap hooo
  simp only [Exporter.afterRecord, hadv, if_true]
  rcases hcases with hnone | ⟨hboot, htime, hseq⟩
  · -- the first record
    rw [hnone] at hold
    obtain ⟨rfl, hlast⟩ := hold
    refine ⟨b.sequenceNumber, 0, b.correctedDeviceAt, ?_, ?_, rfl, ?_, ?_, ?_⟩
    · simp [he]
    · simp [he]
    · rw [hlast]
      rfl
    · simp [he]
    · simp
  · rw [hboot] at hold
    obtain ⟨first, n, last, hboots, hrange, hnumber, hlast, hle, hmono⟩ := hold
    have hlb : last ≤ b.correctedDeviceAt := htime last hlast
    refine ⟨first, n + 1, b.correctedDeviceAt, ?_, ?_, ?_, raise_advances htime, ?_, ?_⟩
    · intro x hx
      rcases List.mem_append.1 hx with hx | hx
      · exact hboots x hx
      · rw [List.mem_singleton.1 hx, he]
    · rw [List.map_append, hrange, List.range'_1_concat (n := n + 1)]
      simp [he, hseq, hnumber, add_assoc]
    · rw [hseq, hnumber]
      simp [add_assoc]
    · intro x hx
      rcases List.mem_append.1 hx with hx | hx
      · exact (hle x hx).trans hlb
      · rw [List.mem_singleton.1 hx, he]
    · rw [List.map_append, List.pairwise_append]
      refine ⟨hmono, by simp, fun x hx y hy => ?_⟩
      obtain ⟨z, hz, rfl⟩ := List.mem_map.1 hx
      obtain rfl : b.correctedDeviceAt = y := by simpa [he, eq_comm] using hy
      exact (hle z hz).trans hlb

end Record

/-! ### The ledger -/

/-- Every exporter is tallied, and every event is of a stored exporter. -/
structure Tally (db : Db) : Prop where
  exporters : ∀ c ∈ db.exporters.rows, Tallied c (db.eventsOf c.organizationId c.id)
  events : ∀ e ∈ db.events, ∃ c ∈ db.exporters.rows, c.id = e.exporterConfigId

/-- What a saved configuration keeps of the counters. -/
structure SameCounters (c c₀ : Exporter) : Prop where
  id : c.id = c₀.id
  organization : c.organizationId = c₀.organizationId
  boot : c.lastExporterBootId = c₀.lastExporterBootId
  number : c.lastSequenceNumber = c₀.lastSequenceNumber
  time : c.lastCorrectedDeviceAt = c₀.lastCorrectedDeviceAt
  gaps : c.sequenceGapEvents = c₀.sequenceGapEvents
  disorder : c.outOfOrderEvents = c₀.outOfOrderEvents

theorem Tallied.sameCounters {c c₀ : Exporter} {events : List BindingEvent}
    (h : Tallied c₀ events) (hs : SameCounters c c₀) : Tallied c events := by
  unfold Tallied at h ⊢
  rw [hs.boot, hs.number, hs.time, hs.gaps, hs.disorder]
  exact h

section Ledger

variable {db : Db}

/-- Storing a record keeps the tally. -/
theorem Tally.store {settings : Config} {radius : Radius.Db} {now : ℤ}
    {organizationId apiTokenId bindingId : ℕ} {b : Binding} {config : Exporter} {w : Writes}
    (h : Tally db)
    (hw : Stores settings db radius now organizationId apiTokenId bindingId b config w) :
    Tally (db.store w) := by
  have hmem := hw.resolves.mem
  have hid : w.exporter.id = config.id := by rw [hw.exporter]; rfl
  have horg : w.exporter.organizationId = organizationId := by
    rw [hw.exporter, ← hw.resolves.organization]
    rfl
  refine ⟨fun c hc => ?_, fun e he => ?_⟩
  · rcases Table.mem_put.1 hc with rfl | ⟨hc, hne⟩
    · -- the exporter of the record
      have hevents : (db.store w).eventsOf organizationId config.id =
          db.eventsOf organizationId config.id ++ [w.event] := by
        simp [Db.eventsOf, Db.store, List.filter_append, hw.event]
      rw [horg, hid, hevents, hw.exporter]
      have hold := h.exporters config hmem.1
      rw [hw.resolves.organization] at hold
      exact hold.record (by rw [hw.event])
    · -- another one: the event is not its own
      have hevents : (db.store w).eventsOf c.organizationId c.id =
          db.eventsOf c.organizationId c.id := by
        have hother : w.event.exporterConfigId ≠ c.id := by
          rw [hw.event]
          exact fun heq => hne (heq.symm.trans hid.symm)
        simp [Db.eventsOf, Db.store, List.filter_append, hother]
      rw [hevents]
      exact h.exporters c hc
  · have hkeep : ∀ c ∈ db.exporters.rows, ∃ c' ∈ (db.store w).exporters.rows, c'.id = c.id := by
      intro c hc
      by_cases hcid : c.id = w.exporter.id
      · exact ⟨w.exporter, Table.mem_put.2 (.inl rfl), hcid.symm⟩
      · exact ⟨c, Table.mem_put.2 (.inr ⟨hc, hcid⟩), rfl⟩
    rcases List.mem_append.1 he with he | he
    · obtain ⟨c, hc, hcid⟩ := h.events e he
      obtain ⟨c', hc', hcid'⟩ := hkeep c hc
      exact ⟨c', hc', hcid'.trans hcid⟩
    · obtain rfl := List.mem_singleton.1 he
      obtain ⟨c', hc', hcid'⟩ := hkeep config hmem.1
      exact ⟨c', hc', by rw [hcid', hw.event]⟩

theorem Tally.save {c : Exporter} (h : Tally db)
    (hc : (∃ c₀ ∈ db.exporters.rows, SameCounters c c₀) ∨
      c.id = db.exporters.nextId ∧ c.lastExporterBootId = none ∧ c.lastCorrectedDeviceAt = none) :
    Tally (db.save c) := by
  refine ⟨fun x hx => ?_, fun e he => ?_⟩
  · rcases Table.mem_put.1 hx with rfl | ⟨hx, -⟩
    · rcases hc with ⟨c₀, hc₀, hs⟩ | ⟨hid, hboot, htime⟩
      · have hold := h.exporters c₀ hc₀
        rw [← hs.id, ← hs.organization] at hold
        exact hold.sameCounters hs
      · -- a new exporter has no events yet
        have hnone : (db.save x).eventsOf x.organizationId x.id = [] := by
          refine List.filter_eq_nil_iff.2 fun e he hof => ?_
          obtain ⟨c₀, hc₀, hcid⟩ := h.events e he
          have hlt := Table.key_lt_nextId hc₀
          simp only [decide_eq_true_eq] at hof
          exact hlt.ne (hcid.trans (hof.2.trans hid))
        intro _ _
        rw [hnone, hboot]
        exact ⟨rfl, htime⟩
    · exact h.exporters x hx
  · obtain ⟨c₀, hc₀, hcid⟩ := h.events e he
    by_cases heq : c₀.id = c.id
    · exact ⟨c, Table.mem_put.2 (.inl rfl), heq.symm.trans hcid⟩
    · exact ⟨c₀, Table.mem_put.2 (.inr ⟨hc₀, heq⟩), hcid⟩

end Ledger

/-! ### Transactions -/

/-- The exporters that a transaction has written. -/
def writtenExporters (ws : List Write) : List Exporter :=
  ws.map fun
    | .record w => w.exporter
    | .save config => config

/-- The events that a transaction has added. -/
def addedEvents (ws : List Write) : List BindingEvent :=
  ws.filterMap fun
    | .record w => some w.event
    | .save _ => none

/-- The events of a transaction are of the exporters that it has written. -/
def OwnsEvents (_ : Db) (ws : List Write) : Prop :=
  ∀ w, Write.record w ∈ ws → w.event.exporterConfigId = w.exporter.id

section Transactions

variable {db : Db} {ws us : List Write}

theorem exporters_foldl (ws : List Write) (db : Db) :
    (ws.foldl Db.apply db).exporters = (writtenExporters ws).foldl Table.put db.exporters := by
  induction ws generalizing db with
  | nil => rfl
  | cons w ws ih =>
    rw [List.foldl_cons, ih]
    cases w <;> rfl

theorem events_foldl (ws : List Write) (db : Db) :
    (ws.foldl Db.apply db).events = db.events ++ addedEvents ws := by
  induction ws generalizing db with
  | nil => simp [addedEvents]
  | cons w ws ih =>
    rw [List.foldl_cons, ih]
    cases w <;> simp [Db.apply, Db.store, Db.save, addedEvents]

theorem mem_writtenExporters {id : ℕ} :
    id ∈ (writtenExporters ws).map Keyed.key ↔ Lock.exporter id ∈ locksOf Write.locks ws := by
  simp only [writtenExporters, List.map_map, List.mem_map, mem_locksOf, Function.comp_apply]
  refine exists_congr fun w => and_congr_right fun _ => ?_
  cases w with
  | record w =>
    simp only [Write.locks]
    split_ifs <;> simp [StoredBinding.tupleLock, Keyed.key, eq_comm]
  | save => simp [Write.locks, Keyed.key, eq_comm]

theorem mem_exporters_of_written {c : Exporter}
    (hlock : Lock.exporter c.id ∈ locksOf Write.locks us) :
    c ∈ (us.foldl Db.apply (ws.foldl Db.apply db)).exporters.rows ↔
      c ∈ (us.foldl Db.apply db).exporters.rows := by
  rw [exporters_foldl us, exporters_foldl us]
  exact Table.mem_foldl_put_of_mem (mem_writtenExporters.2 hlock)

theorem mem_exporters_of_unwritten {c : Exporter}
    (hlock : Lock.exporter c.id ∉ locksOf Write.locks us) :
    c ∈ (us.foldl Db.apply db).exporters.rows ↔ c ∈ db.exporters.rows := by
  rw [exporters_foldl us]
  exact Table.mem_foldl_put_of_not_mem fun h => hlock (mem_writtenExporters.1 h)

theorem addedEvents_of_unlocked {organizationId id : ℕ} (howns : OwnsEvents db us)
    (hlock : Lock.exporter id ∉ locksOf Write.locks us) :
    (addedEvents us).filter (fun e =>
      decide (e.organizationId = organizationId ∧ e.exporterConfigId = id)) = [] := by
  refine List.filter_eq_nil_iff.2 fun e he hof => ?_
  simp only [addedEvents, List.mem_filterMap] at he
  obtain ⟨w, hw, hwe⟩ := he
  cases w with
  | save => cases hwe
  | record w =>
    obtain rfl := Option.some.inj hwe
    simp only [decide_eq_true_eq] at hof
    refine hlock (mem_locksOf.2 ⟨_, hw, ?_⟩)
    rw [← hof.2, howns w hw]
    exact List.mem_cons_self

theorem exists_exporter_foldl {c : Exporter} (hc : c ∈ db.exporters.rows) (us : List Write) :
    ∃ c' ∈ (us.foldl Db.apply db).exporters.rows, c'.id = c.id := by
  induction us generalizing db c with
  | nil => exact ⟨c, hc, rfl⟩
  | cons w us ih =>
    have hkeep : ∃ c' ∈ (db.apply w).exporters.rows, c'.id = c.id := by
      have hput : ∀ x : Exporter, ∃ c' ∈ (db.exporters.put x).rows, c'.id = c.id := by
        intro x
        by_cases heq : c.id = x.id
        · exact ⟨x, Table.mem_put.2 (.inl rfl), heq.symm⟩
        · exact ⟨c, Table.mem_put.2 (.inr ⟨hc, heq⟩), rfl⟩
      cases w with
      | record w => exact hput w.exporter
      | save config => exact hput config
    obtain ⟨c', hc', hid⟩ := hkeep
    obtain ⟨c'', hc'', hid'⟩ := ih hc'
    exact ⟨c'', hc'', hid'.trans hid⟩

theorem tally_merges : Merges Db.apply Write.locks Tally OwnsEvents := by
  intro db ws hws hows us hus hous hdisj
  refine ⟨⟨fun c hc => ?_, fun e he => ?_⟩, hous⟩
  · by_cases hlock : Lock.exporter c.id ∈ locksOf Write.locks us
    · -- the other transaction has not touched this exporter
      have hfree : Lock.exporter c.id ∉ locksOf Write.locks ws := fun h => hdisj h hlock
      have hevents : (us.foldl Db.apply (ws.foldl Db.apply db)).eventsOf c.organizationId c.id =
          (us.foldl Db.apply db).eventsOf c.organizationId c.id := by
        simp only [Db.eventsOf, events_foldl, List.filter_append,
          addedEvents_of_unlocked hows hfree, List.append_nil]
      rw [hevents]
      exact hus.exporters c ((mem_exporters_of_written hlock).1 hc)
    · have hevents : (us.foldl Db.apply (ws.foldl Db.apply db)).eventsOf c.organizationId c.id =
          (ws.foldl Db.apply db).eventsOf c.organizationId c.id := by
        simp only [Db.eventsOf, events_foldl us, List.filter_append,
          addedEvents_of_unlocked hous hlock, List.append_nil]
      rw [hevents]
      exact hws.exporters c ((mem_exporters_of_unwritten hlock).1 hc)
  · rw [events_foldl] at he
    rcases List.mem_append.1 he with he | he
    · obtain ⟨c, hc, hid⟩ := hws.events e he
      obtain ⟨c', hc', hid'⟩ := exists_exporter_foldl hc us
      exact ⟨c', hc', hid'.trans hid⟩
    · have he : e ∈ (us.foldl Db.apply db).events := by
        rw [events_foldl]
        exact List.mem_append_right _ he
      obtain ⟨c, hc, hid⟩ := hus.events e he
      by_cases hlock : Lock.exporter c.id ∈ locksOf Write.locks us
      · exact ⟨c, (mem_exporters_of_written hlock).2 hc, hid⟩
      · have hc := (mem_exporters_of_unwritten hlock).1 hc
        obtain ⟨c', hc', hid'⟩ := exists_exporter_foldl hc ws
        obtain ⟨c'', hc'', hid''⟩ := exists_exporter_foldl hc' us
        exact ⟨c'', hc'', hid''.trans (hid'.trans hid)⟩

end Transactions

/-! ### The server -/

/-- **The invariant**: tallied in the stored state and in the view of every batch. -/
abbrev TalliedServer (s : Server) : Prop :=
  Isolated Db.apply Write.locks Tally OwnsEvents s.ledger

section Server

variable {settings : Config} {owners : TokenOwners} {s : Server}

theorem TalliedServer.start : TalliedServer Server.start :=
  isolated_start (by constructor <;> simp [Table.empty])

theorem OwnsEvents.record {db view : Db} {ws : List Write} {radius : Radius.Db} {now : ℤ}
    {organizationId apiTokenId bindingId : ℕ} {b : Binding} {config : Exporter} {w : Writes}
    (h : OwnsEvents db ws)
    (hw : Stores settings view radius now organizationId apiTokenId bindingId b config w) :
    OwnsEvents db (ws ++ [.record w]) := by
  intro x hx
  rcases List.mem_append.1 hx with hx | hx
  · exact h x hx
  · obtain rfl : x = w := by simpa using hx
    rw [hw.event, hw.exporter]
    rfl

theorem Saves.counters {db : Db} {organizationId : ℕ} {actor : Option ℕ} {now : ℤ}
    {existing : Option Exporter} {request : ExporterRequest} {first last : String}
    {config : Exporter}
    (h : Saves owners db organizationId actor now existing request first last config) :
    (∃ c₀ ∈ db.exporters.rows, SameCounters config c₀) ∨
      config.id = db.exporters.nextId ∧ config.lastExporterBootId = none ∧
        config.lastCorrectedDeviceAt = none := by
  cases h.row with
  | @epoch e hexisting hevidence hcheck =>
    exact .inl ⟨e, (h.existing_mem hexisting).1, rfl, rfl, rfl, rfl, rfl, rfl, rfl⟩
  | @configured base hbase hoverlap =>
    cases hbase with
    | stored _ => exact .inl ⟨base, (h.existing_mem rfl).1, rfl, rfl, rfl, rfl, rfl, rfl, rfl⟩
    | fresh => exact .inr ⟨rfl, rfl, rfl⟩

theorem SavesRow.counters {db : Db} {config : Exporter} (h : SavesRow owners db config) :
    (∃ c₀ ∈ db.exporters.rows, SameCounters config c₀) ∨
      config.id = db.exporters.nextId ∧ config.lastExporterBootId = none ∧
        config.lastCorrectedDeviceAt = none := by
  cases h with
  | save h => exact h.counters
  | recover hmem _ _ _ => exact .inl ⟨_, hmem, rfl, rfl, rfl, rfl, rfl, rfl, rfl⟩

/-- **One act** keeps the tallies. -/
theorem TalliedServer.step (h : TalliedServer s) (act : Act) :
    TalliedServer (s.step settings owners act) := by
  refine isolated_step (fun _ w hw => by simp at hw) tally_merges act
    (fun t _ record _ hview howned radius now bindingId config w hw => ?_)
    (fun c hc hstored => ?_) h
  · exact ⟨hview.store hw, howned.record hw⟩
  · have htally := hstored.save hc.counters
    exact ⟨htally, tally_merges _ _ htally fun w hw => by simp at hw⟩

/-- What clean counters say about a ledger. -/
def CleanProvesRun (db : Db) : Prop :=
  ∀ c ∈ db.exporters.rows, c.Clean → OneRun c (db.eventsOf c.organizationId c.id)

/-- **Clean counters prove one run**: in every interleaving of batches and configuration changes,
the events of an exporter whose counters are clean are one unbroken run of one boot. -/
theorem clean_counters_prove_run (settings : Config) (owners : TokenOwners) (acts : List Act) :
    Always (Server.step settings owners) (fun s => CleanProvesRun s.ledger.stored) Server.start
      acts :=
  (always_of_step (P := TalliedServer) (fun _ act h _ => h.step act) .start
    (stepsMeet_true _ acts)).mono fun _ h c hc hclean => (h.stored.exporters c hc).oneRun hclean

end Server

end Vigabss.Cgnat
