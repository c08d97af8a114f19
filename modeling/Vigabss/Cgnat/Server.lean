import Vigabss.Cgnat.Exporters
import Vigabss.Cgnat.Ingest
import Vigabss.Lib.Run
import Vigabss.Lib.Transactions

/-!
# Vigabss.Cgnat.Server — batches and configuration changes side by side

Every batch runs in a transaction, and the transactions of many collectors run side by side, one
record at a time.  The database makes them wait for each other: a record locks its exporter, the
binding it writes and, to allocate, the public address and protocol (`cgnat_public_tuple_locks`).
A locking read waits for other writers, so that what a transaction reads is the stored state with
its own writes.
-/

namespace Vigabss.Cgnat

open Vigabss.Lib

/-- What a transaction writes at once. -/
inductive Write where
  | record (writes : Writes)
  | save (config : Exporter)
  deriving DecidableEq

def Db.apply (db : Db) : Write → Db
  | .record w => db.store w
  | .save config => db.save config

/-- What a transaction holds until it ends. -/
inductive Lock where
  | exporter (id : ℕ)
  | binding (id : ℕ)
  /-- The row of `cgnat_public_tuple_locks`. -/
  | publicTuple (organizationId : ℕ) (publicIpv4 : String) (protocol : Protocol)
  deriving DecidableEq

/-- The public tuple of a binding, up to its ports. -/
def StoredBinding.tupleLock (row : StoredBinding) : Lock :=
  .publicTuple row.organizationId row.publicIpv4 row.protocol

/-- The locks of a write.  Those of a rejected record only make others wait, and are left out. -/
def Write.locks : Write → List Lock
  | .record w => .exporter w.exporter.id :: .binding w.binding.id ::
      if w.event.payload.eventType = .allocate then [w.binding.tupleLock] else []
  | .save config => [.exporter config.id]

/-- A batch in flight: what is left of it, and its counters. -/
structure Batch where
  organizationId : ℕ
  apiTokenId : ℕ
  records : List (ℕ × Binding)
  progress : Progress

/-- The ledger with the batches in flight, and the next key of the bindings, which no rollback
takes back. -/
structure Server where
  ledger : Shared Db Write Batch
  nextBindingId : ℕ

/-- A server with these configurations, and nothing ingested. -/
def Server.start : Server := ⟨⟨⟨Table.empty, Table.empty, []⟩, Table.empty⟩, 1⟩

inductive Act where
  /-- A batch is received and its records are well formed. -/
  | submit (now : ℤ) (organizationId apiTokenId : ℕ) (payload : List RawBinding)
  /-- A batch takes its next record, or waits. -/
  | next (now : ℤ) (radius : Radius.Db) (batch : ℕ)
  /-- A batch without further records ends. -/
  | finish (batch : ℕ)
  /-- A batch is cut off: its connection is lost, or a deadlock is broken. -/
  | abort (batch : ℕ)
  | save (now : ℤ) (registry : Registry) (organizationId : ℕ) (body : ExporterBody)
      (actor : Option ℕ)
  | recover (now : ℤ) (registry : Registry) (organizationId exporterConfigId : ℕ)
      (body : RecoveryBody) (actor : Option ℕ)

namespace Server

variable (settings : Config) (owners : TokenOwners) (s : Server)

/-- The exporters that the first statement of a record locks. -/
def exporterLocks (db : Db) (organizationId : ℕ) (b : Binding) : List Lock :=
  (db.identified (b.identity organizationId)).map fun c => .exporter c.id

/-- A batch takes a record, once its exporter is free. -/
def takeRecord (now : ℤ) (radius : Radius.Db) (t : Transaction Write Batch)
    (record : ℕ × Binding) (records : List (ℕ × Binding)) : Server :=
  if ¬ s.ledger.free Write.locks t.id (exporterLocks (t.view Db.apply s.ledger.stored)
      t.task.organizationId record.2) then s
  else
  match pass settings (t.view Db.apply s.ledger.stored) radius now t.task.organizationId
    t.task.apiTokenId s.nextBindingId t.task.progress record with
  | .error _ => { s with ledger := s.ledger.rollback t.id }
  | .ok (none, progress) =>
    { s with ledger := s.ledger.advance t.id [] { t.task with records, progress } }
  | .ok (some w, progress) =>
    if s.ledger.free Write.locks t.id (Write.record w).locks then
      { ledger := s.ledger.advance t.id [.record w] { t.task with records, progress }
        nextBindingId := max s.nextBindingId (w.binding.id + 1) }
    else s

/-- A batch ends. -/
def finish (t : Transaction Write Batch) : Server :=
  match t.task.progress.failure with
  | some _ => { s with ledger := s.ledger.rollback t.id }
  | none => { s with ledger := s.ledger.commit Db.apply t }

/-- A configuration is saved when no batch holds it. -/
def saveExporter (config : Except Failure Exporter) : Server :=
  match config with
  | .error _ => s
  | .ok config =>
    if s.ledger.free Write.locks s.ledger.inFlight.nextId (Write.save config).locks then
      { s with ledger := s.ledger.write Db.apply [.save config] }
    else s

/-- One act. -/
def step : Act → Server
  | .submit now organizationId apiTokenId payload =>
    match normalizeBatch settings now payload with
    | .error _ => s
    | .ok records =>
      { s with ledger := s.ledger.begin ⟨organizationId, apiTokenId, records, .start⟩ }
  | .next now radius batch =>
    match s.ledger.inFlight.find? batch with
    | none => s
    | some t =>
      match t.task.records with
      | [] => s
      | record :: records => s.takeRecord settings now radius t record records
  | .finish batch =>
    match s.ledger.inFlight.find? batch with
    | none => s
    | some t => if t.task.records = [] then s.finish t else s
  | .abort batch => { s with ledger := s.ledger.rollback batch }
  | .save now registry organizationId body actor =>
    s.saveExporter (saveExporterConfig owners registry s.ledger.stored organizationId body actor now)
  | .recover now registry organizationId exporterConfigId body actor =>
    s.saveExporter (approveReleaseRecovery owners registry s.ledger.stored organizationId
      exporterConfigId body actor now)

end Server

/-! ### A sample exporter -/

/-- The default settings. -/
def sampleSettings : Config := ⟨500, 300, 900⟩

/-- All tokens are of organization 1. -/
def sampleOwners : TokenOwners := fun _ => 1

/-- One pool and one collector token. -/
def sampleRegistry : Registry := ⟨[], [⟨1, 1, "200.1.2.0", "200.1.2.255"⟩], [1]⟩

/-- Enable the sample exporter with this pool and token. -/
def sampleBody (natPoolRecordId collectorApiTokenId : ℤ) : ExporterBody where
  unexpected := []
  exporterId := .given "x1"
  exporterNasId := .absent
  exporterIp := .absent
  natInstanceId := .given "n1"
  natPoolId := .given "p1"
  natPoolRecordId := .given natPoolRecordId
  natRealm := .given "r1"
  purposeReference := .given "purpose"
  tupleExclusivityConfirmed := .given true
  collectorApiTokenId := .given collectorApiTokenId
  authoritativeBaselineConfirmed := .given true
  baselineReference := .given "baseline"
  isRequired := .absent
  enabled := .given true

/-- A session at `100.64.0.1` that started at `start` and is still heard at `last`. -/
def sampleSession (start last : ℤ) : Radius.ConnectionLog where
  id := 1
  organizationId := 1
  nasId := 1
  contractId := 1
  clientId := 1
  username := "ana"
  acctSessionId := some "s1"
  sessionId := "s1"
  sessionInstanceId := some 1
  callingStationId := none
  framedIp := some "100.64.0.1"
  framedIpv6Prefix := none
  ipv6DelegatedPrefix := none
  ipv6Address := none
  eventType := .start
  eventAt := start
  counters := fun _ => none
  terminateCause := none
  lastAccountingAt := some last
  lastAccountingReceivedAt := some last
  acctDelaySeconds := 0
  attributionEvidenceComplete := true
  attributionAnomalyReason := none
  usageAccountingComplete := true
  usageAnomalyCount := 0
  usageLast := fun _ => none

/-- The session tables with that session alone. -/
def sampleRadius (start last : ℤ) : Radius.Db where
  logs := Table.empty.put (sampleSession start last)
  usage := []
  evidence := [⟨sampleSession start start, start, start⟩]

/-- A record about port 5000 of `200.1.2.3`, numbered `n` and dated as its event. -/
def sampleRecord (eventType key : String) (n : ℕ) (allocatedAt : ℤ) (releasedAt : Option ℤ) :
    RawBinding where
  unexpected := []
  eventType := .given eventType
  bindingKey := .given key
  bindingType := .given "single_port"
  privateIpv4 := .given "100.64.0.1"
  privatePortStart := .given 4000
  privatePortEnd := .given 4000
  publicIpv4 := .given "200.1.2.3"
  publicPortStart := .given 5000
  publicPortEnd := .given 5000
  protocol := .given (.inl 6)
  allocatedAt := .given (some allocatedAt)
  releasedAt := releasedAt.elim .absent fun t => .given (some t)
  clientId := .absent
  contractId := .absent
  username := .absent
  radiusSessionId := .absent
  sessionInstanceId := .given (some 1)
  exporterNasId := .absent
  exporterId := .given "x1"
  exporterIp := .absent
  exporterBootId := .given "b1"
  natInstanceId := .given "n1"
  natPoolId := .given "p1"
  natRealm := .given "r1"
  eventId := .given ("e" ++ toString n)
  sequenceNumber := .given n
  deviceRecordedAt := .given (some (releasedAt.getD allocatedAt))
  clockOffsetMs := .given 0
  clockUncertaintyMs := .given 0
  recordsLostBefore := .given 0

end Vigabss.Cgnat

/-!
## The invariant rule of the server

An invariant of the ledger holds along every run of batches side by side when one record keeps it
in the view of its batch, when a saved configuration keeps it, and when transactions with different
locks can be merged.  `isolated_step` is that rule for one act of the server.
-/

namespace Vigabss.Cgnat

open Vigabss.Lib

/-- A row that a save or an approval writes. -/
inductive SavesRow (owners : TokenOwners) (db : Db) : Exporter → Prop where
  | save {organizationId : ℕ} {actor : Option ℕ} {now : ℤ} {existing : Option Exporter}
      {request : ExporterRequest} {first last : String} {config : Exporter}
      (h : Saves owners db organizationId actor now existing request first last config) :
      SavesRow owners db config
  | recover {organizationId token : ℕ} {stored : Exporter} {reference : String}
      {actor : Option ℕ} {now : ℤ} (hmem : stored ∈ db.exporters.rows)
      (horg : stored.organizationId = organizationId) (howner : owners token = organizationId)
      (hunbound : ∀ c ∈ othersOf db organizationId none, c.bindsToken token = false) :
      SavesRow owners db (stored.recovered token reference actor now)

/-- The act takes this record of a batch. -/
def Act.Takes (s : Server) (t : Transaction Write Batch) (record : ℕ × Binding) : Act → Prop
  | .next _ _ batch => s.ledger.inFlight.find? batch = some t ∧ t.task.records.head? = some record
  | _ => False

theorem foldl_record (db : Db) (ws : List Write) (w : Writes) :
    (ws ++ [Write.record w]).foldl Db.apply db = (ws.foldl Db.apply db).store w := by
  rw [List.foldl_append]
  rfl

theorem isolated_start {P : Db → Prop} {Owned : Db → List Write → Prop}
    (h : P ⟨Table.empty, Table.empty, []⟩) :
    Isolated Db.apply Write.locks P Owned Server.start.ledger where
  stored := h
  views t ht := by simp [Server.start, Table.empty] at ht
  owned t ht := by simp [Server.start, Table.empty] at ht
  apart t ht := by simp [Server.start, Table.empty] at ht

section Rule

variable {settings : Config} {owners : TokenOwners} {s : Server} {P : Db → Prop}
  {Owned : Db → List Write → Prop}

theorem isolated_takeRecord (h : Isolated Db.apply Write.locks P Owned s.ledger) {now : ℤ}
    {radius : Radius.Db} {t : Transaction Write Batch} (ht : t ∈ s.ledger.inFlight.rows)
    {record : ℕ × Binding} {records : List (ℕ × Binding)}
    (hrecord : ∀ radius now bindingId config w,
      Stores settings (t.view Db.apply s.ledger.stored) radius now t.task.organizationId
        t.task.apiTokenId bindingId record.2 config w →
      P ((t.view Db.apply s.ledger.stored).store w) ∧
        Owned s.ledger.stored (t.writes ++ [.record w])) :
    Isolated Db.apply Write.locks P Owned
      (s.takeRecord settings now radius t record records).ledger := by
  unfold Server.takeRecord
  split
  · exact h
  split
  · exact h.rollback t.id
  · exact h.skip ht _
  · rename_i w progress hpass
    split_ifs with hfree
    · rcases pass_ok hpass with ⟨config, w', hw, -, hstores⟩ | ⟨hw, -⟩ | ⟨-, hw, -⟩
      · obtain rfl := Option.some.inj hw
        obtain ⟨hview, howned⟩ := hrecord _ _ _ _ _ hstores
        refine h.advance ht (by simpa [locksOf] using hfree) ?_ howned
        rw [foldl_record]
        exact hview
      · cases hw
      · cases hw
    · exact h

theorem isolated_saveExporter (h : Isolated Db.apply Write.locks P Owned s.ledger)
    {config : Except Failure Exporter}
    (hsave : ∀ c, config = .ok c → P (s.ledger.stored.save c) ∧
      MergesAfter Db.apply Write.locks P Owned s.ledger.stored [.save c]) :
    Isolated Db.apply Write.locks P Owned (s.saveExporter config).ledger := by
  unfold Server.saveExporter
  split
  · exact h
  · rename_i c
    obtain ⟨hview, hmerge⟩ := hsave c rfl
    split_ifs with hfree
    · exact h.write hmerge s.ledger.inFlight.nextId (fun t ht => (Table.key_lt_nextId ht).ne)
        (by simpa [locksOf] using hfree) hview
    · exact h

/-- **The invariant rule** for one act. -/
theorem isolated_step (hnil : ∀ db, Owned db []) (hmerge : Merges Db.apply Write.locks P Owned)
    (act : Act)
    (hrecord : ∀ t ∈ s.ledger.inFlight.rows, ∀ record, act.Takes s t record →
      P (t.view Db.apply s.ledger.stored) → Owned s.ledger.stored t.writes →
      ∀ radius now bindingId config w,
        Stores settings (t.view Db.apply s.ledger.stored) radius now t.task.organizationId
          t.task.apiTokenId bindingId record.2 config w →
        P ((t.view Db.apply s.ledger.stored).store w) ∧
          Owned s.ledger.stored (t.writes ++ [.record w]))
    (hsave : ∀ c, SavesRow owners s.ledger.stored c → P s.ledger.stored →
      P (s.ledger.stored.save c) ∧
        MergesAfter Db.apply Write.locks P Owned s.ledger.stored [.save c])
    (h : Isolated Db.apply Write.locks P Owned s.ledger) :
    Isolated Db.apply Write.locks P Owned (s.step settings owners act).ledger := by
  cases act with
  | submit now organizationId apiTokenId payload =>
    simp only [Server.step]
    split
    · exact h
    · exact h.begin (hnil _) _
  | next now radius batch =>
    simp only [Server.step]
    split
    · exact h
    · rename_i t hfind
      have ht := (Table.find?_eq_some.1 hfind).1
      split
      · exact h
      · rename_i record records hrecords
        exact isolated_takeRecord h ht (hrecord t ht record ⟨hfind, by rw [hrecords]; rfl⟩
          (h.views t ht) (h.owned t ht))
  | finish batch =>
    simp only [Server.step]
    split
    · exact h
    · rename_i t hfind
      split_ifs
      · unfold Server.finish
        split
        · exact h.rollback t.id
        · exact h.commit hmerge (Table.find?_eq_some.1 hfind).1
      · exact h
  | abort batch => exact h.rollback batch
  | save now registry organizationId body actor =>
    refine isolated_saveExporter h fun c hc => ?_
    obtain ⟨existing, request, first, last, hsaves⟩ := saveExporterConfig_ok hc
    exact hsave c (.save hsaves) h.stored
  | recover now registry organizationId exporterConfigId body actor =>
    refine isolated_saveExporter h fun c hc => ?_
    obtain ⟨stored, hmem, horg, token, reference, howner, hunbound, rfl⟩ :=
      approveReleaseRecovery_ok hc
    exact hsave _ (.recover hmem horg howner hunbound) h.stored

end Rule

end Vigabss.Cgnat
