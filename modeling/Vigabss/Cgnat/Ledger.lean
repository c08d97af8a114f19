import Vigabss.Cgnat.Binding

/-!
# Vigabss.Cgnat.Ledger — the tables of the CGNAT ledger

An exporter configuration is one evidence epoch of a NAT pool, with the counters of what it has
sent.  `cgnat_attribution_bindings` is the projection of what is allocated, and every record that
was taken leaves a row in `cgnat_binding_events`.
-/

namespace Vigabss.Cgnat

open Vigabss.Lib

/-- A row of `cgnat_exporter_configs`. -/
structure Exporter where
  id : ℕ
  organizationId : ℕ
  exporterId : String
  exporterNasId : Option ℕ
  exporterIp : Option String
  natInstanceId : String
  natPoolId : String
  natPoolRecordId : ℕ
  natRealm : String
  collectorApiTokenId : ℕ
  recoveryCollectorApiTokenId : Option ℕ
  recoveryReference : Option String
  recoveryApprovedBy : Option ℕ
  recoveryApprovedAt : Option ℤ
  publicIpv4Start : String
  publicIpv4End : String
  purposeReference : Option String
  tupleExclusivityConfirmed : Bool
  authoritativeBaselineConfirmed : Bool
  baselineReference : Option String
  baselineConfirmedBy : Option ℕ
  baselineConfirmedAt : Option ℤ
  collectionApprovedBy : Option ℕ
  collectionApprovedAt : Option ℤ
  isRequired : Bool
  enabled : Bool
  retiredAt : Option ℤ
  retiredBy : Option ℕ
  lastBindingReceivedAt : Option ℤ
  lastDeviceRecordedAt : Option ℤ
  lastCorrectedDeviceAt : Option ℤ
  coverageHorizonAt : Option ℤ
  lastExporterBootId : Option String
  lastSequenceNumber : Option ℕ
  sequenceGapEvents : ℕ
  sequenceMissingRecords : ℕ
  outOfOrderEvents : ℕ
  reportedLostRecords : ℕ
  incompleteMetadataEvents : ℕ
  deriving DecidableEq

instance : Keyed Exporter := ⟨Exporter.id⟩

/-- What identifies an exporter within its organization (`uq_cgnat_exporter_identity`). -/
def Exporter.identity (c : Exporter) : ℕ × String × String × String × String :=
  (c.organizationId, c.exporterId, c.natInstanceId, c.natPoolId, c.natRealm)

/-- The configuration without what its records write. -/
def Exporter.settings (c : Exporter) : Exporter :=
  { c with
    lastBindingReceivedAt := none
    lastDeviceRecordedAt := none
    lastCorrectedDeviceAt := none
    coverageHorizonAt := none
    lastExporterBootId := none
    lastSequenceNumber := none
    sequenceGapEvents := 0
    sequenceMissingRecords := 0
    outOfOrderEvents := 0
    reportedLostRecords := 0
    incompleteMetadataEvents := 0 }

/-- A row of `cgnat_attribution_bindings`. -/
structure StoredBinding where
  id : ℕ
  organizationId : ℕ
  exporterConfigId : ℕ
  connectionLogId : ℕ
  clientId : ℕ
  contractId : ℕ
  username : String
  radiusSessionId : String
  sessionInstanceId : ℕ
  bindingKey : String
  bindingType : BindingType
  privateIpv4 : String
  privatePortStart : Option ℕ
  privatePortEnd : Option ℕ
  publicIpv4 : String
  publicPortStart : ℕ
  publicPortEnd : ℕ
  protocol : Protocol
  allocatedAt : Instant
  releasedAt : Option Instant
  natInstanceId : String
  natPoolId : String
  natRealm : String
  collectorApiTokenId : ℕ
  allocationEventId : String
  releaseEventId : Option String
  metadataComplete : Bool
  deriving DecidableEq

instance : Keyed StoredBinding := ⟨StoredBinding.id⟩

inductive SequenceStatus where
  | initial | contiguous | gap | outOfOrder
  deriving DecidableEq, Repr

/-- A row of `cgnat_binding_events`: where a record was taken and what `payload_hash` stands for.
Its other columns are those of the record. -/
structure BindingEvent where
  organizationId : ℕ
  bindingId : ℕ
  exporterConfigId : ℕ
  collectorApiTokenId : ℕ
  sequenceStatus : SequenceStatus
  receivedAt : ℤ
  payload : Binding
  deriving DecidableEq

/-- The ledger; the events are in the order in which they were taken. -/
structure Db where
  exporters : Table Exporter
  bindings : Table StoredBinding
  events : List BindingEvent
  deriving DecidableEq

/-- What one record writes: the binding that it allocates or releases, its receipt, and the
counters of its exporter. -/
structure Writes where
  binding : StoredBinding
  event : BindingEvent
  exporter : Exporter
  deriving DecidableEq

/-- The statements of one record. -/
def Db.store (db : Db) (w : Writes) : Db where
  exporters := db.exporters.put w.exporter
  bindings := db.bindings.put w.binding
  events := db.events ++ [w.event]

/-- A configuration is saved. -/
def Db.save (db : Db) (config : Exporter) : Db :=
  { db with exporters := db.exporters.put config }

/-- The exporters with an identity. -/
def Db.identified (db : Db) (identity : ℕ × String × String × String × String) : List Exporter :=
  db.exporters.rows.filter fun c => c.identity = identity

/-- The events of an exporter, in the order in which they were taken. -/
def Db.eventsOf (db : Db) (organizationId exporterConfigId : ℕ) : List BindingEvent :=
  db.events.filter fun e =>
    e.organizationId = organizationId ∧ e.exporterConfigId = exporterConfigId

/-- The allocations of an exporter under a key: at most one (`uq_cgnat_binding_key`). -/
def Db.allocations (db : Db) (organizationId exporterConfigId : ℕ) (bindingKey : String) :
    List StoredBinding :=
  db.bindings.rows.filter fun row => row.organizationId = organizationId ∧
    row.exporterConfigId = exporterConfigId ∧ row.bindingKey = bindingKey

end Vigabss.Cgnat
