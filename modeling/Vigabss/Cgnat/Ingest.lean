import Vigabss.Cgnat.Ledger

/-!
# Vigabss.Cgnat.Ingest — batches of allocations and releases

`ingestRecord` says what one record does: it is refused, it is a replay, or it is stored with the
writes it makes.  `ingestBatch` takes the records of a batch in order, each under its own
savepoint: what a rejected one has done is undone and it is reported by its index.
-/

namespace Vigabss.Cgnat

open Vigabss.Lib

/-! ### The exporter of a record -/

/-- `Number.isFinite(at)` and the instant is not before `at`. -/
def since (instant : ℤ) (confirmed : Option ℤ) : Bool := confirmed.any (· ≤ instant)

/-- The collector may submit the record to this exporter. -/
def checkToken (config : Exporter) (b : Binding) (apiTokenId : ℕ) : Except Failure Unit :=
  let primaryToken := config.collectorApiTokenId = apiTokenId
  let recoveryToken := config.recoveryCollectorApiTokenId = some apiTokenId
  if ¬ primaryToken ∧ ¬ recoveryToken then
    .error (.forbidden "Collector token is not bound to this CGNAT exporter configuration")
  else if recoveryToken ∧ (b.eventType ≠ .release ∨ config.recoveryApprovedAt = none ∨
      ¬ filled config.recoveryReference) then
    .error (.forbidden "The incident-recovery collector may submit release events only")
  else .ok ()

/-- The exporter's purpose and baseline were confirmed before all that the record says. -/
def approvedFor (config : Exporter) (b : Binding) : Bool :=
  let lowerBound := b.allocatedAt.ms - b.uncertainty
  config.authoritativeBaselineConfirmed && filled config.baselineReference &&
    (b.eventType = .release || (since lowerBound config.collectionApprovedAt &&
      since lowerBound config.baselineConfirmedAt)) &&
    since b.coverageHorizonAt config.collectionApprovedAt &&
    since b.coverageHorizonAt config.baselineConfirmedAt

/-- The record and the exporter agree on the device, the time and the pool. -/
def checkScope (config : Exporter) (b : Binding) : Except Failure Unit :=
  if b.exporterNasId.any (fun id => config.exporterNasId ≠ some id) then
    .error (invalid "Exporter NAS mismatch" "exporter_nas_id"
      "exporter_nas_id does not match the configured exporter")
  else if b.exporterIp.any (fun ip => config.exporterIp ≠ some ip) then
    .error (invalid "Exporter IP mismatch" "exporter_ip"
      "exporter_ip does not match the configured exporter")
  else if ¬ approvedFor config b then
    .error (invalid
      "CGNAT event predates the approved collection purpose or authoritative baseline"
      "allocated_at"
      ("the event certainty interval must not predate collection approval or the " ++
        "authoritative baseline"))
  else if ipv4Number b.publicIpv4 < ipv4Number config.publicIpv4Start ∨
      ipv4Number config.publicIpv4End < ipv4Number b.publicIpv4 then
    .error (invalid "Public IPv4 is outside the configured NAT pool" "public_ipv4"
      "public_ipv4 must belong to the exporter configuration public range")
  else .ok ()

/-- What identifies the exporter that a record names. -/
def Binding.identity (b : Binding) (organizationId : ℕ) :
    ℕ × String × String × String × String :=
  (organizationId, b.exporterId, b.natInstanceId, b.natPoolId, b.natRealm)

def resolveExporterConfig (db : Db) (organizationId apiTokenId : ℕ) (b : Binding) :
    Except Failure Exporter :=
  match (db.identified (b.identity organizationId)).filter (·.enabled) with
  | [config] => do
    checkToken config b apiTokenId
    checkScope config b
    return config
  | _ => .error (invalid "CGNAT exporter is not uniquely configured for this organization"
      "exporter_id" "register and enable the exact exporter/NAT instance/pool/realm before ingest")

/-! ### Its place in the sequence -/

/-- What a record does to the sequence of its exporter. -/
structure SequenceInfo where
  status : SequenceStatus
  missing : ℕ
  advances : Bool
  deriving DecidableEq

/-- `sequenceState`. -/
def sequenceState (config : Exporter) (b : Binding) (bootSeenBefore : Bool) : SequenceInfo :=
  match config.lastExporterBootId with
  | none =>
    if b.sequenceNumber ≤ 1 then ⟨.initial, 0, true⟩
    else ⟨.gap, b.sequenceNumber - 1, true⟩
  | some lastBootId =>
    if lastBootId ≠ b.exporterBootId then
      if bootSeenBefore ∨ config.lastCorrectedDeviceAt.any (b.correctedDeviceAt ≤ ·) then
        ⟨.outOfOrder, 0, false⟩
      -- a restart cannot prove that the mappings were carried over
      else ⟨.gap, b.sequenceNumber - 1, false⟩
    else if config.lastCorrectedDeviceAt.any (b.correctedDeviceAt < ·) then
      ⟨.outOfOrder, 0, false⟩
    else
      let last := config.lastSequenceNumber.getD 0
      if b.sequenceNumber = last + 1 then ⟨.contiguous, 0, true⟩
      else if last + 1 < b.sequenceNumber then ⟨.gap, b.sequenceNumber - last - 1, true⟩
      else ⟨.outOfOrder, 0, false⟩

/-- The later of the stored instant and a new one, `CASE WHEN advances …`. -/
def raise (advances : Bool) (stored : Option ℤ) (new : ℤ) : Option ℤ :=
  if advances ∧ stored.all (· < new) then some new else stored

/-- The update of an exporter after one of its records was taken. -/
def Exporter.afterRecord (config : Exporter) (now : ℤ) (info : SequenceInfo) (b : Binding) :
    Exporter :=
  { config with
    lastBindingReceivedAt := some now
    lastDeviceRecordedAt :=
      if info.advances ∧ config.lastCorrectedDeviceAt.all (· < b.correctedDeviceAt) then
        some b.deviceRecordedAt.ms
      else config.lastDeviceRecordedAt
    lastCorrectedDeviceAt := raise info.advances config.lastCorrectedDeviceAt b.correctedDeviceAt
    coverageHorizonAt := raise info.advances config.coverageHorizonAt b.coverageHorizonAt
    lastExporterBootId := if info.advances then some b.exporterBootId else config.lastExporterBootId
    lastSequenceNumber := if info.advances then some b.sequenceNumber else config.lastSequenceNumber
    sequenceGapEvents := config.sequenceGapEvents + if info.status = .gap then 1 else 0
    sequenceMissingRecords := config.sequenceMissingRecords + info.missing
    outOfOrderEvents := config.outOfOrderEvents + if info.status = .outOfOrder then 1 else 0
    reportedLostRecords := config.reportedLostRecords + b.recordsLostBefore.getD 0
    incompleteMetadataEvents :=
      config.incompleteMetadataEvents + if b.metadataComplete then 0 else 1 }

/-! ### The access session -/

section Session

variable (config : Config) (radius : Radius.Db) (organizationId : ℕ) (b : Binding)

/-- The session covers the allocation for sure, or is still alive within the grace. -/
def covers (row : Radius.ConnectionLog) : Bool :=
  let correlationEnd := (b.releasedAt.getD b.allocatedAt).ms + b.uncertainty
  row.eventAt ≤ b.allocatedAt.ms - b.uncertainty ∧
    if row.eventType = .stop then
      correlationEnd < row.lastAccountingAt.getD
        (row.eventAt + (row.counters .duration).getD 0 * 1000)
    else correlationEnd ≤ row.lastAt + config.sessionGraceSeconds * 1000

/-- The sessions that `resolveSession` finds. -/
def sessionsOf : List Radius.ConnectionLog :=
  radius.logs.rows.filter fun row =>
    row.organizationId = organizationId ∧ row.attributionEvidenceComplete = true ∧
      row.framedIp = some b.privateIpv4 ∧ covers config b row = true ∧
      row.sessionInstanceId = some b.sessionInstanceId ∧
      (b.radiusSessionId.all (· = row.acctSessionId.getD row.sessionId) = true) ∧
      b.username.all (· = row.username) = true ∧ b.clientId.all (· = row.clientId) = true ∧
      b.contractId.all (· = row.contractId) = true ∧ row.clientId ≠ 0 ∧ row.contractId ≠ 0

/-- A stored lifecycle event of the session places the private address before the allocation. -/
def anchored : Bool :=
  radius.evidence.any fun e =>
    e.row.organizationId = organizationId ∧ e.row.sessionInstanceId = some b.sessionInstanceId ∧
      e.row.framedIp = some b.privateIpv4 ∧ e.eventAt ≤ b.allocatedAt.ms - b.uncertainty ∧
      e.observedAt ≤ b.allocatedAt.ms - b.uncertainty

def resolveSession : Except Failure Radius.ConnectionLog :=
  match sessionsOf config radius organizationId b with
  | [row] =>
    if row.username = "" ∨ row.acctSessionId.getD row.sessionId = "" then
      .error (invalid "Access session identity is incomplete" "radius_session_id"
        "the matched session must have username and RADIUS session identity")
    else if anchored radius organizationId b then .ok row
    else .error (invalid "Access session lacks a matching RADIUS evidence anchor" "private_ipv4"
      ("a stored same-session RADIUS lifecycle event must anchor the private IPv4 " ++
        "before allocation"))
  | rows => .error (invalid "CGNAT binding cannot be attributed to exactly one access session"
      "session_instance_id"
      (if rows = [] then "no tenant session covers the private IPv4 allocation interval"
        else "multiple tenant sessions cover the private IPv4 allocation interval"))

/-- `assertSessionCoversRelease`. -/
def assertSessionCoversRelease (projection : StoredBinding) : Except Failure Unit :=
  if radius.logs.rows.any fun row =>
      row.id = projection.connectionLogId ∧ row.organizationId = organizationId ∧
        row.attributionEvidenceComplete = true ∧
        row.sessionInstanceId = some projection.sessionInstanceId ∧
        row.framedIp = some projection.privateIpv4 then .ok ()
  else .error (invalid "Release is not covered by the attributed access session" "released_at"
    "the attributed RADIUS session must still exist with consistent lifecycle evidence")

end Session

/-! ### Allocations -/

section Allocate

variable (db : Db) (organizationId : ℕ) (b : Binding)

/-- The `WHERE` of the exclusivity check. -/
def overlapsNominally (row : StoredBinding) : Bool :=
  let nominalEnd := (b.releasedAt.map Instant.ms).getD maxInstant
  row.organizationId = organizationId ∧ row.publicIpv4 = b.publicIpv4 ∧
    row.protocol = b.protocol ∧ row.publicPortStart ≤ b.publicPortEnd ∧
    b.publicPortStart ≤ row.publicPortEnd ∧ row.allocatedAt.ms < nominalEnd ∧
    row.releasedAt.all (fun r => b.allocatedAt.ms < r.ms) = true

/-- `assertExclusivePublicAllocation`. -/
def assertExclusivePublicAllocation : Except Failure Unit :=
  if db.bindings.rows.any (overlapsNominally organizationId b) then
    .error (.conflict ("Public CGNAT tuple overlaps an existing subscriber allocation on the " ++
      "nominal half-open interval"))
  else .ok ()

/-- The row of an allocation. -/
def allocationRow (id apiTokenId : ℕ) (config : Exporter) (session : Radius.ConnectionLog) :
    StoredBinding where
  id := id
  organizationId := organizationId
  exporterConfigId := config.id
  connectionLogId := session.id
  clientId := session.clientId
  contractId := session.contractId
  username := session.username
  radiusSessionId := session.acctSessionId.getD session.sessionId
  sessionInstanceId := b.sessionInstanceId
  bindingKey := b.bindingKey
  bindingType := b.bindingType
  privateIpv4 := b.privateIpv4
  privatePortStart := b.privatePortStart
  privatePortEnd := b.privatePortEnd
  publicIpv4 := b.publicIpv4
  publicPortStart := b.publicPortStart
  publicPortEnd := b.publicPortEnd
  protocol := b.protocol
  allocatedAt := b.allocatedAt
  releasedAt := none
  natInstanceId := b.natInstanceId
  natPoolId := b.natPoolId
  natRealm := b.natRealm
  collectorApiTokenId := apiTokenId
  allocationEventId := b.eventId
  releaseEventId := none
  metadataComplete := b.metadataComplete

/-- What an allocation writes to the bindings, under the next key of the table. -/
def allocate (settings : Config) (radius : Radius.Db) (apiTokenId bindingId : ℕ)
    (config : Exporter) : Except Failure StoredBinding := do
  if db.allocations organizationId config.id b.bindingKey ≠ [] then
    .error (.conflict "binding_key already identifies a different allocation event")
  let session ← resolveSession settings radius organizationId b
  assertExclusivePublicAllocation db organizationId b
  return allocationRow organizationId b bindingId apiTokenId config session

end Allocate

/-! ### Releases -/

section Release

variable (db : Db) (organizationId : ℕ) (b : Binding)

/-- The release names the stored allocation in every field that it gives. -/
def matchesAllocation (row : StoredBinding) : Bool :=
  row.bindingType = b.bindingType ∧ row.privateIpv4 = b.privateIpv4 ∧
    row.privatePortStart = b.privatePortStart ∧ row.privatePortEnd = b.privatePortEnd ∧
    row.publicIpv4 = b.publicIpv4 ∧ row.publicPortStart = b.publicPortStart ∧
    row.publicPortEnd = b.publicPortEnd ∧ row.protocol = b.protocol ∧
    row.natInstanceId = b.natInstanceId ∧ row.natPoolId = b.natPoolId ∧
    row.natRealm = b.natRealm ∧ b.clientId.all (· = row.clientId) = true ∧
    b.contractId.all (· = row.contractId) = true ∧ b.username.all (· = row.username) = true ∧
    b.radiusSessionId.all (· = row.radiusSessionId) = true ∧
    row.sessionInstanceId = b.sessionInstanceId ∧ row.allocatedAt = b.allocatedAt

/-- The row of a released allocation. -/
def releasedRow (row : StoredBinding) : StoredBinding :=
  { row with
    releasedAt := b.releasedAt
    releaseEventId := some b.eventId
    metadataComplete := row.metadataComplete && b.metadataComplete }

/-- What a release writes to the bindings. -/
def release (radius : Radius.Db) (config : Exporter) : Except Failure StoredBinding :=
  match db.allocations organizationId config.id b.bindingKey with
  | [projection] => do
    if projection.releasedAt ≠ none then
      .error (.conflict "CGNAT allocation is already released")
    if ¬ matchesAllocation b projection then
      .error (.conflict "Release event tuple does not match the stored allocation")
    if b.releasedAt.all (·.ms ≤ projection.allocatedAt.ms) then
      .error (invalid "Invalid release interval" "released_at" "release must be after allocation")
    assertSessionCoversRelease radius organizationId projection
    return releasedRow b projection
  | _ => .error (invalid "Release event has no unique allocation" "binding_key"
      "binding_key must identify one existing allocation")

end Release

/-! ### One record -/

/-- What becomes of a record that is not refused. -/
inductive Outcome where
  | replayed
  | stored (writes : Writes)

section Record

variable (settings : Config) (db : Db) (radius : Radius.Db) (now : ℤ)
  (organizationId apiTokenId bindingId : ℕ) (b : Binding)

/-- The stored event of the record's exporter, boot and event id. -/
def existingEvent (config : Exporter) : Option BindingEvent :=
  (db.eventsOf organizationId config.id).find? fun e =>
    e.payload.exporterBootId = b.exporterBootId ∧ e.payload.eventId = b.eventId

/-- The exporter has sent events of the record's boot before. -/
def bootSeenBefore (config : Exporter) : Bool :=
  (db.eventsOf organizationId config.id).any fun e => e.payload.exporterBootId = b.exporterBootId

/-- The binding that a record allocates or releases. -/
def writeBinding (config : Exporter) : Except Failure StoredBinding :=
  match b.eventType with
  | .allocate => allocate db organizationId b settings radius apiTokenId bindingId config
  | .release => release db organizationId b radius config

/-- What a record that is no replay writes. -/
def storeRecord (config : Exporter) : Except Failure Writes := do
  let info := sequenceState config b (bootSeenBefore db organizationId b config)
  let binding ← writeBinding settings db radius organizationId apiTokenId bindingId b config
  return {
    binding
    event := ⟨organizationId, binding.id, config.id, apiTokenId, info.status, now, b⟩
    exporter := config.afterRecord now info b }

/-- One record of a batch, on the tables as its transaction sees them. -/
def ingestRecord : Except Failure Outcome := do
  let config ← resolveExporterConfig db organizationId apiTokenId b
  match existingEvent db organizationId b config with
  | some e =>
    if e.collectorApiTokenId ≠ apiTokenId then
      .error (.forbidden "Collector token is not authorized to replay this exporter event")
    if e.payload ≠ b then
      .error (.conflict
        "The same exporter boot/event identity was already stored with different content")
    return .replayed
  | none =>
    let writes ← storeRecord settings db radius now organizationId apiTokenId bindingId b config
    return .stored writes

end Record

/-! ### Batches -/

structure Rejected where
  index : ℕ
  eventId : String
  eventType : EventType
  cause : Failure
  deriving DecidableEq

/-- The counters of a batch and its rejected records. -/
structure Progress where
  inserted : ℕ
  replayed : ℕ
  allocated : ℕ
  released : ℕ
  incompleteMetadata : ℕ
  sequence : SequenceStatus → ℕ
  rejected : List Rejected

/-- The start of a batch. -/
def Progress.start : Progress := ⟨0, 0, 0, 0, 0, fun _ => 0, []⟩

/-- A record was stored. -/
def Progress.stored (p : Progress) (e : BindingEvent) : Progress :=
  { p with
    inserted := p.inserted + 1
    allocated := p.allocated + if e.payload.eventType = .allocate then 1 else 0
    released := p.released + if e.payload.eventType = .release then 1 else 0
    incompleteMetadata := p.incompleteMetadata + if e.payload.metadataComplete then 0 else 1
    sequence := fun status => p.sequence status + if status = e.sequenceStatus then 1 else 0 }

/-- `withRecordIndex`. -/
def withRecordIndex (index : ℕ) : Failure → Failure
  | .validation message details => .validation ("bindings[" ++ toString index ++ "]: " ++ message)
      (details.map fun d => { d with field := "bindings[" ++ toString index ++ "]." ++ d.field })
  | .conflict message => .conflict ("bindings[" ++ toString index ++ "]: " ++ message)
  | failure => failure

/-- The failure ends the record only, not the batch. -/
def Failure.ofRecord : Failure → Bool
  | .validation _ _ => true
  | .conflict _ => true
  | _ => false

/-- A record was rejected. -/
def Progress.reject (p : Progress) (index : ℕ) (b : Binding) (failure : Failure) : Progress :=
  { p with
    rejected := p.rejected ++ [⟨index, b.eventId, b.eventType, withRecordIndex index failure⟩] }

/-- One pass of the loop over the records: what it writes, and the batch after it. -/
def pass (settings : Config) (db : Db) (radius : Radius.Db) (now : ℤ)
    (organizationId apiTokenId bindingId : ℕ) (p : Progress) (record : ℕ × Binding) :
    Except Failure (Option Writes × Progress) :=
  match ingestRecord settings db radius now organizationId apiTokenId bindingId record.2 with
  | .ok .replayed => .ok (none, { p with replayed := p.replayed + 1 })
  | .ok (.stored w) => .ok (some w, p.stored w.event)
  | .error failure =>
    if failure.ofRecord then .ok (none, p.reject record.1 record.2 failure) else .error failure

/-- The tables after a pass. -/
def Db.storeAll (db : Db) (w : Option Writes) : Db := w.elim db db.store

/-- Nothing of the batch could be stored: it fails with the error of the first rejected record. -/
def Progress.failure (p : Progress) : Option Failure :=
  match p.rejected with
  | [] => none
  | r :: _ => if p.inserted = 0 ∧ p.replayed = 0 then some r.cause else none

/-- The records of a batch with their indices, each well formed. -/
def normalizeBatch (settings : Config) (now : ℤ) (payload : List RawBinding) :
    Except Failure (List (ℕ × Binding)) := do
  if payload = [] then
    .error (invalid "Invalid binding batch" "bindings" "bindings must be a non-empty array")
  if settings.maxBatchSize < payload.length then
    .error (invalid "Binding batch too large" "bindings"
      ("bindings may contain at most " ++ toString settings.maxBatchSize ++ " records"))
  payload.zipIdx.mapM fun (record, index) =>
    match normalizeBinding settings now record with
    | .ok b => .ok (index, b)
    | .error failure => .error (withRecordIndex index failure)

section Batch

variable (settings : Config) (radius : Radius.Db) (now : ℤ) (organizationId apiTokenId : ℕ)

/-- The loop over the records. -/
def ingestRecords : Db → Progress → List (ℕ × Binding) → Except Failure (Db × Progress)
  | db, p, [] => .ok (db, p)
  | db, p, record :: records => do
    let (w, p) ← pass settings db radius now organizationId apiTokenId db.bindings.nextId p record
    ingestRecords (db.storeAll w) p records

/-- `ingestBatch`, in a transaction that no other runs beside: the tables after it and its
counters. -/
def ingestBatch (db : Db) (payload : List RawBinding) : Except Failure (Db × Progress) := do
  let records ← normalizeBatch settings now payload
  let (db, p) ← ingestRecords settings radius now organizationId apiTokenId db .start records
  match p.failure with
  | some failure => .error failure
  | none => return (db, p)

end Batch

end Vigabss.Cgnat

/-!
## What a record can do

One lemma for each function of the ingest: what it has found and checked when it succeeds.  The
callers cite these and never unfold the functions again.
-/

namespace Vigabss.Cgnat

open Vigabss.Lib

/-! ### The exporter -/

section Exporter

variable {db : Db} {organizationId apiTokenId : ℕ} {b : Binding} {config : Exporter}

/-- The exporter of a record: enabled, the only one of its identity, with the token and the scope
of the record. -/
structure Resolves (db : Db) (organizationId apiTokenId : ℕ) (b : Binding) (config : Exporter) :
    Prop where
  only : (db.identified (b.identity organizationId)).filter (·.enabled) = [config]
  token : checkToken config b apiTokenId = .ok ()
  scope : checkScope config b = .ok ()

theorem resolveExporterConfig_ok :
    resolveExporterConfig db organizationId apiTokenId b = .ok config ↔
      Resolves db organizationId apiTokenId b config := by
  unfold resolveExporterConfig
  constructor
  · intro h
    split at h
    · rename_i c hc
      obtain ⟨⟨⟩, htoken, h⟩ := except_bind_ok.1 h
      obtain ⟨⟨⟩, hscope, h⟩ := except_bind_ok.1 h
      obtain rfl : c = config := Except.ok.inj h
      exact ⟨hc, htoken, hscope⟩
    · cases h
  · intro h
    rw [h.only]
    simp only [h.token, h.scope]
    rfl

theorem Resolves.mem (h : Resolves db organizationId apiTokenId b config) :
    config ∈ db.exporters.rows ∧ config.identity = b.identity organizationId ∧
      config.enabled = true := by
  have hmem : config ∈ (db.identified (b.identity organizationId)).filter (·.enabled) := by
    rw [h.only]
    exact List.mem_singleton_self config
  obtain ⟨hmem, henabled⟩ := List.mem_filter.1 hmem
  obtain ⟨hmem, hid⟩ := List.mem_filter.1 hmem
  exact ⟨hmem, by simpa using hid, henabled⟩

theorem Resolves.organization (h : Resolves db organizationId apiTokenId b config) :
    config.organizationId = organizationId :=
  congrArg (·.1) h.mem.2.1

end Exporter

/-! ### Bindings -/

section Bindings

variable {db : Db} {radius : Radius.Db} {settings : Config}
  {organizationId apiTokenId bindingId : ℕ} {b : Binding} {config : Exporter}
  {row : StoredBinding}

/-- An allocation has a key of its own, a session, and no stored binding that it overlaps on the
nominal interval. -/
theorem allocate_ok
    (h : allocate db organizationId b settings radius apiTokenId bindingId config = .ok row) :
    db.allocations organizationId config.id b.bindingKey = [] ∧
      (∃ session, resolveSession settings radius organizationId b = .ok session ∧
        row = allocationRow organizationId b bindingId apiTokenId config session) ∧
      ∀ other ∈ db.bindings.rows, overlapsNominally organizationId b other = false := by
  unfold allocate at h
  obtain ⟨hkey, h⟩ := check_ok h
  obtain ⟨session, hsession, h⟩ := except_bind_ok.1 h
  obtain ⟨⟨⟩, hexclusive, h⟩ := except_bind_ok.1 h
  refine ⟨not_not.1 hkey, ⟨session, hsession, (Except.ok.inj h).symm⟩, fun other hother => ?_⟩
  unfold assertExclusivePublicAllocation at hexclusive
  split_ifs at hexclusive with hany
  simpa using fun hover => hany (List.any_eq_true.2 ⟨other, hother, hover⟩)

theorem release_ok (h : release db organizationId b radius config = .ok row) :
    ∃ projection, db.allocations organizationId config.id b.bindingKey = [projection] ∧
      projection.releasedAt = none ∧ matchesAllocation b projection = true ∧
      row = releasedRow b projection := by
  unfold release at h
  split at h
  · rename_i projection hp
    obtain ⟨hopen, h⟩ := check_ok h
    obtain ⟨hmatch, h⟩ := check_ok h
    obtain ⟨-, h⟩ := check_ok h
    obtain ⟨⟨⟩, -, h⟩ := except_bind_ok.1 h
    exact ⟨projection, hp, not_not.1 hopen, not_not.1 hmatch, (Except.ok.inj h).symm⟩
  · cases h

theorem mem_allocations {exporterConfigId : ℕ} {key : String} :
    row ∈ db.allocations organizationId exporterConfigId key ↔
      row ∈ db.bindings.rows ∧ row.organizationId = organizationId ∧
        row.exporterConfigId = exporterConfigId ∧ row.bindingKey = key := by
  simp [Db.allocations]

end Bindings

/-! ### Records -/

section Records

variable {settings : Config} {db : Db} {radius : Radius.Db} {now : ℤ}
  {organizationId apiTokenId bindingId : ℕ} {b : Binding} {config : Exporter} {w : Writes}

/-- What the record does to the sequence of the exporter. -/
def infoOf (db : Db) (organizationId : ℕ) (b : Binding) (config : Exporter) : SequenceInfo :=
  sequenceState config b (bootSeenBefore db organizationId b config)

/-- A stored record: not seen before, with its binding, its receipt and its exporter's counters. -/
structure Stores (settings : Config) (db : Db) (radius : Radius.Db) (now : ℤ)
    (organizationId apiTokenId bindingId : ℕ) (b : Binding) (config : Exporter) (w : Writes) :
    Prop where
  resolves : Resolves db organizationId apiTokenId b config
  unseen : existingEvent db organizationId b config = none
  binding :
    writeBinding settings db radius organizationId apiTokenId bindingId b config = .ok w.binding
  event : w.event = ⟨organizationId, w.binding.id, config.id, apiTokenId,
    (infoOf db organizationId b config).status, now, b⟩
  exporter : w.exporter = config.afterRecord now (infoOf db organizationId b config) b

theorem storeRecord_ok :
    storeRecord settings db radius now organizationId apiTokenId bindingId b config = .ok w ↔
      writeBinding settings db radius organizationId apiTokenId bindingId b config = .ok w.binding ∧
        w.event = ⟨organizationId, w.binding.id, config.id, apiTokenId,
          (infoOf db organizationId b config).status, now, b⟩ ∧
        w.exporter = config.afterRecord now (infoOf db organizationId b config) b := by
  obtain ⟨row, e, c⟩ := w
  unfold storeRecord
  rw [except_bind_ok]
  constructor
  · rintro ⟨row', hrow, h⟩
    obtain ⟨rfl, rfl, rfl⟩ := Writes.mk.inj (Except.ok.inj h)
    exact ⟨hrow, rfl, rfl⟩
  · rintro ⟨hrow, hevent, hexporter⟩
    simp only at hevent hexporter
    subst hevent hexporter
    exact ⟨row, hrow, rfl⟩

theorem ingestRecord_stored :
    ingestRecord settings db radius now organizationId apiTokenId bindingId b = .ok (.stored w) ↔
      ∃ config,
        Stores settings db radius now organizationId apiTokenId bindingId b config w := by
  unfold ingestRecord
  constructor
  · intro h
    obtain ⟨config, hc, h⟩ := except_bind_ok.1 h
    split at h
    · obtain ⟨-, h⟩ := check_ok h
      obtain ⟨-, h⟩ := check_ok h
      cases h
    · rename_i hnone
      obtain ⟨w', hw, h⟩ := except_bind_ok.1 h
      obtain rfl : w' = w := by simpa using Except.ok.inj h
      obtain ⟨hbinding, hevent, hexporter⟩ := storeRecord_ok.1 hw
      exact ⟨config, resolveExporterConfig_ok.1 hc, hnone, hbinding, hevent, hexporter⟩
  · rintro ⟨config, h⟩
    rw [except_bind_ok]
    refine ⟨config, resolveExporterConfig_ok.2 h.resolves, ?_⟩
    simp only [h.unseen, except_bind_ok]
    exact ⟨w, storeRecord_ok.2 ⟨h.binding, h.event, h.exporter⟩, rfl⟩

theorem ingestRecord_replayed :
    ingestRecord settings db radius now organizationId apiTokenId bindingId b = .ok .replayed ↔
      ∃ config e, Resolves db organizationId apiTokenId b config ∧
        existingEvent db organizationId b config = some e ∧ e.collectorApiTokenId = apiTokenId ∧
        e.payload = b := by
  unfold ingestRecord
  constructor
  · intro h
    obtain ⟨config, hc, h⟩ := except_bind_ok.1 h
    split at h
    · rename_i e he
      obtain ⟨htoken, h⟩ := check_ok h
      obtain ⟨hpayload, h⟩ := check_ok h
      exact ⟨config, e, resolveExporterConfig_ok.1 hc, he, not_not.1 htoken, not_not.1 hpayload⟩
    · obtain ⟨w', -, h⟩ := except_bind_ok.1 h
      cases h
  · rintro ⟨config, e, hc, he, htoken, hpayload⟩
    rw [except_bind_ok]
    refine ⟨config, resolveExporterConfig_ok.2 hc, ?_⟩
    simp only [he]
    rw [if_neg (not_not.2 htoken), if_neg (not_not.2 hpayload)]
    rfl

theorem pass_ok {p p' : Progress} {record : ℕ × Binding} {w : Option Writes}
    (h : pass settings db radius now organizationId apiTokenId bindingId p record = .ok (w, p')) :
    (∃ config w', w = some w' ∧ p' = p.stored w'.event ∧
      Stores settings db radius now organizationId apiTokenId bindingId record.2 config w') ∨
    (w = none ∧ p' = { p with replayed := p.replayed + 1 } ∧
      ingestRecord settings db radius now organizationId apiTokenId bindingId record.2 =
        .ok .replayed) ∨
    ∃ failure, w = none ∧ p' = p.reject record.1 record.2 failure ∧ failure.ofRecord = true ∧
      ingestRecord settings db radius now organizationId apiTokenId bindingId record.2 =
        .error failure := by
  unfold pass at h
  split at h
  · rename_i hr
    obtain ⟨rfl, rfl⟩ := Prod.mk.inj (Except.ok.inj h)
    exact .inr (.inl ⟨rfl, rfl, hr⟩)
  · rename_i w' hr
    obtain ⟨rfl, rfl⟩ := Prod.mk.inj (Except.ok.inj h)
    obtain ⟨config, hs⟩ := ingestRecord_stored.1 hr
    exact .inl ⟨config, w', rfl, rfl, hs⟩
  · rename_i failure hr
    split_ifs at h with hof
    obtain ⟨rfl, rfl⟩ := Prod.mk.inj (Except.ok.inj h)
    exact .inr (.inr ⟨failure, rfl, rfl, hof, hr⟩)

end Records

end Vigabss.Cgnat
