import Vigabss.Cgnat.Ledger

/-!
# Vigabss.Cgnat.Exporters — exporter configurations

`saveExporterConfig` registers, changes, enables or retires the configuration of an exporter, and
`approveReleaseRecovery` lets a second collector release what a lost one has left open.  Both
return the row that they save.
-/

namespace Vigabss.Cgnat

open Vigabss.Lib

/-! ### The records that a configuration refers to -/

/-- A row of `nas` that is active. -/
structure Nas where
  id : ℕ
  organizationId : ℕ
  ipAddress : String

/-- A row of `nat_pools` that is an active CGNAT or PAT pool. -/
structure NatPool where
  id : ℕ
  organizationId : ℕ
  externalIpStart : String
  externalIpEnd : String

/-- What a request reads from other tables.  A token keeps the organization that it was issued
for. -/
structure Registry where
  nas : List Nas
  natPools : List NatPool
  /-- The tokens that are neither deleted, revoked nor expired, whose one scope is CGNAT ingest,
  and whose owner may ingest. -/
  validTokens : List ℕ

/-- The organization of each API token. -/
abbrev TokenOwners := ℕ → ℕ

def collectorTokenIsValid (owners : TokenOwners) (registry : Registry)
    (organizationId token : ℕ) : Bool :=
  owners token = organizationId ∧ token ∈ registry.validTokens

/-! ### The body of a request -/

/-- The body of a save; of a flag, `absent` is `undefined`. -/
structure ExporterBody where
  unexpected : List String
  exporterId : Field String
  exporterNasId : Field ℤ
  exporterIp : Field String
  natInstanceId : Field String
  natPoolId : Field String
  natPoolRecordId : Field ℤ
  natRealm : Field String
  purposeReference : Field String
  tupleExclusivityConfirmed : Field Bool
  collectorApiTokenId : Field ℤ
  authoritativeBaselineConfirmed : Field Bool
  baselineReference : Field String
  isRequired : Field Bool
  enabled : Field Bool

/-- What a request asks to save. -/
structure ExporterRequest where
  exporterId : String
  exporterNasId : Option ℕ
  exporterIp : Option String
  natInstanceId : String
  natPoolId : String
  natPoolRecordId : ℕ
  natRealm : String
  purposeReference : Option String
  tupleExclusivityConfirmed : Bool
  collectorApiTokenId : ℕ
  authoritativeBaselineConfirmed : Bool
  baselineReference : Option String
  isRequired : Bool
  enabled : Bool

/-- A flag of the body, or its default. -/
def flag (default : Bool) : Field Bool → Except Failure Bool
  | .absent => .ok default
  | .given b => .ok b
  | .malformed => .error (invalid "Invalid exporter flags" "is_required"
      "is_required and enabled must be booleans")

def normalizeExporterConfig (body : ExporterBody) : Except Failure ExporterRequest := do
  rejectUnknownFields "body" body.unexpected
  let isRequired ← flag true body.isRequired
  let enabled ← flag false body.enabled
  let tupleExclusivityConfirmed ← flag false body.tupleExclusivityConfirmed
  let authoritativeBaselineConfirmed ← flag false body.authoritativeBaselineConfirmed
  if enabled ∧ ¬ isRequired then
    .error (.validation
      "Enabled CGNAT exporter configurations must be required for coverage readiness" [])
  let purposeReference ← optionalString "purpose_reference" 500 body.purposeReference
  let baselineReference ← optionalString "baseline_reference" 500 body.baselineReference
  if enabled ∧ ¬ filled purposeReference then
    .error (.validation "purpose_reference is required to enable CGNAT attribution collection" [])
  if enabled ∧ ¬ tupleExclusivityConfirmed then
    .error (.validation ("tuple_exclusivity_confirmed must be true; endpoint-dependent NAT " ++
      "cannot be attributed without prohibited destination fields") [])
  if enabled ∧ (¬ authoritativeBaselineConfirmed ∨ ¬ filled baselineReference) then
    .error (.validation ("An authoritative baseline confirmation and reference are required to " ++
      "enable CGNAT attribution collection") [])
  let exporterId ← requiredAsciiString "exporter_id" 191 body.exporterId
  let exporterNasId ← positiveIntegerOf false "exporter_nas_id" body.exporterNasId
  let exporterIp ← ipv4Of "exporter_ip" body.exporterIp
  let natInstanceId ← requiredAsciiString "nat_instance_id" 191 body.natInstanceId
  let natPoolId ← requiredAsciiString "nat_pool_id" 191 body.natPoolId
  let natPoolRecordId ← positiveInteger "nat_pool_record_id" body.natPoolRecordId
  let collectorApiTokenId ← positiveInteger "collector_api_token_id" body.collectorApiTokenId
  let natRealm ← requiredAsciiString "nat_realm" 191 body.natRealm
  return {
    exporterId, exporterNasId, exporterIp, natInstanceId, natPoolId, natPoolRecordId, natRealm,
    purposeReference, tupleExclusivityConfirmed, collectorApiTokenId,
    authoritativeBaselineConfirmed, baselineReference, isRequired, enabled }

/-! ### Saving -/

section Save

variable (owners : TokenOwners) (registry : Registry) (db : Db) (organizationId : ℕ)

/-- The exporter that a request is about. -/
def ExporterRequest.identity (request : ExporterRequest) :
    ℕ × String × String × String × String :=
  (organizationId, request.exporterId, request.natInstanceId, request.natPoolId, request.natRealm)

/-- The request retires an exporter that is there. -/
def ExporterRequest.retires (request : ExporterRequest) (existing : Option Exporter) : Bool :=
  existing.isSome && !request.enabled && !request.isRequired

/-- A retirement keeps the fields of the exporter. -/
def ExporterRequest.retiring (request : ExporterRequest) (existing : Exporter) :
    ExporterRequest :=
  { request with
    exporterNasId := existing.exporterNasId
    exporterIp := existing.exporterIp
    natPoolRecordId := existing.natPoolRecordId
    collectorApiTokenId := existing.collectorApiTokenId
    purposeReference := existing.purposeReference
    tupleExclusivityConfirmed := existing.tupleExclusivityConfirmed
    authoritativeBaselineConfirmed := existing.authoritativeBaselineConfirmed
    baselineReference := existing.baselineReference }

/-- The NAS of the exporter, when the request names one. -/
def resolveNas (request : ExporterRequest) : Except Failure ExporterRequest :=
  if request.exporterNasId = none ∧ request.exporterIp = none then .ok request
  else
    match registry.nas.filter fun nas => nas.organizationId = organizationId ∧
      request.exporterNasId.all (· = nas.id) = true ∧
      request.exporterIp.all (· = nas.ipAddress) = true with
    | [nas] =>
      .ok { request with exporterNasId := some nas.id, exporterIp := some nas.ipAddress }
    | _ => .error (.validation "Exporter NAS does not belong to this organization" [])

/-- The public range of the pool that the request names. -/
def resolvePool (request : ExporterRequest) : Except Failure (String × String) :=
  match registry.natPools.filter fun pool =>
    pool.id = request.natPoolRecordId ∧ pool.organizationId = organizationId with
  | [pool] => .ok (pool.externalIpStart, pool.externalIpEnd)
  | _ => .error (.validation
      "nat_pool_record_id must identify one active tenant CGNAT/PAT pool" [])

/-- The request with what it refers to, and its public range. -/
def resolveRequest (request : ExporterRequest) (existing : Option Exporter) :
    Except Failure (ExporterRequest × String × String) :=
  match existing with
  | some e =>
    if request.retires existing then
      .ok (request.retiring e, e.publicIpv4Start, e.publicIpv4End)
    else resolveOther
  | none => resolveOther
where
  resolveOther : Except Failure (ExporterRequest × String × String) := do
    if ¬ collectorTokenIsValid owners registry organizationId request.collectorApiTokenId then
      .error (.validation ("collector_api_token_id must identify one active same-organization " ++
        "exact-scope CGNAT ingest token") [])
    let request ← resolveNas registry organizationId request
    let range ← resolvePool registry organizationId request
    return (request, range)

/-- `publicIpv4` and the order of a pool's range. -/
def checkRange (first last : String) : Except Failure Unit := do
  let _ ← publicIpv4 "nat_pool.external_ip_start" (.given first)
  let _ ← publicIpv4 "nat_pool.external_ip_end" (.given last)
  if ipv4Number last < ipv4Number first then
    .error (.validation "NAT pool external IPv4 range is reversed" [])

/-- The other configurations of the organization. -/
def othersOf (existing : Option Exporter) : List Exporter :=
  db.exporters.rows.filter fun c =>
    c.organizationId = organizationId ∧ existing.all (·.id ≠ c.id) = true

/-- The token is bound to the configuration. -/
def Exporter.bindsToken (c : Exporter) (token : ℕ) : Bool :=
  c.collectorApiTokenId = token ∨ c.recoveryCollectorApiTokenId = some token

/-- The public range of the configuration meets the range. -/
def Exporter.meets (c : Exporter) (first last : String) : Bool :=
  ipv4Number c.publicIpv4Start ≤ ipv4Number last ∧ ipv4Number first ≤ ipv4Number c.publicIpv4End

/-- The fields that are immutable after the first accepted event. -/
structure Evidentiary where
  exporterNasId : Option ℕ
  exporterIp : Option String
  natPoolRecordId : ℕ
  collectorApiTokenId : ℕ
  publicIpv4Start : String
  publicIpv4End : String
  purposeReference : Option String
  tupleExclusivityConfirmed : Bool
  authoritativeBaselineConfirmed : Bool
  baselineReference : Option String
  deriving DecidableEq

/-- The evidentiary fields of a configuration. -/
def Exporter.evidentiary (c : Exporter) : Evidentiary where
  exporterNasId := c.exporterNasId
  exporterIp := c.exporterIp
  natPoolRecordId := c.natPoolRecordId
  collectorApiTokenId := c.collectorApiTokenId
  publicIpv4Start := c.publicIpv4Start
  publicIpv4End := c.publicIpv4End
  purposeReference := c.purposeReference
  tupleExclusivityConfirmed := c.tupleExclusivityConfirmed
  authoritativeBaselineConfirmed := c.authoritativeBaselineConfirmed
  baselineReference := c.baselineReference

/-- The evidentiary fields that a request asks for. -/
def ExporterRequest.evidentiary (request : ExporterRequest) (first last : String) :
    Evidentiary where
  exporterNasId := request.exporterNasId
  exporterIp := request.exporterIp
  natPoolRecordId := request.natPoolRecordId
  collectorApiTokenId := request.collectorApiTokenId
  publicIpv4Start := first
  publicIpv4End := last
  purposeReference := request.purposeReference
  tupleExclusivityConfirmed := request.tupleExclusivityConfirmed
  authoritativeBaselineConfirmed := request.authoritativeBaselineConfirmed
  baselineReference := request.baselineReference

/-- The exporter has active allocations. -/
def hasOpen (exporterConfigId : ℕ) : Bool :=
  db.bindings.rows.any fun row => row.organizationId = organizationId ∧
    row.exporterConfigId = exporterConfigId ∧ row.releasedAt = none

/-- What a save may change of an exporter that has evidence. -/
def checkEpoch (existing : Exporter) (request : ExporterRequest) (first last : String) :
    Except Failure Unit := do
  if existing.evidentiary ≠ request.evidentiary first last then
    .error (.conflict ("Exporter evidentiary fields are immutable after the first accepted " ++
      "event; register a versioned exporter identity"))
  if request.enabled ∧ ¬ existing.enabled then
    .error (.conflict ("A disabled evidence epoch cannot be re-enabled; register a versioned " ++
      "exporter identity"))
  if ¬ request.enabled ∧ existing.enabled ∧ request.isRequired then
    .error (.conflict ("Retiring an exporter evidence epoch requires enabled=false and " ++
      "is_required=false"))
  if request.isRequired ∧ ¬ existing.isRequired then
    .error (.conflict "A retired/nonrequired evidence epoch cannot become required again")
  if ¬ request.enabled ∧ existing.enabled ∧ hasOpen db organizationId existing.id then
    .error (.conflict "Close all active allocations before retiring an exporter evidence epoch")

/-- The update of an exporter that has evidence. -/
def Exporter.afterEpoch (existing : Exporter) (request : ExporterRequest) (actor : Option ℕ)
    (now : ℤ) : Exporter :=
  let retires := !request.enabled && existing.enabled
  { existing with
    enabled := request.enabled
    isRequired := request.isRequired
    retiredAt := if retires then existing.retiredAt <|> some now else existing.retiredAt
    retiredBy := if retires then existing.retiredBy <|> actor else existing.retiredBy }

/-- An exporter that is registered now. -/
def Exporter.fresh (id : ℕ) (request : ExporterRequest) : Exporter where
  id := id
  organizationId := organizationId
  exporterId := request.exporterId
  exporterNasId := none
  exporterIp := none
  natInstanceId := request.natInstanceId
  natPoolId := request.natPoolId
  natPoolRecordId := 0
  natRealm := request.natRealm
  collectorApiTokenId := 0
  recoveryCollectorApiTokenId := none
  recoveryReference := none
  recoveryApprovedBy := none
  recoveryApprovedAt := none
  publicIpv4Start := ""
  publicIpv4End := ""
  purposeReference := none
  tupleExclusivityConfirmed := false
  authoritativeBaselineConfirmed := false
  baselineReference := none
  baselineConfirmedBy := none
  baselineConfirmedAt := none
  collectionApprovedBy := none
  collectionApprovedAt := none
  isRequired := true
  enabled := false
  retiredAt := none
  retiredBy := none
  lastBindingReceivedAt := none
  lastDeviceRecordedAt := none
  lastCorrectedDeviceAt := none
  coverageHorizonAt := none
  lastExporterBootId := none
  lastSequenceNumber := none
  sequenceGapEvents := 0
  sequenceMissingRecords := 0
  outOfOrderEvents := 0
  reportedLostRecords := 0
  incompleteMetadataEvents := 0

/-- The columns that a save writes to an exporter without evidence, new or not. -/
def Exporter.configured (c : Exporter) (request : ExporterRequest) (first last : String)
    (actor : Option ℕ) (now : ℤ) : Exporter :=
  { c with
    exporterNasId := request.exporterNasId
    exporterIp := request.exporterIp
    natPoolRecordId := request.natPoolRecordId
    collectorApiTokenId := request.collectorApiTokenId
    publicIpv4Start := first
    publicIpv4End := last
    purposeReference := request.purposeReference
    tupleExclusivityConfirmed := request.tupleExclusivityConfirmed
    authoritativeBaselineConfirmed := request.authoritativeBaselineConfirmed
    baselineReference := request.baselineReference
    baselineConfirmedBy := if request.enabled then actor else none
    baselineConfirmedAt := if request.enabled then some now else none
    collectionApprovedBy := if request.enabled then actor else none
    collectionApprovedAt := if request.enabled then some now else none
    isRequired := request.isRequired
    enabled := request.enabled }

/-- `positiveInteger` of an actor that may be missing. -/
def checkActor (actor : Option ℕ) : Except Failure Unit :=
  if actor.any (0 < ·) then .ok ()
  else if actor = none then .error (isRequired "approval_actor_id")
  else .error (invalid "Invalid approval_actor_id" "approval_actor_id"
    "approval_actor_id must be a positive integer")

/-- The row that a checked request saves. -/
def saveRequest (existing : Option Exporter) (request : ExporterRequest) (first last : String)
    (actor : Option ℕ) (now : ℤ) : Except Failure Exporter := do
  if (othersOf db organizationId existing).any (·.bindsToken request.collectorApiTokenId) then
    .error (.conflict "A CGNAT collector token may be bound to only one exporter evidence epoch")
  if existing.any (·.retiredAt.isSome) ∧ request.enabled then
    .error (.conflict ("A retired exporter evidence epoch cannot be re-enabled; register a " ++
      "versioned exporter identity"))
  match existing with
  | some e =>
    if db.eventsOf organizationId e.id ≠ [] then
      checkEpoch db organizationId e request first last
      return e.afterEpoch request actor now
    else
      checkOverlap
      return e.configured request first last actor now
  | none =>
    checkOverlap
    return (Exporter.fresh organizationId db.exporters.nextId request).configured request first
      last actor now
where
  checkOverlap : Except Failure Unit :=
    if request.enabled ∧ ((othersOf db organizationId existing).any fun c =>
        c.enabled && c.meets first last) then
      .error (.validation
        "Enabled CGNAT pool coverage overlaps another configured NAT pool" [])
    else .ok ()

/-- `saveExporterConfig`: the row that it saves. -/
def saveExporterConfig (body : ExporterBody) (actor : Option ℕ) (now : ℤ) :
    Except Failure Exporter := do
  let request ← normalizeExporterConfig body
  if request.enabled ∨ ¬ request.isRequired then checkActor actor
  let existing := (db.identified (request.identity organizationId)).head?
  let (request, first, last) ← resolveRequest owners registry organizationId request existing
  checkRange first last
  saveRequest db organizationId existing request first last actor now

end Save

/-! ### Recovery -/

/-- The body of a recovery approval. -/
structure RecoveryBody where
  unexpected : List String
  collectorApiTokenId : Field ℤ
  incidentReference : Field String

section Recovery

variable (owners : TokenOwners) (registry : Registry) (db : Db) (organizationId : ℕ)

/-- The exporter can still recover releases, with this token. -/
def checkRecovery (config : Exporter) (token : ℕ) : Except Failure Unit := do
  if ¬ config.enabled ∨ ¬ config.isRequired ∨ config.retiredAt ≠ none then
    .error (.conflict "Release recovery requires one active required exporter evidence epoch")
  if config.recoveryCollectorApiTokenId ≠ none ∨ config.recoveryApprovedAt ≠ none then
    .error (.conflict
      "This exporter evidence epoch already has an approved release-recovery token")
  if config.collectorApiTokenId = token then
    .error (.conflict "Release recovery requires a different collector token")
  if collectorTokenIsValid owners registry organizationId config.collectorApiTokenId then
    .error (.conflict
      "The frozen collector token remains valid; incident recovery is not available")
  if ¬ hasOpen db organizationId config.id then
    .error (.conflict "Release recovery is only available while the epoch has open allocations")
  if (othersOf db organizationId none).any (·.bindsToken token) then
    .error (.conflict "A CGNAT collector token may be bound to only one exporter evidence epoch")

/-- The update of an approval. -/
def Exporter.recovered (config : Exporter) (token : ℕ) (reference : String) (actor : Option ℕ)
    (now : ℤ) : Exporter :=
  { config with
    recoveryCollectorApiTokenId := some token
    recoveryReference := some reference
    recoveryApprovedBy := actor
    recoveryApprovedAt := some now
    incompleteMetadataEvents := config.incompleteMetadataEvents + 1 }

/-- `approveReleaseRecovery`: the row that it saves. -/
def approveReleaseRecovery (exporterConfigId : ℕ) (body : RecoveryBody) (actor : Option ℕ)
    (now : ℤ) : Except Failure Exporter := do
  checkActor actor
  rejectUnknownFields "body" body.unexpected
  let token ← positiveInteger "collector_api_token_id" body.collectorApiTokenId
  let reference ← requiredString "incident_reference" 500 body.incidentReference
  if ¬ collectorTokenIsValid owners registry organizationId token then
    .error (.validation ("collector_api_token_id must identify one active same-organization " ++
      "exact-scope CGNAT ingest token") [])
  match (db.exporters.find? exporterConfigId).filter (·.organizationId = organizationId) with
  | none => .error (.notFound "CGNAT exporter configuration not found")
  | some config =>
    checkRecovery owners registry db organizationId config token
    return config.recovered token reference actor now

end Recovery

end Vigabss.Cgnat

/-!
## What saving a configuration can do

What `saveExporterConfig` and `approveReleaseRecovery` have checked when they succeed, and the row
that they save.
-/

namespace Vigabss.Cgnat

open Vigabss.Lib

section Lemmas

variable {owners : TokenOwners} {registry : Registry} {db : Db} {organizationId : ℕ}
  {existing : Option Exporter} {request : ExporterRequest} {first last : String}
  {actor : Option ℕ} {now : ℤ} {config : Exporter}

theorem mem_othersOf {c : Exporter} :
    c ∈ othersOf db organizationId existing ↔
      c ∈ db.exporters.rows ∧ c.organizationId = organizationId ∧ ∀ e ∈ existing, e.id ≠ c.id := by
  cases existing <;> simp [othersOf]

theorem mem_eventsOf {exporterConfigId : ℕ} {e : BindingEvent} :
    e ∈ db.eventsOf organizationId exporterConfigId ↔
      e ∈ db.events ∧ e.organizationId = organizationId ∧
        e.exporterConfigId = exporterConfigId := by
  simp [Db.eventsOf]

/-- What a saved configuration starts from: an exporter without evidence, or a new one. -/
inductive Base (db : Db) (organizationId : ℕ) (request : ExporterRequest) :
    Option Exporter → Exporter → Prop where
  | stored {e : Exporter} (h : db.eventsOf organizationId e.id = []) :
      Base db organizationId request (some e) e
  | fresh : Base db organizationId request none
      (Exporter.fresh organizationId db.exporters.nextId request)

/-- The row that a save writes. -/
inductive SavedRow (db : Db) (organizationId : ℕ) (existing : Option Exporter)
    (request : ExporterRequest) (first last : String) (actor : Option ℕ) (now : ℤ) :
    Exporter → Prop where
  | epoch {e : Exporter} (hexisting : existing = some e)
      (hevidence : db.eventsOf organizationId e.id ≠ [])
      (hcheck : checkEpoch db organizationId e request first last = .ok ()) :
      SavedRow db organizationId existing request first last actor now
        (e.afterEpoch request actor now)
  | configured {base : Exporter} (hbase : Base db organizationId request existing base)
      (hoverlap : request.enabled = true → ∀ c ∈ othersOf db organizationId existing,
        c.enabled = true → c.meets first last = false) :
      SavedRow db organizationId existing request first last actor now
        (base.configured request first last actor now)

theorem checkOverlap_ok
    (h : saveRequest.checkOverlap db organizationId existing request first last = .ok ()) :
    request.enabled = true → ∀ c ∈ othersOf db organizationId existing,
      c.enabled = true → c.meets first last = false := by
  unfold saveRequest.checkOverlap at h
  split_ifs at h with hover
  intro henabled c hc hcenabled
  by_contra hmeets
  refine hover ⟨henabled, List.any_eq_true.2 ⟨c, hc, ?_⟩⟩
  simpa [hcenabled] using hmeets

/-- A saved request binds a token that no other configuration of the organization has, and does
not enable a retired one. -/
theorem saveRequest_ok
    (h : saveRequest db organizationId existing request first last actor now = .ok config) :
    (∀ c ∈ othersOf db organizationId existing,
        c.bindsToken request.collectorApiTokenId = false) ∧
      (∀ e ∈ existing, e.retiredAt.isSome = true → request.enabled = false) ∧
      SavedRow db organizationId existing request first last actor now config := by
  unfold saveRequest at h
  obtain ⟨htokens, h⟩ := check_ok h
  obtain ⟨hretired, h⟩ := check_ok h
  refine ⟨fun c hc => ?_, fun e he hr => ?_, ?_⟩
  · by_contra hbinds
    exact htokens (List.any_eq_true.2 ⟨c, hc, by simpa using hbinds⟩)
  · obtain rfl := Option.mem_def.1 he
    by_contra henabled
    exact hretired ⟨by simpa using hr, by simpa using henabled⟩
  · split at h
    · rename_i e
      split_ifs at h with hevidence
      · obtain ⟨⟨⟩, hcheck, h⟩ := except_bind_ok.1 h
        obtain rfl := Except.ok.inj h
        exact .epoch rfl hevidence hcheck
      · obtain ⟨⟨⟩, hoverlap, h⟩ := except_bind_ok.1 h
        obtain rfl := Except.ok.inj h
        exact .configured (.stored (not_not.1 hevidence)) (checkOverlap_ok hoverlap)
    · obtain ⟨⟨⟩, hoverlap, h⟩ := except_bind_ok.1 h
      obtain rfl := Except.ok.inj h
      exact .configured .fresh (checkOverlap_ok hoverlap)

theorem checkRange_ok (h : checkRange first last = .ok ()) :
    ipv4Number first ≤ ipv4Number last := by
  unfold checkRange at h
  obtain ⟨_, -, h⟩ := except_bind_ok.1 h
  obtain ⟨_, -, h⟩ := except_bind_ok.1 h
  split_ifs at h with hlt
  exact not_lt.1 hlt

/-- Resolving a request keeps who and whether, and its token is the exporter's own or a valid one
of the organization. -/
theorem resolveRequest_ok {resolved : ExporterRequest}
    (h : resolveRequest owners registry organizationId request existing =
      .ok (resolved, first, last)) :
    resolved.identity organizationId = request.identity organizationId ∧
      ((∃ e ∈ existing, resolved.collectorApiTokenId = e.collectorApiTokenId) ∨
        owners resolved.collectorApiTokenId = organizationId) := by
  have hother : resolveRequest.resolveOther owners registry organizationId request =
      .ok (resolved, first, last) →
      resolved.identity organizationId = request.identity organizationId ∧
        owners resolved.collectorApiTokenId = organizationId := by
    intro h
    unfold resolveRequest.resolveOther at h
    obtain ⟨htoken, h⟩ := check_ok h
    obtain ⟨r, hr, h⟩ := except_bind_ok.1 h
    obtain ⟨range, -, h⟩ := except_bind_ok.1 h
    obtain ⟨rfl, -⟩ := Prod.mk.inj (Except.ok.inj h)
    have howner : owners request.collectorApiTokenId = organizationId := by
      have := not_not.1 htoken
      simp only [collectorTokenIsValid, Bool.decide_and, Bool.and_eq_true,
        decide_eq_true_eq] at this
      exact this.1
    unfold resolveNas at hr
    split_ifs at hr
    · obtain rfl := Except.ok.inj hr
      exact ⟨rfl, howner⟩
    · split at hr
      · obtain rfl := Except.ok.inj hr
        exact ⟨rfl, howner⟩
      · cases hr
  unfold resolveRequest at h
  split at h
  · rename_i e
    split_ifs at h
    · obtain ⟨rfl, -⟩ := Prod.mk.inj (Except.ok.inj h)
      exact ⟨rfl, .inl ⟨e, rfl, rfl⟩⟩
    · exact (hother h).imp_right .inr
  · exact (hother h).imp_right .inr

/-- What a save has found and checked. -/
structure Saves (owners : TokenOwners) (db : Db) (organizationId : ℕ) (actor : Option ℕ) (now : ℤ)
    (existing : Option Exporter) (request : ExporterRequest) (first last : String)
    (config : Exporter) : Prop where
  found : existing = (db.identified (request.identity organizationId)).head?
  token : (∃ e ∈ existing, request.collectorApiTokenId = e.collectorApiTokenId) ∨
    owners request.collectorApiTokenId = organizationId
  range : ipv4Number first ≤ ipv4Number last
  unbound : ∀ c ∈ othersOf db organizationId existing,
    c.bindsToken request.collectorApiTokenId = false
  retired : ∀ e ∈ existing, e.retiredAt.isSome = true → request.enabled = false
  row : SavedRow db organizationId existing request first last actor now config

theorem saveExporterConfig_ok {body : ExporterBody}
    (h : saveExporterConfig owners registry db organizationId body actor now = .ok config) :
    ∃ existing request first last,
      Saves owners db organizationId actor now existing request first last config := by
  unfold saveExporterConfig at h
  obtain ⟨asked, -, h⟩ := except_bind_ok.1 h
  obtain ⟨⟨request, first, last⟩, hresolve, hrest⟩ : ∃ resolved,
      resolveRequest owners registry organizationId asked
        (db.identified (asked.identity organizationId)).head? = .ok resolved ∧
      (checkRange resolved.2.1 resolved.2.2 >>= fun _ =>
        saveRequest db organizationId (db.identified (asked.identity organizationId)).head?
          resolved.1 resolved.2.1 resolved.2.2 actor now) = .ok config := by
    split_ifs at h
    · exact except_bind_ok.1 (except_bind_ok.1 h).choose_spec.2
    · exact except_bind_ok.1 h
  obtain ⟨⟨⟩, hrange, hrest⟩ := except_bind_ok.1 hrest
  obtain ⟨hunbound, hretired, hrow⟩ := saveRequest_ok hrest
  obtain ⟨hidentity, htoken⟩ := resolveRequest_ok hresolve
  exact ⟨_, request, first, last, by rw [hidentity], htoken, checkRange_ok hrange, hunbound,
    hretired, hrow⟩

theorem Saves.existing_mem
    (h : Saves owners db organizationId actor now existing request first last config)
    {e : Exporter} (he : e ∈ existing) :
    e ∈ db.exporters.rows ∧ e.identity = request.identity organizationId := by
  have hmem : e ∈ db.identified (request.identity organizationId) := by
    rw [h.found] at he
    exact List.mem_of_mem_head? he
  obtain ⟨hmem, hid⟩ := List.mem_filter.1 hmem
  exact ⟨hmem, by simpa using hid⟩

/-- An approval is for a stored exporter, and its token is a valid one that is bound nowhere. -/
theorem approveReleaseRecovery_ok {exporterConfigId : ℕ} {body : RecoveryBody}
    (h : approveReleaseRecovery owners registry db organizationId exporterConfigId body actor now =
      .ok config) :
    ∃ stored ∈ db.exporters.rows, stored.organizationId = organizationId ∧
      ∃ token reference, owners token = organizationId ∧
        (∀ c ∈ othersOf db organizationId none, c.bindsToken token = false) ∧
        config = stored.recovered token reference actor now := by
  unfold approveReleaseRecovery at h
  obtain ⟨⟨⟩, -, h⟩ := except_bind_ok.1 h
  obtain ⟨⟨⟩, -, h⟩ := except_bind_ok.1 h
  obtain ⟨token, -, h⟩ := except_bind_ok.1 h
  obtain ⟨reference, -, h⟩ := except_bind_ok.1 h
  obtain ⟨hvalid, h⟩ := check_ok h
  split at h
  · cases h
  · rename_i stored hfind
    obtain ⟨hfind, horg⟩ := Option.filter_eq_some_iff.1 hfind
    obtain ⟨⟨⟩, hcheck, h⟩ := except_bind_ok.1 h
    obtain rfl := Except.ok.inj h
    refine ⟨stored, (Table.find?_eq_some.1 hfind).1, by simpa using horg, token, reference, ?_, ?_,
      rfl⟩
    · have := not_not.1 hvalid
      simp only [collectorTokenIsValid, Bool.decide_and, Bool.and_eq_true,
        decide_eq_true_eq] at this
      exact this.1
    · unfold checkRecovery at hcheck
      obtain ⟨-, hcheck⟩ := check_ok hcheck
      obtain ⟨-, hcheck⟩ := check_ok hcheck
      obtain ⟨-, hcheck⟩ := check_ok hcheck
      obtain ⟨-, hcheck⟩ := check_ok hcheck
      obtain ⟨-, hcheck⟩ := check_ok hcheck
      split_ifs at hcheck with hbound
      intro c hc
      by_contra hbinds
      exact hbound (List.any_eq_true.2 ⟨c, hc, by simpa using hbinds⟩)

end Lemmas

end Vigabss.Cgnat
