import Vigabss.Lib.Except
import Vigabss.Radius.Ingest

/-!
# Vigabss.Cgnat.Binding — the records of a CGNAT batch

A collector sends one record for each allocation and for each release of a public port or port
block.  `normalizeBinding` checks it field by field; what it returns carries the order of its two
instants, and instants that fit a `TIMESTAMP` column.
-/

namespace Vigabss.Cgnat

/-! ### Refusals -/

structure Detail where
  field : String
  message : String
  deriving DecidableEq, Repr

/-- The errors that a request is refused with. -/
inductive Failure where
  | validation (message : String) (details : List Detail)
  | conflict (message : String)
  | forbidden (message : String)
  | notFound (message : String)
  deriving DecidableEq, Repr

/-- A `ValidationError` about one field. -/
def invalid (message field detail : String) : Failure := .validation message [⟨field, detail⟩]

/-- A field of a JSON body as the check of its type finds it: `absent` is `undefined`, `null` or
`''`, and `malformed` another type of value than the check takes. -/
inductive Field (α : Type) where
  | absent
  | malformed
  | given (value : α)
  deriving DecidableEq

/-! ### Field checks -/

/-- `Number.isSafeInteger`. -/
def isSafeInteger (n : ℤ) : Bool := n.natAbs ≤ Radius.maxSafeInteger

/-- The error of a required field that is not there. -/
def isRequired (field : String) : Failure :=
  invalid (field ++ " is required") field (field ++ " is required")

/-- `positiveInteger` of a value that is there. -/
def positiveIntegerOf (allowZero : Bool) (field : String) : Field ℤ → Except Failure (Option ℕ)
  | .absent => .ok none
  | .malformed => .error (invalid ("Invalid " ++ field) field
      (field ++ " must be " ++ (if allowZero then "a non-negative" else "a positive") ++ " integer"))
  | .given n =>
    if isSafeInteger n ∧ (if allowZero then 0 ≤ n else 0 < n) then .ok (some n.toNat)
    else .error (invalid ("Invalid " ++ field) field
      (field ++ " must be " ++ (if allowZero then "a non-negative" else "a positive") ++ " integer"))

/-- A nullable check made required. -/
def required {α : Type} (field : String) (check : Except Failure (Option α)) : Except Failure α := do
  match ← check with
  | none => .error (isRequired field)
  | some a => .ok a

/-- `positiveInteger`, with its two options. -/
def positiveInteger (field : String) (value : Field ℤ) : Except Failure ℕ :=
  required field (positiveIntegerOf false field value)

/-- `signedInteger(value, field, { nullable: true, maximum })`. -/
def signedInteger (field : String) (maximum : ℕ) (value : Field ℤ) :
    Except Failure (Option ℤ) :=
  let message := field ++ " must be an integer between -" ++ toString maximum ++ " and " ++
    toString maximum
  match value with
  | .absent => .ok none
  | .malformed => .error (invalid ("Invalid " ++ field) field message)
  | .given n =>
    if isSafeInteger n ∧ n.natAbs ≤ maximum then .ok (some n)
    else .error (invalid ("Invalid " ++ field) field message)

/-- `port(value, field, { nullable: true })`. -/
def portOf (field : String) (value : Field ℤ) : Except Failure (Option ℕ) :=
  let message := field ++ " must be an integer from 1 to 65535"
  match value with
  | .absent => .ok none
  | .malformed => .error (invalid ("Invalid " ++ field) field message)
  | .given n =>
    if 1 ≤ n ∧ n ≤ 65535 then .ok (some n.toNat)
    else .error (invalid ("Invalid " ++ field) field message)

/-- `port(value, field)`. -/
def port (field : String) (value : Field ℤ) : Except Failure ℕ := required field (portOf field value)

/-- The white space and line ends that `String.prototype.trim` removes. -/
def isJsSpace (c : Char) : Bool :=
  [0x9, 0xA, 0xB, 0xC, 0xD, 0x20, 0xA0, 0x1680, 0x2028, 0x2029, 0x202F, 0x205F, 0x3000,
    0xFEFF].contains c.toNat || (0x2000 ≤ c.toNat && c.toNat ≤ 0x200A)

/-- `String.prototype.trim`. -/
def trim (s : String) : String :=
  String.ofList ((s.toList.dropWhile isJsSpace).reverse.dropWhile isJsSpace).reverse

/-- `String.prototype.length`, in UTF-16 units. -/
def jsLength (s : String) : ℕ := (s.toList.map fun c => if c.toNat < 0x10000 then 1 else 2).sum

def requiredString (field : String) (maximum : ℕ) (value : Field String) :
    Except Failure String :=
  let failure := invalid ("Invalid " ++ field) field
    (field ++ " must be a non-empty string of at most " ++ toString maximum ++ " characters")
  match value with
  | .given s => if trim s = "" ∨ maximum < jsLength s then .error failure else .ok (trim s)
  | _ => .error failure

def requiredAsciiString (field : String) (maximum : ℕ) (value : Field String) :
    Except Failure String := do
  let normalized ← requiredString field maximum value
  if normalized.toList.all fun c => 0x20 ≤ c.toNat && c.toNat ≤ 0x7E then .ok normalized
  else .error (invalid ("Invalid " ++ field) field
    (field ++ " must contain printable ASCII characters only"))

/-- `requiredSessionInstanceId`: the UUID as the session tables number it, `given none` a string
that is no UUID. -/
def requiredSessionInstanceId : Field (Option ℕ) → Except Failure ℕ
  | .given (some uuid) => .ok uuid
  | .given none => .error (invalid "Invalid session_instance_id" "session_instance_id"
      "session_instance_id must be a canonical UUID from the tenant RADIUS session ledger")
  | _ => .error (invalid "Invalid session_instance_id" "session_instance_id"
      "session_instance_id must be a non-empty string of at most 36 characters")

def optionalString (field : String) (maximum : ℕ) (value : Field String) :
    Except Failure (Option String) :=
  let failure := invalid ("Invalid " ++ field) field
    (field ++ " must be a string of at most " ++ toString maximum ++ " characters")
  match value with
  | .absent => .ok none
  | .malformed => .error failure
  | .given s => if maximum < jsLength s then .error failure else .ok (some s)

/-- A reference that says something. -/
def filled (reference : Option String) : Bool := reference.any fun s => trim s ≠ ""

/-! ### Addresses -/

/-- A decimal octet without leading zeros. -/
def octet (digits : List Char) : Option ℕ :=
  let n := digits.foldl (fun n c => 10 * n + (c.toNat - '0'.toNat)) 0
  if digits.all (fun c => '0'.toNat ≤ c.toNat && c.toNat ≤ '9'.toNat) ∧ digits ≠ [] ∧
      digits.length ≤ 3 ∧ n ≤ 255 ∧ (digits.head? = some '0' → digits = ['0']) then some n
  else none

/-- The octets of what `net.isIP` calls an IPv4 address. -/
def ipv4Octets (value : String) : Option (List ℕ) :=
  match (value.toList.splitOn '.').mapM octet with
  | some [a, b, c, d] => some [a, b, c, d]
  | _ => none

/-- `ipv4(value, field, { nullable: true })`. -/
def ipv4Of (field : String) (value : Field String) : Except Failure (Option String) :=
  let failure := invalid ("Invalid " ++ field) field (field ++ " must be an IPv4 address")
  match value with
  | .absent => .ok none
  | .malformed => .error failure
  | .given s => if (ipv4Octets s).isSome then .ok (some s) else .error failure

/-- `ipv4(value, field)`. -/
def ipv4 (field : String) (value : Field String) : Except Failure String :=
  required field (ipv4Of field value)

def isGloballyRoutableIpv4 (value : String) : Bool :=
  match ipv4Octets value with
  | some [a, b, c, _] =>
    ¬ (a = 0 ∨ a = 10 ∨ a = 127 ∨ 224 ≤ a) ∧ ¬ (a = 100 ∧ 64 ≤ b ∧ b ≤ 127) ∧
      ¬ (a = 169 ∧ b = 254) ∧ ¬ (a = 172 ∧ 16 ≤ b ∧ b ≤ 31) ∧ ¬ (a = 192 ∧ b = 168) ∧
      ¬ (a = 192 ∧ b = 0 ∧ c = 0) ∧ ¬ (a = 192 ∧ b = 0 ∧ c = 2) ∧
      ¬ (a = 192 ∧ b = 88 ∧ c = 99) ∧ ¬ (a = 198 ∧ (b = 18 ∨ b = 19)) ∧
      ¬ (a = 198 ∧ b = 51 ∧ c = 100) ∧ ¬ (a = 203 ∧ b = 0 ∧ c = 113)
  | _ => false

def publicIpv4 (field : String) (value : Field String) : Except Failure String := do
  let address ← ipv4 field value
  if isGloballyRoutableIpv4 address then .ok address
  else .error (invalid ("Invalid " ++ field) field
    (field ++ " must be a globally routable unicast IPv4 address"))

/-- `ipv4Number`. -/
def ipv4Number (value : String) : ℕ :=
  ((ipv4Octets value).getD []).foldl (fun result octet => result * 256 + octet) 0

/-! ### Instants -/

/-- `Date.UTC(2038, 0, 19, 3, 14, 7)`. -/
def maxInstant : ℤ := 2147483647000

/-- An instant that `dateValue` accepts, in milliseconds. -/
structure Instant where
  ms : ℤ
  nonneg : 0 ≤ ms
  le_max : ms ≤ maxInstant
  deriving DecidableEq

/-- `dateValue`; `given none` is a string of the right shape that is no date. -/
def dateValue (field : String) (value : Field (Option ℤ)) : Except Failure Instant :=
  match value with
  | .given (some ms) =>
    if h : 0 ≤ ms ∧ ms ≤ maxInstant then .ok ⟨ms, h.1, h.2⟩
    else .error (invalid ("Invalid " ++ field) field
      (field ++ " is outside the supported timestamp range"))
  | .given none => .error (invalid ("Invalid " ++ field) field
      (field ++ " is outside the supported timestamp range"))
  | _ => .error (invalid ("Invalid " ++ field) field
      (field ++ " must be an ISO 8601 date-time with a timezone"))

/-! ### Records -/

inductive EventType where
  | allocate | release
  deriving DecidableEq, Repr

inductive BindingType where
  | singlePort | portBlock
  deriving DecidableEq, Repr

inductive Protocol where
  | tcp | udp
  deriving DecidableEq, Repr

/-- A record as it is sent. -/
structure RawBinding where
  /-- The keys that are not in `BINDING_FIELDS`. -/
  unexpected : List String
  eventType : Field String
  bindingKey : Field String
  bindingType : Field String
  privateIpv4 : Field String
  privatePortStart : Field ℤ
  privatePortEnd : Field ℤ
  publicIpv4 : Field String
  publicPortStart : Field ℤ
  publicPortEnd : Field ℤ
  protocol : Field (ℤ ⊕ String)
  allocatedAt : Field (Option ℤ)
  releasedAt : Field (Option ℤ)
  clientId : Field ℤ
  contractId : Field ℤ
  username : Field String
  radiusSessionId : Field String
  sessionInstanceId : Field (Option ℕ)
  exporterNasId : Field ℤ
  exporterId : Field String
  exporterIp : Field String
  exporterBootId : Field String
  natInstanceId : Field String
  natPoolId : Field String
  natRealm : Field String
  eventId : Field String
  sequenceNumber : Field ℤ
  deviceRecordedAt : Field (Option ℤ)
  clockOffsetMs : Field ℤ
  clockUncertaintyMs : Field ℤ
  recordsLostBefore : Field ℤ
  deriving DecidableEq

/-- A record that was accepted as well formed. -/
structure Binding where
  eventType : EventType
  bindingKey : String
  bindingType : BindingType
  privateIpv4 : String
  privatePortStart : Option ℕ
  privatePortEnd : Option ℕ
  publicIpv4 : String
  publicPortStart : ℕ
  publicPortEnd : ℕ
  protocol : Protocol
  allocatedAt : Instant
  releasedAt : Option Instant
  clientId : Option ℕ
  contractId : Option ℕ
  username : Option String
  radiusSessionId : Option String
  sessionInstanceId : ℕ
  exporterNasId : Option ℕ
  exporterId : String
  exporterIp : Option String
  exporterBootId : String
  natInstanceId : String
  natPoolId : String
  natRealm : String
  eventId : String
  sequenceNumber : ℕ
  deviceRecordedAt : Instant
  clockOffsetMs : Option ℤ
  clockUncertaintyMs : Option ℕ
  recordsLostBefore : Option ℕ
  /-- A release says when, an allocation does not. -/
  released_iff : eventType = .release ↔ releasedAt.isSome = true
  /-- The interval is not empty. -/
  ordered : ∀ r ∈ releasedAt, allocatedAt.ms < r.ms
  deriving DecidableEq

/-- `MAX_CLOCK_UNCERTAINTY_MS`. -/
def maxClockUncertaintyMs : ℕ := 300000

/-- `MAX_ABSOLUTE_CLOCK_OFFSET_MS`. -/
def maxAbsoluteClockOffsetMs : ℕ := 86400000

namespace Binding

variable (b : Binding)

/-- `corrected_device_at`: the offset is the device clock minus UTC. -/
def correctedDeviceAt : ℤ := b.deviceRecordedAt.ms - b.clockOffsetMs.getD 0

/-- The uncertainty of the record's clock, the largest one when it is not known. -/
def uncertainty : ℤ := (b.clockUncertaintyMs.getD maxClockUncertaintyMs : ℕ)

/-- `coverage_horizon_at`. -/
def coverageHorizonAt : ℤ := b.correctedDeviceAt - b.uncertainty

def metadataComplete : Bool :=
  b.clockOffsetMs.isSome && b.clockUncertaintyMs.isSome && b.recordsLostBefore.isSome

theorem releasedAt_eq_none (h : b.eventType = .allocate) : b.releasedAt = none := by
  cases hr : b.releasedAt with
  | none => rfl
  | some r =>
    have := b.released_iff.2 (by simp [hr])
    rw [h] at this
    cases this

end Binding

/-! ### Normalization -/

/-- The settings read from the environment, within their bounds. -/
structure Config where
  /-- `CGNAT_ATTRIBUTION_MAX_BATCH`. -/
  maxBatchSize : ℕ
  /-- `CGNAT_ATTRIBUTION_MAX_CLOCK_SKEW_SECONDS`. -/
  maxClockSkewSeconds : ℕ
  /-- `CGNAT_ATTRIBUTION_SESSION_GRACE_SECONDS`. -/
  sessionGraceSeconds : ℕ

/-- `rejectUnknownFields` of an object with these other keys. -/
def rejectUnknownFields (field : String) (unexpected : List String) : Except Failure Unit :=
  if unexpected = [] then .ok ()
  else .error (.validation ("Unknown " ++ field ++ " fields")
    (unexpected.map fun key => ⟨field ++ "." ++ key, "field is not allowed"⟩))

def eventTypeOf (value : Field String) : Except Failure EventType := do
  match ← requiredString "event_type" 16 value with
  | "allocate" => .ok .allocate
  | "release" => .ok .release
  | _ => .error (invalid "Invalid event_type" "event_type" "event_type must be allocate or release")

def bindingTypeOf (value : Field String) : Except Failure BindingType := do
  match ← requiredString "binding_type" 20 value with
  | "single_port" => .ok .singlePort
  | "port_block" => .ok .portBlock
  | _ => .error (invalid "Invalid binding_type" "binding_type"
      "binding_type must be single_port or port_block")

/-- The ASCII lower case of a character. -/
def lower (c : Char) : Char := if 'A' ≤ c ∧ c ≤ 'Z' then Char.ofNat (c.toNat + 32) else c

def normalizeProtocol (value : Field (ℤ ⊕ String)) : Except Failure Protocol :=
  let failure := invalid "Invalid protocol" "protocol" "protocol must be tcp/6 or udp/17"
  match value with
  | .given (.inl n) => if n = 6 then .ok .tcp else if n = 17 then .ok .udp else .error failure
  | .given (.inr s) =>
    let normalized := (trim s).toList.map lower
    -- a numeral may have leading zeros
    let numeral := normalized.dropWhile (· = '0')
    if normalized = ['t', 'c', 'p'] ∨ numeral = ['6'] then .ok .tcp
    else if normalized = ['u', 'd', 'p'] ∨ numeral = ['1', '7'] then .ok .udp
    else .error failure
  | _ => .error failure

/-- The ports of a record fit its type. -/
def checkPorts (bindingType : BindingType) (privateStart privateEnd : Option ℕ)
    (publicStart publicEnd : ℕ) : Except Failure Unit := do
  if bindingType = .singlePort ∧ (privateStart ≠ privateEnd ∨ publicStart ≠ publicEnd) then
    .error (invalid "Invalid single-port binding" "public_port_end"
      "single_port bindings require equal start/end values for both private and public ports")
  if bindingType = .portBlock ∧ (privateStart ≠ none ∨ privateEnd ≠ none) then
    .error (invalid "Invalid port-block allocation" "private_port_start"
      "port_block allocations must omit private port fields")
  if bindingType = .portBlock ∧ publicEnd ≤ publicStart then
    .error (invalid "Invalid port-block allocation" "public_port_end"
      "public_port_end must be greater than public_port_start")

/-- A private port, which only a port block may leave out. -/
def privatePort (bindingType : BindingType) (field : String) (value : Field ℤ) :
    Except Failure (Option ℕ) :=
  match bindingType with
  | .portBlock => portOf field value
  | .singlePort => (port field value).map some

/-- When a binding is released: never said by an allocation, always by a release, and after the
allocation. -/
def releaseTime (eventType : EventType) (allocatedAt : Instant) (value : Field (Option ℤ)) :
    Except Failure {r : Option Instant //
      (eventType = .release ↔ r.isSome = true) ∧ ∀ t ∈ r, allocatedAt.ms < t.ms} := do
  match ← (if value = .absent then .ok none else (dateValue "released_at" value).map some) with
  | none =>
    if h : eventType = .release then
      .error (invalid "Invalid release event" "released_at" "release events require released_at")
    else .ok ⟨none, by simp [h]⟩
  | some r =>
    if h : eventType = .release then
      if ht : allocatedAt.ms < r.ms then .ok ⟨some r, by simp [h, ht]⟩
      else .error (invalid "Invalid allocation interval" "released_at"
        "released_at must be after allocated_at")
    else .error (invalid "Invalid allocate event" "released_at"
      "allocate events must leave released_at null; send a separate release event")

/-- The device's clock agrees with the time of the event, as far as it says how it runs. -/
def checkClock (latest corrected eventTime : ℤ) (maxSkew : ℕ) (offset : Option ℤ)
    (uncertainty : Option ℕ) : Except Failure Unit := do
  if latest < corrected then
    .error (invalid "Corrected device timestamp is in the future" "device_recorded_at"
      ("corrected device_recorded_at may be at most " ++ toString maxSkew ++
        " seconds in the future"))
  if offset.isSome ∧ uncertainty.any (fun u => u < (corrected - eventTime).natAbs) then
    .error (invalid "Device clock evidence is internally inconsistent" "clock_offset_ms"
      ("device_recorded_at minus clock_offset_ms must agree with the event time within " ++
        "clock_uncertainty_ms"))

/-- `normalizeBinding`. -/
def normalizeBinding (config : Config) (now : ℤ) (record : RawBinding) :
    Except Failure Binding := do
  rejectUnknownFields "bindings[0]" record.unexpected
  let eventType ← eventTypeOf record.eventType
  let bindingType ← bindingTypeOf record.bindingType
  let privatePortStart ← privatePort bindingType "private_port_start" record.privatePortStart
  let privatePortEnd ← privatePort bindingType "private_port_end" record.privatePortEnd
  let publicPortStart ← port "public_port_start" record.publicPortStart
  let publicPortEnd ← port "public_port_end" record.publicPortEnd
  checkPorts bindingType privatePortStart privatePortEnd publicPortStart publicPortEnd
  let allocatedAt ← dateValue "allocated_at" record.allocatedAt
  let ⟨releasedAt, hreleased⟩ ← releaseTime eventType allocatedAt record.releasedAt
  let latest := now + config.maxClockSkewSeconds * 1000
  if latest < allocatedAt.ms ∨ releasedAt.any (fun r => latest < r.ms) then
    .error (invalid "Allocation timestamp is in the future" "released_at"
      ("completed allocation timestamps may be at most " ++ toString config.maxClockSkewSeconds ++
        " seconds in the future"))
  let deviceRecordedAt ← dateValue "device_recorded_at" record.deviceRecordedAt
  let clockOffsetMs ← signedInteger "clock_offset_ms" maxAbsoluteClockOffsetMs record.clockOffsetMs
  let clockUncertaintyMs ←
    positiveIntegerOf true "clock_uncertainty_ms" record.clockUncertaintyMs
  if clockUncertaintyMs.any (maxClockUncertaintyMs < ·) then
    .error (invalid "Invalid clock_uncertainty_ms" "clock_uncertainty_ms"
      ("clock_uncertainty_ms must not exceed " ++ toString maxClockUncertaintyMs))
  checkClock latest (deviceRecordedAt.ms - clockOffsetMs.getD 0)
    ((releasedAt.getD allocatedAt).ms) config.maxClockSkewSeconds clockOffsetMs clockUncertaintyMs
  let bindingKey ← requiredAsciiString "binding_key" 191 record.bindingKey
  let privateIpv4 ← ipv4 "private_ipv4" record.privateIpv4
  let publicIpv4 ← publicIpv4 "public_ipv4" record.publicIpv4
  let protocol ← normalizeProtocol record.protocol
  let clientId ← positiveIntegerOf false "client_id" record.clientId
  let contractId ← positiveIntegerOf false "contract_id" record.contractId
  let username ← optionalString "username" 64 record.username
  let radiusSessionId ← optionalString "radius_session_id" 64 record.radiusSessionId
  let sessionInstanceId ← requiredSessionInstanceId record.sessionInstanceId
  let exporterNasId ← positiveIntegerOf false "exporter_nas_id" record.exporterNasId
  let exporterId ← requiredAsciiString "exporter_id" 191 record.exporterId
  let exporterIp ← ipv4Of "exporter_ip" record.exporterIp
  let exporterBootId ← requiredAsciiString "exporter_boot_id" 191 record.exporterBootId
  let natInstanceId ← requiredAsciiString "nat_instance_id" 191 record.natInstanceId
  let natPoolId ← requiredAsciiString "nat_pool_id" 191 record.natPoolId
  let natRealm ← requiredAsciiString "nat_realm" 191 record.natRealm
  let eventId ← requiredAsciiString "event_id" 191 record.eventId
  let sequenceNumber ← required "sequence_number"
    (positiveIntegerOf true "sequence_number" record.sequenceNumber)
  let recordsLostBefore ←
    positiveIntegerOf true "records_lost_before" record.recordsLostBefore
  return {
    eventType, bindingKey, bindingType, privateIpv4, privatePortStart, privatePortEnd, publicIpv4,
    publicPortStart, publicPortEnd, protocol, allocatedAt, releasedAt, clientId, contractId,
    username, radiusSessionId, sessionInstanceId, exporterNasId, exporterId, exporterIp,
    exporterBootId, natInstanceId, natPoolId, natRealm, eventId, sequenceNumber, deviceRecordedAt,
    clockOffsetMs, clockUncertaintyMs, recordsLostBefore
    released_iff := hreleased.1
    ordered := hreleased.2 }

end Vigabss.Cgnat
