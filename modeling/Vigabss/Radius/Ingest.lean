import Vigabss.Radius.Session

/-!
# Vigabss.Radius.Ingest — accounting records

`ingestAccounting` takes one Start, Interim-Update or Stop.  `startAction` and `updateAction` say
what is done with it, from the record and the session row it is about; the rest writes that.  The
NAS and the subscriber a record resolves to are part of it.
-/

namespace Vigabss.Radius

open Vigabss.Lib

structure ValidationError where
  message : String
  deriving DecidableEq, Repr

/-- The two settings read from the environment, within their bounds. -/
structure Config where
  /-- `RADIUS_SESSION_LIVENESS_MINUTES`. -/
  livenessMinutes : ℕ
  /-- `RADIUS_ACCOUNTING_MAX_CLOCK_SKEW_SECONDS`. -/
  maxClockSkewSeconds : ℕ

/-- The attributes of an accounting record. -/
structure Attrs where
  acctStatusType : String
  organizationId : ℕ
  nasId : ℕ
  contractId : ℕ
  clientId : ℕ
  userName : String
  acctSessionId : String
  callingStationId : Option String
  framedIpAddress : Option String
  framedIpv6Prefix : Option String
  delegatedIpv6Prefix : Option String
  framedIpv6Address : Option String
  acctInputOctets : Option ℕ
  acctOutputOctets : Option ℕ
  acctInputGigawords : Option ℕ
  acctOutputGigawords : Option ℕ
  acctInputPackets : Option ℕ
  acctOutputPackets : Option ℕ
  acctSessionTime : Option ℕ
  acctTerminateCause : Option String
  eventTimestamp : Option ℤ
  acctDelayTime : Option ℕ

/-- A record with its counters combined and its time fixed. -/
structure Record where
  eventType : EventType
  organizationId : ℕ
  nasId : ℕ
  contractId : ℕ
  clientId : ℕ
  userName : String
  acctSessionId : String
  callingStationId : Option String
  framedIpAddress : Option String
  framedIpv6Prefix : Option String
  delegatedIpv6Prefix : Option String
  framedIpv6Address : Option String
  usage : RawUsage
  terminateCause : Option String
  delaySeconds : ℕ
  hasExplicitEventTimestamp : Bool
  observedEventAt : ℤ

/-! ### Normalization -/

/-- `Number.MAX_SAFE_INTEGER`. -/
def maxSafeInteger : ℕ := 2 ^ 53 - 1

/-- The bound of one counter field. -/
def checkCounter (field : String) (value : Option ℕ) (maximum : ℕ) : Except ValidationError Unit :=
  if value.any (maximum < ·) then .error ⟨"Invalid " ++ field⟩ else .ok ()

/-- `combineOctetsGigawords`. -/
def combineOctetsGigawords (octets gigawords : Option ℕ) : Except ValidationError ℕ :=
  let o := octets.getD 0
  let g := gigawords.getD 0
  if maxSafeInteger < o ∨ maxSafeInteger < g then
    .error ⟨"RADIUS counters must be non-negative safe integers"⟩
  else if maxSafeInteger < o + g * 4294967296 then
    .error ⟨"Combined RADIUS octet counter exceeds the supported safe-integer range"⟩
  else .ok (o + g * 4294967296)

/-- The combined counter, absent when both parts are. -/
def combined (octets gigawords : Option ℕ) : Except ValidationError (Option ℕ) :=
  if octets = none ∧ gigawords = none then .ok none
  else (combineOctetsGigawords octets gigawords).map some

/-- `normalizeEventTimestamp`, of a timestamp that is there. -/
def normalizeEventTimestamp (config : Config) (now value : ℤ) : Except ValidationError ℤ :=
  if value < 0 ∨ 2147483647000 < value ∨ now + config.maxClockSkewSeconds * 1000 < value then
    .error ⟨"Invalid accounting event timestamp"⟩
  else .ok value

/-- When the record was observed. -/
def observedAt (config : Config) (now : ℤ) (attrs : Attrs) : Except ValidationError ℤ :=
  match attrs.eventTimestamp with
  | none => .ok (now - attrs.acctDelayTime.getD 0 * 1000)
  | some value => normalizeEventTimestamp config now value

/-- `statusTypeMap`. -/
def statusTypeMap (acctStatusType : String) : Option EventType :=
  if acctStatusType = "Start" then some .start
  else if acctStatusType = "Stop" then some .stop
  else if acctStatusType = "Interim-Update" then some .interimUpdate
  else none

/-- The counters of a record, by field. -/
def rawUsage (bytesIn bytesOut packetsIn packetsOut duration : Option ℕ) : RawUsage
  | .bytesIn => bytesIn
  | .bytesOut => bytesOut
  | .packetsIn => packetsIn
  | .packetsOut => packetsOut
  | .duration => duration

/-- The record that a set of attributes stands for when it is received at `now`. -/
def normalize (config : Config) (now : ℤ) (attrs : Attrs) : Except ValidationError Record := do
  checkCounter "acctInputOctets" attrs.acctInputOctets maxSafeInteger
  checkCounter "acctOutputOctets" attrs.acctOutputOctets maxSafeInteger
  checkCounter "acctInputGigawords" attrs.acctInputGigawords maxSafeInteger
  checkCounter "acctOutputGigawords" attrs.acctOutputGigawords maxSafeInteger
  checkCounter "acctInputPackets" attrs.acctInputPackets maxSafeInteger
  checkCounter "acctOutputPackets" attrs.acctOutputPackets maxSafeInteger
  checkCounter "acctSessionTime" attrs.acctSessionTime 4294967295
  checkCounter "acctDelayTime" attrs.acctDelayTime 4294967295
  let bytesIn ← combined attrs.acctInputOctets attrs.acctInputGigawords
  let bytesOut ← combined attrs.acctOutputOctets attrs.acctOutputGigawords
  let observedEventAt ← observedAt config now attrs
  if observedEventAt - attrs.acctSessionTime.getD 0 * 1000 < 0 then
    .error ⟨"Acct-Session-Time exceeds the supported event chronology"⟩
  match statusTypeMap attrs.acctStatusType with
  | none => .error ⟨"Invalid Acct-Status-Type"⟩
  | some eventType =>
    return {
      eventType
      organizationId := attrs.organizationId
      nasId := attrs.nasId
      contractId := attrs.contractId
      clientId := attrs.clientId
      userName := attrs.userName
      acctSessionId := attrs.acctSessionId
      callingStationId := attrs.callingStationId
      framedIpAddress := attrs.framedIpAddress
      framedIpv6Prefix := attrs.framedIpv6Prefix
      delegatedIpv6Prefix := attrs.delegatedIpv6Prefix
      framedIpv6Address := attrs.framedIpv6Address
      usage := rawUsage bytesIn bytesOut attrs.acctInputPackets attrs.acctOutputPackets
        attrs.acctSessionTime
      terminateCause := attrs.acctTerminateCause
      delaySeconds := attrs.acctDelayTime.getD 0
      hasExplicitEventTimestamp := attrs.eventTimestamp.isSome
      observedEventAt }

/-! ### Start -/

/-- Both sides are there and differ. -/
def changed (stored incoming : Option String) : Bool :=
  stored.isSome && incoming.isSome && decide (stored ≠ incoming)

/-- The incoming side adds what is not there yet. -/
def enriches (stored incoming : Option String) : Bool := stored.isNone && incoming.isSome

section Start

variable (config : Config) (d : ConnectionLog) (r : Record)

/-- `stationChanged`. -/
def stationChanged : Bool := d.isOpen && changed d.callingStationId r.callingStationId

def identityChanged : Bool :=
  d.isOpen && (changed d.framedIp r.framedIpAddress ||
    changed d.framedIpv6Prefix r.framedIpv6Prefix) || stationChanged d r

def identityEnriched : Bool :=
  d.isOpen && (enriches d.framedIp r.framedIpAddress ||
    enriches d.framedIpv6Prefix r.framedIpv6Prefix ||
    enriches d.callingStationId r.callingStationId)

def staleOpenSession : Bool :=
  d.isOpen && decide (d.lastAt + config.livenessMinutes * 60 * 1000 < r.observedEventAt)

def distinctLaterStart : Bool :=
  d.isOpen && r.hasExplicitEventTimestamp && decide (d.eventAt < r.observedEventAt) &&
    decide (d.lastAt ≤ r.observedEventAt)

def newOpenLifecycle : Bool := identityChanged d r || distinctLaterStart d r

def isReplay : Bool :=
  d.isOpen && !staleOpenSession config d r && !newOpenLifecycle d r ||
    !d.isOpen && decide (r.observedEventAt ≤ d.lastAt)

end Start

/-- What is done with a Start. -/
inductive StartAction where
  | reject (message : String)
  | enrich
  | ignore
  /-- Insert a row, after closing the current one with the given cause. -/
  | insert (close : Option String)
  deriving DecidableEq

/-- The decision about a Start, from the session's current row. -/
def startAction (config : Config) (duplicate : Option ConnectionLog) (r : Record) : StartAction :=
  match duplicate with
  | none => .insert none
  | some d =>
    if identityChanged d r ∧ r.hasExplicitEventTimestamp ∧ r.observedEventAt < d.lastAt then
      .reject ("Conflicting Accounting-Start predates the current session evidence; the " ++
        "lifecycle was not mutated")
    else if isReplay config d r then
      if identityEnriched d r then
        if r.observedEventAt < d.lastAt then
          .reject ("Accounting-Start enrichment predates the current session evidence; the " ++
            "lifecycle was not mutated")
        else .enrich
      else .ignore
    else if staleOpenSession config d r ∨ newOpenLifecycle d r then
      .insert (some (if identityChanged d r then "Session-Identity-Changed"
        else "Session-Restarted"))
    else .insert none

inductive IngestAction where
  | insert | update | noop
  deriving DecidableEq, Repr

/-- The answer to a record. -/
structure Outcome where
  db : Db
  action : IngestAction
  id : ℕ
  macMove : Bool
  sessionInstanceId : ℕ

/-- The update of a row by a Start that tells more about it. -/
def enrichRow (r : Record) (now : ℤ) (row : ConnectionLog) : ConnectionLog :=
  { row with
    framedIp := row.framedIp <|> r.framedIpAddress
    framedIpv6Prefix := row.framedIpv6Prefix <|> r.framedIpv6Prefix
    callingStationId := row.callingStationId <|> r.callingStationId
    lastAccountingAt := some r.observedEventAt
    lastAccountingReceivedAt := some now }

@[simp] theorem enrichRow_id (r : Record) (now : ℤ) (row : ConnectionLog) :
    (enrichRow r now row).id = row.id := rfl

/-- The subscriber's open session under another session id. -/
def openElsewhere (db : Db) (r : Record) : Option ConnectionLog :=
  latest ConnectionLog.eventAt (db.logs.rows.filter fun row =>
    row.username = r.userName ∧ row.organizationId = r.organizationId ∧ row.isOpen = true ∧
      row.acctSessionId ≠ some r.acctSessionId)

/-- The session moved: another station, or another NAS. -/
def moved (row : ConnectionLog) (r : Record) : Bool :=
  changed row.callingStationId r.callingStationId || decide (row.nasId ≠ r.nasId)

/-- The row a Start inserts. -/
def startRow (r : Record) (now : ℤ) (usage : UsageDelta) (id : ℕ) : ConnectionLog where
  id := id
  organizationId := r.organizationId
  nasId := r.nasId
  contractId := r.contractId
  clientId := r.clientId
  username := r.userName
  acctSessionId := some r.acctSessionId
  sessionId := r.acctSessionId
  sessionInstanceId := some id
  callingStationId := r.callingStationId
  framedIp := r.framedIpAddress
  framedIpv6Prefix := r.framedIpv6Prefix
  ipv6DelegatedPrefix := r.delegatedIpv6Prefix
  ipv6Address := r.framedIpv6Address
  eventType := .start
  eventAt := toSeconds r.observedEventAt
  counters := r.usage
  terminateCause := r.terminateCause
  lastAccountingAt := some r.observedEventAt
  lastAccountingReceivedAt := some now
  acctDelaySeconds := r.delaySeconds
  attributionEvidenceComplete := true
  attributionAnomalyReason := none
  usageAccountingComplete := usage.nextSessionComplete
  usageAnomalyCount := usage.anomalyCount
  usageLast := r.usage

@[simp] theorem startRow_id (r : Record) (now : ℤ) (usage : UsageDelta) (id : ℕ) :
    (startRow r now usage id).id = id := rfl

/-- The usage of a Start: its counters are a baseline, and a gap when they are not zero. -/
def startUsage (r : Record) : UsageDelta :=
  let startHasCumulativeUsage : Bool := decide (∃ f, 0 < (r.usage f).getD 0)
  calculateUsageDelta (fun _ => none) r.usage none r.observedEventAt (!startHasCumulativeUsage)
    (if startHasCumulativeUsage then some "nonzero_start_baseline" else none) true

/-- Close the session's current row, when the Start calls for it. -/
def closeCurrent (db : Db) (now : ℤ) (duplicate : Option ConnectionLog) (close : Option String) :
    Db :=
  match duplicate, close with
  | some d, some cause => db.updateLog d.id (syntheticStop cause now) (syntheticStop_id cause now) now
  | _, _ => db

/-- The session that moves here. -/
def movedFrom (db : Db) (r : Record) : Option ConnectionLog :=
  (openElsewhere db r).filter fun row => moved row r

/-- Close the session that moves here. -/
def closeMoved (db : Db) (now : ℤ) (r : Record) : Db :=
  match movedFrom db r with
  | some row => db.updateLog row.id (syntheticStop "Session-Moved" now)
      (syntheticStop_id "Session-Moved" now) now
  | none => db

/-- Insert the row of a Start, after the closures it calls for. -/
def insertStart (db : Db) (now : ℤ) (duplicate : Option ConnectionLog) (close : Option String)
    (r : Record) : Outcome :=
  let closed := closeCurrent db now duplicate close
  let macMove := (movedFrom closed r).isSome ||
    (close.isSome && duplicate.any fun d => stationChanged d r)
  let closed := closeMoved closed now r
  let usage := startUsage r
  let id := closed.logs.nextId
  { db := (closed.insertLog (startRow r now usage) (startRow_id r now usage) now).postUsage
      (recordUsageDelta r.organizationId id r.observedEventAt usage)
    action := .insert
    id
    macMove
    sessionInstanceId := id }

/-- The session row a record is about. -/
def Db.current (db : Db) (r : Record) : Option ConnectionLog :=
  db.lifecycle r.organizationId r.nasId r.userName r.acctSessionId

/-- The Start path of `ingestAccounting`. -/
def ingestStart (config : Config) (db : Db) (now : ℤ) (r : Record) :
    Except ValidationError Outcome :=
  let duplicate := db.current r
  match startAction config duplicate r, duplicate with
  | .reject message, _ => .error ⟨message⟩
  | .enrich, some d =>
    .ok ⟨db.updateLog d.id (enrichRow r now) (enrichRow_id r now) now, .update, d.id, false, d.instanceId⟩
  | .ignore, some d => .ok ⟨db, .noop, d.id, false, d.instanceId⟩
  | .insert close, _ => .ok (insertStart db now duplicate close r)
  | _, none => .ok (insertStart db now none none r)

/-! ### Interim-Update and Stop -/

/-- `sameFinalValue` of a counter: an absent persisted one reads as 0. -/
def sameFinalCounter (incoming persisted : Option ℕ) : Bool :=
  incoming.all fun n => n = persisted.getD 0

/-- `sameFinalValue` of a text: an absent persisted one reads as the text `null`. -/
def sameFinalText (incoming persisted : Option String) : Bool :=
  incoming.all fun s => s = persisted.getD "null"

section Update

variable (c : ConnectionLog) (r : Record)

def sameStopPayload : Bool :=
  decide (r.eventType = .stop) && decide (∀ f, sameFinalCounter (r.usage f) (c.usageLast f) = true)
    && sameFinalText r.terminateCause c.terminateCause
    && sameFinalText r.framedIpAddress c.framedIp
    && sameFinalText r.framedIpv6Prefix c.framedIpv6Prefix

/-- The session time of a record. -/
def sessionMs : ℤ := ((r.usage .duration).getD 0 : ℕ) * 1000

def isLaterReusedLifecycle : Bool :=
  r.hasExplicitEventTimestamp && !sameStopPayload c r && decide (c.lastAt < r.observedEventAt) &&
    decide (c.lastAt ≤ r.observedEventAt - sessionMs r)

/-- A counter of the record is above the last one read. -/
def raises (incoming persisted : Option ℕ) : Bool := incoming.any fun n => persisted.getD 0 < n

def correctedFinal : Bool :=
  decide (r.eventType = .stop) && (decide (∃ f, raises (r.usage f) (c.usageLast f) = true) ||
    (r.terminateCause.isSome && decide (r.terminateCause ≠ c.terminateCause)))

def exactReplay : Bool :=
  decide (r.observedEventAt = c.lastAt) && decide (c.eventType = r.eventType)
    && decide (∀ f, sameFinalCounter (r.usage f) (c.usageLast f) = true)
    && decide (c.terminateCause = r.terminateCause)
    && r.framedIpAddress.all (fun ip => c.framedIp = some ip)
    && r.framedIpv6Prefix.all (fun p => c.framedIpv6Prefix = some p)

end Update

/-- What is done with an Interim-Update or a Stop. -/
inductive UpdateAction where
  | reject (message : String)
  | ignore
  | correctStop
  | closeOutOfOrder
  | update
  | insertLate
  deriving DecidableEq

/-- The decision about an Interim-Update or a Stop, from the session's current row. -/
def updateAction (current : Option ConnectionLog) (r : Record) : UpdateAction :=
  match current with
  | none => .insertLate
  | some c =>
    if c.eventType = .stop then
      if isLaterReusedLifecycle c r then .insertLate
      -- a retransmitted Stop is a no-op unless it corrects the final counters or the cause
      else if correctedFinal c r ∧
          (r.hasExplicitEventTimestamp = false ∨ c.lastAt ≤ r.observedEventAt) then .correctStop
      else .ignore
    else if r.observedEventAt < c.lastAt then
      if r.eventType = .stop then .closeOutOfOrder else .ignore
    else if changed c.framedIp r.framedIpAddress then
      .reject ("Framed-IP-Address changed within one access-session lifecycle; start a new " ++
        "accounting session instead")
    else if changed c.framedIpv6Prefix r.framedIpv6Prefix then
      .reject ("Framed-IPv6-Prefix changed within one access-session lifecycle; start a new " ++
        "accounting session instead")
    else if exactReplay c r then .ignore
    else .update

/-- `CASE WHEN ? IS NULL THEN x ELSE GREATEST(COALESCE(x, 0), ?) END`, for each counter. -/
def raiseCounters (stored incoming : RawUsage) : RawUsage := fun f =>
  match incoming f with
  | none => stored f
  | some n => some (max ((stored f).getD 0) n)

/-- `COALESCE(?, x)`, for each counter. -/
def coalesceUsage (incoming stored : RawUsage) : RawUsage := fun f => incoming f <|> stored f

/-- The usage between the row's last counters and the record's. -/
def rowUsage (c : ConnectionLog) (r : Record) : UsageDelta :=
  calculateUsageDelta c.usageLast r.usage (some c.lastAt) r.observedEventAt
    c.usageAccountingComplete none false

/-- The update by a Stop that corrects a stopped row. -/
def correctRow (c : ConnectionLog) (r : Record) (now : ℤ) (row : ConnectionLog) : ConnectionLog :=
  { row with
    sessionInstanceId := row.sessionInstanceId <|> some c.instanceId
    counters := raiseCounters row.counters r.usage
    terminateCause := r.terminateCause <|> row.terminateCause
    lastAccountingAt := some c.lastAt
    lastAccountingReceivedAt := some now
    acctDelaySeconds := r.delaySeconds
    usageAccountingComplete := (rowUsage c r).nextSessionComplete
    usageAnomalyCount := row.usageAnomalyCount + (rowUsage c r).sessionAnomalyCount
    usageLast := coalesceUsage r.usage row.usageLast }

@[simp] theorem correctRow_id (c : ConnectionLog) (r : Record) (now : ℤ) (row : ConnectionLog) :
    (correctRow c r now row).id = row.id := rfl

/-- The update by a Stop that is older than the row's last accounting. -/
def outOfOrderRow (r : Record) (now : ℤ) (row : ConnectionLog) : ConnectionLog :=
  { row with
    eventType := .stop
    terminateCause := r.terminateCause <|> row.terminateCause
    lastAccountingAt := some r.observedEventAt
    lastAccountingReceivedAt := some now
    acctDelaySeconds := r.delaySeconds
    attributionEvidenceComplete := false
    attributionAnomalyReason := some "out_of_order_stop"
    usageAccountingComplete := false
    usageAnomalyCount := row.usageAnomalyCount + 1 }

@[simp] theorem outOfOrderRow_id (r : Record) (now : ℤ) (row : ConnectionLog) :
    (outOfOrderRow r now row).id = row.id := rfl

/-- The update by the session's next record. -/
def updateRow (c : ConnectionLog) (r : Record) (now : ℤ) (row : ConnectionLog) : ConnectionLog :=
  { row with
    sessionInstanceId := row.sessionInstanceId <|> some c.instanceId
    eventType := r.eventType
    counters := raiseCounters row.counters r.usage
    terminateCause := r.terminateCause
    framedIp := r.framedIpAddress <|> row.framedIp
    framedIpv6Prefix := r.framedIpv6Prefix <|> row.framedIpv6Prefix
    ipv6DelegatedPrefix := r.delegatedIpv6Prefix <|> row.ipv6DelegatedPrefix
    ipv6Address := r.framedIpv6Address <|> row.ipv6Address
    lastAccountingAt := some r.observedEventAt
    lastAccountingReceivedAt := some now
    acctDelaySeconds := r.delaySeconds
    usageAccountingComplete := (rowUsage c r).nextSessionComplete
    usageAnomalyCount := row.usageAnomalyCount + (rowUsage c r).sessionAnomalyCount
    usageLast := coalesceUsage r.usage row.usageLast }

@[simp] theorem updateRow_id (c : ConnectionLog) (r : Record) (now : ℤ) (row : ConnectionLog) :
    (updateRow c r now row).id = row.id := rfl

/-- The usage of a record whose Start was missed: a baseline. -/
def lateUsage (r : Record) : UsageDelta :=
  calculateUsageDelta (fun _ => none) r.usage none r.observedEventAt false
    (some "missing_start_baseline") true

/-- The row of a record whose Start was missed. -/
def lateRow (r : Record) (now : ℤ) (id : ℕ) : ConnectionLog :=
  { startRow r now (lateUsage r) id with
    eventType := r.eventType
    eventAt := toSeconds (r.observedEventAt - sessionMs r)
    attributionEvidenceComplete := false
    attributionAnomalyReason := some "missing_start"
    usageAccountingComplete := false
    usageAnomalyCount := (lateUsage r).sessionAnomalyCount }

@[simp] theorem lateRow_id (r : Record) (now : ℤ) (id : ℕ) : (lateRow r now id).id = id := rfl

def insertLate (db : Db) (now : ℤ) (r : Record) : Outcome :=
  let id := db.logs.nextId
  let db := db.insertLog (lateRow r now) (lateRow_id r now) now
  ⟨db.postUsage (recordUsageDelta r.organizationId id r.observedEventAt (lateUsage r)), .insert, id,
    false, id⟩

/-- The Interim-Update and Stop path of `ingestAccounting`. -/
def ingestUpdate (db : Db) (now : ℤ) (r : Record) : Except ValidationError Outcome :=
  let current := db.current r
  match updateAction current r, current with
  | .reject message, _ => .error ⟨message⟩
  | .ignore, some c => .ok ⟨db, .noop, c.id, false, c.instanceId⟩
  | .correctStop, some c =>
    .ok ⟨(db.updateLog c.id (correctRow c r now) (correctRow_id c r now) now).postUsage
      (recordUsageDelta r.organizationId c.instanceId r.observedEventAt (rowUsage c r)),
      .update, c.id, false, c.instanceId⟩
  | .closeOutOfOrder, some c =>
    .ok ⟨db.updateLog c.id (outOfOrderRow r now) (outOfOrderRow_id r now) now, .update, c.id, false,
      c.instanceId⟩
  | .update, some c =>
    .ok ⟨(db.updateLog c.id (updateRow c r now) (updateRow_id c r now) now).postUsage
      (recordUsageDelta r.organizationId c.instanceId r.observedEventAt (rowUsage c r)),
      .update, c.id, false, c.instanceId⟩
  | _, _ => .ok (insertLate db now r)

/-- `ingestAccounting`. -/
def ingestAccounting (config : Config) (db : Db) (now : ℤ) (attrs : Attrs) :
    Except ValidationError Outcome := do
  let r ← normalize config now attrs
  match r.eventType with
  | .start => ingestStart config db now r
  | _ => ingestUpdate db now r

/-! ### Sessions without a Stop -/

/-- `COALESCE(last_accounting_received_at, last_accounting_at, event_at)`. -/
def lastHeard (row : ConnectionLog) : ℤ := row.lastAccountingReceivedAt.getD row.lastAt

/-- The closure of one session by a sweep. -/
def sweptRow (terminateCause anomalyReason : String) (now : ℤ) (row : ConnectionLog) :
    ConnectionLog :=
  { syntheticStop terminateCause now row with
    attributionAnomalyReason := row.attributionAnomalyReason <|> some anomalyReason }

@[simp] theorem sweptRow_id (terminateCause anomalyReason : String) (now : ℤ)
    (row : ConnectionLog) : (sweptRow terminateCause anomalyReason now row).id = row.id := rfl

/-- `closeOpenSessions`: end the open sessions that meet `cond`, each at its last accounting. -/
def closeOpenSessions (db : Db) (now : ℤ) (cond : ConnectionLog → Bool)
    (terminateCause anomalyReason : String) : Db :=
  (db.logs.rows.filter fun row => row.isOpen && cond row).foldl (fun db row =>
    db.updateLog row.id (sweptRow terminateCause anomalyReason now)
      (sweptRow_id terminateCause anomalyReason now) now) db

/-- `recordInfrastructureAccounting`: Accounting-On and Accounting-Off. -/
def recordInfrastructureAccounting (db : Db) (now : ℤ) (organizationId nasId : ℕ) : Db :=
  closeOpenSessions db now (fun row => row.organizationId = organizationId ∧ row.nasId = nasId ∧
    lastHeard row ≤ now) "NAS-Reboot" "nas_reboot"

/-- `closeStaleSessions`. -/
def closeStaleSessions (config : Config) (db : Db) (now : ℤ) (organizationId : ℕ) : Db :=
  closeOpenSessions db now (fun row => row.organizationId = organizationId ∧
    lastHeard row < now - config.livenessMinutes * 60 * 1000) "Stale-Session" "stale_session"

/-! ### Runs -/

/-- What happens to a server. -/
inductive Event where
  | record (attrs : Attrs)
  | infrastructure (organizationId nasId : ℕ)
  | closeStale (organizationId : ℕ)
  /-- An event that writes none of these tables: a lookup, a CGNAT batch, a configuration change. -/
  | elsewhere

/-- The database and the time of its clock. -/
structure Server where
  db : Db
  now : ℤ

/-- The database after a record: a refused one changes nothing. -/
def afterRecord (config : Config) (db : Db) (now : ℤ) (attrs : Attrs) : Db :=
  match ingestAccounting config db now attrs with
  | .ok outcome => outcome.db
  | .error _ => db

def Db.after (config : Config) (db : Db) (now : ℤ) : Event → Db
  | .record attrs => afterRecord config db now attrs
  | .infrastructure organizationId nasId => recordInfrastructureAccounting db now organizationId nasId
  | .closeStale organizationId => closeStaleSessions config db now organizationId
  | .elsewhere => db

/-- One event, some time after the one before. -/
def Server.step (config : Config) (s : Server) (e : ℕ × Event) : Server :=
  let now := s.now + e.1
  ⟨s.db.after config now e.2, now⟩

/-! ### A sample record -/

/-- The default settings. -/
def sampleConfig : Config := ⟨60, 300⟩

/-- A record of one subscriber's session `s1`. -/
def sampleRecord (acctStatusType : String) (eventTimestamp : Option ℤ) : Attrs where
  acctStatusType := acctStatusType
  organizationId := 1
  nasId := 1
  contractId := 1
  clientId := 1
  userName := "ana"
  acctSessionId := "s1"
  callingStationId := none
  framedIpAddress := none
  framedIpv6Prefix := none
  delegatedIpv6Prefix := none
  framedIpv6Address := none
  acctInputOctets := none
  acctOutputOctets := none
  acctInputGigawords := none
  acctOutputGigawords := none
  acctInputPackets := none
  acctOutputPackets := none
  acctSessionTime := none
  acctTerminateCause := none
  eventTimestamp := eventTimestamp
  acctDelayTime := none

end Vigabss.Radius
