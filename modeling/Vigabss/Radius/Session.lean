import Mathlib.Data.Fintype.Basic
import Vigabss.Lib.Binary64
import Vigabss.Lib.Calendar
import Vigabss.Lib.Table

/-!
# Vigabss.Radius.Session — from counters to daily usage

A RADIUS accounting record carries cumulative counters.  `calculateUsageDelta` turns two
consecutive readings into usage: a counter that went down is a reset and adds nothing.
`recordUsageDelta` posts the usage to the day of the later reading, and to the two months pro rata
when the interval crosses the start of a month.
-/

namespace Vigabss.Radius

open Vigabss.Lib

/-- `USAGE_FIELDS`. -/
inductive UsageField where
  | bytesIn | bytesOut | packetsIn | packetsOut | duration
  deriving DecidableEq, Repr

instance : Fintype UsageField :=
  ⟨{.bytesIn, .bytesOut, .packetsIn, .packetsOut, .duration}, fun f => by cases f <;> decide⟩

/-- The counters of one record; `none` is an absent counter. -/
abbrev RawUsage := UsageField → Option ℕ

/-- Usage to post. -/
abbrev Deltas := UsageField → ℤ

/-- The two counters whose gaps make the usage incomplete. -/
def UsageField.octets : UsageField → Bool
  | bytesIn | bytesOut => true
  | _ => false

/-- The usage of one counter between two readings. -/
def fieldDelta (initializeBaseline : Bool) (prior next : Option ℕ) : ℤ :=
  match next with
  | none => 0
  | some next =>
    if initializeBaseline then 0
    else match prior with
      | none => 0
      | some prior => if next < prior then 0 else next - prior

/-- The reading breaks the counter's baseline: it went down, or octets appear late. -/
def fieldReset (field : UsageField) (initializeBaseline : Bool) (prior next : Option ℕ) : Bool :=
  match next with
  | none => false
  | some next =>
    if initializeBaseline then false
    else match prior with
      | none => field.octets
      | some prior => next < prior

/-- `utcDate(a) !== utcDate(b)`. -/
def crossesDay (previous : Option ℤ) (eventAt : ℤ) : Bool :=
  previous.any fun p => utcDay p ≠ utcDay eventAt

/-- `utcMonth(a) !== utcMonth(b)`. -/
def crossesMonth (previous : Option ℤ) (eventAt : ℤ) : Bool :=
  previous.any fun p => monthStart p ≠ monthStart eventAt

/-- The answer of `calculateUsageDelta`. -/
structure UsageDelta where
  deltas : Deltas
  nextSessionComplete : Bool
  rowComplete : Bool
  anomalyReason : Option String
  anomalyCount : ℕ
  sessionAnomalyCount : ℕ
  crossesUtcMonthBoundary : Bool
  previousEventAt : Option ℤ

/-- `calculateUsageDelta`. -/
def calculateUsageDelta (previous current : RawUsage) (previousEventAt : Option ℤ) (eventAt : ℤ)
    (priorComplete : Bool) (baselineReason : Option String) (initializeBaseline : Bool) :
    UsageDelta :=
  let counterReset : Bool :=
    decide (∃ f, fieldReset f initializeBaseline (previous f) (current f) = true)
  let nextSessionComplete := priorComplete && baselineReason.isNone && !counterReset
  let anomalyReason := baselineReason <|>
    if counterReset then some "counter_reset"
    else if crossesMonth previousEventAt eventAt then some "utc_month_boundary_estimate"
    else if crossesDay previousEventAt eventAt then some "utc_daily_allocation_estimate"
    else none
  { deltas := fun f => fieldDelta initializeBaseline (previous f) (current f)
    nextSessionComplete
    rowComplete := nextSessionComplete
    anomalyReason
    anomalyCount := if anomalyReason.isSome then 1 else 0
    sessionAnomalyCount := if baselineReason.isSome || counterReset then 1 else 0
    crossesUtcMonthBoundary := crossesMonth previousEventAt eventAt
    previousEventAt }

/-- The share of an interval that lies before the month of its end, as a double. -/
def monthShare (previousEventAt eventAt : ℤ) : ℚ :=
  if previousEventAt < eventAt then
    min 1 (max 0 (fl (((monthStart eventAt - previousEventAt : ℤ) : ℚ) /
      ((eventAt - previousEventAt : ℤ) : ℚ))))
  else 0

/-- `splitAtMonthStart`: the parts before and after the start of the month. -/
def splitAtMonthStart (deltas : Deltas) (previousEventAt eventAt : ℤ) : Deltas × Deltas :=
  let before : Deltas := fun f => ⌊fl (deltas f * monthShare previousEventAt eventAt)⌋
  (before, fun f => deltas f - before f)

/-- One upsert into `radius_accounting_usage_daily`: it adds its deltas to the row of the
organization, the day and the session instance. -/
structure UsagePost where
  organizationId : ℕ
  usageDate : ℤ
  sessionInstanceId : ℕ
  deltas : Deltas
  isComplete : Bool
  anomalyCount : ℕ
  anomalyReason : Option String
  eventAt : ℤ
  deriving DecidableEq

/-- The upserts of `recordUsageDelta`. -/
def recordUsageDelta (organizationId sessionInstanceId : ℕ) (eventAt : ℤ) (usage : UsageDelta) :
    List UsagePost :=
  let post (usageDate : ℤ) (deltas : Deltas) (reason : Option String) (count : ℕ) (at_ : ℤ) :
      UsagePost :=
    ⟨organizationId, usageDate, sessionInstanceId, deltas, usage.rowComplete, count, reason, at_⟩
  if (∀ f, usage.deltas f = 0) ∧ usage.anomalyReason = none then []
  else
    match usage.crossesUtcMonthBoundary, usage.previousEventAt with
    | true, some previous =>
      let (before, after) := splitAtMonthStart usage.deltas previous eventAt
      [post (utcDay (monthStart eventAt - 1)) before (some "utc_month_boundary_estimate") 1 previous,
        post (utcDay eventAt) after usage.anomalyReason usage.anomalyCount eventAt]
    | _, _ => [post (utcDay eventAt) usage.deltas usage.anomalyReason usage.anomalyCount eventAt]

/-! ### What is posted -/

theorem fieldDelta_nonneg (initializeBaseline : Bool) (prior next : Option ℕ) :
    0 ≤ fieldDelta initializeBaseline prior next := by
  unfold fieldDelta
  cases next with
  | none => exact le_rfl
  | some next =>
    cases prior with
    | none => simp
    | some prior =>
      dsimp only
      split_ifs <;> omega

theorem fieldDelta_le (initializeBaseline : Bool) (prior : Option ℕ) (next : ℕ) :
    fieldDelta initializeBaseline prior (some next) ≤ next := by
  unfold fieldDelta
  cases prior with
  | none => simp
  | some prior =>
    dsimp only
    split_ifs <;> omega

theorem monthShare_mem (previousEventAt eventAt : ℤ) :
    0 ≤ monthShare previousEventAt eventAt ∧ monthShare previousEventAt eventAt ≤ 1 := by
  unfold monthShare
  split_ifs
  · exact ⟨le_min zero_le_one (le_max_left _ _), min_le_left _ _⟩
  · exact ⟨le_rfl, zero_le_one⟩

/-- **Splitting keeps the parts non-negative**, for counters that a double holds exactly. -/
theorem split_nonneg {deltas : Deltas} (previousEventAt eventAt : ℤ) {f : UsageField}
    (h0 : 0 ≤ deltas f) (h : deltas f ≤ 2 ^ 53) :
    0 ≤ (splitAtMonthStart deltas previousEventAt eventAt).1 f ∧
      0 ≤ (splitAtMonthStart deltas previousEventAt eventAt).2 f := by
  obtain ⟨n, hn⟩ := Int.eq_ofNat_of_zero_le h0
  obtain ⟨hs0, hs1⟩ := monthShare_mem previousEventAt eventAt
  have hq0 : (0 : ℚ) ≤ n * monthShare previousEventAt eventAt :=
    mul_nonneg (Nat.cast_nonneg n) hs0
  have hq : (n : ℚ) * monthShare previousEventAt eventAt ≤ n :=
    mul_le_of_le_one_right (Nat.cast_nonneg n) hs1
  have hle : fl (n * monthShare previousEventAt eventAt) ≤ n := fl_le_natCast hq0 (by omega) hq
  have hfloor : ⌊fl (n * monthShare previousEventAt eventAt)⌋ ≤ n :=
    Int.floor_le_iff.2 (by exact_mod_cast hle.trans_lt (lt_add_one _))
  simp only [splitAtMonthStart, hn, Int.cast_natCast]
  exact ⟨Int.floor_nonneg.2 (fl_nonneg hq0), by omega⟩

/-- **Every posted delta is non-negative.** -/
theorem recordUsageDelta_nonneg {organizationId instanceId : ℕ} {eventAt : ℤ} {usage : UsageDelta}
    (h0 : ∀ f, 0 ≤ usage.deltas f) (h : ∀ f, usage.deltas f ≤ 2 ^ 53) :
    ∀ post ∈ recordUsageDelta organizationId instanceId eventAt usage, ∀ f, 0 ≤ post.deltas f := by
  unfold recordUsageDelta
  intro post hpost f
  dsimp only at hpost
  split_ifs at hpost
  · simp at hpost
  · split at hpost
    · obtain ⟨hb, ha⟩ := split_nonneg ‹ℤ› eventAt (h0 f) (h f)
      rcases List.mem_cons.1 hpost with rfl | hpost
      · exact hb
      · obtain rfl := List.mem_singleton.1 hpost
        exact ha
    · obtain rfl := List.mem_singleton.1 hpost
      exact h0 f

/-- `SUM` of one counter's posted deltas. -/
def postedOf (f : UsageField) (posts : List UsagePost) : ℤ := (posts.map fun p => p.deltas f).sum

/-- **The parts add up**: what is posted for one reading is its delta. -/
theorem recordUsageDelta_sum (organizationId instanceId : ℕ) (eventAt : ℤ) (usage : UsageDelta)
    (f : UsageField) :
    postedOf f (recordUsageDelta organizationId instanceId eventAt usage) = usage.deltas f := by
  unfold recordUsageDelta
  dsimp only
  split_ifs with hnone
  · simp [postedOf, hnone.1 f]
  · split
    · simp [postedOf, splitAtMonthStart]
    · simp [postedOf]

theorem recordUsageDelta_instance {organizationId instanceId : ℕ} {eventAt : ℤ} {usage : UsageDelta}
    {post : UsagePost} (h : post ∈ recordUsageDelta organizationId instanceId eventAt usage) :
    post.sessionInstanceId = instanceId := by
  unfold recordUsageDelta at h
  dsimp only at h
  split_ifs at h
  · simp at h
  · split at h
    · rcases List.mem_cons.1 h with rfl | h
      · rfl
      · obtain rfl := List.mem_singleton.1 h
        rfl
    · obtain rfl := List.mem_singleton.1 h
      rfl

end Vigabss.Radius

/-!
## The session tables

`connection_logs` holds one row for each session instance, with its latest accounting; the
evidence table gets a copy of a row whenever a milestone of it is written (the two `evidence`
triggers).  Times are milliseconds; `event_at` is a column of whole seconds.
-/

namespace Vigabss.Radius

open Vigabss.Lib

inductive EventType where
  | start | interimUpdate | stop
  deriving DecidableEq, Repr

/-- A row of `connection_logs`. -/
structure ConnectionLog where
  id : ℕ
  organizationId : ℕ
  nasId : ℕ
  contractId : ℕ
  clientId : ℕ
  username : String
  acctSessionId : Option String
  sessionId : String
  sessionInstanceId : Option ℕ
  callingStationId : Option String
  framedIp : Option String
  framedIpv6Prefix : Option String
  ipv6DelegatedPrefix : Option String
  ipv6Address : Option String
  eventType : EventType
  eventAt : ℤ
  counters : RawUsage
  terminateCause : Option String
  lastAccountingAt : Option ℤ
  lastAccountingReceivedAt : Option ℤ
  acctDelaySeconds : ℕ
  attributionEvidenceComplete : Bool
  attributionAnomalyReason : Option String
  usageAccountingComplete : Bool
  usageAnomalyCount : ℕ
  usageLast : RawUsage
  deriving DecidableEq

instance : Keyed ConnectionLog := ⟨ConnectionLog.id⟩

namespace ConnectionLog

/-- `COALESCE(last_accounting_at, event_at)`. -/
def lastAt (row : ConnectionLog) : ℤ := row.lastAccountingAt.getD row.eventAt

/-- The session has not stopped. -/
def isOpen (row : ConnectionLog) : Bool := row.eventType ≠ .stop

/-- `session_instance_id`, or a UUID drawn for a row that has none: fresh, as the row's id is. -/
def instanceId (row : ConnectionLog) : ℕ := row.sessionInstanceId.getD row.id

/-- The columns that `dedupe_key` hashes. -/
def dedupe (row : ConnectionLog) : ConnectionLog :=
  { row with
    id := 0
    acctSessionId := row.acctSessionId <|> some row.sessionId
    sessionId := ""
    framedIpv6Prefix := row.framedIpv6Prefix <|> row.ipv6DelegatedPrefix
    eventAt := row.lastAt
    lastAccountingAt := none
    lastAccountingReceivedAt := none
    attributionEvidenceComplete := false
    attributionAnomalyReason := none
    usageAccountingComplete := false
    usageAnomalyCount := 0
    usageLast := fun _ => none }

end ConnectionLog

/-- A row of `radius_accounting_events`: a copy of a session row's columns. -/
structure AccountingEvent where
  row : ConnectionLog
  eventAt : ℤ
  observedAt : ℤ
  deriving DecidableEq

/-- The accounting database; the evidence is in the order of its ids. -/
structure Db where
  logs : Table ConnectionLog
  usage : List UsagePost
  evidence : List AccountingEvent

/-- A database without sessions. -/
def Db.empty : Db := ⟨Table.empty, [], []⟩

/-- What a `TIMESTAMP` column of whole seconds keeps of an instant: rounded half up. -/
def toSeconds (t : ℤ) : ℤ := (t + 500) / 1000 * 1000

/-! ### Statements -/

/-- The condition of `trg_connection_logs_after_update_evidence`. -/
def evidenceOnUpdate (old new : ConnectionLog) : Bool :=
  new.eventType ≠ old.eventType ∨ new.framedIp ≠ old.framedIp ∨
    new.framedIpv6Prefix ≠ old.framedIpv6Prefix ∨
    new.ipv6DelegatedPrefix ≠ old.ipv6DelegatedPrefix ∨ new.ipv6Address ≠ old.ipv6Address ∨
    new.callingStationId ≠ old.callingStationId ∨
    (new.eventType = .stop ∧ old.eventType = .stop ∧
      (new.counters ≠ old.counters ∨ new.terminateCause ≠ old.terminateCause ∨
        new.acctDelaySeconds ≠ old.acctDelaySeconds))

namespace Db

/-- `INSERT INTO radius_accounting_events … ON DUPLICATE KEY UPDATE id = id`. -/
def appendEvidence (db : Db) (row : ConnectionLog) (now : ℤ) : Db :=
  if db.evidence.any fun e => e.row.dedupe = row.dedupe ∧ e.eventAt = row.lastAt then db
  else { db with
    evidence := db.evidence ++ [⟨row, row.lastAt, row.lastAccountingReceivedAt.getD now⟩] }

/-- `UPDATE connection_logs` on one row, with its trigger. -/
def updateLog (db : Db) (id : ℕ) (f : ConnectionLog → ConnectionLog) (hf : ∀ a, (f a).id = a.id)
    (now : ℤ) : Db :=
  match db.logs.find? id with
  | none => db
  | some old =>
    let db' := { db with logs := db.logs.modify id f hf }
    if evidenceOnUpdate old (f old) then db'.appendEvidence (f old) now else db'

/-- `INSERT INTO connection_logs`, with its trigger. -/
def insertLog (db : Db) (mk : ℕ → ConnectionLog) (hmk : ∀ n, (mk n).id = n) (now : ℤ) : Db :=
  let row := mk db.logs.nextId
  let db' := { db with logs := db.logs.insert mk hmk }
  -- a milestone: the row has an instance, or starts or stops a session
  if row.sessionInstanceId.isSome ∨ row.eventType ≠ .interimUpdate then db'.appendEvidence row now
  else db'

/-- The upserts of one record. -/
def postUsage (db : Db) (posts : List UsagePost) : Db := { db with usage := db.usage ++ posts }

end Db

/-- End a session at its last real accounting. -/
def syntheticStop (cause : String) (now : ℤ) (row : ConnectionLog) : ConnectionLog :=
  { row with
    eventType := .stop
    terminateCause := some cause
    lastAccountingAt := some row.lastAt
    lastAccountingReceivedAt := some now }

@[simp] theorem syntheticStop_id (cause : String) (now : ℤ) (row : ConnectionLog) :
    (syntheticStop cause now row).id = row.id := rfl

/-- `ORDER BY f DESC, id DESC LIMIT 1`. -/
def latest (f : ConnectionLog → ℤ) : List ConnectionLog → Option ConnectionLog
  | [] => none
  | a :: rows =>
    match latest f rows with
    | none => some a
    | some b => if f a < f b ∨ f a = f b ∧ a.id < b.id then some b else some a

/-- The row belongs to the session key. -/
def ofSession (organizationId nasId : ℕ) (userName acctSessionId : String) (row : ConnectionLog) :
    Bool :=
  row.organizationId = organizationId ∧ row.nasId = nasId ∧ row.username = userName ∧
    row.acctSessionId = some acctSessionId

/-- The row of the session that an event is about: the latest one of its key, or else the latest
of the rows that only have the old `session_id`. -/
def Db.lifecycle (db : Db) (organizationId nasId : ℕ) (userName acctSessionId : String) :
    Option ConnectionLog :=
  match latest ConnectionLog.lastAt
    (db.logs.rows.filter (ofSession organizationId nasId userName acctSessionId)) with
  | some row => some row
  | none => latest ConnectionLog.eventAt (db.logs.rows.filter fun row =>
      row.organizationId = organizationId ∧ row.nasId = nasId ∧ row.username = userName ∧
        row.acctSessionId = none ∧ row.sessionId = acctSessionId)

end Vigabss.Radius
