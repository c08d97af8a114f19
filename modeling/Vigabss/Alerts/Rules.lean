import Mathlib.Data.List.Dedup
import Vigabss.Lib.Binary64
import Vigabss.Lib.Money
import Vigabss.Lib.Table

/-!
# Vigabss.Alerts.Rules — the evaluation of the alert rules

`alertService.evaluateAlerts` as it reads the metrics, the earlier events and the maintenance
windows, and as it records and emits.  A query that groups returns its rows in some order.
-/

namespace Vigabss.Alerts

open Vigabss.Lib

/-! ### The rows -/

structure AlertRule where
  id : ℕ
  organization_id : ℕ
  metric : String
  operator : String
  threshold : ℚ
  device_id : Option ℕ
  duration_minutes : ℕ
  is_enabled : Bool
  deleted : Bool

instance : Keyed AlertRule := ⟨AlertRule.id⟩

structure Device where
  id : ℕ
  organization_id : ℕ
  site_id : Option ℕ
  deleted : Bool

instance : Keyed Device := ⟨Device.id⟩

/-- A row of `snmp_metrics`, its columns by name. -/
structure SnmpMetric where
  device_id : ℕ
  polled_at : ℤ
  column : String → Option ℚ

/-- A row of `network_health_snapshots`; one of a link has no device. -/
structure HealthSnapshot where
  organization_id : Option ℕ
  device_id : Option ℕ
  snapshot_date : ℤ
  packet_loss_pct : Option ℚ
  uptime_pct : Option ℚ

inductive WindowStatus where
  | scheduled | active | completed | cancelled
  deriving DecidableEq, Repr

structure MaintenanceWindow where
  id : ℕ
  organization_id : Option ℕ
  device_id : Option ℕ
  site_id : Option ℕ
  starts_at : ℤ
  ends_at : ℤ
  status : WindowStatus
  deleted : Bool

structure AlertEvent where
  id : ℕ
  alert_rule_id : ℕ
  organization_id : ℕ
  device_id : Option ℕ
  metric : String
  current_value : ℚ
  threshold_value : ℚ
  suppressed : Bool
  maintenance_window_id : Option ℕ
  created_at : ℤ

instance : Keyed AlertEvent := ⟨AlertEvent.id⟩

structure AlertDb where
  rules : Table AlertRule
  devices : Table Device
  snmp : List SnmpMetric
  snapshots : List HealthSnapshot
  windows : List MaintenanceWindow
  events : Table AlertEvent

/-- `NOW()` in seconds, and `CURDATE()` in days. -/
structure Clock where
  now : ℤ
  today : ℤ

/-- The order in which the query of a rule returns its groups. -/
structure GroupOrder where
  arrange : ℕ → List (Option ℕ) → List (Option ℕ)
  perm : ∀ ruleId keys, (arrange ruleId keys).Perm keys

/-! ### The averages -/

/-- The metrics stored in `snmp_metrics`. -/
def SNMP_METRICS : List String :=
  ["cpu_usage", "memory_usage", "signal_strength", "latency_ms", "if_in_octets", "if_out_octets",
    "voltage_mv", "temperature_c", "fan_speed_rpm", "if_in_discards", "if_out_discards",
    "sfp_tx_power_dbm", "sfp_rx_power_dbm", "sfp_temperature_c", "ups_battery_pct",
    "ups_runtime_min", "poe_power_mw", "humidity_pct", "noise_floor_dbm", "air_util_pct",
    "gps_sync_status", "snr_db", "ccq_pct", "tx_rate_mbps", "rx_rate_mbps"]

def ALLOWED_METRICS : List String := "packet_loss" :: "uptime" :: SNMP_METRICS

/-- The decimals of a column. -/
def columnScale (metric : String) : ℕ :=
  if metric ∈ ["sfp_tx_power_dbm", "sfp_rx_power_dbm"] then 4
  else if metric ∈ ["latency_ms", "temperature_c", "sfp_temperature_c", "humidity_pct",
    "tx_rate_mbps", "rx_rate_mbps", "packet_loss", "uptime"] then 2
  else 0

/-- `AVG(column)`: the mean of what is not `NULL`, to four decimals more than the column has. -/
def AVG (scale : ℕ) (values : List (Option ℚ)) : Option ℚ :=
  let present := values.filterMap id
  if present = [] then none
  else some (roundAway (present.sum / present.length * 10 ^ (scale + 4)) / 10 ^ (scale + 4))

/-- The live device of an organization with the given id. -/
def AlertDb.liveDevice (db : AlertDb) (organizationId id : ℕ) : Option Device :=
  db.devices.rows.find? fun d =>
    d.id = id ∧ d.organization_id = organizationId ∧ d.deleted = false

/-- `duration_minutes || 5`. -/
def AlertRule.minutes (rule : AlertRule) : ℤ :=
  if rule.duration_minutes = 0 then 5 else rule.duration_minutes

/-- What the `WHERE` of a rule's query selects: the device and the metric's column. -/
def AlertDb.samples (db : AlertDb) (clock : Clock) (rule : AlertRule) :
    List (Option ℕ × Option ℚ) :=
  if rule.metric ∈ SNMP_METRICS then
    (db.snmp.filter fun sm => clock.now - 60 * rule.minutes ≤ sm.polled_at ∧
      (db.liveDevice rule.organization_id sm.device_id).isSome ∧
      ∀ d ∈ rule.device_id, sm.device_id = d).map
    fun sm => (some sm.device_id, sm.column rule.metric)
  else
    let rows := db.snapshots.filter fun s => clock.today - 1 ≤ s.snapshot_date ∧
      s.organization_id = some rule.organization_id ∧ ∀ d ∈ rule.device_id, s.device_id = some d
    if rule.metric = "packet_loss" then rows.map fun s => (s.device_id, s.packet_loss_pct)
    else if rule.metric = "uptime" then rows.map fun s => (s.device_id, s.uptime_pct)
    else []

/-- The average of a device over the window of a rule. -/
def AlertDb.average (db : AlertDb) (clock : Clock) (rule : AlertRule) (deviceId : Option ℕ) :
    Option ℚ :=
  AVG (columnScale rule.metric)
    (((db.samples clock rule).filter fun s => s.1 = deviceId).map Prod.snd)

/-- The rows of a rule's query: `GROUP BY device_id`. -/
def AlertDb.groups (db : AlertDb) (clock : Clock) (order : GroupOrder) (rule : AlertRule) :
    List (Option ℕ × Option ℚ) :=
  (order.arrange rule.id ((db.samples clock rule).map Prod.fst).dedup).map
    fun deviceId => (deviceId, db.average clock rule deviceId)

/-! ### One rule -/

/-- The `switch` over the operators, on doubles. -/
def breached (operator : String) (value thresholdVal : ℚ) : Bool :=
  if operator = ">" then thresholdVal < value
  else if operator = ">=" then thresholdVal ≤ value
  else if operator = "<" then value < thresholdVal
  else if operator = "<=" then value ≤ thresholdVal
  else if operator = "==" then |fl (value - thresholdVal)| < fl (1 / 1000)
  else false

structure Breach where
  device_id : Option ℕ
  current_value : ℚ
  threshold : ℚ
  operator : String
  metric : String

/-- The breach of a row; the average of no values is `NaN`, which compares with nothing. -/
def breachOf (rule : AlertRule) (row : Option ℕ × Option ℚ) : Option Breach :=
  match row.2 with
  | none => none
  | some avg =>
    if breached rule.operator (fl avg) (fl rule.threshold) then
      some ⟨row.1, fl avg, fl rule.threshold, rule.operator, rule.metric⟩
    else none

/-- `checkRule(rule)`: the first row that breaches.  A rule that is loaded has its organization. -/
def checkRule (db : AlertDb) (clock : Clock) (order : GroupOrder) (rule : AlertRule) :
    Option Breach :=
  if rule.metric ∉ ALLOWED_METRICS then none
  else (db.groups clock order rule).findSome? (breachOf rule)

/-! ### Recording -/

/-- `activeMaintenanceWindowId(organizationId, deviceId)`. -/
def activeMaintenanceWindowId (db : AlertDb) (clock : Clock) (organizationId deviceId : ℕ) :
    Option ℕ :=
  let site := (db.devices.find? deviceId).bind Device.site_id
  (db.windows.find? fun mw => mw.organization_id = some organizationId ∧ mw.deleted = false ∧
    (mw.device_id = some deviceId ∨
      (mw.device_id = none ∧ mw.site_id ≠ none ∧ mw.site_id = site) ∨
      (mw.device_id = none ∧ mw.site_id = none)) ∧
    (mw.status = .active ∨ mw.status = .scheduled) ∧
    mw.starts_at ≤ clock.now ∧ clock.now ≤ mw.ends_at).map MaintenanceWindow.id

/-- The row of a breach. -/
def eventOf (clock : Clock) (rule : AlertRule) (breach : Breach) (window : Option ℕ) (id : ℕ) :
    AlertEvent :=
  ⟨id, rule.id, rule.organization_id, breach.device_id, breach.metric, breach.current_value,
    breach.threshold, window.isSome, window, clock.now⟩

theorem key_eventOf (clock : Clock) (rule : AlertRule) (breach : Breach) (window : Option ℕ)
    (n : ℕ) : Keyed.key (eventOf clock rule breach window n) = n := rfl

/-- `recordAlert` and `recordSuppressedAlert`. -/
def record (events : Table AlertEvent) (clock : Clock) (rule : AlertRule) (breach : Breach)
    (window : Option ℕ) : Table AlertEvent :=
  events.insert (eventOf clock rule breach window) (key_eventOf clock rule breach window)

/-- `hasRecentAlertEpisode(organizationId, ruleId, deviceId, excludeEventId)`. -/
def hasRecentAlertEpisode (events : Table AlertEvent) (clock : Clock) (organizationId ruleId : ℕ)
    (deviceId : Option ℕ) (excludeEventId : ℕ) : Bool :=
  events.rows.any fun e => e.organization_id = organizationId ∧ e.alert_rule_id = ruleId ∧
    e.suppressed = false ∧ clock.now - 3600 ≤ e.created_at ∧ e.id ≠ excludeEventId ∧
    e.device_id = deviceId

/-- The events so far, the breaches that were emitted with their rules, and the result's lists. -/
structure Evaluation where
  events : Table AlertEvent
  emitted : List (ℕ × Breach)
  triggered : List (ℕ × Breach)
  suppressed : ℕ

/-- The body of the loop. -/
def evaluateRule (db : AlertDb) (clock : Clock) (order : GroupOrder) (organizationId : ℕ)
    (s : Evaluation) (rule : AlertRule) : Evaluation :=
  match checkRule db clock order { rule with organization_id := organizationId } with
  | none => s
  | some breach =>
    match breach.device_id.bind (activeMaintenanceWindowId db clock organizationId) with
    | some windowId =>
      { s with
        events := record s.events clock { rule with organization_id := organizationId } breach
          (some windowId)
        suppressed := s.suppressed + 1 }
    | none =>
      let insertedEventId := s.events.nextId
      let events := record s.events clock rule breach none
      { s with
        events
        triggered := s.triggered ++ [(rule.id, breach)]
        emitted := if hasRecentAlertEpisode events clock organizationId rule.id breach.device_id
            insertedEventId then s.emitted
          else s.emitted ++ [(rule.id, breach)] }

/-- The rules that are evaluated. -/
def AlertDb.enabled (db : AlertDb) (organizationId : ℕ) : List AlertRule :=
  db.rules.rows.filter fun r =>
    r.organization_id = organizationId ∧ r.is_enabled = true ∧ r.deleted = false

/-- `evaluateAlerts(organizationId)`. -/
def evaluateAlerts (db : AlertDb) (clock : Clock) (order : GroupOrder) (organizationId : ℕ) :
    Evaluation :=
  (db.enabled organizationId).foldl (evaluateRule db clock order organizationId)
    ⟨db.events, [], [], 0⟩

end Vigabss.Alerts
