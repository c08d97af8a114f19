import Vigabss.Alerts.Rules

/-!
# Vigabss.Alerts.Breaches — which breaches are recorded

A rule hands on the first of its rows that breaches.  What the run records and emits for a rule
depends on that row alone, so a device is heard of just when no other breaches before it.
-/

namespace Vigabss.Alerts

open Vigabss.Lib

/-! ### What a run should record -/

/-- A maintenance window covers the device now. -/
def AlertDb.Covers (db : AlertDb) (clock : Clock) (organizationId : ℕ) (d : Device) : Prop :=
  ∃ mw ∈ db.windows, mw.organization_id = some organizationId ∧ mw.deleted = false ∧
    (mw.device_id = some d.id ∨
      (mw.device_id = none ∧ mw.site_id ≠ none ∧ mw.site_id = d.site_id) ∨
      (mw.device_id = none ∧ mw.site_id = none)) ∧
    (mw.status = .active ∨ mw.status = .scheduled) ∧
    mw.starts_at ≤ clock.now ∧ clock.now ≤ mw.ends_at

/-- An unsuppressed event of the rule and the device in the last hour. -/
def AlertDb.Recent (db : AlertDb) (clock : Clock) (organizationId ruleId deviceId : ℕ) : Prop :=
  ∃ e ∈ db.events.rows, e.organization_id = organizationId ∧ e.alert_rule_id = ruleId ∧
    e.suppressed = false ∧ clock.now - 3600 ≤ e.created_at ∧ e.device_id = some deviceId

/-- A live device in the scope of an enabled rule, whose average meets its threshold. -/
structure Breaching (db : AlertDb) (clock : Clock) (organizationId : ℕ) (rule : AlertRule)
    (d : Device) : Prop where
  enabled : rule ∈ db.enabled organizationId
  row : d ∈ db.devices.rows
  live : d.organization_id = organizationId ∧ d.deleted = false
  scope : ∀ id ∈ rule.device_id, id = d.id
  meets : ∃ avg ∈ db.average clock rule (some d.id),
    breached rule.operator (fl avg) (fl rule.threshold) = true

/-- Of the new events just one is of the rule and the device; it is suppressed as it should be, and
emitted as it should be. -/
def Heard (db : AlertDb) (clock : Clock) (organizationId : ℕ) (new : List AlertEvent)
    (emitted : List (ℕ × Breach)) (rule : AlertRule) (d : Device) : Prop :=
  (∃ e, new.filter (fun e => e.alert_rule_id = rule.id ∧ e.device_id = some d.id) = [e] ∧
    (e.suppressed = true ↔ db.Covers clock organizationId d)) ∧
  ((∃ breach, (rule.id, breach) ∈ emitted ∧ breach.device_id = some d.id) ↔
    ¬ db.Covers clock organizationId d ∧ ¬ db.Recent clock organizationId rule.id d.id) ∧
  (emitted.filter fun x => x.1 = rule.id ∧ x.2.device_id = some d.id).length ≤ 1

/-- Every breach of a live device is heard of. -/
def AllHeard (db : AlertDb) (clock : Clock) (order : GroupOrder) (organizationId : ℕ) : Prop :=
  ∃ new, (evaluateAlerts db clock order organizationId).events.rows = db.events.rows ++ new ∧
    ∀ rule d, Breaching db clock organizationId rule d →
      Heard db clock organizationId new (evaluateAlerts db clock order organizationId).emitted
        rule d

/-- Of two rows that breach, the later is not a live device's. -/
def FirstOnly (db : AlertDb) (clock : Clock) (order : GroupOrder) (organizationId : ℕ)
    (rule : AlertRule) : Prop :=
  ∀ before a after, db.groups clock order rule = before ++ a :: after →
    (breachOf rule a).isSome = true → ∀ b ∈ after, (breachOf rule b).isSome = true →
      ∀ id ∈ b.1, db.liveDevice organizationId id = none

/-! ### One rule -/

section Rule

variable {db : AlertDb} {clock : Clock} {order : GroupOrder} {organizationId : ℕ}
  {rule : AlertRule} {d : Device}

theorem mem_enabled : rule ∈ db.enabled organizationId ↔
    rule ∈ db.rules.rows ∧ rule.organization_id = organizationId ∧ rule.is_enabled = true ∧
      rule.deleted = false := by
  rw [AlertDb.enabled, List.mem_filter, decide_eq_true_eq]

theorem checkRule_enabled (hrule : rule ∈ db.enabled organizationId) :
    ({ rule with organization_id := organizationId } : AlertRule) = rule := by
  rw [← (mem_enabled.1 hrule).2.1]

theorem activeWindow_isSome (hd : d ∈ db.devices.rows) :
    (activeMaintenanceWindowId db clock organizationId d.id).isSome = true ↔
      db.Covers clock organizationId d := by
  have hfind : db.devices.find? d.id = some d := Table.find?_key hd
  rw [activeMaintenanceWindowId, Option.isSome_map, List.find?_isSome]
  simp only [hfind, Option.bind_some, decide_eq_true_eq]
  exact Iff.rfl

/-- What is recorded of a breach, but for its id. -/
def outcome (db : AlertDb) (clock : Clock) (organizationId : ℕ) (rule : AlertRule)
    (breach : Breach) : AlertEvent :=
  eventOf clock rule breach (breach.device_id.bind (activeMaintenanceWindowId db clock
    organizationId)) 0

/-- What is emitted for a breach. -/
def emission (db : AlertDb) (clock : Clock) (organizationId : ℕ) (rule : AlertRule)
    (breach : Breach) : Option (ℕ × Breach) :=
  if (breach.device_id.bind (activeMaintenanceWindowId db clock organizationId)).isSome ∨
    hasRecentAlertEpisode db.events clock organizationId rule.id breach.device_id
      db.events.nextId then none
  else some (rule.id, breach)

/-- An event without its id. -/
def AlertEvent.unnumbered (e : AlertEvent) : AlertEvent := { e with id := 0 }

/-- The run so far: one event for each rule that had a breach. -/
structure Ran (db : AlertDb) (clock : Clock) (order : GroupOrder) (organizationId : ℕ)
    (done : List AlertRule) (s : Evaluation) : Prop where
  events : ∃ new, s.events.rows = db.events.rows ++ new ∧ new.map AlertEvent.unnumbered =
    done.filterMap fun rule =>
      (checkRule db clock order rule).map (outcome db clock organizationId rule)
  emitted : s.emitted = done.filterMap fun rule =>
    (checkRule db clock order rule).bind (emission db clock organizationId rule)

theorem Ran.rule_of_new {done : List AlertRule} {s : Evaluation} {new : List AlertEvent}
    (hnew : new.map AlertEvent.unnumbered = done.filterMap fun rule =>
      (checkRule db clock order rule).map (outcome db clock organizationId rule))
    {e : AlertEvent} (he : e ∈ new) : ∃ r ∈ done, e.alert_rule_id = r.id := by
  have hmem := List.mem_map_of_mem (f := AlertEvent.unnumbered) he
  rw [hnew] at hmem
  obtain ⟨r, hr, hout⟩ := List.mem_filterMap.1 hmem
  obtain ⟨breach, -, heq⟩ := Option.map_eq_some_iff.1 hout
  exact ⟨r, hr, (congrArg AlertEvent.alert_rule_id heq).symm⟩

/-- The events that are recorded for other rules say nothing about an episode of this one. -/
theorem hasRecent_record {done : List AlertRule} {s : Evaluation}
    (h : Ran db clock order organizationId done s) (hnot : ∀ r ∈ done, r.id ≠ rule.id)
    (window : Option ℕ) (breach : Breach) :
    hasRecentAlertEpisode (record s.events clock rule breach window) clock organizationId rule.id
        breach.device_id s.events.nextId =
      hasRecentAlertEpisode db.events clock organizationId rule.id breach.device_id
        db.events.nextId := by
  obtain ⟨new, hrows, hnew⟩ := h.events
  rw [Bool.eq_iff_iff, hasRecentAlertEpisode, hasRecentAlertEpisode, List.any_eq_true,
    List.any_eq_true]
  simp only [decide_eq_true_eq, record, Table.mem_insert]
  constructor
  · rintro ⟨e, he, horg, hrule, hsup, htime, hid, hdev⟩
    rcases he with he | rfl
    · rw [hrows, List.mem_append] at he
      rcases he with he | he
      · exact ⟨e, he, horg, hrule, hsup, htime, (Table.key_lt_nextId he).ne, hdev⟩
      · obtain ⟨r, hr, hrid⟩ := Ran.rule_of_new (s := s) hnew he
        exact absurd (hrid.symm.trans hrule) (hnot r hr)
    · exact absurd rfl hid
  · rintro ⟨e, he, horg, hrule, hsup, htime, -, hdev⟩
    have hmem : e ∈ s.events.rows := hrows ▸ List.mem_append_left _ he
    exact ⟨e, .inl hmem, horg, hrule, hsup, htime, (Table.key_lt_nextId hmem).ne, hdev⟩

/-- The loop evaluates one more rule. -/
theorem Ran.step {done : List AlertRule} {s : Evaluation}
    (h : Ran db clock order organizationId done s) (hrule : rule ∈ db.enabled organizationId)
    (hnot : ∀ r ∈ done, r.id ≠ rule.id) :
    Ran db clock order organizationId (done ++ [rule])
      (evaluateRule db clock order organizationId s rule) := by
  have hrecent := hasRecent_record h hnot none
  obtain ⟨⟨new, hrows, hnew⟩, hemitted⟩ := h
  rw [evaluateRule, checkRule_enabled hrule]
  cases hcheck : checkRule db clock order rule with
  | none => exact ⟨⟨new, hrows, by simp [hnew, hcheck]⟩, by simp [hemitted, hcheck]⟩
  | some breach =>
    have hrows' : ∀ window, (record s.events clock rule breach window).rows =
        db.events.rows ++ (new ++ [eventOf clock rule breach window s.events.nextId]) := by
      intro window
      rw [← List.append_assoc, ← hrows]
      rfl
    dsimp only
    cases hwindow : breach.device_id.bind
        (activeMaintenanceWindowId db clock organizationId) with
    | some windowId =>
      refine ⟨⟨_, hrows' (some windowId), ?_⟩, ?_⟩
      · simp [hnew, hcheck, outcome, hwindow, eventOf, AlertEvent.unnumbered]
      · simp [hemitted, hcheck, emission, hwindow]
    | none =>
      refine ⟨⟨_, hrows' none, ?_⟩, ?_⟩
      · simp [hnew, hcheck, outcome, hwindow, eventOf, AlertEvent.unnumbered]
      · simp only [hrecent breach, hemitted]
        split_ifs with hepisode <;> simp [hcheck, emission, hwindow, hepisode]

end Rule

/-! ### The run -/

section Run

variable {db : AlertDb} {clock : Clock} {order : GroupOrder} {organizationId : ℕ}
  {rule : AlertRule} {d : Device}

theorem ran_start : Ran db clock order organizationId [] ⟨db.events, [], [], 0⟩ where
  events := ⟨[], (List.append_nil _).symm, rfl⟩
  emitted := rfl

theorem enabled_nodup (db : AlertDb) (organizationId : ℕ) :
    ((db.enabled organizationId).map AlertRule.id).Nodup :=
  (List.filter_sublist.map _).nodup db.rules.nodup

theorem ran (db : AlertDb) (clock : Clock) (order : GroupOrder) (organizationId : ℕ) :
    Ran db clock order organizationId (db.enabled organizationId)
      (evaluateAlerts db clock order organizationId) := by
  have hloop : ∀ rules done s, Ran db clock order organizationId done s →
      done ++ rules = db.enabled organizationId → Ran db clock order organizationId (done ++ rules)
        (rules.foldl (evaluateRule db clock order organizationId) s) := by
    intro rules
    induction rules with
    | nil =>
      intro done s h _
      rw [List.append_nil]
      exact h
    | cons rule rules ih =>
      intro done s h hall
      have hnodup := enabled_nodup db organizationId
      rw [← hall, List.map_append, List.nodup_append] at hnodup
      have hmem : rule ∈ db.enabled organizationId :=
        hall ▸ List.mem_append_right _ List.mem_cons_self
      have hstep := h.step hmem fun r hr =>
        hnodup.2.2 r.id (List.mem_map_of_mem hr) rule.id (List.mem_map_of_mem List.mem_cons_self)
      have happend : done ++ rule :: rules = done ++ [rule] ++ rules := by simp
      rw [happend] at hall ⊢
      exact ih _ _ hstep hall
  exact hloop _ [] _ ran_start rfl

/-- Of what a list of rules gives, just the rule's own is of the rule. -/
theorem filterMap_own {α : Type} {rules : List AlertRule} (hnodup : (rules.map AlertRule.id).Nodup)
    (hrule : rule ∈ rules) (f : AlertRule → Option α) (id : α → ℕ)
    (hid : ∀ r, ∀ a ∈ f r, id a = r.id) :
    (rules.filterMap f).filter (fun a => id a = rule.id) = (f rule).toList := by
  obtain ⟨as, bs, rfl⟩ := List.append_of_mem hrule
  rw [List.map_append, List.map_cons, List.nodup_append, List.nodup_cons] at hnodup
  obtain ⟨-, ⟨hafter, -⟩, hbefore⟩ := hnodup
  have hother : ∀ rs : List AlertRule, (∀ r ∈ rs, r.id ≠ rule.id) →
      (rs.filterMap f).filter (fun a => id a = rule.id) = [] := by
    intro rs hrs
    refine List.filter_eq_nil_iff.2 fun a ha => ?_
    obtain ⟨r, hr, har⟩ := List.mem_filterMap.1 ha
    rw [decide_eq_true_eq, hid r a har]
    exact hrs r hr
  have hown : ∀ a ∈ f rule, id a = rule.id := hid rule
  rw [List.filterMap_append, List.filter_append, hother as fun r hr => hbefore r.id
    (List.mem_map_of_mem hr) rule.id List.mem_cons_self, List.nil_append]
  have htail := hother bs fun r hr heq => hafter (heq ▸ List.mem_map_of_mem hr)
  cases hf : f rule with
  | none => rw [List.filterMap_cons_none hf, htail, Option.toList_none]
  | some a =>
    rw [List.filterMap_cons_some hf, List.filter_cons_of_pos (by simpa using hown a hf), htail,
      Option.toList_some]

theorem new_of_rule {new : List AlertEvent} (hrule : rule ∈ db.enabled organizationId)
    (hnew : new.map AlertEvent.unnumbered = (db.enabled organizationId).filterMap fun rule =>
      (checkRule db clock order rule).map (outcome db clock organizationId rule)) :
    (new.filter fun e => e.alert_rule_id = rule.id).map AlertEvent.unnumbered =
      ((checkRule db clock order rule).map (outcome db clock organizationId rule)).toList := by
  have hfilter : (new.filter fun e => e.alert_rule_id = rule.id).map AlertEvent.unnumbered =
      (new.map AlertEvent.unnumbered).filter fun e => e.alert_rule_id = rule.id := by
    rw [List.filter_map]
    rfl
  rw [hfilter, hnew]
  refine filterMap_own (enabled_nodup db organizationId) hrule _ AlertEvent.alert_rule_id
    fun r a ha => ?_
  obtain ⟨breach, -, rfl⟩ := Option.map_eq_some_iff.1 ha
  rfl

theorem emitted_of_rule (clock : Clock) (order : GroupOrder)
    (hrule : rule ∈ db.enabled organizationId) :
    (evaluateAlerts db clock order organizationId).emitted.filter (fun x => x.1 = rule.id) =
      ((checkRule db clock order rule).bind (emission db clock organizationId rule)).toList := by
  rw [(ran db clock order organizationId).emitted]
  refine filterMap_own (enabled_nodup db organizationId) hrule _ Prod.fst fun r a ha => ?_
  obtain ⟨breach, -, hem⟩ := Option.bind_eq_some_iff.1 ha
  unfold emission at hem
  split_ifs at hem
  exact (congrArg Prod.fst (Option.some.inj hem)).symm

/-! ### The breach that is handed on -/

theorem hasRecent_iff {ruleId : ℕ} : hasRecentAlertEpisode db.events clock organizationId ruleId
    (some d.id) db.events.nextId = true ↔ db.Recent clock organizationId ruleId d.id := by
  rw [hasRecentAlertEpisode, List.any_eq_true]
  simp only [decide_eq_true_eq]
  constructor
  · rintro ⟨e, he, horg, hrule, hsup, htime, -, hdev⟩
    exact ⟨e, he, horg, hrule, hsup, htime, hdev⟩
  · rintro ⟨e, he, horg, hrule, hsup, htime, hdev⟩
    exact ⟨e, he, horg, hrule, hsup, htime, (Table.key_lt_nextId he).ne, hdev⟩

theorem event_of_checkRule {new : List AlertEvent} {breach : Breach}
    (hrows : (evaluateAlerts db clock order organizationId).events.rows = db.events.rows ++ new)
    (hrule : rule ∈ db.enabled organizationId)
    (hcheck : checkRule db clock order rule = some breach) :
    ∃ e, new.filter (fun e => e.alert_rule_id = rule.id) = [e] ∧
      e.unnumbered = outcome db clock organizationId rule breach := by
  obtain ⟨new', hrows', hnew⟩ := (ran db clock order organizationId).events
  obtain rfl := List.append_cancel_left (hrows.symm.trans hrows')
  have hlist := new_of_rule hrule hnew
  rw [hcheck, Option.map_some, Option.toList_some, List.map_eq_singleton_iff] at hlist
  exact hlist

/-- A device whose breach is handed on is heard of. -/
theorem heard_of_checkRule {new : List AlertEvent} {breach : Breach}
    (hrows : (evaluateAlerts db clock order organizationId).events.rows = db.events.rows ++ new)
    (hrule : rule ∈ db.enabled organizationId) (hd : d ∈ db.devices.rows)
    (hcheck : checkRule db clock order rule = some breach)
    (hdevice : breach.device_id = some d.id) :
    Heard db clock organizationId new (evaluateAlerts db clock order organizationId).emitted
      rule d := by
  obtain ⟨e, hfilter, hout⟩ := event_of_checkRule hrows hrule hcheck
  have hemitted := emitted_of_rule clock order hrule
  rw [hcheck, Option.bind_some] at hemitted
  have hcovers : (breach.device_id.bind (activeMaintenanceWindowId db clock
      organizationId)).isSome = true ↔ db.Covers clock organizationId d := by
    rw [hdevice, Option.bind_some, activeWindow_isSome hd]
  have hemission : emission db clock organizationId rule breach =
      if (breach.device_id.bind (activeMaintenanceWindowId db clock organizationId)).isSome ∨
        hasRecentAlertEpisode db.events clock organizationId rule.id (some d.id)
          db.events.nextId then none else some (rule.id, breach) := by
    rw [emission, hdevice]
  refine ⟨⟨e, ?_, ?_⟩, ?_, ?_⟩
  · have hdev : e.device_id = some d.id := (congrArg AlertEvent.device_id hout).trans hdevice
    have hboth : new.filter (fun e => e.alert_rule_id = rule.id ∧ e.device_id = some d.id) =
        (new.filter fun e => e.alert_rule_id = rule.id).filter fun e =>
          e.device_id = some d.id := by
      rw [List.filter_filter]
      refine List.filter_congr fun e _ => ?_
      rw [Bool.decide_and, Bool.and_comm]
    rw [hboth, hfilter]
    exact List.filter_eq_self.2 (by simpa using hdev)
  · have hsuppressed : e.suppressed = (breach.device_id.bind (activeMaintenanceWindowId db clock
        organizationId)).isSome := congrArg AlertEvent.suppressed hout
    rw [← hcovers, hsuppressed]
  · have hmem : ∀ b, (rule.id, b) ∈ (evaluateAlerts db clock order organizationId).emitted ↔
        emission db clock organizationId rule breach = some (rule.id, b) := by
      intro b
      rw [← Option.mem_toList, ← hemitted, List.mem_filter, decide_eq_true_eq, and_iff_left rfl]
    simp only [hmem, hemission]
    rw [← hcovers, ← hasRecent_iff, ← not_or]
    split_ifs with hquiet
    · refine ⟨fun ⟨_, hnone, _⟩ => ?_, fun hopen => absurd hquiet hopen⟩
      cases hnone
    · exact ⟨fun _ => hquiet, fun _ => ⟨breach, rfl, hdevice⟩⟩
  · have hboth : (evaluateAlerts db clock order organizationId).emitted.filter
        (fun x => x.1 = rule.id ∧ x.2.device_id = some d.id) =
          ((evaluateAlerts db clock order organizationId).emitted.filter
            fun x => x.1 = rule.id).filter fun x => x.2.device_id = some d.id := by
      rw [List.filter_filter]
      refine List.filter_congr fun x _ => ?_
      rw [Bool.decide_and, Bool.and_comm]
    rw [hboth, hemitted]
    refine (List.length_filter_le _ _).trans ?_
    cases emission db clock organizationId rule breach <;> simp

theorem not_heard {new : List AlertEvent}
    (hrows : (evaluateAlerts db clock order organizationId).events.rows = db.events.rows ++ new)
    (hrule : rule ∈ db.enabled organizationId)
    (hcheck : ∀ breach ∈ checkRule db clock order rule, breach.device_id ≠ some d.id) :
    ¬ Heard db clock organizationId new (evaluateAlerts db clock order organizationId).emitted
      rule d := by
  rintro ⟨⟨e, hfilter, -⟩, -⟩
  obtain ⟨new', hrows', hnew⟩ := (ran db clock order organizationId).events
  obtain rfl := List.append_cancel_left (hrows.symm.trans hrows')
  have he : e ∈ new := List.mem_of_mem_filter (hfilter ▸ List.mem_singleton.2 rfl)
  have hcond := (List.mem_filter.1 (hfilter ▸ List.mem_singleton.2 rfl : e ∈ new.filter _)).2
  rw [decide_eq_true_eq] at hcond
  have hown : e.unnumbered ∈
      ((checkRule db clock order rule).map (outcome db clock organizationId rule)).toList := by
    rw [← new_of_rule hrule hnew]
    exact List.mem_map_of_mem (List.mem_filter.2 ⟨he, decide_eq_true hcond.1⟩)
  obtain ⟨breach, hbreach, hout⟩ := Option.map_eq_some_iff.1 (Option.mem_toList.1 hown)
  exact hcheck breach hbreach ((congrArg AlertEvent.device_id hout).trans hcond.2)

/-! ### The rows of a rule -/

theorem liveDevice_some {id : ℕ} (h : db.liveDevice organizationId id = some d) :
    d ∈ db.devices.rows ∧ d.id = id ∧ d.organization_id = organizationId ∧ d.deleted = false := by
  refine ⟨List.mem_of_find?_eq_some h, ?_⟩
  simpa using List.find?_some h

theorem liveDevice_isSome (hd : d ∈ db.devices.rows)
    (hlive : d.organization_id = organizationId ∧ d.deleted = false) :
    db.liveDevice organizationId d.id ≠ none := by
  intro hnone
  have := List.find?_eq_none.1 hnone d hd
  simp [hlive.1, hlive.2] at this

theorem groups_nodup (db : AlertDb) (clock : Clock) (order : GroupOrder) (rule : AlertRule) :
    ((db.groups clock order rule).map Prod.fst).Nodup := by
  rw [AlertDb.groups, List.map_map]
  refine (List.map_id _).symm ▸ ?_
  exact (order.perm rule.id _).nodup_iff.2 (List.nodup_dedup _)

theorem mem_groups {row : Option ℕ × Option ℚ} : row ∈ db.groups clock order rule ↔
    (∃ s ∈ db.samples clock rule, s.1 = row.1) ∧ row.2 = db.average clock rule row.1 := by
  rw [AlertDb.groups, List.mem_map]
  constructor
  · rintro ⟨deviceId, hkey, rfl⟩
    rw [(order.perm rule.id _).mem_iff, List.mem_dedup, List.mem_map] at hkey
    exact ⟨hkey, rfl⟩
  · rintro ⟨hkey, havg⟩
    refine ⟨row.1, ?_, Prod.ext rfl havg.symm⟩
    rw [(order.perm rule.id _).mem_iff, List.mem_dedup, List.mem_map]
    exact hkey

theorem breachOf_device {row : Option ℕ × Option ℚ} {breach : Breach}
    (h : breachOf rule row = some breach) : breach.device_id = row.1 := by
  unfold breachOf at h
  split at h
  · cases h
  · split_ifs at h
    exact (congrArg Breach.device_id (Option.some.inj h)).symm

theorem Breaching.row_mem (h : Breaching db clock organizationId rule d) (order : GroupOrder) :
    ∃ row ∈ db.groups clock order rule, row.1 = some d.id ∧ (breachOf rule row).isSome = true := by
  obtain ⟨avg, havg, hmeets⟩ := h.meets
  refine ⟨(some d.id, some avg), mem_groups.2 ⟨?_, havg.symm⟩, rfl, ?_⟩
  · by_contra hnone
    push Not at hnone
    have hempty : (db.samples clock rule).filter (fun s => s.1 = some d.id) = [] :=
      List.filter_eq_nil_iff.2 fun s hs => by simpa using hnone s hs
    rw [Option.mem_def, AlertDb.average, hempty] at havg
    cases havg
  · simp only [breachOf, if_pos hmeets, Option.isSome_some]

theorem of_sample {sample : Option ℕ × Option ℚ} (h : sample ∈ db.samples clock rule) :
    rule.metric ∈ ALLOWED_METRICS ∧ ∀ id ∈ rule.device_id, sample.1 = some id := by
  unfold AlertDb.samples at h
  dsimp only at h
  split_ifs at h with hsnmp hloss huptime
  · obtain ⟨sm, hsm, rfl⟩ := List.mem_map.1 h
    have hcond := of_decide_eq_true (List.mem_filter.1 hsm).2
    refine ⟨List.mem_cons_of_mem _ (List.mem_cons_of_mem _ hsnmp), fun id hid => ?_⟩
    exact congrArg some (hcond.2.2 id hid)
  · obtain ⟨snapshot, hmem, rfl⟩ := List.mem_map.1 h
    have hcond := of_decide_eq_true (List.mem_filter.1 hmem).2
    exact ⟨by rw [hloss]; exact List.mem_cons_self, hcond.2.2⟩
  · obtain ⟨snapshot, hmem, rfl⟩ := List.mem_map.1 h
    have hcond := of_decide_eq_true (List.mem_filter.1 hmem).2
    exact ⟨by rw [huptime]; exact List.mem_cons_of_mem _ List.mem_cons_self, hcond.2.2⟩
  · cases h

theorem breaching_of_row (hrule : rule ∈ db.enabled organizationId)
    {row : Option ℕ × Option ℚ} (hrow : row ∈ db.groups clock order rule)
    (hbreach : (breachOf rule row).isSome = true) {id : ℕ} (hid : row.1 = some id)
    (hlive : db.liveDevice organizationId id = some d) :
    d.id = id ∧ Breaching db clock organizationId rule d := by
  obtain ⟨hd, rfl, horg, hdeleted⟩ := liveDevice_some hlive
  obtain ⟨⟨sample, hsample, hkey⟩, havg⟩ := mem_groups.1 hrow
  refine ⟨rfl, hrule, hd, ⟨horg, hdeleted⟩, fun id' hid' => ?_, ?_⟩
  · have hscope := (of_sample hsample).2 id' hid'
    rw [hkey, hid] at hscope
    exact (Option.some.inj hscope).symm
  · rw [hid] at havg
    unfold breachOf at hbreach
    split at hbreach
    · cases hbreach
    · rename_i avg hsome
      by_cases hmeets : breached rule.operator (fl avg) (fl rule.threshold) = true
      · exact ⟨avg, havg.symm.trans hsome, hmeets⟩
      · rw [if_neg hmeets] at hbreach
        cases hbreach

theorem checkRule_eq {row : Option ℕ × Option ℚ} (hrow : row ∈ db.groups clock order rule) :
    checkRule db clock order rule =
      (db.groups clock order rule).findSome? (breachOf rule) := by
  obtain ⟨⟨sample, hsample, -⟩, -⟩ := mem_groups.1 hrow
  exact if_neg (not_not.2 (of_sample hsample).1)

theorem checkRule_first {row : Option ℕ × Option ℚ} (hrow : row ∈ db.groups clock order rule)
    (hbreach : (breachOf rule row).isSome = true) :
    ∃ before first after breach, db.groups clock order rule = before ++ first :: after ∧
      (row = first ∨ row ∈ after) ∧ breachOf rule first = some breach ∧
      checkRule db clock order rule = some breach := by
  rw [checkRule_eq hrow]
  cases hfind : (db.groups clock order rule).findSome? (breachOf rule) with
  | none =>
    rw [List.findSome?_eq_none_iff.1 hfind row hrow] at hbreach
    cases hbreach
  | some breach =>
    obtain ⟨before, first, after, hsplit, hfirst, hnone⟩ := List.findSome?_eq_some_iff.1 hfind
    refine ⟨before, first, after, breach, hsplit, ?_, hfirst, rfl⟩
    rw [hsplit, List.mem_append, List.mem_cons] at hrow
    refine hrow.resolve_left fun hbefore => ?_
    rw [hnone row hbefore] at hbreach
    cases hbreach

/-- **Every breach is heard of, just when none comes before a live device's.** -/
theorem allHeard_iff (db : AlertDb) (clock : Clock) (order : GroupOrder) (organizationId : ℕ) :
    AllHeard db clock order organizationId ↔
      ∀ rule ∈ db.enabled organizationId, FirstOnly db clock order organizationId rule := by
  constructor
  · rintro ⟨new, hrows, hall⟩ rule hrule before a after hsplit ha b hb hbreach id hid
    by_contra hlive
    obtain ⟨d, hd⟩ := Option.ne_none_iff_exists'.1 hlive
    have hmem : b ∈ db.groups clock order rule :=
      hsplit ▸ List.mem_append_right _ (List.mem_cons_of_mem _ hb)
    obtain ⟨rfl, hbreaching⟩ := breaching_of_row hrule hmem hbreach hid hd
    refine not_heard hrows hrule (fun breach hcheck hdevice => ?_) (hall rule d hbreaching)
    -- the breach that is handed on is one of `a` or of a row before it
    obtain ⟨x, hx, hxbreach⟩ : ∃ x ∈ before ++ [a], breachOf rule x = some breach := by
      have hfirst := (checkRule_eq hmem).symm.trans hcheck
      rw [hsplit, List.append_cons, List.findSome?_append, Option.or_eq_some_iff] at hfirst
      rcases hfirst with hfound | ⟨hnone, -⟩
      · exact List.exists_of_findSome?_eq_some hfound
      · rw [List.findSome?_eq_none_iff.1 hnone a (List.mem_append_right _ List.mem_cons_self)]
          at ha
        cases ha
    have hnodup := groups_nodup db clock order rule
    rw [hsplit, List.append_cons, List.map_append, List.nodup_append] at hnodup
    refine hnodup.2.2 x.1 (List.mem_map_of_mem hx) b.1 (List.mem_map_of_mem hb) ?_
    rw [← breachOf_device hxbreach, hdevice, hid]
  · intro hfirst
    obtain ⟨new, hrows, -⟩ := (ran db clock order organizationId).events
    refine ⟨new, hrows, fun rule d h => ?_⟩
    obtain ⟨row, hrow, hkey, hbreach⟩ := h.row_mem order
    obtain ⟨before, first, after, breach, hsplit, hplace, hfirstBreach, hcheck⟩ :=
      checkRule_first hrow hbreach
    rcases hplace with rfl | hafter
    · exact heard_of_checkRule hrows h.enabled h.row hcheck
        ((breachOf_device hfirstBreach).trans hkey)
    · have hnone := hfirst rule h.enabled before first after hsplit
        (by rw [hfirstBreach]; rfl) row hafter hbreach d.id hkey
      exact absurd hnone (liveDevice_isSome h.row h.live)

end Run

/-! ### A device behind one that is in maintenance -/

theorem inOrder_perm (_ : ℕ) (keys : List (Option ℕ)) : keys.Perm keys := .refl keys

/-- The groups as they come. -/
def inOrder : GroupOrder := ⟨fun _ keys => keys, inOrder_perm⟩

def cpuRule : AlertRule := ⟨1, 1, "cpu_usage", ">", 80, none, 5, true, false⟩

def secondDevice : Device := ⟨2, 1, none, false⟩

theorem cpuRules_nodup : ([cpuRule].map Keyed.key).Nodup := by decide

theorem cpuDevices_nodup : ([⟨1, 1, none, false⟩, secondDevice].map Keyed.key).Nodup := by decide

/-- A rule for all devices, one in maintenance at 95 % and one at 90 %. -/
def maintenanceDb : AlertDb where
  rules := ⟨[cpuRule], cpuRules_nodup⟩
  devices := ⟨[⟨1, 1, none, false⟩, secondDevice], cpuDevices_nodup⟩
  snmp := [⟨1, 0, fun _ => some 95⟩, ⟨2, 0, fun _ => some 90⟩]
  snapshots := []
  windows := [⟨1, some 1, some 1, none, 0, 10, .active, false⟩]
  events := .empty

/-- **A breach hides another's**: the rule hands on the suppressed one alone. -/
theorem allHeard_not :
    ¬ ∀ (db : AlertDb) (clock : Clock) (order : GroupOrder) (organizationId : ℕ),
      AllHeard db clock order organizationId := by
  intro h
  obtain ⟨new, hrows, hall⟩ := h maintenanceDb ⟨0, 0⟩ inOrder 1
  have hbreaching : Breaching maintenanceDb ⟨0, 0⟩ 1 cpuRule secondDevice := by
    refine ⟨mem_enabled.2 ⟨List.mem_cons_self, rfl, rfl, rfl⟩,
      List.mem_cons_of_mem _ List.mem_cons_self, ⟨rfl, rfl⟩, nofun, 90, ?_, ?_⟩ <;>
      decide +kernel
  have hfirst : (checkRule maintenanceDb ⟨0, 0⟩ inOrder cpuRule).map Breach.device_id =
      some (some 1) := by decide +kernel
  refine not_heard hrows hbreaching.enabled (fun breach hcheck hdevice => ?_)
    (hall cpuRule secondDevice hbreaching)
  rw [hcheck, Option.map_some, hdevice] at hfirst
  revert hfirst
  decide

end Vigabss.Alerts
