import Vigabss.Lib.Except
import Vigabss.Radius.Ingest

/-!
# Vigabss.Radius.Writes — what an accounting event writes

`Writes` lists what an accepted record does to the session tables, one case for each branch of
`ingestAccounting`; a sweep is a sequence of closures.  The invariants of the session tables are
proved from these, statement by statement.
-/

namespace Vigabss.Radius

open Vigabss.Lib

/-! ### Statements -/

section Statements

variable {db : Db} {id : ℕ} {f : ConnectionLog → ConnectionLog} {hf : ∀ a, (f a).id = a.id}
  {mk : ℕ → ConnectionLog} {hmk : ∀ n, (mk n).id = n} {now : ℤ}

@[simp] theorem appendEvidence_logs (row : ConnectionLog) :
    (db.appendEvidence row now).logs = db.logs := by
  unfold Db.appendEvidence
  split_ifs <;> rfl

@[simp] theorem appendEvidence_usage (row : ConnectionLog) :
    (db.appendEvidence row now).usage = db.usage := by
  unfold Db.appendEvidence
  split_ifs <;> rfl

@[simp] theorem updateLog_logs : (db.updateLog id f hf now).logs = db.logs.modify id f hf := by
  unfold Db.updateLog
  cases h : db.logs.find? id with
  | none =>
    -- no row has the key, so there is nothing to rewrite
    refine Table.ext (Eq.symm ?_)
    simp only [Table.modify]
    refine (List.map_congr_left fun a ha => ?_).trans (List.map_id _)
    exact if_neg (Table.find?_eq_none.1 h a ha)
  | some old =>
    dsimp only
    split_ifs <;> simp

@[simp] theorem updateLog_usage : (db.updateLog id f hf now).usage = db.usage := by
  unfold Db.updateLog
  split
  · rfl
  · dsimp only
    split_ifs <;> simp

@[simp] theorem insertLog_logs : (db.insertLog mk hmk now).logs = db.logs.insert mk hmk := by
  unfold Db.insertLog
  dsimp only
  split_ifs <;> simp

@[simp] theorem insertLog_usage : (db.insertLog mk hmk now).usage = db.usage := by
  unfold Db.insertLog
  dsimp only
  split_ifs <;> simp

@[simp] theorem postUsage_logs (posts : List UsagePost) : (db.postUsage posts).logs = db.logs := rfl

@[simp] theorem postUsage_usage (posts : List UsagePost) :
    (db.postUsage posts).usage = db.usage ++ posts := rfl

@[simp] theorem postUsage_nil : db.postUsage [] = db := by
  rw [Db.postUsage, List.append_nil]

theorem id_lt_nextId {row : ConnectionLog} (h : row ∈ db.logs.rows) : row.id < db.logs.nextId :=
  Table.key_lt_nextId h

theorem mem_updateLog {c row : ConnectionLog} (hc : c ∈ db.logs.rows) :
    row ∈ (db.updateLog c.id f hf now).logs.rows ↔
      (row ∈ db.logs.rows ∧ row.id ≠ c.id) ∨ row = f c := by
  rw [updateLog_logs, Table.mem_modify]
  constructor
  · rintro (hrow | ⟨b, hb, rfl⟩)
    · exact .inl hrow
    · obtain rfl : c = b := Option.some.inj ((Table.find?_key hc).symm.trans hb)
      exact .inr rfl
  · rintro (hrow | rfl)
    · exact .inl hrow
    · exact .inr ⟨c, Table.find?_key hc, rfl⟩

theorem mem_insertLog {row : ConnectionLog} :
    row ∈ (db.insertLog mk hmk now).logs.rows ↔ row ∈ db.logs.rows ∨ row = mk db.logs.nextId := by
  rw [insertLog_logs, Table.mem_insert]

theorem appendEvidence_evidence (db : Db) (now : ℤ) (row : ConnectionLog) :
    (db.appendEvidence row now).evidence = db.evidence ∧
        (∃ e ∈ db.evidence, e.row.dedupe = row.dedupe ∧ e.eventAt = row.lastAt) ∨
      (db.appendEvidence row now).evidence =
        db.evidence ++ [⟨row, row.lastAt, row.lastAccountingReceivedAt.getD now⟩] := by
  unfold Db.appendEvidence
  split_ifs with hdup
  · simp only [List.any_eq_true, decide_eq_true_eq] at hdup
    exact .inl ⟨rfl, hdup⟩
  · exact .inr rfl

theorem updateLog_evidence {c : ConnectionLog} (hc : c ∈ db.logs.rows)
    (f : ConnectionLog → ConnectionLog) (hf : ∀ a, (f a).id = a.id) (now : ℤ) :
    (db.updateLog c.id f hf now).evidence = db.evidence ∧
        (evidenceOnUpdate c (f c) = true →
          ∃ e ∈ db.evidence, e.row.dedupe = (f c).dedupe ∧ e.eventAt = (f c).lastAt) ∨
      (db.updateLog c.id f hf now).evidence =
        db.evidence ++ [⟨f c, (f c).lastAt, (f c).lastAccountingReceivedAt.getD now⟩] := by
  have hfind : db.logs.find? c.id = some c := Table.find?_key hc
  unfold Db.updateLog
  simp only [hfind]
  split_ifs with hfire
  · rcases appendEvidence_evidence { db with logs := db.logs.modify c.id f hf } now (f c) with
      ⟨hsame, hdup⟩ | hnew
    · exact .inl ⟨hsame, fun _ => hdup⟩
    · exact .inr hnew
  · exact .inl ⟨rfl, fun h => absurd h hfire⟩

theorem insertLog_evidence (hmk : ∀ n, (mk n).id = n) (now : ℤ)
    (hinst : (mk db.logs.nextId).sessionInstanceId.isSome = true) :
    (db.insertLog mk hmk now).evidence = db.evidence ∧
        (∃ e ∈ db.evidence, e.row.dedupe = (mk db.logs.nextId).dedupe ∧
          e.eventAt = (mk db.logs.nextId).lastAt) ∨
      (db.insertLog mk hmk now).evidence = db.evidence ++ [⟨mk db.logs.nextId,
        (mk db.logs.nextId).lastAt,
        (mk db.logs.nextId).lastAccountingReceivedAt.getD now⟩] := by
  unfold Db.insertLog
  dsimp only
  rw [if_pos (.inl hinst)]
  exact appendEvidence_evidence { db with logs := db.logs.insert mk hmk } _ _

end Statements

/-- Closing rows one after the other keeps what each closure keeps. -/
theorem closeOpenSessions_rule {P : Db → Prop} {db : Db} {now : ℤ} {cond : ConnectionLog → Bool}
    {terminateCause anomalyReason : String}
    (hstep : ∀ db' row, row ∈ db'.logs.rows → row.isOpen = true → cond row = true → P db' →
      P (db'.updateLog row.id (sweptRow terminateCause anomalyReason now)
      (sweptRow_id terminateCause anomalyReason now) now))
    (h : P db) : P (closeOpenSessions db now cond terminateCause anomalyReason) := by
  -- the rows still to close are as they were: a closure rewrites the row of its own key
  have hfold : ∀ (l : List ConnectionLog) (db' : Db), (l.map ConnectionLog.id).Nodup →
      (∀ row ∈ l, row ∈ db'.logs.rows ∧ (row.isOpen && cond row) = true) → P db' →
      P (l.foldl (fun db row => db.updateLog row.id (sweptRow terminateCause anomalyReason now)
        (sweptRow_id terminateCause anomalyReason now) now) db') := by
    intro l
    induction l with
    | nil => exact fun _ _ _ hdb' => hdb'
    | cons row l ih =>
      intro db' hnd hrows hdb'
      rw [List.map_cons, List.nodup_cons] at hnd
      obtain ⟨hmem, hrow⟩ := hrows row List.mem_cons_self
      rw [Bool.and_eq_true] at hrow
      refine ih _ hnd.2 (fun row' hrow' => ?_) (hstep db' row hmem hrow.1 hrow.2 hdb')
      obtain ⟨hmem', hcond⟩ := hrows row' (List.mem_cons_of_mem _ hrow')
      refine ⟨(mem_updateLog hmem).2 (.inl ⟨hmem', fun hid => hnd.1 ?_⟩), hcond⟩
      rw [← hid]
      exact List.mem_map_of_mem hrow'
  refine hfold _ db ((List.filter_sublist.map _).nodup db.logs.nodup) (fun row hrow => ?_) h
  exact List.mem_filter.1 hrow

/-! ### The row of a session -/

/-- `a` comes first in `ORDER BY f DESC, id DESC`. -/
def Leads (f : ConnectionLog → ℤ) (a b : ConnectionLog) : Prop := f b < f a ∨ f b = f a ∧ b.id ≤ a.id

theorem latest_eq_none {f : ConnectionLog → ℤ} {rows : List ConnectionLog} :
    latest f rows = none ↔ rows = [] := by
  cases rows with
  | nil => simp [latest]
  | cons a rows =>
    simp only [latest, reduceCtorEq, iff_false]
    split
    · simp
    · split_ifs <;> simp

theorem latest_spec {f : ConnectionLog → ℤ} {rows : List ConnectionLog} {a : ConnectionLog}
    (h : latest f rows = some a) : a ∈ rows ∧ ∀ b ∈ rows, Leads f a b := by
  induction rows generalizing a with
  | nil => cases h
  | cons c rows ih =>
    unfold latest at h
    cases hl : latest f rows with
    | none =>
      rw [hl] at h
      obtain rfl := Option.some.inj h
      rw [latest_eq_none.1 hl]
      exact ⟨List.mem_cons_self, fun b hb => .inr (by rw [List.mem_singleton.1 hb]; simp)⟩
    | some b =>
      rw [hl] at h
      obtain ⟨hmem, hlead⟩ := ih hl
      dsimp only at h
      split_ifs at h with hlt
      · obtain rfl := Option.some.inj h
        refine ⟨List.mem_cons_of_mem _ hmem, fun x hx => ?_⟩
        rcases List.mem_cons.1 hx with rfl | hx
        · unfold Leads
          omega
        · exact hlead x hx
      · obtain rfl := Option.some.inj h
        refine ⟨List.mem_cons_self, fun x hx => ?_⟩
        rcases List.mem_cons.1 hx with rfl | hx
        · exact .inr ⟨rfl, le_rfl⟩
        · have := hlead x hx
          unfold Leads at this ⊢
          omega

/-- A row of the record's session, by its accounting id or by the old session id alone. -/
def Record.names (r : Record) (row : ConnectionLog) : Prop :=
  row.organizationId = r.organizationId ∧ row.nasId = r.nasId ∧ row.username = r.userName ∧
    (row.acctSessionId = some r.acctSessionId ∨
      row.acctSessionId = none ∧ row.sessionId = r.acctSessionId)

theorem current_mem {db : Db} {r : Record} {c : ConnectionLog} (h : db.current r = some c) :
    c ∈ db.logs.rows ∧ r.names c := by
  unfold Db.current Db.lifecycle at h
  split at h
  · obtain rfl := Option.some.inj h
    obtain ⟨hmem, hkey⟩ := List.mem_filter.1 (latest_spec ‹_›).1
    simp only [ofSession, decide_eq_true_eq] at hkey
    exact ⟨hmem, hkey.1, hkey.2.1, hkey.2.2.1, .inl hkey.2.2.2⟩
  · obtain ⟨hmem, hkey⟩ := List.mem_filter.1 (latest_spec h).1
    simp only [decide_eq_true_eq] at hkey
    exact ⟨hmem, hkey.1, hkey.2.1, hkey.2.2.1, .inr hkey.2.2.2⟩

theorem movedFrom_mem {db : Db} {r : Record} {row : ConnectionLog} (h : movedFrom db r = some row) :
    row ∈ db.logs.rows ∧ row.isOpen = true ∧ row.acctSessionId ≠ some r.acctSessionId := by
  unfold movedFrom openElsewhere at h
  obtain ⟨hlatest, -⟩ := Option.filter_eq_some_iff.1 h
  obtain ⟨hmem, hkey⟩ := List.mem_filter.1 (latest_spec hlatest).1
  simp only [decide_eq_true_eq] at hkey
  exact ⟨hmem, hkey.2.2.1, hkey.2.2.2⟩

/-! ### Normalization -/

/-- What a normalized record satisfies. -/
structure Normalized (config : Config) (now : ℤ) (attrs : Attrs) (r : Record) : Prop where
  counters : ∀ f n, r.usage f = some n → n ≤ maxSafeInteger
  chronology : 0 ≤ r.observedEventAt - sessionMs r
  observed : observedAt config now attrs = .ok r.observedEventAt
  explicit : r.hasExplicitEventTimestamp = attrs.eventTimestamp.isSome

theorem checkCounter_ok {field : String} {value : Option ℕ} {maximum : ℕ} {u : Unit} :
    checkCounter field value maximum = .ok u ↔ ∀ n ∈ value, n ≤ maximum := by
  unfold checkCounter
  cases value with
  | none => simp
  | some n => simp

theorem combined_ok {octets gigawords value : Option ℕ}
    (h : combined octets gigawords = .ok value) : ∀ n ∈ value, n ≤ maxSafeInteger := by
  unfold combined at h
  split_ifs at h with habsent
  · cases h
    simp
  · unfold combineOctetsGigawords at h
    dsimp only at h
    split_ifs at h with hpart hsum
    · cases h
    · cases h
    · cases h
      intro n hn
      obtain rfl := Option.some.inj hn
      exact not_lt.1 hsum

theorem normalize_ok {config : Config} {now : ℤ} {attrs : Attrs} {r : Record}
    (h : normalize config now attrs = .ok r) : Normalized config now attrs r := by
  unfold normalize at h
  simp only [except_bind_ok, checkCounter_ok] at h
  obtain ⟨-, -, -, -, -, -, -, -, -, hpin, -, hpout, -, htime, -, -, bytesIn, hin, bytesOut, hout,
    t, ht, h⟩ := h
  split_ifs at h with hchron
  · cases h
  · cases htype : statusTypeMap attrs.acctStatusType with
    | none =>
      rw [htype] at h
      cases h
    | some eventType =>
      rw [htype] at h
      cases h
      refine ⟨fun f n hn => ?_, not_lt.1 hchron, ht, rfl⟩
      cases f with
      | bytesIn => exact combined_ok hin n hn
      | bytesOut => exact combined_ok hout n hn
      | packetsIn => exact hpin n hn
      | packetsOut => exact hpout n hn
      | duration => exact (htime n hn).trans (by decide)

/-! ### The usage of a record -/

theorem posts_of_record {usage previous : RawUsage} {organizationId i : ℕ}
    {previousAt : Option ℤ} {t : ℤ} {complete init : Bool} {reason : Option String}
    (h : ∀ f n, usage f = some n → n ≤ maxSafeInteger) :
    ∀ post ∈ recordUsageDelta organizationId i t
        (calculateUsageDelta previous usage previousAt t complete reason init),
      post.sessionInstanceId = i ∧ ∀ f, 0 ≤ post.deltas f := by
  intro post hpost
  refine ⟨recordUsageDelta_instance hpost, recordUsageDelta_nonneg (fun f => fieldDelta_nonneg ..)
    (fun f => ?_) post hpost⟩
  change fieldDelta init (previous f) (usage f) ≤ 2 ^ 53
  cases hn : usage f with
  | none => simp [fieldDelta]
  | some n =>
    have hle := h f n hn
    have hdelta := fieldDelta_le init (previous f) n
    simp only [maxSafeInteger] at hle
    omega

theorem posted_baseline (organizationId i : ℕ) (t : ℤ) (usage : RawUsage) (complete : Bool)
    (reason : Option String) (f : UsageField) :
    postedOf f (recordUsageDelta organizationId i t
      (calculateUsageDelta (fun _ => none) usage none t complete reason true)) = 0 := by
  rw [recordUsageDelta_sum]
  change fieldDelta true none (usage f) = 0
  unfold fieldDelta
  cases usage f <;> rfl

/-! ### Records -/

/-- What an accepted record writes, and its answer. -/
inductive Writes (config : Config) (db : Db) (now : ℤ) (r : Record) : Outcome → Prop
  | nothing {d : ConnectionLog} (hd : db.current r = some d)
      (h : r.eventType = .start ∧ startAction config (some d) r = .ignore ∨
        r.eventType ≠ .start ∧ updateAction (some d) r = .ignore) :
      Writes config db now r ⟨db, .noop, d.id, false, d.instanceId⟩
  | enrich {d : ConnectionLog} (hd : db.current r = some d) (ht : r.eventType = .start)
      (h : startAction config (some d) r = .enrich) :
      Writes config db now r
        ⟨db.updateLog d.id (enrichRow r now) (enrichRow_id r now) now, .update, d.id, false, d.instanceId⟩
  | start {close : Option String} (ht : r.eventType = .start)
      (h : startAction config (db.current r) r = .insert close) :
      Writes config db now r (insertStart db now (db.current r) close r)
  | correct {c : ConnectionLog} (hc : db.current r = some c) (ht : r.eventType ≠ .start)
      (h : updateAction (some c) r = .correctStop) :
      Writes config db now r
        ⟨(db.updateLog c.id (correctRow c r now) (correctRow_id c r now) now).postUsage
          (recordUsageDelta r.organizationId c.instanceId r.observedEventAt (rowUsage c r)),
          .update, c.id, false, c.instanceId⟩
  | outOfOrder {c : ConnectionLog} (hc : db.current r = some c) (ht : r.eventType ≠ .start)
      (h : updateAction (some c) r = .closeOutOfOrder) :
      Writes config db now r
        ⟨db.updateLog c.id (outOfOrderRow r now) (outOfOrderRow_id r now) now, .update, c.id, false,
          c.instanceId⟩
  | update {c : ConnectionLog} (hc : db.current r = some c) (ht : r.eventType ≠ .start)
      (h : updateAction (some c) r = .update) :
      Writes config db now r
        ⟨(db.updateLog c.id (updateRow c r now) (updateRow_id c r now) now).postUsage
          (recordUsageDelta r.organizationId c.instanceId r.observedEventAt (rowUsage c r)),
          .update, c.id, false, c.instanceId⟩
  | late (ht : r.eventType ≠ .start) (h : updateAction (db.current r) r = .insertLate) :
      Writes config db now r (insertLate db now r)

theorem startAction_none {config : Config} {r : Record} :
    startAction config none r = .insert none := rfl

theorem updateAction_none {r : Record} : updateAction none r = .insertLate := rfl

theorem ingestStart_writes {config : Config} {db : Db} {now : ℤ} {r : Record} {o : Outcome}
    (ht : r.eventType = .start) (h : ingestStart config db now r = .ok o) :
    Writes config db now r o := by
  unfold ingestStart at h
  dsimp only at h
  cases ha : startAction config (db.current r) r with
  | reject message =>
    rw [ha] at h
    cases h
  | insert close =>
    rw [ha] at h
    cases h
    exact .start ht ha
  | enrich =>
    rw [ha] at h
    cases hd : db.current r with
    | none => exact absurd (hd ▸ ha) (by simp [startAction])
    | some d =>
      rw [hd] at h ha
      cases h
      exact .enrich hd ht ha
  | ignore =>
    rw [ha] at h
    cases hd : db.current r with
    | none => exact absurd (hd ▸ ha) (by simp [startAction])
    | some d =>
      rw [hd] at h ha
      cases h
      exact .nothing hd (.inl ⟨ht, ha⟩)

theorem ingestUpdate_writes {config : Config} {db : Db} {now : ℤ} {r : Record} {o : Outcome}
    (ht : r.eventType ≠ .start) (h : ingestUpdate db now r = .ok o) :
    Writes config db now r o := by
  unfold ingestUpdate at h
  dsimp only at h
  cases hc : db.current r with
  | none =>
    rw [hc, updateAction_none] at h
    cases h
    exact .late ht (by rw [hc, updateAction_none])
  | some c =>
    rw [hc] at h
    cases ha : updateAction (some c) r with
    | reject message =>
      rw [ha] at h
      cases h
    | ignore =>
      rw [ha] at h
      cases h
      exact .nothing hc (.inr ⟨ht, ha⟩)
    | correctStop =>
      rw [ha] at h
      cases h
      exact .correct hc ht ha
    | closeOutOfOrder =>
      rw [ha] at h
      cases h
      exact .outOfOrder hc ht ha
    | update =>
      rw [ha] at h
      cases h
      exact .update hc ht ha
    | insertLate =>
      rw [ha] at h
      cases h
      exact .late ht (by rw [hc, ha])

theorem ingestAccounting_eq {config : Config} {db : Db} {now : ℤ} {attrs : Attrs} {r : Record}
    (hr : normalize config now attrs = .ok r) :
    ingestAccounting config db now attrs =
      if r.eventType = .start then ingestStart config db now r else ingestUpdate db now r := by
  unfold ingestAccounting
  rw [hr]
  cases ht : r.eventType <;> simp [bind, Except.bind, ht]

/-- **What an accepted record does.** -/
theorem ingestAccounting_writes {config : Config} {db : Db} {now : ℤ} {attrs : Attrs} {o : Outcome}
    (h : ingestAccounting config db now attrs = .ok o) :
    ∃ r, normalize config now attrs = .ok r ∧ Writes config db now r o := by
  cases hr : normalize config now attrs with
  | error e =>
    rw [ingestAccounting, hr] at h
    cases h
  | ok r =>
    rw [ingestAccounting_eq hr] at h
    refine ⟨r, rfl, ?_⟩
    split_ifs at h with ht
    · exact ingestStart_writes ht h
    · exact ingestUpdate_writes ht h

/-- **A record that is not accepted** does not normalize, or its current row refuses it. -/
theorem ingestAccounting_refuses {config : Config} {db : Db} {now : ℤ} {attrs : Attrs}
    {e : ValidationError} (h : ingestAccounting config db now attrs = .error e) :
    (∃ e, normalize config now attrs = .error e) ∨
      ∃ r c message, normalize config now attrs = .ok r ∧ db.current r = some c ∧
        (r.eventType = .start ∧ startAction config (some c) r = .reject message ∨
          r.eventType ≠ .start ∧ updateAction (some c) r = .reject message) := by
  cases hr : normalize config now attrs with
  | error e => exact .inl ⟨e, rfl⟩
  | ok r =>
    rw [ingestAccounting_eq hr] at h
    split_ifs at h with ht
    · dsimp only [ingestStart] at h
      cases hc : db.current r with
      | none =>
        rw [hc, startAction_none] at h
        cases h
      | some c =>
        rw [hc] at h
        cases ha : startAction config (some c) r with
        | reject message => exact .inr ⟨r, c, message, rfl, hc, .inl ⟨ht, ha⟩⟩
        | _ =>
          rw [ha] at h
          cases h
    · dsimp only [ingestUpdate] at h
      cases hc : db.current r with
      | none =>
        rw [hc, updateAction_none] at h
        cases h
      | some c =>
        rw [hc] at h
        cases ha : updateAction (some c) r with
        | reject message => exact .inr ⟨r, c, message, rfl, hc, .inr ⟨ht, ha⟩⟩
        | _ =>
          rw [ha] at h
          cases h

theorem isOpen_eq_false {c : ConnectionLog} : c.isOpen = false ↔ c.eventType = .stop := by
  simp [ConnectionLog.isOpen]

theorem isOpen_eq_true {c : ConnectionLog} : c.isOpen = true ↔ c.eventType ≠ .stop := by
  simp [ConnectionLog.isOpen]

theorem updateAction_update {c : ConnectionLog} {r : Record}
    (h : updateAction (some c) r = .update) :
    c.isOpen = true ∧ c.lastAt ≤ r.observedEventAt ∧
      changed c.framedIp r.framedIpAddress = false ∧
      changed c.framedIpv6Prefix r.framedIpv6Prefix = false := by
  rw [isOpen_eq_true]
  unfold updateAction at h
  dsimp only at h
  split_ifs at h with hstop _ _ hold _ hip hpfx
  exact ⟨hstop, not_lt.1 hold, by simpa using hip, by simpa using hpfx⟩

theorem updateAction_closeOutOfOrder {c : ConnectionLog} {r : Record}
    (h : updateAction (some c) r = .closeOutOfOrder) :
    c.isOpen = true ∧ r.eventType = .stop ∧ r.observedEventAt < c.lastAt := by
  rw [isOpen_eq_true]
  unfold updateAction at h
  dsimp only at h
  split_ifs at h with hstop _ _ hold htype
  exact ⟨hstop, htype, hold⟩

theorem updateAction_correctStop {c : ConnectionLog} {r : Record}
    (h : updateAction (some c) r = .correctStop) : c.isOpen = false ∧ r.eventType = .stop := by
  rw [isOpen_eq_false]
  unfold updateAction at h
  dsimp only at h
  split_ifs at h with hstop _ hfinal
  simp only [correctedFinal, Bool.and_eq_true, decide_eq_true_eq] at hfinal
  exact ⟨hstop, hfinal.1.1⟩

theorem updateAction_insertLate {c : ConnectionLog} {r : Record}
    (h : updateAction (some c) r = .insertLate) :
    c.isOpen = false ∧ c.lastAt < r.observedEventAt ∧
      c.lastAt ≤ r.observedEventAt - sessionMs r := by
  rw [isOpen_eq_false]
  unfold updateAction at h
  dsimp only at h
  split_ifs at h with hstop hlate
  simp only [isLaterReusedLifecycle, Bool.and_eq_true, decide_eq_true_eq] at hlate
  exact ⟨hstop, hlate.1.2, hlate.2⟩

theorem startAction_enrich {config : Config} {d : ConnectionLog} {r : Record}
    (h : startAction config (some d) r = .enrich) :
    d.isOpen = true ∧ d.lastAt ≤ r.observedEventAt ∧ identityChanged d r = false := by
  unfold startAction at h
  dsimp only at h
  split_ifs at h with _ hreplay henrich hold
  simp only [identityEnriched, Bool.and_eq_true] at henrich
  simp only [isReplay, newOpenLifecycle, henrich.1, Bool.true_and, Bool.not_true, Bool.false_and,
    Bool.or_false, Bool.and_eq_true, Bool.not_eq_true', Bool.or_eq_false_iff] at hreplay
  exact ⟨henrich.1, not_lt.1 hold, hreplay.2.1⟩

theorem open_of_superseded {config : Config} {d : ConnectionLog} {r : Record}
    (h : staleOpenSession config d r = true ∨ newOpenLifecycle d r = true) : d.isOpen = true := by
  cases hopen : d.isOpen with
  | true => rfl
  | false =>
    simp [newOpenLifecycle, identityChanged, stationChanged, staleOpenSession, distinctLaterStart,
      hopen] at h

theorem startAction_insert {config : Config} {d : ConnectionLog} {r : Record}
    {close : Option String} (h : startAction config (some d) r = .insert close) :
    d.isOpen = true ∧ close.isSome = true ∧
        (staleOpenSession config d r = true ∨ newOpenLifecycle d r = true) ∧
        ¬ (identityChanged d r = true ∧ r.hasExplicitEventTimestamp = true ∧
          r.observedEventAt < d.lastAt) ∨
      d.isOpen = false ∧ close = none ∧ d.lastAt < r.observedEventAt := by
  unfold startAction at h
  dsimp only at h
  split_ifs at h with hpredates hreplay _ _ hclose
  · cases h
    exact .inl ⟨open_of_superseded hclose, rfl, hclose, hpredates⟩
  · cases h
    exact .inl ⟨open_of_superseded hclose, rfl, hclose, hpredates⟩
  · cases h
    have hstopped : d.isOpen = false := by
      by_contra hopen
      rw [Bool.not_eq_false] at hopen
      rw [not_or, Bool.not_eq_true, Bool.not_eq_true] at hclose
      exact hreplay (by simp [isReplay, hopen, hclose])
    refine .inr ⟨hstopped, rfl, not_le.1 fun hle => hreplay ?_⟩
    simp [isReplay, hstopped, hle]

theorem closeMoved_rule {P : Db → Prop} {config : Config} {db : Db} {now : ℤ} {r : Record}
    {close : Option String} (hstart : startAction config (db.current r) r = .insert close)
    (hstep : ∀ db' row cause, row ∈ db'.logs.rows → row.isOpen = true → P db' →
      P (db'.updateLog row.id (syntheticStop cause now) (syntheticStop_id cause now) now))
    (h : P db) : P (closeMoved (closeCurrent db now (db.current r) close) now r) := by
  have hcurrent : P (closeCurrent db now (db.current r) close) := by
    unfold closeCurrent
    cases hd : db.current r with
    | none => exact h
    | some d =>
      cases close with
      | none => exact h
      | some cause =>
        rw [hd] at hstart
        rcases startAction_insert hstart with ⟨hopen, -⟩ | ⟨-, hnone, -⟩
        · exact hstep db d cause (current_mem hd).1 hopen h
        · cases hnone
  unfold closeMoved
  split
  · obtain ⟨hmem, hopen, -⟩ := movedFrom_mem ‹_›
    exact hstep _ _ _ hmem hopen hcurrent
  · exact hcurrent

end Vigabss.Radius
