import Vigabss.Lib.Run
import Vigabss.Radius.Writes

/-!
# Vigabss.Radius.Lifecycle — one open row a session, none ending before it starts

`WellOrdered` says that a session has at most one open row and that no row's last accounting is
before its start.  It holds along every run whose records are `InOrder`: the branches that stamp a
row with a time before its start, or open a row behind the current one, are the ones left out.
The invariant is that an open row leads all rows of its session, so that every record finds it.
-/

namespace Vigabss.Radius

open Vigabss.Lib

/-- What a session is known by. -/
def ConnectionLog.session (row : ConnectionLog) : ℕ × ℕ × String × Option String :=
  (row.organizationId, row.nasId, row.username, row.acctSessionId)

def Record.session (r : Record) : ℕ × ℕ × String × Option String :=
  (r.organizationId, r.nasId, r.userName, some r.acctSessionId)

/-- **The order of the sessions**: at most one open row each, and no row ends before it starts. -/
structure WellOrdered (db : Db) : Prop where
  oneOpen : ∀ a ∈ db.logs.rows, ∀ b ∈ db.logs.rows, a.isOpen = true → b.isOpen = true →
    a.session = b.session → a = b
  started : ∀ row ∈ db.logs.rows, row.eventAt ≤ row.lastAt

/-- A record that keeps the order.  A row that it opens is not rounded to a start after its own
time; a Start does not open a row behind the open one it closes; a Stop out of order is not older
than the start of the row it closes. -/
def InOrder (config : Config) (db : Db) (r : Record) : Prop :=
  match r.eventType with
  | .start =>
    match startAction config (db.current r) r with
    | .insert _ => toSeconds r.observedEventAt ≤ r.observedEventAt ∧
        ∀ d ∈ db.current r, d.isOpen = true → d.lastAt ≤ r.observedEventAt
    | _ => True
  | _ =>
    match updateAction (db.current r) r with
    | .insertLate => toSeconds (r.observedEventAt - sessionMs r) ≤ r.observedEventAt
    | .closeOutOfOrder => ∀ c ∈ db.current r, c.eventAt ≤ r.observedEventAt
    | _ => True

/-- An event that keeps the order: sweeps do, and records that are refused. -/
def KeepsOrder (config : Config) (s : Server) (e : ℕ × Event) : Prop :=
  match e.2 with
  | .record attrs =>
    match normalize config (s.now + e.1) attrs with
    | .ok r => InOrder config s.db r
    | .error _ => True
  | _ => True

instance (config : Config) (db : Db) (r : Record) : Decidable (InOrder config db r) := by
  unfold InOrder
  exact match r.eventType, startAction config (db.current r) r, updateAction (db.current r) r with
    | .start, .insert _, _ => inferInstanceAs (Decidable (_ ∧ _))
    | .start, .reject _, _ | .start, .enrich, _ | .start, .ignore, _ => .isTrue trivial
    | .interimUpdate, _, .insertLate | .stop, _, .insertLate => Int.decLe ..
    | .interimUpdate, _, .closeOutOfOrder | .stop, _, .closeOutOfOrder =>
      inferInstanceAs (Decidable (∀ c ∈ db.current r, c.eventAt ≤ r.observedEventAt))
    | .interimUpdate, _, .reject _ | .interimUpdate, _, .ignore | .interimUpdate, _, .correctStop
    | .interimUpdate, _, .update | .stop, _, .reject _ | .stop, _, .ignore
    | .stop, _, .correctStop | .stop, _, .update => .isTrue trivial

instance (config : Config) (s : Server) : (e : ℕ × Event) → Decidable (KeepsOrder config s e)
  | (elapsed, .record attrs) => by
    simp only [KeepsOrder]
    exact match normalize config (s.now + elapsed) attrs with
      | .ok r => inferInstanceAs (Decidable (InOrder config s.db r))
      | .error _ => .isTrue trivial
  | (_, .infrastructure _ _) | (_, .closeStale _) | (_, .elsewhere) => .isTrue trivial

/-- **The invariant.** -/
structure Ordered (db : Db) : Prop where
  named : ∀ row ∈ db.logs.rows, row.acctSessionId.isSome = true
  leads : ∀ a ∈ db.logs.rows, a.isOpen = true → ∀ b ∈ db.logs.rows, b.session = a.session →
    Leads ConnectionLog.lastAt a b
  started : ∀ row ∈ db.logs.rows, row.eventAt ≤ row.lastAt

theorem leads_antisymm {f : ConnectionLog → ℤ} {a b : ConnectionLog} (hab : Leads f a b)
    (hba : Leads f b a) : a.id = b.id := by
  unfold Leads at hab hba
  omega

theorem Ordered.wellOrdered {db : Db} (h : Ordered db) : WellOrdered db where
  oneOpen a ha b hb haopen hbopen hs := Table.eq_of_key_eq ha hb
    (leads_antisymm (h.leads a ha haopen b hb hs.symm) (h.leads b hb hbopen a ha hs))
  started := h.started

theorem ordered_empty : Ordered Db.empty := by
  constructor <;> simp [Db.empty, Table.empty]

/-! ### The current row -/

section Current

variable {db : Db} {r : Record}

theorem ofSession_iff {row : ConnectionLog} :
    ofSession r.organizationId r.nasId r.userName r.acctSessionId row = true ↔
      row.session = r.session := by
  simp [ofSession, ConnectionLog.session, Record.session]

theorem Ordered.current (h : Ordered db) {c : ConnectionLog} (hc : db.current r = some c) :
    c ∈ db.logs.rows ∧ c.session = r.session ∧
      ∀ b ∈ db.logs.rows, b.session = r.session → Leads ConnectionLog.lastAt c b := by
  have hmem := (current_mem hc).1
  unfold Db.current Db.lifecycle at hc
  split at hc
  · obtain rfl := Option.some.inj hc
    obtain ⟨hin, hlead⟩ := latest_spec ‹_›
    exact ⟨hmem, ofSession_iff.1 (List.mem_filter.1 hin).2, fun b hb hs =>
      hlead b (List.mem_filter.2 ⟨hb, ofSession_iff.2 hs⟩)⟩
  · -- every row has an accounting id, so none is found by the old one
    have hold := (List.mem_filter.1 (latest_spec hc).1).2
    simp only [decide_eq_true_eq] at hold
    simpa [hold.2.2.2.1] using h.named c hmem

theorem session_ne_of_current_none (hc : db.current r = none) :
    ∀ b ∈ db.logs.rows, b.session ≠ r.session := by
  unfold Db.current Db.lifecycle at hc
  split at hc
  · cases hc
  · rename_i hnone
    intro b hb hs
    exact List.filter_eq_nil_iff.1 (latest_eq_none.1 hnone) b hb (ofSession_iff.2 hs)

end Current

/-! ### Statements -/

section Statements

variable {db : Db} {c : ConnectionLog} {g : ConnectionLog → ConnectionLog}
  {hg : ∀ a, (g a).id = a.id} {now : ℤ}

theorem Ordered.postUsage (h : Ordered db) (posts : List UsagePost) :
    Ordered (db.postUsage posts) :=
  ⟨h.named, h.leads, h.started⟩

/-- Rewriting a row keeps the order, if it and the other open rows of its session still lead. -/
theorem Ordered.rewrite (h : Ordered db) (hc : c ∈ db.logs.rows) (hs : (g c).session = c.session)
    (hopen : (g c).isOpen = true → ∀ b ∈ db.logs.rows, b.id ≠ c.id → b.session = c.session →
      Leads ConnectionLog.lastAt (g c) b)
    (hothers : ∀ a ∈ db.logs.rows, a.id ≠ c.id → a.isOpen = true → c.session = a.session →
      Leads ConnectionLog.lastAt a (g c))
    (hstarted : (g c).eventAt ≤ (g c).lastAt) : Ordered (db.updateLog c.id g hg now) where
  named := by
    intro row hrow
    rcases (mem_updateLog hc).1 hrow with ⟨hrow, -⟩ | rfl
    · exact h.named row hrow
    · have hid : (g c).acctSessionId = c.acctSessionId := congrArg (·.2.2.2) hs
      rw [hid]
      exact h.named c hc
  leads := by
    intro a ha haopen b hb hab
    rcases (mem_updateLog hc).1 ha with ⟨ha, hane⟩ | rfl
    · rcases (mem_updateLog hc).1 hb with ⟨hb, -⟩ | rfl
      · exact h.leads a ha haopen b hb hab
      · exact hothers a ha hane haopen (hs.symm.trans hab)
    · rcases (mem_updateLog hc).1 hb with ⟨hb, hbne⟩ | rfl
      · exact hopen haopen b hb hbne (hab.trans hs)
      · exact .inr ⟨rfl, le_rfl⟩
  started := by
    intro row hrow
    rcases (mem_updateLog hc).1 hrow with ⟨hrow, -⟩ | rfl
    · exact h.started row hrow
    · exact hstarted

theorem Ordered.close (h : Ordered db) (hc : c ∈ db.logs.rows) (hs : (g c).session = c.session)
    (hclosed : (g c).isOpen = false) (hlast : (g c).lastAt = c.lastAt)
    (hstart : (g c).eventAt = c.eventAt) : Ordered (db.updateLog c.id g hg now) := by
  refine h.rewrite hc hs (fun hopen => ?_) (fun a ha _ haopen hsame => ?_) ?_
  · rw [hclosed] at hopen
    cases hopen
  · have hlead := h.leads a ha haopen c hc hsame
    unfold Leads at hlead ⊢
    rw [hlast, hg]
    exact hlead
  · rw [hstart, hlast]
    exact h.started c hc

theorem Ordered.advance (h : Ordered db) (hc : c ∈ db.logs.rows) (hs : (g c).session = c.session)
    (hlead : ∀ b ∈ db.logs.rows, b.session = c.session → Leads ConnectionLog.lastAt c b)
    (hopen : (g c).isOpen = true → c.lastAt ≤ (g c).lastAt)
    (hstarted : (g c).eventAt ≤ (g c).lastAt) : Ordered (db.updateLog c.id g hg now) := by
  refine h.rewrite hc hs (fun hgopen b hb hne hsame => ?_) (fun a ha hne haopen hsame => ?_) hstarted
  · have hlb := hlead b hb hsame
    have hle := hopen hgopen
    unfold Leads at hlb ⊢
    rw [hg]
    omega
  · -- another open row would lead the current one and be led by it
    exact absurd (leads_antisymm (h.leads a ha haopen c hc hsame) (hlead a ha hsame.symm)) hne

/-- The session has no open row, and no accounting after `t`. -/
def Clear (db : Db) (session : ℕ × ℕ × String × Option String) (t : ℤ) : Prop :=
  ∀ b ∈ db.logs.rows, b.session = session → b.isOpen = false ∧ b.lastAt ≤ t

theorem Ordered.insert (h : Ordered db) (mk : ℕ → ConnectionLog) {hmk : ∀ n, (mk n).id = n}
    {t : ℤ} (hnamed : ∀ n, (mk n).acctSessionId.isSome = true)
    (hclear : Clear db (mk db.logs.nextId).session t) (hlast : (mk db.logs.nextId).lastAt = t)
    (hstarted : (mk db.logs.nextId).eventAt ≤ t) : Ordered (db.insertLog mk hmk now) where
  named := by
    intro row hrow
    rcases mem_insertLog.1 hrow with hrow | rfl
    · exact h.named row hrow
    · exact hnamed _
  leads := by
    intro a ha haopen b hb hab
    rcases mem_insertLog.1 ha with ha | rfl
    · rcases mem_insertLog.1 hb with hb | rfl
      · exact h.leads a ha haopen b hb hab
      · rw [(hclear a ha hab.symm).1] at haopen
        cases haopen
    · rcases mem_insertLog.1 hb with hb | rfl
      · have hle := (hclear b hb hab).2
        have hid := id_lt_nextId hb
        unfold Leads
        rw [hlast, hmk]
        omega
      · exact .inr ⟨rfl, le_rfl⟩
  started := by
    intro row hrow
    rcases mem_insertLog.1 hrow with hrow | rfl
    · exact h.started row hrow
    · rw [hlast]
      exact hstarted

theorem Clear.close {session : ℕ × ℕ × String × Option String} {t : ℤ} (h : Clear db session t)
    (hc : c ∈ db.logs.rows) (hs : (g c).session = c.session) (hclosed : (g c).isOpen = false)
    (hlast : (g c).lastAt = c.lastAt) : Clear (db.updateLog c.id g hg now) session t := by
  intro b hb hsame
  rcases (mem_updateLog hc).1 hb with ⟨hb, -⟩ | rfl
  · exact h b hb hsame
  · refine ⟨hclosed, ?_⟩
    rw [hlast]
    exact (h c hc (hs.symm.trans hsame)).2

end Statements

/-! ### Events -/

section Events

variable {config : Config} {db : Db} {now : ℤ} {r : Record}

theorem Ordered.clear_of_stopped (h : Ordered db) {d : ConnectionLog} {t : ℤ}
    (hd : d ∈ db.logs.rows) (hds : d.session = r.session)
    (hlead : ∀ b ∈ db.logs.rows, b.session = r.session → Leads ConnectionLog.lastAt d b)
    (hstopped : d.isOpen = false) (hle : d.lastAt ≤ t) : Clear db r.session t := by
  intro b hb hs
  have hdb := hlead b hb hs
  constructor
  · by_contra hopen
    rw [Bool.not_eq_false] at hopen
    have hbd := h.leads b hb hopen d hd (hds.trans hs.symm)
    rw [Table.eq_of_key_eq hb hd (leads_antisymm hbd hdb), hstopped] at hopen
    cases hopen
  · unfold Leads at hdb
    omega

theorem Ordered.clear (now : ℤ) (h : Ordered db) {close : Option String}
    (ha : startAction config (db.current r) r = .insert close)
    (hbehind : ∀ d, db.current r = some d → d.isOpen = true → d.lastAt ≤ r.observedEventAt) :
    Clear (closeCurrent db now (db.current r) close) r.session r.observedEventAt := by
  cases hd : db.current r with
  | none => exact fun b hb hs => absurd hs (session_ne_of_current_none hd b hb)
  | some d =>
    obtain ⟨hmem, hds, hlead⟩ := h.current hd
    rw [hd] at ha
    rcases startAction_insert ha with ⟨hopen, hclose, -⟩ | ⟨hstopped, rfl, hlt⟩
    · -- the open row is closed where it stands, and the session with it
      obtain ⟨cause, rfl⟩ := Option.isSome_iff_exists.1 hclose
      have hclosed : Ordered (db.updateLog d.id (syntheticStop cause now) (fun _ => rfl) now) :=
        h.close hmem rfl rfl rfl rfl
      refine hclosed.clear_of_stopped (d := syntheticStop cause now d) ((mem_updateLog hmem).2
        (.inr rfl)) hds (fun b hb hs => ?_) rfl (hbehind d hd hopen)
      rcases (mem_updateLog hmem).1 hb with ⟨hb, -⟩ | rfl
      · exact hlead b hb hs
      · exact .inr ⟨rfl, le_rfl⟩
    · exact h.clear_of_stopped hmem hds hlead hstopped hlt.le

theorem Ordered.writes (h : Ordered db) {o : Outcome} (hw : Writes config db now r o)
    (hgood : InOrder config db r) : Ordered o.db := by
  cases hw with
  | nothing hd ha => exact h
  | @enrich d hd ht ha =>
    obtain ⟨hmem, hs, hlead⟩ := h.current hd
    obtain ⟨-, hle, -⟩ := startAction_enrich ha
    refine h.advance (g := enrichRow r now) hmem rfl (fun b hb hbs => hlead b hb (hbs.trans hs))
      (fun _ => hle) ?_
    exact (h.started d hmem).trans hle
  | @start close ht ha =>
    simp only [InOrder, ht, ha] at hgood
    obtain ⟨hround, hbehind⟩ := hgood
    have hclosed := closeMoved_rule (P := Ordered) ha (fun _ _ cause hrow _ hdb =>
      hdb.close (g := syntheticStop cause now) hrow rfl rfl rfl rfl) h
    have hclear : Clear (closeMoved (closeCurrent db now (db.current r) close) now r) r.session
        r.observedEventAt := by
      have hcurrent := h.clear now ha hbehind
      unfold closeMoved
      split
      · exact hcurrent.close (g := syntheticStop "Session-Moved" now) (movedFrom_mem ‹_›).1 rfl rfl
          rfl
      · exact hcurrent
    exact (hclosed.insert (startRow r now (startUsage r)) (fun _ => rfl) hclear rfl
      hround).postUsage _
  | @correct c hc ht ha =>
    obtain ⟨hmem, hs, hlead⟩ := h.current hc
    obtain ⟨hstopped, -⟩ := updateAction_correctStop ha
    exact (h.close (g := correctRow c r now) hmem rfl hstopped rfl rfl).postUsage _
  | @outOfOrder c hc ht ha =>
    obtain ⟨hmem, hs, hlead⟩ := h.current hc
    have hstart : c.eventAt ≤ r.observedEventAt := by
      rw [← hc] at ha
      simp only [InOrder, (updateAction_closeOutOfOrder (hc ▸ ha)).2.1, ha] at hgood
      exact hgood c hc
    exact h.advance (g := outOfOrderRow r now) hmem rfl (fun b hb hbs => hlead b hb (hbs.trans hs))
      nofun hstart
  | @update c hc ht ha =>
    obtain ⟨hmem, hs, hlead⟩ := h.current hc
    obtain ⟨-, hle, -⟩ := updateAction_update ha
    exact (h.advance (g := updateRow c r now) hmem rfl (fun b hb hbs => hlead b hb (hbs.trans hs))
      (fun _ => hle) ((h.started c hmem).trans hle)).postUsage _
  | late ht ha =>
    have hround : toSeconds (r.observedEventAt - sessionMs r) ≤ r.observedEventAt := by
      unfold InOrder at hgood
      rw [ha] at hgood
      split at hgood
      · exact absurd ‹_› ht
      · exact hgood
    have hclear : Clear db r.session r.observedEventAt := by
      intro b hb hs
      cases hc : db.current r with
      | none => exact absurd hs (session_ne_of_current_none hc b hb)
      | some c =>
        rw [hc] at ha
        obtain ⟨hmem, hcs, hlead⟩ := h.current hc
        obtain ⟨hstopped, hlt, -⟩ := updateAction_insertLate ha
        exact h.clear_of_stopped hmem hcs hlead hstopped hlt.le b hb hs
    exact (h.insert (lateRow r now) (fun _ => rfl) hclear rfl hround).postUsage _

theorem Ordered.sweep (h : Ordered db) (cond : ConnectionLog → Bool)
    (terminateCause anomalyReason : String) :
    Ordered (closeOpenSessions db now cond terminateCause anomalyReason) :=
  closeOpenSessions_rule (fun _ _ hrow _ _ hdb =>
    hdb.close (g := sweptRow terminateCause anomalyReason now) hrow rfl rfl rfl rfl) h

/-- **One event keeps the order.** -/
theorem ordered_step (s : Server) (e : ℕ × Event) (h : Ordered s.db)
    (hgood : KeepsOrder config s e) : Ordered (s.step config e).db := by
  obtain ⟨elapsed, e⟩ := e
  cases e with
  | record attrs =>
    simp only [Server.step, Db.after, afterRecord]
    cases ho : ingestAccounting config s.db (s.now + elapsed) attrs with
    | error err => exact h
    | ok o =>
      obtain ⟨r, hr, hw⟩ := ingestAccounting_writes ho
      simp only [KeepsOrder, hr] at hgood
      exact h.writes hw hgood
  | infrastructure organizationId nasId => exact h.sweep ..
  | closeStale organizationId => exact h.sweep ..
  | elsewhere => exact h

end Events

/-! ### Every run -/

/-- A Start from a clock that runs ahead, then two without a timestamp, the first of them from
another station. -/
def clockAhead : List (ℕ × Event) :=
  [(0, .record { sampleRecord "Start" (some 1200000) with callingStationId := some "a" }),
    (0, .record { sampleRecord "Start" none with callingStationId := some "b" }),
    (300000, .record { sampleRecord "Start" none with callingStationId := some "b" })]

/-- A Stop that is older than its session's start. -/
def stopBeforeStart : List (ℕ × Event) :=
  [(0, .record (sampleRecord "Start" (some 10000))), (0, .record (sampleRecord "Stop" (some 9000)))]

end Vigabss.Radius
