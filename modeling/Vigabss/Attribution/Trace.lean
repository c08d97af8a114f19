import Vigabss.Attribution.Direct

/-!
# Vigabss.Attribution.Trace — the evidence of an address, and how a history extends it

`Traced` is what the session rows and their evidence of one address keep: the evidence of an
eligible row is in order and lies within the row's life, and no two open rows started before each
other's first evidence.  `Follows` is what a later state keeps of an earlier one.  Every statement
that meets `Rewrites` or `Inserts` keeps both.
-/

namespace Vigabss.Attribution

open Vigabss.Lib Vigabss.Radius

/-! ### The invariant -/

section Defs

variable (address : Address)

/-- The evidence that a row held the address, oldest first. -/
def holdings (db : Db) (row : ConnectionLog) : List AccountingEvent :=
  db.evidence.filter (evidenceOf row address)

/-- An eligible row of the address. -/
def traceable (row : ConnectionLog) : Bool := eligible row && address.heldBy row

/-- `row` and `other` each started before the first evidence of the other, with `first` the first
evidence of `row`. -/
def Crosses (db : Db) (row : ConnectionLog) (first : ℤ) (other : ConnectionLog) : Prop :=
  other.id ≠ row.id ∧ other.organizationId = row.organizationId ∧ eligible other = true ∧
    other.isOpen = true ∧
    ∃ e ∈ (holdings address db other).head?, row.eventAt < e.eventAt ∧ other.eventAt < first

/-- A row gets its first evidence of the address, at its last accounting: it had started by then,
and no other open row crosses it. -/
def Gains (db : Db) (row : ConnectionLog) : Prop :=
  row.eventAt ≤ row.lastAt ∧
    (row.isOpen = true → ∀ other ∈ db.logs.rows, ¬ Crosses address db row row.lastAt other)

/-- The evidence of an eligible row is in order and within its life. -/
structure RowTraced (db : Db) (row : ConnectionLog) : Prop where
  sorted : (holdings address db row).Pairwise fun e e' =>
    e.eventAt ≤ e'.eventAt ∧ e.observedAt ≤ e'.observedAt
  within : ∀ e ∈ holdings address db row, row.eventAt ≤ e.eventAt ∧ e.eventAt ≤ row.lastAt
  held : address.heldBy row = true ↔ holdings address db row ≠ []

/-- **The invariant** of the rows and the evidence of one address. -/
structure Traced (db : Db) (now : ℤ) : Prop where
  own : ∀ row ∈ db.logs.rows, row.sessionInstanceId = some row.id
  ofRow : ∀ e ∈ db.evidence, ∃ row ∈ db.logs.rows, e.row.sessionInstanceId = some row.id ∧
    e.row.organizationId = row.organizationId
  stopped : ∀ row ∈ db.logs.rows, ∀ e ∈ db.evidence, e.row.sessionInstanceId = some row.id →
    e.row.eventType = .stop → row.isOpen = false ∧ e.eventAt = row.lastAt
  observed : ∀ e ∈ db.evidence, e.observedAt ≤ now
  rows : ∀ row ∈ db.logs.rows, eligible row = true → RowTraced address db row
  uncrossed : ∀ row ∈ db.logs.rows, eligible row = true → row.isOpen = true →
    ∀ e ∈ (holdings address db row).head?, ∀ other ∈ db.logs.rows,
      ¬ Crosses address db row e.eventAt other

/-- What a later version of a row keeps. -/
structure Continues (row row' : ConnectionLog) : Prop where
  attribution : directAttribution row' = directAttribution row
  organization : row'.organizationId = row.organizationId
  started : row'.eventAt = row.eventAt
  stopped : row.isOpen = false → row'.isOpen = false ∧ row'.lastAt = row.lastAt
  wasEligible : eligible row' = true → eligible row = true
  staysTraceable : traceable address row = true →
    traceable address row' = true ∧ row.lastAt ≤ row'.lastAt

/-- What a later state keeps: its new evidence was received from `t` on, and its rows go on. -/
structure Follows (t : ℤ) (db db' : Db) : Prop where
  evidence : ∃ new, db'.evidence = db.evidence ++ new ∧ ∀ e ∈ new, t ≤ e.observedAt
  rows : ∀ row ∈ db.logs.rows, ∃ row' ∈ db'.logs.rows, Continues address row row'

end Defs

section Basics

variable {address : Address}

theorem traceable_iff {row : ConnectionLog} : traceable address row = true ↔
    eligible row = true ∧ address.heldBy row = true := by
  rw [traceable, Bool.and_eq_true]

theorem Continues.refl (row : ConnectionLog) : Continues address row row :=
  ⟨rfl, rfl, rfl, fun h => ⟨h, rfl⟩, id, fun h => ⟨h, le_rfl⟩⟩

theorem Continues.trans {a b c : ConnectionLog} (hab : Continues address a b)
    (hbc : Continues address b c) : Continues address a c where
  attribution := hbc.attribution.trans hab.attribution
  organization := hbc.organization.trans hab.organization
  started := hbc.started.trans hab.started
  stopped h := ⟨(hbc.stopped (hab.stopped h).1).1,
    (hbc.stopped (hab.stopped h).1).2.trans (hab.stopped h).2⟩
  wasEligible h := hab.wasEligible (hbc.wasEligible h)
  staysTraceable h := ⟨(hbc.staysTraceable (hab.staysTraceable h).1).1,
    (hab.staysTraceable h).2.trans (hbc.staysTraceable (hab.staysTraceable h).1).2⟩

theorem Continues.id {a b : ConnectionLog} (h : Continues address a b) : b.id = a.id :=
  congrArg DirectAttribution.connectionLogId h.attribution

theorem Follows.refl (t : ℤ) (db : Db) : Follows address t db db :=
  ⟨⟨[], by simp⟩, fun row hrow => ⟨row, hrow, .refl row⟩⟩

theorem Follows.mono {t t' : ℤ} {a b : Db} (h : Follows address t' a b) (ht : t ≤ t') :
    Follows address t a b where
  evidence := by
    obtain ⟨new, hnew, hobs⟩ := h.evidence
    exact ⟨new, hnew, fun e he => ht.trans (hobs e he)⟩
  rows := h.rows

theorem Follows.trans {t : ℤ} {a b c : Db} (hab : Follows address t a b)
    (hbc : Follows address t b c) : Follows address t a c where
  evidence := by
    obtain ⟨new, hnew, hobs⟩ := hab.evidence
    obtain ⟨new', hnew', hobs'⟩ := hbc.evidence
    refine ⟨new ++ new', by rw [hnew', hnew, List.append_assoc], fun e he => ?_⟩
    exact (List.mem_append.1 he).elim (hobs e) (hobs' e)
  rows := by
    intro row hrow
    obtain ⟨row', hrow', hc⟩ := hab.rows row hrow
    obtain ⟨row'', hrow'', hc'⟩ := hbc.rows row' hrow'
    exact ⟨row'', hrow'', hc.trans hc'⟩

theorem evidenceOf_congr {row row' : ConnectionLog} (ho : row'.organizationId = row.organizationId)
    (hi : row'.sessionInstanceId = row.sessionInstanceId) :
    evidenceOf row' address = evidenceOf row address := by
  funext e
  rw [evidenceOf, evidenceOf, ho, hi]

theorem heldBy_of_dedupe {row row' : ConnectionLog} (h : row.dedupe = row'.dedupe) :
    address.heldBy row = address.heldBy row' := by
  simp only [ConnectionLog.dedupe, ConnectionLog.mk.injEq] at h
  obtain ⟨-, -, -, -, -, -, -, -, -, -, hv4, hpfx, hdelegated, hv6, -⟩ := h
  cases address with
  | v4 ip => simp [Address.heldBy, hv4]
  | v6 ip prefixes =>
    simp only [Address.heldBy, hdelegated, hv6]
    -- a framed prefix that only one of them has is the delegated prefix of both
    cases h₁ : row.framedIpv6Prefix with
    | none =>
      cases h₂ : row'.framedIpv6Prefix with
      | none => rfl
      | some p =>
        rw [h₁, h₂, hdelegated] at hpfx
        have hp : row'.ipv6DelegatedPrefix = some p := hpfx
        simp [hp]
    | some p =>
      cases h₂ : row'.framedIpv6Prefix with
      | none =>
        rw [h₁, h₂] at hpfx
        have hp : row'.ipv6DelegatedPrefix = some p := hpfx.symm
        simp [hp]
      | some p' =>
        rw [h₁, h₂] at hpfx
        obtain rfl : p = p' := Option.some.inj hpfx
        rfl

theorem holdings_congr {db db' : Db} (h : db'.evidence = db.evidence) (row : ConnectionLog) :
    holdings address db' row = holdings address db row := by
  rw [holdings, h, holdings]

theorem holdings_append {db db' : Db} {e : AccountingEvent}
    (h : db'.evidence = db.evidence ++ [e]) (row : ConnectionLog) :
    holdings address db' row =
      holdings address db row ++ if evidenceOf row address e then [e] else [] := by
  rw [holdings, h, List.filter_append, holdings, List.filter_singleton,
    Bool.cond_eq_ite]

theorem mem_holdings {db : Db} {row : ConnectionLog} {e : AccountingEvent} :
    e ∈ holdings address db row ↔ e ∈ db.evidence ∧ evidenceOf row address e = true :=
  List.mem_filter

theorem evidenceOf_iff {row : ConnectionLog} {e : AccountingEvent} :
    evidenceOf row address e = true ↔ e.row.organizationId = row.organizationId ∧
      e.row.sessionInstanceId = row.sessionInstanceId ∧ address.heldBy e.row = true := by
  simp [evidenceOf]

theorem RowTraced.snoc {db : Db} {row : ConnectionLog} {e : AccountingEvent}
    (h : RowTraced address db row) (hlast : row.lastAt ≤ e.eventAt)
    (hobs : ∀ e' ∈ db.evidence, e'.observedAt ≤ e.observedAt) :
    (holdings address db row ++ [e]).Pairwise fun e e' =>
      e.eventAt ≤ e'.eventAt ∧ e.observedAt ≤ e'.observedAt := by
  refine List.pairwise_append.2 ⟨h.sorted, List.pairwise_singleton _ _, fun e' he' b hb => ?_⟩
  obtain rfl := List.mem_singleton.1 hb
  exact ⟨(h.within e' he').2.trans hlast, hobs e' (mem_holdings.1 he').1⟩

end Basics

/-! ### Rewriting a row -/

/-- A statement that rewrites a row as the invariant allows. -/
structure Rewrites (address : Address) (db : Db) (now : ℤ) (c c' : ConnectionLog) : Prop where
  mem : c ∈ db.logs.rows
  attribution : directAttribution c' = directAttribution c
  organization : c'.organizationId = c.organizationId
  started : c'.eventAt = c.eventAt
  received : c'.lastAccountingReceivedAt = some now
  stopped : c.isOpen = false → c'.isOpen = false ∧ c'.lastAt = c.lastAt
  forward : eligible c' = true → eligible c = true ∧ c.lastAt ≤ c'.lastAt ∧
    (address.heldBy c = true → address.heldBy c' = true) ∧
    (address.heldBy c = false → address.heldBy c' = true → Gains address db c')
  kept : traceable address c = true → eligible c' = true

theorem heldBy_of_not_evidenceOnUpdate {address : Address} {c c' : ConnectionLog}
    (h : evidenceOnUpdate c c' = false) : address.heldBy c' = address.heldBy c := by
  simp only [evidenceOnUpdate, decide_eq_false_iff_not, not_or, not_not] at h
  obtain ⟨-, hv4, hpfx, hdelegated, hv6, -⟩ := h
  cases address with
  | v4 ip => simp [Address.heldBy, hv4]
  | v6 ip prefixes => simp [Address.heldBy, hpfx, hdelegated, hv6]

section Rewrite

variable {address : Address} {db : Db} {now : ℤ} {c : ConnectionLog}
  {g : ConnectionLog → ConnectionLog} {hg : ∀ a, (g a).id = a.id}

theorem Rewrites.instance (hr : Rewrites address db now c (g c)) :
    (g c).sessionInstanceId = c.sessionInstanceId :=
  congrArg DirectAttribution.sessionInstanceId hr.attribution

theorem Rewrites.holdings_other (hg : ∀ a, (g a).id = a.id) (h : Traced address db now)
    (hr : Rewrites address db now c (g c)) {row : ConnectionLog} (hrow : row ∈ db.logs.rows) (hne : row.id ≠ c.id) :
    holdings address (db.updateLog c.id g hg now) row = holdings address db row := by
  rcases updateLog_evidence hr.mem g hg now with ⟨hsame, -⟩ | hnew
  · exact holdings_congr hsame row
  · have hother : evidenceOf row address
        ⟨g c, (g c).lastAt, (g c).lastAccountingReceivedAt.getD now⟩ = false := by
      rw [← Bool.not_eq_true, evidenceOf_iff]
      rintro ⟨-, hinst, -⟩
      rw [hr.instance, h.own c hr.mem, h.own row hrow] at hinst
      exact hne (Option.some.inj hinst).symm
    rw [holdings_append hnew, hother]
    simp

/-- The evidence of the row itself stays, or gets one more at its end. -/
theorem Rewrites.holdings_self (hg : ∀ a, (g a).id = a.id)
    (hr : Rewrites address db now c (g c)) :
    holdings address (db.updateLog c.id g hg now) (g c) = holdings address db c ∧
        (address.heldBy (g c) = true → address.heldBy c = true ∨ holdings address db c ≠ []) ∨
      address.heldBy (g c) = true ∧
        holdings address (db.updateLog c.id g hg now) (g c) =
          holdings address db c ++ [⟨g c, (g c).lastAt, now⟩] := by
  have hsame : ∀ db, holdings address db (g c) = holdings address db c := fun db => by
    rw [holdings, evidenceOf_congr hr.organization hr.instance, holdings]
  rcases updateLog_evidence hr.mem g hg now with ⟨hevidence, hdup⟩ | hnew
  · refine .inl ⟨(holdings_congr hevidence _).trans (hsame db), fun hheld => ?_⟩
    cases hfire : evidenceOnUpdate c (g c) with
    | false => exact .inl ((heldBy_of_not_evidenceOnUpdate hfire).symm.trans hheld)
    | true =>
      -- the evidence is there already, under the same dedupe key
      obtain ⟨e, he, hkey, -⟩ := hdup hfire
      refine .inr (List.ne_nil_of_mem (mem_holdings.2 ⟨he, evidenceOf_iff.2 ⟨?_, ?_, ?_⟩⟩))
      · exact (congrArg ConnectionLog.organizationId hkey).trans hr.organization
      · exact (congrArg ConnectionLog.sessionInstanceId hkey).trans hr.instance
      · exact (heldBy_of_dedupe hkey).trans hheld
  · rw [hr.received, Option.getD_some] at hnew
    rw [holdings_append hnew, hsame]
    cases hheld : address.heldBy (g c) with
    | false =>
      have hnot : evidenceOf (g c) address ⟨g c, (g c).lastAt, now⟩ = false := by
        simp [evidenceOf, hheld]
      exact .inl ⟨by simp [hnot], nofun⟩
    | true =>
      have hself : evidenceOf (g c) address ⟨g c, (g c).lastAt, now⟩ = true := by
        simp [evidenceOf, hheld]
      exact .inr ⟨rfl, by simp [hself]⟩

theorem Rewrites.mem_evidence (hr : Rewrites address db now c (g c)) {e : AccountingEvent}
    (he : e ∈ (db.updateLog c.id g hg now).evidence) :
    e ∈ db.evidence ∨ e = ⟨g c, (g c).lastAt, now⟩ := by
  rcases updateLog_evidence hr.mem g hg now with ⟨hsame, -⟩ | hnew
  · rw [hsame] at he
    exact .inl he
  · rw [hnew, hr.received, Option.getD_some] at he
    exact (List.mem_append.1 he).imp_right List.mem_singleton.1

theorem Rewrites.rowTraced (h : Traced address db now) (hr : Rewrites address db now c (g c))
    (he : eligible (g c) = true) : RowTraced address (db.updateLog c.id g hg now) (g c) := by
  obtain ⟨hec, hlast, hkeep, hgain⟩ := hr.forward he
  have hc := h.rows c hr.mem hec
  have hold : ∀ e ∈ holdings address db c, (g c).eventAt ≤ e.eventAt ∧ e.eventAt ≤ (g c).lastAt :=
    fun e hmem => ⟨hr.started.le.trans (hc.within e hmem).1, (hc.within e hmem).2.trans hlast⟩
  rcases hr.holdings_self hg with ⟨hsame, hheld⟩ | ⟨hheld, hnew⟩
  · refine ⟨by rw [hsame]; exact hc.sorted, by rw [hsame]; exact hold, ?_⟩
    rw [hsame]
    constructor
    · intro hg'
      exact (hheld hg').elim hc.held.1 id
    · exact fun hne => hkeep (hc.held.2 hne)
  · refine ⟨?_, ?_, ?_⟩
    · rw [hnew]
      exact hc.snoc hlast h.observed
    · rw [hnew]
      intro e hmem
      rcases List.mem_append.1 hmem with hmem | hmem
      · exact hold e hmem
      · obtain rfl := List.mem_singleton.1 hmem
        refine ⟨?_, le_rfl⟩
        change (g c).eventAt ≤ (g c).lastAt
        cases hheldc : address.heldBy c with
        | false => exact (hgain hheldc hheld).1
        | true =>
          obtain ⟨e, he⟩ := List.exists_mem_of_ne_nil _ (hc.held.1 hheldc)
          exact (hold e he).1.trans (hold e he).2
    · rw [hnew]
      exact iff_of_true hheld (by simp)

theorem Rewrites.first (h : Traced address db now) (hr : Rewrites address db now c (g c))
    (he : eligible (g c) = true) {e : AccountingEvent}
    (hfirst : e ∈ (holdings address (db.updateLog c.id g hg now) (g c)).head?) :
    e ∈ (holdings address db c).head? ∨
      address.heldBy c = false ∧ address.heldBy (g c) = true ∧ e.eventAt = (g c).lastAt := by
  have hc := h.rows c hr.mem (hr.forward he).1
  rcases hr.holdings_self hg with ⟨hsame, -⟩ | ⟨hheld, hnew⟩
  · rw [hsame] at hfirst
    exact .inl hfirst
  · cases hheldc : address.heldBy c with
    | true =>
      obtain ⟨e', rest, hcons⟩ := List.exists_cons_of_ne_nil (hc.held.1 hheldc)
      rw [hnew, hcons] at hfirst
      exact .inl (by rw [hcons]; exact hfirst)
    | false =>
      have hnil : holdings address db c = [] := by
        by_contra hne
        rw [hc.held.2 hne] at hheldc
        cases hheldc
      rw [hnew, hnil] at hfirst
      obtain rfl := Option.some.inj hfirst
      exact .inr ⟨rfl, hheld, rfl⟩

theorem Rewrites.crosses (h : Traced address db now) (hr : Rewrites address db now c (g c))
    {row other : ConnectionLog} {first : ℤ} (hother : other ∈ db.logs.rows) (hne : other.id ≠ c.id)
    (hcross : Crosses address (db.updateLog c.id g hg now) row first other) :
    Crosses address db row first other := by
  obtain ⟨hid, ho, he, hopen, e, hfirst, hlt⟩ := hcross
  rw [hr.holdings_other _ h hother hne] at hfirst
  exact ⟨hid, ho, he, hopen, e, hfirst, hlt⟩

theorem Rewrites.uncrossed (h : Traced address db now) (hr : Rewrites address db now c (g c)) :
    ∀ row ∈ (db.updateLog c.id g hg now).logs.rows, eligible row = true → row.isOpen = true →
      ∀ e ∈ (holdings address (db.updateLog c.id g hg now) row).head?,
      ∀ other ∈ (db.updateLog c.id g hg now).logs.rows,
      ¬ Crosses address (db.updateLog c.id g hg now) row e.eventAt other := by
  have hopenc : (g c).isOpen = true → c.isOpen = true := by
    intro hopen
    by_contra hclosed
    rw [(hr.stopped (Bool.not_eq_true _ ▸ hclosed)).1] at hopen
    cases hopen
  -- the rewritten row against another one
  have hself : eligible (g c) = true → (g c).isOpen = true →
      ∀ e ∈ (holdings address (db.updateLog c.id g hg now) (g c)).head?, ∀ other ∈ db.logs.rows,
      other.id ≠ c.id → ¬ Crosses address db (g c) e.eventAt other := by
    intro he hopen e hfirst other hother hne hcross
    obtain ⟨hec, -, -, hgain⟩ := hr.forward he
    rcases hr.first h he hfirst with hold | ⟨hheldc, hheld, hat⟩
    · refine h.uncrossed c hr.mem hec (hopenc hopen) e hold other hother ?_
      obtain ⟨-, ho, heo, hopeno, e', hfirst', hlt⟩ := hcross
      exact ⟨hne, ho.trans hr.organization, heo, hopeno, e', hfirst', by rw [← hr.started]; exact hlt⟩
    · rw [hat] at hcross
      exact (hgain hheldc hheld).2 hopen other hother hcross
  intro row hrow he hopen e hfirst other hother hcross
  rcases (mem_updateLog hr.mem).1 hrow with ⟨hrow, hne⟩ | rfl
  · rw [hr.holdings_other _ h hrow hne] at hfirst
    rcases (mem_updateLog hr.mem).1 hother with ⟨hother, hneo⟩ | rfl
    · exact h.uncrossed row hrow he hopen e hfirst other hother (hr.crosses h hother hneo hcross)
    · -- crossing is symmetric
      obtain ⟨hid, ho, heo, hopeno, e', hfirst', hlt, hlt'⟩ := hcross
      exact hself heo hopeno e' hfirst' row hrow hne
        ⟨hid.symm, ho.symm, he, hopen, e, hfirst, hlt', hlt⟩
  · rcases (mem_updateLog hr.mem).1 hother with ⟨hother, hneo⟩ | rfl
    · exact hself he hopen e hfirst other hother hneo (hr.crosses h hother hneo hcross)
    · exact hcross.1 rfl

/-- **A rewrite that the invariant allows keeps it.** -/
theorem Rewrites.traced (h : Traced address db now) (hr : Rewrites address db now c (g c)) :
    Traced address (db.updateLog c.id g hg now) now where
  own := by
    intro row hrow
    rcases (mem_updateLog hr.mem).1 hrow with ⟨hrow, -⟩ | rfl
    · exact h.own row hrow
    · rw [hr.instance, h.own c hr.mem, hg]
  ofRow := by
    intro e he
    have hof : ∃ row ∈ db.logs.rows, e.row.sessionInstanceId = some row.id ∧
        e.row.organizationId = row.organizationId := by
      rcases hr.mem_evidence he with he | rfl
      · exact h.ofRow e he
      · exact ⟨c, hr.mem, hr.instance.trans (h.own c hr.mem), hr.organization⟩
    obtain ⟨row, hrow, hid, ho⟩ := hof
    by_cases hne : row.id = c.id
    · refine ⟨g c, (mem_updateLog hr.mem).2 (.inr rfl), ?_, ?_⟩
      · rw [hid, hg, hne]
      · rw [ho, hr.organization, Table.eq_of_key_eq hrow hr.mem hne]
    · exact ⟨row, (mem_updateLog hr.mem).2 (.inl ⟨hrow, hne⟩), hid, ho⟩
  stopped := by
    intro row hrow e he hid htype
    rcases (mem_updateLog hr.mem).1 hrow with ⟨hrow, hne⟩ | rfl
    · rcases hr.mem_evidence he with he | rfl
      · exact h.stopped row hrow e he hid htype
      · rw [hr.instance, h.own c hr.mem] at hid
        exact absurd (Option.some.inj hid).symm hne
    · rcases hr.mem_evidence he with he | rfl
      · rw [hg] at hid
        obtain ⟨hclosed, hat⟩ := h.stopped c hr.mem e he hid htype
        exact ⟨(hr.stopped hclosed).1, hat.trans (hr.stopped hclosed).2.symm⟩
      · exact ⟨isOpen_eq_false.2 htype, rfl⟩
  observed := by
    intro e he
    rcases hr.mem_evidence he with he | rfl
    · exact h.observed e he
    · exact le_rfl
  rows := by
    intro row hrow he
    rcases (mem_updateLog hr.mem).1 hrow with ⟨hrow, hne⟩ | rfl
    · have hrt := h.rows row hrow he
      have hsame := hr.holdings_other hg h hrow hne
      exact ⟨by rw [hsame]; exact hrt.sorted, by rw [hsame]; exact hrt.within,
        by rw [hsame]; exact hrt.held⟩
    · exact hr.rowTraced h he
  uncrossed := hr.uncrossed h

theorem Rewrites.follows (hr : Rewrites address db now c (g c)) :
    Follows address now db (db.updateLog c.id g hg now) where
  evidence := by
    rcases updateLog_evidence hr.mem g hg now with ⟨hsame, -⟩ | hnew
    · exact ⟨[], by rw [hsame, List.append_nil], by simp⟩
    · refine ⟨_, hnew, fun e he => ?_⟩
      obtain rfl := List.mem_singleton.1 he
      rw [hr.received]
      exact le_rfl
  rows := by
    intro row hrow
    by_cases hne : row.id = c.id
    · obtain rfl : row = c := Table.eq_of_key_eq hrow hr.mem hne
      refine ⟨g row, (mem_updateLog hr.mem).2 (.inr rfl), hr.attribution, hr.organization,
        hr.started, hr.stopped, fun he => (hr.forward he).1, fun ht => ?_⟩
      obtain ⟨-, hlast, hkeep, -⟩ := hr.forward (hr.kept ht)
      exact ⟨traceable_iff.2 ⟨hr.kept ht, hkeep (traceable_iff.1 ht).2⟩, hlast⟩
    · exact ⟨row, (mem_updateLog hr.mem).2 (.inl ⟨hrow, hne⟩), .refl row⟩

end Rewrite

/-! ### Inserting a row -/

/-- A row that may be inserted: it has an instance of its own, and gains the address cleanly if it
comes with it. -/
structure Inserts (address : Address) (db : Db) (now : ℤ) (row : ConnectionLog) : Prop where
  own : row.id = db.logs.nextId ∧ row.sessionInstanceId = some db.logs.nextId
  received : row.lastAccountingReceivedAt = some now
  gains : eligible row = true → address.heldBy row = true → Gains address db row

section Insert

variable {address : Address} {db : Db} {now : ℤ} {mk : ℕ → ConnectionLog}
  {hmk : ∀ n, (mk n).id = n}

theorem Inserts.evidence (hmk : ∀ n, (mk n).id = n) (h : Traced address db now)
    (hi : Inserts address db now (mk db.logs.nextId)) :
    (db.insertLog mk hmk now).evidence =
      db.evidence ++ [⟨mk db.logs.nextId, (mk db.logs.nextId).lastAt, now⟩] := by
  rcases insertLog_evidence hmk now (by rw [hi.own.2]; rfl)
    with ⟨-, e, he, hkey, -⟩ | hnew
  · obtain ⟨row, hrow, hid, -⟩ := h.ofRow e he
    have hinst := congrArg ConnectionLog.sessionInstanceId hkey
    have hfresh : some row.id = some db.logs.nextId := by
      rw [← hid, ← hi.own.2]
      exact hinst
    exact absurd (Option.some.inj hfresh) (id_lt_nextId hrow).ne
  · rw [hnew, hi.received, Option.getD_some]

theorem Inserts.holdings_other (hmk : ∀ n, (mk n).id = n) (h : Traced address db now)
    (hi : Inserts address db now (mk db.logs.nextId)) {row : ConnectionLog}
    (hrow : row ∈ db.logs.rows) :
    holdings address (db.insertLog mk hmk now) row = holdings address db row := by
  have hother : evidenceOf row address
      ⟨mk db.logs.nextId, (mk db.logs.nextId).lastAt, now⟩ = false := by
    rw [← Bool.not_eq_true, evidenceOf_iff]
    rintro ⟨-, hinst, -⟩
    rw [hi.own.2, h.own row hrow] at hinst
    exact (id_lt_nextId hrow).ne' (Option.some.inj hinst)
  rw [holdings_append (hi.evidence hmk h), hother]
  simp

theorem Inserts.holdings_self (hmk : ∀ n, (mk n).id = n) (h : Traced address db now)
    (hi : Inserts address db now (mk db.logs.nextId)) :
    holdings address (db.insertLog mk hmk now) (mk db.logs.nextId) =
      if address.heldBy (mk db.logs.nextId) = true then
        [⟨mk db.logs.nextId, (mk db.logs.nextId).lastAt, now⟩] else [] := by
  have hnil : holdings address db (mk db.logs.nextId) = [] := by
    refine List.filter_eq_nil_iff.2 fun e he hof => ?_
    obtain ⟨row, hrow, hid, -⟩ := h.ofRow e he
    have hinst := (evidenceOf_iff.1 hof).2.1
    rw [hid, hi.own.2] at hinst
    exact (id_lt_nextId hrow).ne (Option.some.inj hinst)
  rw [holdings_append (hi.evidence hmk h), hnil, List.nil_append]
  congr 1
  simp [evidenceOf]

theorem Inserts.uncrossed (h : Traced address db now)
    (hi : Inserts address db now (mk db.logs.nextId)) :
    ∀ row ∈ (db.insertLog mk hmk now).logs.rows, eligible row = true → row.isOpen = true →
      ∀ e ∈ (holdings address (db.insertLog mk hmk now) row).head?,
      ∀ other ∈ (db.insertLog mk hmk now).logs.rows,
      ¬ Crosses address (db.insertLog mk hmk now) row e.eventAt other := by
  have hback : ∀ {row other : ConnectionLog} {first : ℤ}, other ∈ db.logs.rows →
      Crosses address (db.insertLog mk hmk now) row first other →
      Crosses address db row first other := by
    rintro row other first hother ⟨hid, ho, he, hopen, e, hfirst, hlt⟩
    rw [hi.holdings_other _ h hother] at hfirst
    exact ⟨hid, ho, he, hopen, e, hfirst, hlt⟩
  -- the new row against an old one
  have hself : eligible (mk db.logs.nextId) = true → (mk db.logs.nextId).isOpen = true →
      ∀ e ∈ (holdings address (db.insertLog mk hmk now) (mk db.logs.nextId)).head?,
      ∀ other ∈ db.logs.rows, ¬ Crosses address db (mk db.logs.nextId) e.eventAt other := by
    intro he hopen e hfirst other hother
    rw [hi.holdings_self _ h] at hfirst
    split_ifs at hfirst with hheld
    · obtain rfl := Option.some.inj hfirst
      exact (hi.gains he hheld).2 hopen other hother
    · cases hfirst
  intro row hrow he hopen e hfirst other hother hcross
  rcases mem_insertLog.1 hrow with hrow | rfl
  · rw [hi.holdings_other _ h hrow] at hfirst
    rcases mem_insertLog.1 hother with hother | rfl
    · exact h.uncrossed row hrow he hopen e hfirst other hother (hback hother hcross)
    · obtain ⟨hid, ho, heo, hopeno, e', hfirst', hlt, hlt'⟩ := hcross
      exact hself heo hopeno e' hfirst' row hrow ⟨hid.symm, ho.symm, he, hopen, e, hfirst, hlt', hlt⟩
  · rcases mem_insertLog.1 hother with hother | rfl
    · exact hself he hopen e hfirst other hother (hback hother hcross)
    · exact hcross.1 rfl

/-- **An insertion that the invariant allows keeps it.** -/
theorem Inserts.traced (h : Traced address db now)
    (hi : Inserts address db now (mk db.logs.nextId)) :
    Traced address (db.insertLog mk hmk now) now where
  own := by
    intro row hrow
    rcases mem_insertLog.1 hrow with hrow | rfl
    · exact h.own row hrow
    · rw [hi.own.2, hmk]
  ofRow := by
    intro e he
    rw [hi.evidence hmk h] at he
    rcases List.mem_append.1 he with he | he
    · obtain ⟨row, hrow, hid⟩ := h.ofRow e he
      exact ⟨row, mem_insertLog.2 (.inl hrow), hid⟩
    · obtain rfl := List.mem_singleton.1 he
      exact ⟨_, mem_insertLog.2 (.inr rfl), by rw [hi.own.2, hmk], rfl⟩
  stopped := by
    intro row hrow e he hid htype
    rw [hi.evidence hmk h] at he
    rcases List.mem_append.1 he with he | he
    · rcases mem_insertLog.1 hrow with hrow | rfl
      · exact h.stopped row hrow e he hid htype
      · obtain ⟨row, hrow, hid', -⟩ := h.ofRow e he
        rw [hid', hmk] at hid
        exact absurd (Option.some.inj hid) (id_lt_nextId hrow).ne
    · obtain rfl := List.mem_singleton.1 he
      rcases mem_insertLog.1 hrow with hrow | rfl
      · rw [hi.own.2] at hid
        exact absurd (Option.some.inj hid).symm (id_lt_nextId hrow).ne
      · exact ⟨isOpen_eq_false.2 htype, rfl⟩
  observed := by
    intro e he
    rw [hi.evidence hmk h] at he
    rcases List.mem_append.1 he with he | he
    · exact h.observed e he
    · obtain rfl := List.mem_singleton.1 he
      exact le_rfl
  rows := by
    intro row hrow he
    rcases mem_insertLog.1 hrow with hrow | rfl
    · have hrt := h.rows row hrow he
      have hsame := hi.holdings_other hmk h hrow
      exact ⟨by rw [hsame]; exact hrt.sorted, by rw [hsame]; exact hrt.within,
        by rw [hsame]; exact hrt.held⟩
    · have hself := hi.holdings_self hmk h
      split_ifs at hself with hheld
      · refine ⟨by rw [hself]; exact List.pairwise_singleton _ _, fun e hmem => ?_, ?_⟩
        · rw [hself] at hmem
          obtain rfl := List.mem_singleton.1 hmem
          exact ⟨(hi.gains he hheld).1, le_rfl⟩
        · rw [hself]
          exact iff_of_true hheld (by simp)
      · exact ⟨by rw [hself]; exact .nil, by rw [hself]; simp, by rw [hself]; simpa using hheld⟩
  uncrossed := hi.uncrossed h

theorem Inserts.follows (h : Traced address db now)
    (hi : Inserts address db now (mk db.logs.nextId)) :
    Follows address now db (db.insertLog mk hmk now) where
  evidence := by
    refine ⟨_, hi.evidence hmk h, fun e he => ?_⟩
    obtain rfl := List.mem_singleton.1 he
    exact le_rfl
  rows := fun row hrow => ⟨row, mem_insertLog.2 (.inl hrow), .refl row⟩

end Insert

end Vigabss.Attribution
