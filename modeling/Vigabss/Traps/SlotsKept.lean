import Vigabss.Lib.Run
import Vigabss.Traps.DailyUsage

/-!
# Vigabss.Traps.SlotsKept — what the daily quota keeps over every run

Traps are stored one transaction after the other: each reserves a row, reserves its deliveries,
and gives back those that were not persisted, or is rolled back at any point.  `quota_kept_iff`
says in which runs the counters stay within the limits, add up, and count the slots that are held.
-/

namespace Vigabss.Traps

open Vigabss.Lib

/-! ### The runs -/

/-- The deliveries that a reservation took from its organization's row, on the day of that row. -/
structure Slot where
  organization : ℕ
  day : ℕ
  count : ℕ

/-- Where the open transaction stands. -/
inductive Stage where
  | idle
  | begun (organization : ℕ)
  | ingested (organization : ℕ)
  | reserved (slot : Slot) (allowed : ℕ)
  | written

structure State where
  usage : Usage
  slots : List Slot
  stage : Stage
  saved : Usage
  savedSlots : List Slot

def State.initial : State := ⟨.empty, [], .idle, .empty, []⟩

/-- The slots, with the one of the open transaction. -/
def State.held (s : State) : List Slot :=
  match s.stage with
  | .reserved slot _ => slot :: s.slots
  | _ => s.slots

def State.rollback (s : State) : State :=
  { s with usage := s.saved, slots := s.savedSlots, stage := .idle }

inductive Event where
  | begin (organization : ℕ)
  | reserveIngest (days : IngestDays) (varbindBytes : ℕ)
  | reserveForwarding (selectDay updateDay resolved : ℕ)
  /-- The deliveries are inserted, and what was reserved for the others is refunded. -/
  | persist (day created : ℕ)
  | commit
  | rollback

variable (limits : Limits)

def step (s : State) : Event → State
  | .begin organization =>
    match s.stage with
    | .idle =>
      if organization = 0 then s
      else { s with stage := .begun organization, saved := s.usage, savedSlots := s.slots }
    | _ => s
  | .reserveIngest days varbindBytes =>
    match s.stage with
    | .begun organization =>
      match reserveTrapIngestUsage limits s.usage days organization varbindBytes with
      | some (reservation, usage) =>
        { s with
          usage := usage
          stage := if reservation.accepted then .ingested organization else .idle }
      | none => s.rollback
    | _ => s
  | .reserveForwarding selectDay updateDay resolved =>
    match s.stage with
    | .ingested organization =>
      match reserveTrapForwardingUsage limits s.usage selectDay updateDay organization resolved with
      | some (quota, usage) =>
        let taken :=
          if (select s.usage updateDay organization).isSome then quota.allowedCount else 0
        { s with
          usage := usage
          stage := .reserved ⟨organization, updateDay, taken⟩ quota.allowedCount }
      | none => s.rollback
    | _ => s
  | .persist day created =>
    match s.stage with
    | .reserved slot allowed =>
      match refundTrapForwardingUsage s.usage day slot.organization (allowed - created) with
      | some usage =>
        { s with
          usage := usage
          slots := { slot with count := slot.count - (allowed - created) } :: s.slots
          stage := .written }
      | none => s.rollback
    | _ => s
  | .commit =>
    match s.stage with
    | .reserved _ _ => s
    | _ => { s with stage := .idle }
  | .rollback =>
    match s.stage with
    | .idle => s
    | _ => s.rollback

/-! ### The law -/

/-- The deliveries held by an organization on a day. -/
def slotsOf (slots : List Slot) (day organizationId : ℕ) : ℕ :=
  ((slots.filter fun s => s.day = day ∧ s.organization = organizationId).map Slot.count).sum

def Counters.Within (c : Counters) : Prop :=
  c.trapCount ≤ limits.orgDailyTrapRow ∧ c.varbindBytes ≤ limits.orgDailyVarbindByte ∧
    c.deliveryCount ≤ limits.orgDailyDelivery

/-- The counters that have a limit. -/
def limited : List (Counters → ℕ) :=
  [Counters.trapCount, Counters.varbindBytes, Counters.deliveryCount]

/-- No organization is above a limit, the global counters are the sums of the organizations', and
the deliveries counted on a day are the slots held on it. -/
structure Kept (t : Usage) (slots : List Slot) : Prop where
  within : ∀ {day org c}, org ≠ 0 → select t day org = some c → c.Within limits
  sums : ∀ day, ∀ counter ∈ limited, (read t day 0 counter : ℤ) = organizationsSum t day counter
  slots : ∀ day {org}, org ≠ 0 → read t day org Counters.deliveryCount = slotsOf slots day org

/-- Both rows of the day are there, or neither is. -/
def Paired (t : Usage) (day organizationId : ℕ) : Prop :=
  (select t day 0).isSome = (select t day organizationId).isSome

/-- The update of a reservation of a trap's row falls on the day that was read, or finds both rows
of its day, with room, or none. -/
def IngestStays (t : Usage) (days : IngestDays) (organizationId requestedVarbindBytes : ℕ) : Prop :=
  days.update = days.select ∨
    ∀ global organization, 
      select (insertRows t days.insert organizationId) days.select 0 = some global →
      select (insertRows t days.insert organizationId) days.select organizationId =
        some organization →
      ¬rowLimitReached limits organization global →
      Paired (insertRows t days.insert organizationId) days.update organizationId ∧
        ∀ c, select (insertRows t days.insert organizationId) days.update organizationId = some c →
          c.trapCount + 1 ≤ limits.orgDailyTrapRow ∧
          c.varbindBytes + storedBytes limits organization global
            (min maxVarbindsJsonBytes requestedVarbindBytes) ≤ limits.orgDailyVarbindByte

/-- The same of a reservation of deliveries. -/
def ForwardingStays (t : Usage) (selectDay updateDay organizationId requestedDeliveries : ℕ) :
    Prop :=
  updateDay = selectDay ∨
    ∀ global organization, select t selectDay 0 = some global →
      select t selectDay organizationId = some organization →
      allowedDeliveries limits organization global (min 100 requestedDeliveries) ≠ 0 →
      Paired t updateDay organizationId ∧
        ∀ c, select t updateDay organizationId = some c →
          c.deliveryCount + allowedDeliveries limits organization global
            (min 100 requestedDeliveries) ≤ limits.orgDailyDelivery

/-- A refund falls on the day of its slot; if nothing was taken, it finds nothing to give back. -/
def RefundStays (t : Usage) (day : ℕ) (slot : Slot) (count : ℕ) : Prop :=
  count = 0 ∨ (slot.count ≠ 0 ∧ day = slot.day) ∨
    (slot.count = 0 ∧ read t day 0 Counters.deliveryCount = 0 ∧
      read t day slot.organization Counters.deliveryCount = 0)

/-- The step's statements stay on the day of what they reserved. -/
def StaysOnDay (s : State) (e : Event) : Prop :=
  match e, s.stage with
  | .reserveIngest days varbindBytes, .begun organization =>
    IngestStays limits s.usage days organization varbindBytes
  | .reserveForwarding selectDay updateDay resolved, .ingested organization =>
    ForwardingStays limits s.usage selectDay updateDay organization resolved
  | .persist day created, .reserved slot allowed =>
    RefundStays s.usage day slot (allowed - created)
  | _, _ => True

/-! ### One statement -/

variable {limits} {t : Usage} {slots : List Slot}

theorem Kept.insertIgnore (h : Kept limits t slots) (day scope : ℕ) :
    Kept limits (insertIgnore t day scope) slots where
  within {d org c} horg hc := by
    rw [select_insertIgnore] at hc
    split_ifs at hc with hdx
    · cases hselect : select t day scope with
      | none =>
        rw [hselect] at hc
        cases hc
        exact ⟨Nat.zero_le _, Nat.zero_le _, Nat.zero_le _⟩
      | some c' =>
        rw [hselect] at hc
        cases hc
        exact h.within (hdx.2 ▸ horg) hselect
    · exact h.within horg hc
  sums d counter hcounter := by
    have hzero : counter .zero = 0 := by
      simp only [limited, List.mem_cons, List.not_mem_nil, or_false] at hcounter
      rcases hcounter with rfl | rfl | rfl <;> rfl
    rw [read_insertIgnore _ _ _ _ _ hzero, organizationsSum_insertIgnore _ _ _ _ hzero]
    exact h.sums d counter hcounter
  slots d {org} horg := by
    rw [read_insertIgnore _ _ _ _ _ rfl]
    exact h.slots d horg

/-- **What an update must meet**: it changes the counters of both rows alike, and what it leaves
is within the limits and is held. -/
theorem Kept.update_iff (h : Kept limits t slots) (day : ℕ) {org : ℕ} (horg : org ≠ 0)
    (f : Counters → Counters) (slots' : List Slot) :
    Kept limits (update t day org f) slots' ↔
      (∀ counter ∈ limited, gain f counter (select t day 0) = gain f counter (select t day org)) ∧
        (∀ c, select t day org = some c → (f c).Within limits) ∧
        ∀ d {x}, x ≠ 0 → (slotsOf slots' d x : ℤ) = slotsOf slots d x +
          if d = day ∧ x = org then gain f Counters.deliveryCount (select t day org) else 0 := by
  have hslot : ∀ d {x}, x ≠ 0 → (read (update t day org f) d x Counters.deliveryCount : ℤ) =
      slotsOf slots d x +
        if d = day ∧ x = org then gain f Counters.deliveryCount (select t day org) else 0 := by
    intro d x hx
    rw [read_update t day horg, h.slots d hx]
    by_cases hdx : d = day ∧ x = org
    · rw [if_pos hdx, if_pos ⟨hdx.1, .inr hdx.2⟩, hdx.2]
    · rw [if_neg hdx, if_neg fun hd => hdx ⟨hd.1, hd.2.resolve_left hx⟩]
  constructor
  · intro h'
    refine ⟨fun counter hcounter => ?_, fun c hc => ?_, fun d x hx => ?_⟩
    · have hsum := h'.sums day counter hcounter
      rw [read_update t day horg, organizationsSum_update t day horg, if_pos ⟨rfl, .inl rfl⟩,
        if_pos rfl, h.sums day counter hcounter] at hsum
      omega
    · have hafter : select (update t day org f) day org = some (f c) := by
        rw [select_update t day horg, if_pos ⟨rfl, .inr rfl⟩, hc, Option.map_some]
      exact h'.within horg hafter
    · rw [← h'.slots d hx, hslot d hx]
  · rintro ⟨hgain, hwithin, hheld⟩
    refine ⟨fun {d x c} hx hc => ?_, fun d counter hcounter => ?_, fun d x hx => ?_⟩
    · rw [select_update t day horg] at hc
      split_ifs at hc with hdx
      · obtain rfl := hdx.2.resolve_left hx
        obtain rfl := hdx.1
        obtain ⟨c', hc', rfl⟩ := Option.map_eq_some_iff.1 hc
        exact hwithin c' hc'
      · exact h.within hx hc
    · rw [read_update t day horg, organizationsSum_update t day horg, h.sums d counter hcounter]
      by_cases hd : d = day
      · rw [if_pos ⟨hd, .inl rfl⟩, if_pos hd, hgain counter hcounter]
      · rw [if_neg fun hd' => hd hd'.1, if_neg hd]
    · have := hslot d hx
      rw [← hheld d hx] at this
      exact_mod_cast this

theorem Kept.update_of_eq (h : Kept limits t slots) (day : ℕ) {org : ℕ} (horg : org ≠ 0)
    {f : Counters → Counters} (hf : ∀ c, ∀ counter ∈ limited, counter (f c) = counter c) :
    Kept limits (update t day org f) slots := by
  have hgain : ∀ counter ∈ limited, ∀ o, gain f counter o = 0 := by
    intro counter hcounter o
    cases o with
    | none => rfl
    | some c =>
      rw [gain_some, hf c counter hcounter]
      omega
  refine (h.update_iff day horg f slots).2 ⟨fun counter hcounter => ?_, fun c hc => ?_,
    fun d x _ => ?_⟩
  · rw [hgain counter hcounter, hgain counter hcounter]
  · have htrap := hf c Counters.trapCount (by simp [limited])
    have hbytes := hf c Counters.varbindBytes (by simp [limited])
    have hdelivery := hf c Counters.deliveryCount (by simp [limited])
    rw [Counters.Within, htrap, hbytes, hdelivery]
    exact h.within horg hc
  · rw [hgain _ (by simp [limited]), ite_self, add_zero]

theorem gain_eq_iff (f : Counters → Counters) (counter : Counters → ℕ) (n : ℕ)
    (hf : ∀ c, counter (f c) = counter c + n) (o o' : Option Counters) :
    gain f counter o = gain f counter o' ↔ n = 0 ∨ o.isSome = o'.isSome := by
  have hgain : ∀ o, gain f counter o = if o.isSome then (n : ℤ) else 0 := by
    intro o
    cases o with
    | none => rfl
    | some c =>
      rw [gain_some, hf]
      show ((counter c + n : ℕ) : ℤ) - counter c = n
      omega
  rw [hgain, hgain]
  cases o with
  | none => cases o' with
    | none => simp
    | some c' => simp [eq_comm]
  | some c => cases o' with
    | none => simp
    | some c' => simp

/-! ### Reserving a trap's row -/

theorem storedBytes_le {organization global : Counters} {requestedBytes : ℕ}
    (h : organization.varbindBytes ≤ limits.orgDailyVarbindByte) :
    organization.varbindBytes + storedBytes limits organization global requestedBytes ≤
      limits.orgDailyVarbindByte := by
  unfold storedBytes
  split_ifs with hstore
  · rcases of_decide_eq_true hstore with hzero | hroom
    · rw [hzero, Nat.add_zero]
      exact h
    · exact hroom.1
  · exact h

/-- **A trap's reservation keeps the quota** just when its update stays on the day. -/
theorem ingest_kept_iff (h : Kept limits t slots) {days : IngestDays} {org bytes : ℕ}
    {r : IngestReservation} {t' : Usage}
    (hreserve : reserveTrapIngestUsage limits t days org bytes = some (r, t')) :
    org ≠ 0 ∧ (Kept limits t' slots ↔ IngestStays limits t days org bytes) := by
  unfold reserveTrapIngestUsage at hreserve
  split_ifs at hreserve with horg
  have horg : org ≠ 0 := by omega
  refine ⟨horg, ?_⟩
  have h₁ : Kept limits (insertRows t days.insert org) slots :=
    (h.insertIgnore days.insert 0).insertIgnore days.insert org
  dsimp only at hreserve
  unfold IngestStays
  generalize insertRows t days.insert org = t₁ at h₁ hreserve
  cases hglobal : select t₁ days.select 0 with
  | none =>
    rw [hglobal] at hreserve
    cases hreserve
  | some global =>
  cases horganization : select t₁ days.select org with
  | none =>
    rw [hglobal, horganization] at hreserve
    cases hreserve
  | some organization =>
  rw [hglobal, horganization] at hreserve
  dsimp only at hreserve
  by_cases hreached : rowLimitReached limits organization global
  · rw [if_pos hreached] at hreserve
    cases hreserve
    refine iff_of_true (h₁.update_of_eq days.update horg fun c counter hcounter => ?_)
      (.inr fun g o hg ho hnot => ?_)
    · simp only [limited, List.mem_cons, List.not_mem_nil, or_false] at hcounter
      rcases hcounter with rfl | rfl | rfl <;> rfl
    · cases hg
      cases ho
      exact absurd hreached hnot
  · rw [if_neg hreached] at hreserve
    cases hreserve
    rw [h₁.update_iff days.update horg]
    generalize hstored : storedBytes limits organization global (min maxVarbindsJsonBytes bytes) =
      stored
    generalize storesVarbinds limits organization global (min maxVarbindsJsonBytes bytes) = store
    have htrap := gain_eq_iff (countTrap stored store) Counters.trapCount 1
      (fun _ => rfl) (select t₁ days.update 0) (select t₁ days.update org)
    have hbytes := gain_eq_iff (countTrap stored store) Counters.varbindBytes stored
      (fun _ => rfl) (select t₁ days.update 0) (select t₁ days.update org)
    have hdelivery := gain_eq_iff (countTrap stored store) Counters.deliveryCount 0
      (fun _ => rfl) (select t₁ days.update 0) (select t₁ days.update org)
    have hheld : gain (countTrap stored store) Counters.deliveryCount
        (select t₁ days.update org) = 0 := by
      cases select t₁ days.update org with
      | none => rfl
      | some c =>
        rw [gain_some]
        exact Int.sub_self _
    constructor
    · rintro ⟨hgain, hwithin, -⟩
      refine .inr fun g o hg ho _ => ?_
      cases hg
      cases ho
      refine ⟨(htrap.1 (hgain _ (by simp [limited]))).resolve_left (by omega), fun c hc => ?_⟩
      obtain ⟨hwithinTrap, hwithinBytes, -⟩ := hwithin c hc
      rw [hstored]
      exact ⟨hwithinTrap, hwithinBytes⟩
    · intro hstays
      have hroom : Paired t₁ days.update org ∧ ∀ c, select t₁ days.update org = some c →
          c.trapCount + 1 ≤ limits.orgDailyTrapRow ∧
            c.varbindBytes + stored ≤ limits.orgDailyVarbindByte := by
        rcases hstays with hday | hstays
        · rw [hday, Paired, hglobal, horganization]
          refine ⟨rfl, fun c hc => ?_⟩
          cases hc
          rw [rowLimitReached, not_or, not_le] at hreached
          rw [← hstored]
          exact ⟨hreached.1, storedBytes_le (h₁.within horg horganization).2.1⟩
        · have := hstays global organization rfl rfl hreached
          rwa [hstored] at this
      refine ⟨fun counter hcounter => ?_, fun c hc => ?_, fun d x _ => ?_⟩
      · simp only [limited, List.mem_cons, List.not_mem_nil, or_false] at hcounter
        rcases hcounter with rfl | rfl | rfl
        · exact htrap.2 (.inr hroom.1)
        · exact hbytes.2 (.inr hroom.1)
        · exact hdelivery.2 (.inl rfl)
      · exact ⟨(hroom.2 c hc).1, (hroom.2 c hc).2, (h₁.within horg hc).2.2⟩
      · rw [hheld, ite_self, add_zero]

theorem ingestStays_of_none {days : IngestDays} {org bytes : ℕ} (horg : org ≠ 0)
    (hreserve : reserveTrapIngestUsage limits t days org bytes = none) :
    IngestStays limits t days org bytes := by
  refine .inr fun global organization hglobal horganization hreached => ?_
  rw [reserveTrapIngestUsage, if_neg (by omega)] at hreserve
  dsimp only at hreserve
  rw [hglobal, horganization] at hreserve
  dsimp only at hreserve
  rw [if_neg hreached] at hreserve
  cases hreserve

/-! ### Reserving deliveries -/

theorem slotsOf_cons (slot : Slot) (slots : List Slot) (day org : ℕ) :
    slotsOf (slot :: slots) day org =
      (if day = slot.day ∧ org = slot.organization then slot.count else 0) +
        slotsOf slots day org := by
  simp only [slotsOf, List.filter_cons, decide_eq_true_eq]
  by_cases h : slot.day = day ∧ slot.organization = org
  · rw [if_pos h, List.map_cons, List.sum_cons, if_pos ⟨h.1.symm, h.2.symm⟩]
  · rw [if_neg h, if_neg fun h' => h ⟨h'.1.symm, h'.2.symm⟩, Nat.zero_add]

theorem slotsOf_cons_zero (day org : ℕ) (slots : List Slot) (d x : ℕ) :
    slotsOf (⟨org, day, 0⟩ :: slots) d x = slotsOf slots d x := by
  rw [slotsOf_cons, ite_self, Nat.zero_add]

theorem Kept.congr {slots' : List Slot} (h : Kept limits t slots)
    (hslots : ∀ d x, slotsOf slots' d x = slotsOf slots d x) : Kept limits t slots' where
  within := h.within
  sums := h.sums
  slots d _ hx := (h.slots d hx).trans (hslots d _).symm

/-- **A reservation of deliveries keeps the quota** just when its update stays on the day. -/
theorem forwarding_kept_iff (h : Kept limits t slots) {selectDay updateDay org resolved : ℕ}
    {quota : ForwardingReservation} {t' : Usage}
    (hreserve : reserveTrapForwardingUsage limits t selectDay updateDay org resolved =
      some (quota, t')) :
    org ≠ 0 ∧ quota.allowedCount ≤ 100 ∧
      (Kept limits t' (⟨org, updateDay,
        if (select t updateDay org).isSome then quota.allowedCount else 0⟩ :: slots) ↔
        ForwardingStays limits t selectDay updateDay org resolved) := by
  unfold reserveTrapForwardingUsage at hreserve
  dsimp only at hreserve
  unfold ForwardingStays
  have hle : min 100 resolved ≤ 100 := Nat.min_le_left _ _
  generalize min 100 resolved = requested at hreserve hle
  split_ifs at hreserve with horg hzero
  · cases hreserve
    refine ⟨by omega, Nat.zero_le _,
      iff_of_true (h.congr fun d x => ?_) (.inr fun g o _ _ hne => ?_)⟩
    · rw [ite_self, slotsOf_cons_zero]
    · rw [allowedDeliveries, hzero, Nat.zero_min] at hne
      exact absurd rfl hne
  have horg : org ≠ 0 := by omega
  cases hglobal : select t selectDay 0 with
  | none =>
    rw [hglobal] at hreserve
    cases hreserve
  | some global =>
  cases horganization : select t selectDay org with
  | none =>
    rw [hglobal, horganization] at hreserve
    cases hreserve
  | some organization =>
  rw [hglobal, horganization] at hreserve
  cases hreserve
  have hallowed : allowedDeliveries limits organization global requested ≤
      limits.orgDailyDelivery - organization.deliveryCount :=
    (Nat.min_le_right _ _).trans (Nat.min_le_left _ _)
  have hrequested : allowedDeliveries limits organization global requested ≤ requested :=
    Nat.min_le_left _ _
  refine ⟨horg, hrequested.trans hle, ?_⟩
  rw [h.update_iff updateDay horg]
  dsimp only
  generalize hcount : allowedDeliveries limits organization global requested = allowed
  rw [hcount] at hallowed hrequested
  generalize requested - allowed = skipped
  have htrap := gain_eq_iff (countDeliveries allowed skipped) Counters.trapCount 0
    (fun _ => rfl) (select t updateDay 0) (select t updateDay org)
  have hbytes := gain_eq_iff (countDeliveries allowed skipped) Counters.varbindBytes 0
    (fun _ => rfl) (select t updateDay 0) (select t updateDay org)
  have hdelivery := gain_eq_iff (countDeliveries allowed skipped) Counters.deliveryCount allowed
    (fun _ => rfl) (select t updateDay 0) (select t updateDay org)
  constructor
  · rintro ⟨hgain, hwithin, -⟩
    refine .inr fun g o hg ho hne => ?_
    cases hg
    cases ho
    rw [hcount] at hne ⊢
    exact ⟨(hdelivery.1 (hgain _ (by simp [limited]))).resolve_left hne,
      fun c hc => (hwithin c hc).2.2⟩
  · intro hstays
    have hroom : (allowed = 0 ∨ Paired t updateDay org) ∧
        ∀ c, select t updateDay org = some c →
          c.deliveryCount + allowed ≤ limits.orgDailyDelivery := by
      rcases hstays with hday | hstays
      · rw [hday, Paired, hglobal, horganization]
        refine ⟨.inr rfl, fun c hc => ?_⟩
        cases hc
        have hwithin := (h.within horg horganization).2.2
        omega
      · by_cases hne : allowed = 0
        · refine ⟨.inl hne, fun c hc => ?_⟩
          rw [hne]
          exact (h.within horg hc).2.2
        · have := hstays global organization rfl rfl (hcount ▸ hne)
          rw [hcount] at this
          exact ⟨.inr this.1, this.2⟩
    refine ⟨fun counter hcounter => ?_, fun c hc => ?_, fun d x _ => ?_⟩
    · simp only [limited, List.mem_cons, List.not_mem_nil, or_false] at hcounter
      rcases hcounter with rfl | rfl | rfl
      · exact htrap.2 (.inl rfl)
      · exact hbytes.2 (.inl rfl)
      · exact hdelivery.2 hroom.1
    · exact ⟨(h.within horg hc).1, (h.within horg hc).2.1, hroom.2 c hc⟩
    · rw [slotsOf_cons]
      dsimp only
      by_cases hdx : d = updateDay ∧ x = org
      · rw [if_pos hdx, if_pos hdx]
        cases hc : select t updateDay org with
        | none => simp
        | some c =>
          rw [gain_some, Option.isSome_some, if_pos rfl]
          show ((allowed + slotsOf slots d x : ℕ) : ℤ) =
            slotsOf slots d x + ((c.deliveryCount + allowed : ℕ) - c.deliveryCount)
          omega
      · rw [if_neg hdx, if_neg hdx]
        omega

theorem forwardingStays_of_none {selectDay updateDay org resolved : ℕ} (horg : org ≠ 0)
    (hreserve : reserveTrapForwardingUsage limits t selectDay updateDay org resolved = none) :
    ForwardingStays limits t selectDay updateDay org resolved := by
  refine .inr fun global organization hglobal horganization _ => ?_
  unfold reserveTrapForwardingUsage at hreserve
  dsimp only at hreserve
  rw [if_neg (by omega)] at hreserve
  split_ifs at hreserve
  rw [hglobal, horganization] at hreserve
  cases hreserve

/-! ### Refunding -/

theorem refund_isSome (t : Usage) (day count : ℕ) {org : ℕ} (horg : org ≠ 0) :
    ∃ t', refundTrapForwardingUsage t day org count = some t' := by
  unfold refundTrapForwardingUsage
  dsimp only
  rw [if_neg (by omega)]
  split_ifs
  · exact ⟨_, rfl⟩
  · exact ⟨_, rfl⟩

theorem gain_giveBack (count : ℕ) (t : Usage) (day scope : ℕ) :
    gain (giveBack count) Counters.deliveryCount (select t day scope) =
      -(min count (read t day scope Counters.deliveryCount) : ℕ) := by
  unfold read
  cases select t day scope with
  | none => simp
  | some c =>
    rw [gain_some]
    show ((c.deliveryCount - count : ℕ) : ℤ) - c.deliveryCount = -(min count c.deliveryCount : ℕ)
    omega

/-- **A refund gives back the slot** just when it falls on the slot's day. -/
theorem refund_kept_iff {slot : Slot} (h : Kept limits t (slot :: slots)) {day count : ℕ}
    (hcount : slot.count = 0 ∨ count ≤ slot.count) (hle : count ≤ 100) {t' : Usage}
    (hrefund : refundTrapForwardingUsage t day slot.organization count = some t') :
    Kept limits t' ({ slot with count := slot.count - count } :: slots) ↔
      RefundStays t day slot count := by
  unfold refundTrapForwardingUsage at hrefund
  rw [Nat.min_eq_right hle] at hrefund
  dsimp only at hrefund
  unfold RefundStays
  split_ifs at hrefund with horg hzero
  · cases hrefund
    rw [hzero, Nat.sub_zero]
    exact iff_of_true h (.inl rfl)
  have horg : slot.organization ≠ 0 := by omega
  cases hrefund
  rw [h.update_iff day horg]
  have hfirst := h.slots slot.day horg
  rw [slotsOf_cons, if_pos ⟨rfl, rfl⟩] at hfirst
  have hglobal : (read t slot.day slot.organization Counters.deliveryCount : ℤ) ≤
      read t slot.day 0 Counters.deliveryCount := by
    rw [h.sums slot.day Counters.deliveryCount (by simp [limited])]
    exact read_le_organizationsSum t slot.day horg _
  simp only [gain_giveBack]
  constructor
  · rintro ⟨hgain, -, hheld⟩
    have hsame := hgain Counters.deliveryCount (by simp [limited])
    rw [gain_giveBack, gain_giveBack] at hsame
    have hslot := hheld slot.day horg
    rw [slotsOf_cons, slotsOf_cons, if_pos ⟨rfl, rfl⟩, if_pos ⟨rfl, rfl⟩] at hslot
    dsimp only at hslot
    refine .inr ?_
    by_cases hempty : slot.count = 0
    · have htook := hheld day horg
      rw [slotsOf_cons, slotsOf_cons] at htook
      dsimp only at htook
      rw [hempty, Nat.zero_sub, ite_self, if_pos ⟨rfl, rfl⟩] at htook
      exact .inr ⟨hempty, by omega, by omega⟩
    · by_cases hday : day = slot.day
      · exact .inl ⟨hempty, hday⟩
      · rw [if_neg fun hd => hday hd.1.symm] at hslot
        omega
  · intro hstays
    have hamount : (slot.count ≠ 0 ∧ day = slot.day ∧
          min count (read t day 0 Counters.deliveryCount) = count ∧
          min count (read t day slot.organization Counters.deliveryCount) = count) ∨
        (slot.count = 0 ∧ min count (read t day 0 Counters.deliveryCount) = 0 ∧
          min count (read t day slot.organization Counters.deliveryCount) = 0) := by
      rcases hstays with hnone | ⟨hne, rfl⟩ | ⟨hempty, hread, hread'⟩
      · exact absurd hnone hzero
      · exact .inl ⟨hne, rfl, by omega, by omega⟩
      · exact .inr ⟨hempty, by omega, by omega⟩
    refine ⟨fun counter hcounter => ?_, fun c hc => ?_, fun d x _ => ?_⟩
    · simp only [limited, List.mem_cons, List.not_mem_nil, or_false] at hcounter
      rcases hcounter with rfl | rfl | rfl
      · exact (gain_eq_iff _ Counters.trapCount 0 (fun _ => rfl) _ _).2 (.inl rfl)
      · exact (gain_eq_iff _ Counters.varbindBytes 0 (fun _ => rfl) _ _).2 (.inl rfl)
      · rw [gain_giveBack, gain_giveBack]
        omega
    · have hwithin := h.within horg hc
      exact ⟨hwithin.1, hwithin.2.1, (Nat.sub_le _ _).trans hwithin.2.2⟩
    · rw [slotsOf_cons, slotsOf_cons]
      dsimp only
      rcases hamount with ⟨hne, rfl, -, htook⟩ | ⟨hempty, -, htook⟩
      · rw [htook]
        split_ifs <;> omega
      · rw [htook, hempty]
        simp

/-! ### Runs -/

/-- What the code knows of the open transaction. -/
def StageSound : Stage → Prop
  | .begun organization | .ingested organization => organization ≠ 0
  | .reserved slot allowed =>
    slot.organization ≠ 0 ∧ allowed ≤ 100 ∧ (slot.count = 0 ∨ slot.count = allowed)
  | _ => True

structure Sound (limits : Limits) (s : State) : Prop where
  kept : Kept limits s.usage s.held
  saved : Kept limits s.saved s.savedSlots
  stage : StageSound s.stage

theorem Kept.empty : Kept limits .empty [] where
  within _ hc := by cases hc
  sums _ _ _ := rfl
  slots _ _ _ := rfl

theorem sound_initial : Sound limits .initial := ⟨Kept.empty, Kept.empty, trivial⟩

variable {s : State}

/-- **What a step keeps**: where its statements stay on the day it is sound, and the law fails
where they do not. -/
theorem step_sound (h : Sound limits s) (e : Event) :
    (StaysOnDay limits s e → Sound limits (step limits s e)) ∧
      (¬StaysOnDay limits s e → ¬Kept limits (step limits s e).usage (step limits s e).held) := by
  obtain ⟨usage, slots, stage, saved, savedSlots⟩ := s
  obtain ⟨hkept, hsaved, hstage⟩ := h
  have hback : Sound limits (State.rollback ⟨usage, slots, stage, saved, savedSlots⟩) :=
    ⟨hsaved, hsaved, trivial⟩
  have hsame : Sound limits ⟨usage, slots, stage, saved, savedSlots⟩ := ⟨hkept, hsaved, hstage⟩
  have hfine : ∀ {s' : State}, Sound limits s' →
      (True → Sound limits s') ∧ (¬True → ¬Kept limits s'.usage s'.held) :=
    fun hs' => ⟨fun _ => hs', fun hnot => absurd trivial hnot⟩
  cases e with
  | begin organization =>
    cases stage with
    | idle =>
      simp only [step]
      split_ifs with horg
      · exact hfine hsame
      · exact hfine ⟨hkept, hkept, horg⟩
    | _ => exact hfine hsame
  | reserveIngest days varbindBytes =>
    cases stage with
    | begun organization =>
      simp only [step, StaysOnDay]
      cases hreserve : reserveTrapIngestUsage limits usage days organization varbindBytes with
      | none =>
        refine ⟨fun _ => hback, fun hnot => absurd ?_ hnot⟩
        exact ingestStays_of_none hstage hreserve
      | some result =>
        obtain ⟨r, t'⟩ := result
        obtain ⟨horg, hiff⟩ := ingest_kept_iff (show Kept limits usage slots from hkept) hreserve
        dsimp only
        cases r.accepted with
        | false =>
          exact ⟨fun hstays => ⟨hiff.2 hstays, hsaved, trivial⟩, fun hnot => mt hiff.1 hnot⟩
        | true => exact ⟨fun hstays => ⟨hiff.2 hstays, hsaved, horg⟩, fun hnot => mt hiff.1 hnot⟩
    | _ => exact hfine hsame
  | reserveForwarding selectDay updateDay resolved =>
    cases stage with
    | ingested organization =>
      simp only [step, StaysOnDay]
      cases hreserve : reserveTrapForwardingUsage limits usage selectDay updateDay organization
          resolved with
      | none =>
        refine ⟨fun _ => hback, fun hnot => absurd ?_ hnot⟩
        exact forwardingStays_of_none hstage hreserve
      | some result =>
        obtain ⟨quota, t'⟩ := result
        obtain ⟨horg, hle, hiff⟩ :=
          forwarding_kept_iff (show Kept limits usage slots from hkept) hreserve
        refine ⟨fun hstays => ⟨hiff.2 hstays, hsaved, horg, hle, ?_⟩, fun hnot => mt hiff.1 hnot⟩
        dsimp only
        split_ifs
        · exact .inr rfl
        · exact .inl rfl
    | _ => exact hfine hsame
  | persist day created =>
    cases stage with
    | reserved slot allowed =>
      obtain ⟨horg, hle, hslot⟩ := hstage
      simp only [step, StaysOnDay]
      have hcount : slot.count = 0 ∨ allowed - created ≤ slot.count := by omega
      obtain ⟨t', hrefund⟩ := refund_isSome usage day (allowed - created) horg
      rw [hrefund]
      have hiff := refund_kept_iff hkept hcount (by omega) hrefund
      exact ⟨fun hstays => ⟨hiff.2 hstays, hsaved, trivial⟩, fun hnot => mt hiff.1 hnot⟩
    | _ => exact hfine hsame
  | commit =>
    cases stage with
    | reserved slot allowed => exact hfine hsame
    | _ => exact hfine ⟨hkept, hsaved, trivial⟩
  | rollback =>
    cases stage with
    | idle => exact hfine hsame
    | _ => exact hfine hback

/-- **When the quota is kept**, in every run: where the statements of each reservation fall on one
day, or find the rows of the later day both there, with room, or both missing, and each refund
falls on the day of its slot, or finds nothing to give back. -/
theorem quota_kept_iff (limits : Limits) (events : List Event) :
    Always (step limits) (fun s => Kept limits s.usage s.held) .initial events ↔
      StepsMeet (step limits) (StaysOnDay limits) .initial events := by
  refine always_iff_stepsMeet (I := Sound limits) (P := fun s => Kept limits s.usage s.held)
    (fun s hs => hs.kept) (fun s e hs hgood => (step_sound hs e).1 hgood)
    (fun s e hs hbad => (step_sound hs e).2 hbad) sound_initial events

/-- A delivery reserved before midnight, and refunded after it. -/
theorem refunded_next_day : ¬ ∀ (limits : Limits) (events : List Event),
    Always (step limits) (fun s => Kept limits s.usage s.held) .initial events := by
  intro h
  have hlast := (h ⟨10, 10, 10, 10, 10, 10⟩ [.begin 1, .reserveIngest ⟨0, 0, 0⟩ 0,
    .reserveForwarding 0 0 1, .persist 1 0]).last
  exact absurd (hlast.slots 0 (show 1 ≠ 0 by decide)) (by decide)

end Vigabss.Traps
