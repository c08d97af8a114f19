import Mathlib.Data.Nat.Pairing
import Vigabss.Lib.Table

/-!
# Vigabss.Traps.DailyUsage — the daily quota of SNMP traps

The table `snmp_trap_ingest_daily_usage`, and the functions that reserve and refund its slots.
Each statement reads `UTC_DATE()` on its own.
-/

namespace Vigabss.Traps

open Vigabss.Lib

/-! ### The table -/

structure Counters where
  trapCount : ℕ
  varbindBytes : ℕ
  deliveryCount : ℕ
  metadataOnlyCount : ℕ
  droppedTrapCount : ℕ
  forwardingSkippedCount : ℕ
  deriving DecidableEq

def Counters.zero : Counters := ⟨0, 0, 0, 0, 0, 0⟩

/-- A row: of an organization, or of all of them, where `scopeId` is 0. -/
structure UsageRow where
  usageDate : ℕ
  scopeId : ℕ
  counters : Counters
  deriving DecidableEq

def rowKey (day scope : ℕ) : ℕ := Nat.pair day scope

instance : Keyed UsageRow := ⟨fun r => rowKey r.usageDate r.scopeId⟩

abbrev Usage := Table UsageRow

/-- `INSERT IGNORE` of a row of zeros. -/
def insertIgnore (t : Usage) (day scope : ℕ) : Usage :=
  if (t.find? (rowKey day scope)).isSome then t else t.put ⟨day, scope, .zero⟩

/-- `SELECT … FOR UPDATE` of the row of one scope. -/
def select (t : Usage) (day scope : ℕ) : Option Counters :=
  (t.find? (rowKey day scope)).map UsageRow.counters

def bump (f : Counters → Counters) (r : UsageRow) : UsageRow :=
  { r with counters := f r.counters }

theorem key_bump (f : Counters → Counters) (r : UsageRow) : Keyed.key (bump f r) = Keyed.key r :=
  rfl

/-- `UPDATE` of the global row and the organization's. -/
def update (t : Usage) (day organizationId : ℕ) (f : Counters → Counters) : Usage :=
  (t.modify (rowKey day 0) (bump f) (key_bump f)).modify (rowKey day organizationId) (bump f)
    (key_bump f)

/-! ### The functions -/

structure Limits where
  orgDailyTrapRow : ℕ
  globalDailyTrapRow : ℕ
  orgDailyVarbindByte : ℕ
  globalDailyVarbindByte : ℕ
  orgDailyDelivery : ℕ
  globalDailyDelivery : ℕ

/-- The days that the statements of `reserveTrapIngestUsage` read. -/
structure IngestDays where
  insert : ℕ
  select : ℕ
  update : ℕ

structure IngestReservation where
  accepted : Bool
  storeVarbinds : Bool

variable (limits : Limits)

def maxVarbindsJsonBytes : ℕ := 8 * 1024

/-- A daily limit of trap rows is reached. -/
def rowLimitReached (organization global : Counters) : Prop :=
  limits.orgDailyTrapRow ≤ organization.trapCount ∨ limits.globalDailyTrapRow ≤ global.trapCount

instance (organization global : Counters) :
    Decidable (rowLimitReached limits organization global) :=
  inferInstanceAs (Decidable (_ ∨ _))

/-- `storeVarbinds`. -/
def storesVarbinds (organization global : Counters) (requestedBytes : ℕ) : Bool :=
  requestedBytes = 0 ∨
    organization.varbindBytes + requestedBytes ≤ limits.orgDailyVarbindByte ∧
      global.varbindBytes + requestedBytes ≤ limits.globalDailyVarbindByte

/-- `storedBytes`. -/
def storedBytes (organization global : Counters) (requestedBytes : ℕ) : ℕ :=
  if storesVarbinds limits organization global requestedBytes then requestedBytes else 0

/-- The rows of the day, made where they are missing. -/
def insertRows (t : Usage) (day organizationId : ℕ) : Usage :=
  insertIgnore (insertIgnore t day 0) day organizationId

def countDropped (c : Counters) : Counters := { c with droppedTrapCount := c.droppedTrapCount + 1 }

def countTrap (stored : ℕ) (storeVarbinds : Bool) (c : Counters) : Counters :=
  { c with
    trapCount := c.trapCount + 1
    varbindBytes := c.varbindBytes + stored
    metadataOnlyCount := c.metadataOnlyCount + if storeVarbinds then 0 else 1 }

/-- `reserveTrapIngestUsage(exec, organizationId, requestedVarbindBytes)`. -/
def reserveTrapIngestUsage (t : Usage) (days : IngestDays)
    (organizationId requestedVarbindBytes : ℕ) : Option (IngestReservation × Usage) :=
  if organizationId < 1 then none
  else
    let requestedBytes := min maxVarbindsJsonBytes requestedVarbindBytes
    let t := insertRows t days.insert organizationId
    match select t days.select 0, select t days.select organizationId with
    | some global, some organization =>
      if rowLimitReached limits organization global then
        some (⟨false, false⟩, update t days.update organizationId countDropped)
      else
        let store := storesVarbinds limits organization global requestedBytes
        let stored := storedBytes limits organization global requestedBytes
        some (⟨true, store⟩, update t days.update organizationId (countTrap stored store))
    | _, _ => none

structure ForwardingReservation where
  allowedCount : ℕ
  skippedCount : ℕ

def countDeliveries (allowed skipped : ℕ) (c : Counters) : Counters :=
  { c with
    deliveryCount := c.deliveryCount + allowed
    forwardingSkippedCount := c.forwardingSkippedCount + skipped }

/-- `allowed`: what is left of both limits. -/
def allowedDeliveries (organization global : Counters) (requested : ℕ) : ℕ :=
  min requested (min (limits.orgDailyDelivery - organization.deliveryCount)
    (limits.globalDailyDelivery - global.deliveryCount))

/-- `reserveTrapForwardingUsage(exec, organizationId, requestedDeliveries)`. -/
def reserveTrapForwardingUsage (t : Usage) (selectDay updateDay : ℕ)
    (organizationId requestedDeliveries : ℕ) : Option (ForwardingReservation × Usage) :=
  let requested := min 100 requestedDeliveries
  if organizationId < 1 then none
  else if requested = 0 then some (⟨0, 0⟩, t)
  else
    match select t selectDay 0, select t selectDay organizationId with
    | some global, some organization =>
      let allowed := allowedDeliveries limits organization global requested
      let skipped := requested - allowed
      some (⟨allowed, skipped⟩, update t updateDay organizationId (countDeliveries allowed skipped))
    | _, _ => none

/-- `GREATEST(0, delivery_count - ?)`. -/
def giveBack (count : ℕ) (c : Counters) : Counters :=
  { c with deliveryCount := c.deliveryCount - count }

/-- `refundTrapForwardingUsage(exec, organizationId, deliveryCount)`. -/
def refundTrapForwardingUsage (t : Usage) (day organizationId deliveryCount : ℕ) : Option Usage :=
  let count := min 100 deliveryCount
  if organizationId < 1 then none
  else if count = 0 then some t
  else some (update t day organizationId (giveBack count))

/-! ### Reading the table -/

/-- A counter of a row, 0 where there is none. -/
def read (t : Usage) (day scope : ℕ) (counter : Counters → ℕ) : ℕ :=
  ((select t day scope).map counter).getD 0

/-- A counter, over the organizations of a day. -/
def organizationsSum (t : Usage) (day : ℕ) (counter : Counters → ℕ) : ℤ :=
  t.sum (fun r => r.usageDate = day ∧ r.scopeId ≠ 0) fun r => counter r.counters

/-- What a change adds to a counter of a row that may be there. -/
def gain (f : Counters → Counters) (counter : Counters → ℕ) (c : Option Counters) : ℤ :=
  c.elim 0 fun c => counter (f c) - counter c

@[simp] theorem gain_none (f : Counters → Counters) (counter : Counters → ℕ) :
    gain f counter none = 0 := rfl

@[simp] theorem gain_some (f : Counters → Counters) (counter : Counters → ℕ) (c : Counters) :
    gain f counter (some c) = counter (f c) - counter c := rfl

theorem rowKey_inj {day day' scope scope' : ℕ} :
    rowKey day scope = rowKey day' scope' ↔ day = day' ∧ scope = scope' := Nat.pair_eq_pair

theorem find?_rowKey {t : Usage} {day scope : ℕ} {r : UsageRow}
    (h : t.find? (rowKey day scope) = some r) : r.usageDate = day ∧ r.scopeId = scope :=
  rowKey_inj.1 (Table.find?_eq_some.1 h).2

/-! ### Inserting -/

theorem select_insertIgnore (t : Usage) (day scope d x : ℕ) :
    select (insertIgnore t day scope) d x =
      if d = day ∧ x = scope then some ((select t day scope).getD .zero) else select t d x := by
  unfold insertIgnore
  by_cases h : (t.find? (rowKey day scope)).isSome
  · obtain ⟨r, hr⟩ := Option.isSome_iff_exists.1 h
    rw [if_pos h]
    split_ifs with hdx
    · rw [hdx.1, hdx.2, select, hr]
      rfl
    · rfl
  · have hnone := Option.not_isSome_iff_eq_none.1 h
    have hkey : Keyed.key (⟨day, scope, .zero⟩ : UsageRow) = rowKey day scope := rfl
    rw [if_neg h, select, Table.find?_put, hkey]
    by_cases hdx : d = day ∧ x = scope
    · rw [if_pos hdx, if_pos (rowKey_inj.2 hdx), select, hnone]
      rfl
    · rw [if_neg hdx, if_neg fun hkey => hdx (rowKey_inj.1 hkey)]
      rfl

theorem read_insertIgnore (t : Usage) (day scope d x : ℕ) {counter : Counters → ℕ}
    (hcounter : counter .zero = 0) :
    read (insertIgnore t day scope) d x counter = read t d x counter := by
  rw [read, select_insertIgnore, read]
  split_ifs with h
  · rw [h.1, h.2]
    cases select t day scope with
    | none => exact hcounter
    | some c => rfl
  · rfl

theorem organizationsSum_insertIgnore (t : Usage) (day scope d : ℕ) {counter : Counters → ℕ}
    (hcounter : counter .zero = 0) :
    organizationsSum (insertIgnore t day scope) d counter = organizationsSum t d counter := by
  unfold insertIgnore
  by_cases h : (t.find? (rowKey day scope)).isSome
  · rw [if_pos h]
  · have hnone := Option.not_isSome_iff_eq_none.1 h
    rw [if_neg h, organizationsSum, Table.sum_put_new _ _ hnone, Table.share]
    simp only [hcounter, Nat.cast_zero, ite_self, add_zero]
    rfl

/-! ### Updating -/

theorem select_modify (t : Usage) (day scope d x : ℕ) (f : Counters → Counters) :
    select (t.modify (rowKey day scope) (bump f) (key_bump f)) d x =
      if d = day ∧ x = scope then (select t d x).map f else select t d x := by
  rw [select, Table.find?_modify]
  by_cases hdx : d = day ∧ x = scope
  · rw [if_pos hdx, if_pos (rowKey_inj.2 hdx), hdx.1, hdx.2, select, Option.map_map,
      Option.map_map]
    rfl
  · rw [if_neg hdx, if_neg fun hkey => hdx (rowKey_inj.1 hkey)]
    rfl

/-- **What an update changes**: the global row and the organization's, on its day. -/
theorem select_update (t : Usage) (day : ℕ) {organizationId : ℕ} (horg : organizationId ≠ 0)
    (f : Counters → Counters) (d x : ℕ) :
    select (update t day organizationId f) d x =
      if d = day ∧ (x = 0 ∨ x = organizationId) then (select t d x).map f else select t d x := by
  rw [update, select_modify, select_modify]
  by_cases hd : d = day
  · by_cases hx : x = organizationId
    · have h0 : ¬(d = day ∧ x = 0) := fun h => horg (hx.symm.trans h.2)
      rw [if_pos ⟨hd, hx⟩, if_neg h0, if_pos ⟨hd, .inr hx⟩]
    · rw [if_neg fun h => hx h.2]
      by_cases h0 : x = 0
      · rw [if_pos ⟨hd, h0⟩, if_pos ⟨hd, .inl h0⟩]
      · rw [if_neg fun h => h0 h.2, if_neg fun h => h.2.elim h0 hx]
  · rw [if_neg fun h => hd h.1, if_neg fun h => hd h.1, if_neg fun h => hd h.1]

theorem read_update (t : Usage) (day : ℕ) {organizationId : ℕ} (horg : organizationId ≠ 0)
    (f : Counters → Counters) (counter : Counters → ℕ) (d x : ℕ) :
    (read (update t day organizationId f) d x counter : ℤ) = read t d x counter +
      if d = day ∧ (x = 0 ∨ x = organizationId) then gain f counter (select t day x) else 0 := by
  rw [read, select_update t day horg, read]
  split_ifs with h
  · rw [h.1]
    cases select t day x with
    | none => rfl
    | some c =>
      show (counter (f c) : ℤ) = counter c + (counter (f c) - counter c)
      omega
  · rw [add_zero]

theorem organizationsSum_modify (t : Usage) (day scope d : ℕ) (f : Counters → Counters)
    (counter : Counters → ℕ) :
    organizationsSum (t.modify (rowKey day scope) (bump f) (key_bump f)) d counter =
      organizationsSum t d counter +
        if d = day ∧ scope ≠ 0 then gain f counter (select t day scope) else 0 := by
  cases h : t.find? (rowKey day scope) with
  | none =>
    have hselect : select t day scope = none := by rw [select, h, Option.map_none]
    rw [hselect, gain_none, ite_self, add_zero, organizationsSum, Table.modify_eq_self h]
    rfl
  | some r =>
    obtain ⟨hday, hscope⟩ := find?_rowKey h
    have hselect : select t day scope = some r.counters := by rw [select, h, Option.map_some]
    rw [hselect, gain_some, organizationsSum, Table.sum_modify _ _ h]
    simp only [Table.share, bump, hday, hscope, decide_eq_true_eq]
    by_cases hd : d = day ∧ scope ≠ 0
    · rw [if_pos hd, if_pos ⟨hd.1.symm, hd.2⟩, if_pos ⟨hd.1.symm, hd.2⟩]
      simp only [organizationsSum]
      omega
    · have hd' : ¬(day = d ∧ scope ≠ 0) := fun hd' => hd ⟨hd'.1.symm, hd'.2⟩
      rw [if_neg hd, if_neg hd', if_neg hd']
      simp only [organizationsSum]
      omega

theorem organizationsSum_update (t : Usage) (day : ℕ) {organizationId : ℕ}
    (horg : organizationId ≠ 0) (f : Counters → Counters) (counter : Counters → ℕ) (d : ℕ) :
    organizationsSum (update t day organizationId f) d counter = organizationsSum t d counter +
      if d = day then gain f counter (select t day organizationId) else 0 := by
  rw [update, organizationsSum_modify, organizationsSum_modify, select_modify,
    if_neg (fun h => h.2 rfl : ¬(d = day ∧ (0 : ℕ) ≠ 0)),
    if_neg (fun h => horg h.2 : ¬(day = day ∧ organizationId = 0)), add_zero]
  by_cases hd : d = day
  · rw [if_pos ⟨hd, horg⟩, if_pos hd]
  · rw [if_neg fun h => hd h.1, if_neg hd]

theorem read_le_organizationsSum (t : Usage) (day : ℕ) {scope : ℕ} (hscope : scope ≠ 0)
    (counter : Counters → ℕ) : (read t day scope counter : ℤ) ≤ organizationsSum t day counter := by
  cases h : t.find? (rowKey day scope) with
  | none =>
    rw [read, select, h]
    exact Table.sum_nonneg _ _ fun r _ _ => Int.natCast_nonneg _
  | some r =>
    obtain ⟨hday, hr⟩ := find?_rowKey h
    have hother := Table.sum_other (fun r : UsageRow => r.usageDate = day ∧ r.scopeId ≠ 0)
      (fun r => (counter r.counters : ℤ)) h
    have hnonneg : 0 ≤ t.sum (fun b => (decide (b.usageDate = day ∧ b.scopeId ≠ 0) &&
        decide (Keyed.key b ≠ rowKey day scope))) fun r => (counter r.counters : ℤ) :=
      Table.sum_nonneg _ _ fun r _ _ => Int.natCast_nonneg _
    have hshare : Table.share (fun r : UsageRow => r.usageDate = day ∧ r.scopeId ≠ 0)
        (fun r => (counter r.counters : ℤ)) r = counter r.counters := by
      rw [Table.share, if_pos (decide_eq_true ⟨hday, hr ▸ hscope⟩)]
    rw [read, select, h, organizationsSum]
    show (counter r.counters : ℤ) ≤ _
    omega

end Vigabss.Traps
