import Mathlib.Data.List.MinMax
import Vigabss.Radius.Writes

/-!
# Vigabss.Attribution.Direct — who held a public address at an instant

The direct path of `lookupAttribution`: a session is a candidate when its evidence places the
address with it at or before the instant and its life reaches past it; the answer is certain when
there is one candidate and no other session of the address could have held it too.  The rules for
IPv4 and IPv6 are the same up to what it means to hold an address.
-/

namespace Vigabss.Attribution

open Vigabss.Lib Vigabss.Radius

/-- A public address, of IPv6 with the prefixes that contain it (`containingIpv6Prefixes`). -/
inductive Address where
  | v4 (ip : String)
  | v6 (ip : String) (prefixes : List String)
  deriving DecidableEq

/-- The row's address columns name the address, or a prefix around it. -/
def Address.heldBy : Address → ConnectionLog → Bool
  | v4 ip, row => row.framedIp = some ip
  | v6 ip prefixes, row =>
    row.framedIpv6Prefix.any (prefixes.contains ·) ||
      row.ipv6DelegatedPrefix.any (prefixes.contains ·) || decide (row.ipv6Address = some ip)

structure Lookup where
  organizationId : ℕ
  address : Address
  observedAt : ℤ

/-- The subscriber and the session that an answer names. -/
structure DirectAttribution where
  connectionLogId : ℕ
  clientId : ℕ
  contractId : ℕ
  username : String
  radiusSessionId : String
  sessionInstanceId : Option ℕ
  deriving DecidableEq

inductive Answer where
  | unavailable (reason : String)
  | ambiguous (reason : String) (candidateCount : ℕ)
  | matched (attribution : DirectAttribution)
  deriving DecidableEq

/-! ### Evidence -/

section Evidence

variable (db : Db) (lookup : Lookup) (row : ConnectionLog)

/-- Instants are picked by the order of the integers, the computable one. -/
local instance instantOrder : Preorder ℤ := instLatticeInt.toSemilatticeInf.toPreorder

/-- The evidence belongs to the row's session instance and names the address. -/
def evidenceOf (address : Address) (e : AccountingEvent) : Bool :=
  e.row.organizationId = row.organizationId ∧ e.row.sessionInstanceId = row.sessionInstanceId ∧
    address.heldBy e.row = true

/-- `assignment_pick`: the earliest evidence of the assignment, among what was known at the
instant. -/
def assignmentEvidence : Option AccountingEvent :=
  (db.evidence.filter fun e => evidenceOf row lookup.address e && decide
    (e.eventAt ≤ lookup.observedAt) && decide (e.observedAt ≤ lookup.observedAt)).argmin
    fun e => max e.eventAt e.observedAt

/-- `closure_pick`: the latest Stop of the assignment. -/
def closureEvidence : Option AccountingEvent :=
  (db.evidence.filter fun e => evidenceOf row lookup.address e &&
    decide (e.row.eventType = .stop)).reverse.argmax AccountingEvent.eventAt

end Evidence

/-! ### Candidates -/

section Candidates

variable (config : Config) (db : Db) (now : ℤ) (lookup : Lookup)

/-- The row's life reaches past the instant: it stopped after it, or is live and was heard of
since. -/
def reachesInstant (row : ConnectionLog) : Bool :=
  if row.isOpen then
    row.lastAccountingReceivedAt.any (fun t =>
      now - config.livenessMinutes * 60 * 1000 ≤ t ∧ lookup.observedAt ≤ t) &&
      row.lastAccountingAt.any fun t => lookup.observedAt ≤ t
  else
    (closureEvidence db lookup row).any fun e =>
      lookup.observedAt < e.eventAt ∧ lookup.observedAt < e.observedAt

/-- A row with complete evidence of a known subscriber. -/
def eligible (row : ConnectionLog) : Bool :=
  row.attributionEvidenceComplete && decide (row.clientId ≠ 0) && decide (row.contractId ≠ 0)

/-- The row as a candidate, with the evidence of its assignment. -/
def directCandidate (row : ConnectionLog) : Option (ConnectionLog × AccountingEvent) :=
  if row.organizationId = lookup.organizationId ∧ lookup.address.heldBy row = true ∧
      eligible row = true ∧ row.sessionInstanceId.isSome = true ∧
      reachesInstant config db now lookup row = true then
    (assignmentEvidence db lookup row).map (row, ·)
  else none

/-- `findDirectAssignments`. -/
def findDirectAssignments : List (ConnectionLog × AccountingEvent) :=
  db.logs.rows.filterMap (directCandidate config db now lookup)

/-- Another row of the address whose life could reach the instant: a closed one by its end, an open
one when it started after the assignment. -/
def blocks (found : ConnectionLog × AccountingEvent) (row : ConnectionLog) : Bool :=
  row.organizationId = lookup.organizationId ∧ lookup.address.heldBy row = true ∧
    row.id ≠ found.1.id ∧ row.eventAt ≤ lookup.observedAt ∧
    (row.isOpen = false ∧ lookup.observedAt ≤ row.lastAt ∨
      row.isOpen = true ∧ found.2.eventAt ≤ row.eventAt)

/-- `countOverlappingUnverifiedSessions`. -/
def countOverlappingUnverifiedSessions (found : ConnectionLog × AccountingEvent) : ℕ :=
  db.logs.rows.countP (blocks lookup found)

/-- `directAttribution`. -/
def directAttribution (row : ConnectionLog) : DirectAttribution where
  connectionLogId := row.id
  clientId := row.clientId
  contractId := row.contractId
  username := row.username
  radiusSessionId := row.acctSessionId.getD row.sessionId
  sessionInstanceId := row.sessionInstanceId

/-- The direct path of `lookupAttribution`. -/
def lookupDirect : Answer :=
  match findDirectAssignments config db now lookup with
  | [] => .unavailable "no_direct_assignment"
  | [found] =>
    let blockers := countOverlappingUnverifiedSessions db lookup found
    if 0 < blockers then .ambiguous "overlapping_unverified_session" (1 + blockers)
    else .matched (directAttribution found.1)
  | candidates => .ambiguous "multiple_attribution_candidates" candidates.length

end Candidates

/-! ### What a certain answer rests on -/

section Certain

variable {config : Config} {db : Db} {now : ℤ} {lookup : Lookup}

/-- What a candidate satisfies. -/
structure Candidate (config : Config) (db : Db) (now : ℤ) (lookup : Lookup) (row : ConnectionLog)
    (assignment : AccountingEvent) : Prop where
  mem : row ∈ db.logs.rows
  organization : row.organizationId = lookup.organizationId
  held : lookup.address.heldBy row = true
  complete : eligible row = true
  reaches : reachesInstant config db now lookup row = true
  assigned : assignmentEvidence db lookup row = some assignment

theorem candidate_of_mem {found : ConnectionLog × AccountingEvent}
    (h : found ∈ findDirectAssignments config db now lookup) :
    Candidate config db now lookup found.1 found.2 := by
  obtain ⟨row, hrow, hfound⟩ := List.mem_filterMap.1 h
  unfold directCandidate at hfound
  split_ifs at hfound with hcond
  obtain ⟨e, he, rfl⟩ := Option.map_eq_some_iff.1 hfound
  exact ⟨hrow, hcond.1, hcond.2.1, hcond.2.2.1, hcond.2.2.2.2, he⟩

/-- **A certain answer** names a candidate that no other row blocks. -/
theorem lookupDirect_matched {a : DirectAttribution}
    (h : lookupDirect config db now lookup = .matched a) :
    ∃ row assignment, a = directAttribution row ∧
      Candidate config db now lookup row assignment ∧
      ∀ other ∈ db.logs.rows, ¬ blocks lookup (row, assignment) other = true := by
  unfold lookupDirect at h
  split at h
  · cases h
  · rename_i found hfound
    dsimp only at h
    split_ifs at h with hblockers
    injection h with ha
    refine ⟨found.1, found.2, ha.symm, candidate_of_mem (by rw [hfound]; exact .head _), ?_⟩
    exact List.countP_eq_zero.1 (Nat.eq_zero_of_not_pos hblockers)
  · cases h

end Certain

end Vigabss.Attribution
