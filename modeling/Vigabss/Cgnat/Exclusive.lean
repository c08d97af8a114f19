import Mathlib
import Vigabss.Cgnat.Server

/-!
# Vigabss.Cgnat.Exclusive — one subscriber for a public port at an instant

`Exclusive` says that no two bindings of an organization share a public address, protocol and port
at any instant.  It holds along every run of batches side by side, where no allocation is taken next
to a binding that was allocated at the last instant of the time range: the open end of a new
allocation is compared with `<` to that same instant.
-/

namespace Vigabss.Cgnat

open Vigabss.Lib

/-! ### Validity -/

namespace StoredBinding

/-- The instants of `[allocated_at, released_at)`; an unreleased binding is open-ended. -/
def validity (row : StoredBinding) : Set ℤ :=
  {t | row.allocatedAt.ms ≤ t ∧ ∀ r ∈ row.releasedAt, t < r.ms}

def publicPorts (row : StoredBinding) : Set ℕ := Set.Icc row.publicPortStart row.publicPortEnd

/-- The bindings have the organization, the public address, the protocol and a port in common. -/
def SharesTuple (a b : StoredBinding) : Prop :=
  a.organizationId = b.organizationId ∧ a.publicIpv4 = b.publicIpv4 ∧ a.protocol = b.protocol ∧
    (a.publicPorts ∩ b.publicPorts).Nonempty

/-- `a` is `a₀`, or `a₀` with its validity cut short. -/
structure Narrows (a a₀ : StoredBinding) : Prop where
  id : a₀.id = a.id
  tuple : a₀.tupleLock = a.tupleLock
  ports : a₀.publicPorts = a.publicPorts
  validity : a.validity ⊆ a₀.validity

theorem SharesTuple.symm {a b : StoredBinding} (h : a.SharesTuple b) : b.SharesTuple a :=
  ⟨h.1.symm, h.2.1.symm, h.2.2.1.symm, by rw [Set.inter_comm]; exact h.2.2.2⟩

theorem SharesTuple.lock {a b : StoredBinding} (h : a.SharesTuple b) : a.tupleLock = b.tupleLock := by
  unfold tupleLock
  rw [h.1, h.2.1, h.2.2.1]

theorem Narrows.refl (a : StoredBinding) : a.Narrows a := ⟨rfl, rfl, rfl, subset_rfl⟩

theorem Narrows.trans {a b c : StoredBinding} (hab : a.Narrows b) (hbc : b.Narrows c) :
    a.Narrows c :=
  ⟨hbc.id.trans hab.id, hbc.tuple.trans hab.tuple, hbc.ports.trans hab.ports,
    hab.validity.trans hbc.validity⟩

theorem Narrows.shares {a a₀ b : StoredBinding} (h : a.Narrows a₀) (hs : a.SharesTuple b) :
    a₀.SharesTuple b := by
  have ht := h.tuple
  simp only [tupleLock, Lock.publicTuple.injEq] at ht
  obtain ⟨h1, h2, h3⟩ := ht
  exact ⟨h1.trans hs.1, h2.trans hs.2.1, h3.trans hs.2.2.1, by rw [h.ports]; exact hs.2.2.2⟩

end StoredBinding

open StoredBinding

/-- **No two bindings share a tuple at an instant.** -/
def Exclusive (bindings : Table StoredBinding) : Prop :=
  ∀ a ∈ bindings.rows, ∀ b ∈ bindings.rows, a ≠ b → a.SharesTuple b →
    Disjoint a.validity b.validity

theorem Exclusive.narrow {t : Table StoredBinding} (h : Exclusive t) {a a₀ b : StoredBinding}
    (ha : a₀ ∈ t.rows) (hb : b ∈ t.rows) (hn : a.Narrows a₀) (hne : a.id ≠ b.id)
    (hs : a.SharesTuple b) : Disjoint a.validity b.validity := by
  have hne' : a₀ ≠ b := by
    rintro rfl
    exact hne hn.id.symm
  exact (h a₀ ha b hb hne' (hn.shares hs)).mono_left hn.validity

theorem Exclusive.put {t : Table StoredBinding} (h : Exclusive t) {a : StoredBinding}
    (ha : ∀ b ∈ t.rows, b.id ≠ a.id → a.SharesTuple b → Disjoint a.validity b.validity) :
    Exclusive (t.put a) := by
  intro x hx y hy hne hs
  rcases Table.mem_put.1 hx with hxa | ⟨hxt, hxa⟩
  · rcases Table.mem_put.1 hy with hya | ⟨hyt, hya⟩
    · exact absurd (hxa.trans hya.symm) hne
    · subst hxa
      exact ha y hyt hya hs
  · rcases Table.mem_put.1 hy with hya | ⟨hyt, hya⟩
    · subst hya
      exact (ha x hxt hxa hs.symm).symm
    · exact h x hxt y hyt hne hs

/-! ### What a record does to the bindings -/

/-- The allocation meets no binding that was allocated at the last instant of the range. -/
def BelowLimit (db : Db) (organizationId : ℕ) (b : Binding) : Prop :=
  b.eventType = .allocate → ∀ row ∈ db.bindings.rows, row.organizationId = organizationId →
    row.publicIpv4 = b.publicIpv4 → row.protocol = b.protocol →
    row.publicPortStart ≤ b.publicPortEnd → b.publicPortStart ≤ row.publicPortEnd →
    row.allocatedAt.ms ≠ maxInstant

section Record

variable {settings : Config} {db : Db} {radius : Radius.Db} {now : ℤ}
  {organizationId apiTokenId bindingId : ℕ} {b : Binding} {config : Exporter} {w : Writes}

/-- An allocation that passed the check stays apart from every binding allocated before the last
instant. -/
theorem allocation_disjoint {session : Radius.ConnectionLog} {row : StoredBinding}
    (hb : b.eventType = .allocate)
    (hnominal : overlapsNominally organizationId b row = false)
    (hs : (allocationRow organizationId b bindingId apiTokenId config session).SharesTuple row)
    (hlimit : row.allocatedAt.ms ≠ maxInstant) :
    Disjoint (allocationRow organizationId b bindingId apiTokenId config session).validity
      row.validity := by
  obtain ⟨horg, hip, hproto, p, ⟨hp1, hp2⟩, hp3, hp4⟩ := hs
  simp only [allocationRow] at horg hip hproto hp1 hp2
  have hlt : row.allocatedAt.ms < maxInstant := lt_of_le_of_ne row.allocatedAt.le_max hlimit
  have hreleased : ¬ row.releasedAt.all (fun r => decide (b.allocatedAt.ms < r.ms)) = true := by
    intro hall
    unfold overlapsNominally at hnominal
    rw [b.releasedAt_eq_none hb] at hnominal
    simp only [Option.map_none, Option.getD_none, decide_eq_false_iff_not] at hnominal
    exact hnominal ⟨horg.symm, hip.symm, hproto.symm, hp3.trans hp2, hp1.trans hp4, hlt, hall⟩
  -- the other binding was released before this allocation
  cases hr : row.releasedAt with
  | none => simp [hr] at hreleased
  | some r =>
    have hle : r.ms ≤ b.allocatedAt.ms := by simpa [hr] using hreleased
    rw [Set.disjoint_left]
    rintro t ⟨hat, -⟩ ⟨-, htr⟩
    have := htr r hr
    simp only [allocationRow] at hat
    omega

theorem releasedRow_narrows {projection : StoredBinding} (hopen : projection.releasedAt = none) :
    (releasedRow b projection).Narrows projection := by
  refine ⟨rfl, rfl, rfl, fun t ht => ⟨ht.1, ?_⟩⟩
  simp [hopen]

/-- What a stored record writes to the bindings: a row apart from the others whose tuple it locks,
or a stored row cut short. -/
theorem Stores.binding_cases
    (h : Stores settings db radius now organizationId apiTokenId bindingId b config w) :
    (b.eventType = .allocate ∧ ∃ session,
        w.binding = allocationRow organizationId b bindingId apiTokenId config session ∧
        ∀ row ∈ db.bindings.rows, overlapsNominally organizationId b row = false) ∨
      b.eventType = .release ∧ ∃ projection ∈ db.bindings.rows,
        projection.releasedAt = none ∧ w.binding = releasedRow b projection := by
  have hbinding := h.binding
  unfold writeBinding at hbinding
  split at hbinding
  · rename_i hb
    obtain ⟨-, ⟨session, -, hrow⟩, hnominal⟩ := allocate_ok hbinding
    exact .inl ⟨hb, session, hrow, hnominal⟩
  · rename_i hb
    obtain ⟨projection, hp, hopen, -, hrow⟩ := release_ok hbinding
    have hmem : projection ∈ db.allocations organizationId config.id b.bindingKey := by
      rw [hp]
      exact List.mem_singleton_self projection
    exact .inr ⟨hb, projection, (mem_allocations.1 hmem).1, hopen, hrow⟩

theorem Stores.exclusive
    (h : Stores settings db radius now organizationId apiTokenId bindingId b config w)
    (hex : Exclusive db.bindings) (hlimit : BelowLimit db organizationId b) :
    Exclusive (db.store w).bindings := by
  refine hex.put fun row hrow hne hs => ?_
  rcases h.binding_cases with ⟨hb, session, hw, hnominal⟩ | ⟨hb, p, hp, hopen, hw⟩
  · rw [hw] at hs ⊢
    refine allocation_disjoint hb (hnominal row hrow) hs ?_
    obtain ⟨horg, hip, hproto, q, ⟨hq1, hq2⟩, hq3, hq4⟩ := hs
    exact hlimit hb row hrow horg.symm hip.symm hproto.symm (hq3.trans hq2) (hq1.trans hq4)
  · have hn : w.binding.Narrows p := hw ▸ releasedRow_narrows hopen
    exact hex.narrow hp hrow hn (fun hid => hne hid.symm) hs

end Record

/-! ### Transactions -/

/-- The bindings that a transaction has written. -/
def boundRows (ws : List Write) : List StoredBinding :=
  ws.filterMap fun
    | .record w => some w.binding
    | .save _ => none

theorem bindings_foldl (ws : List Write) (db : Db) :
    (ws.foldl Db.apply db).bindings = (boundRows ws).foldl Table.put db.bindings := by
  induction ws generalizing db with
  | nil => rfl
  | cons w ws ih =>
    rw [List.foldl_cons, ih]
    cases w <;> rfl

theorem mem_boundRows {ws : List Write} {id : ℕ} :
    id ∈ (boundRows ws).map Keyed.key ↔ Lock.binding id ∈ locksOf Write.locks ws := by
  simp only [boundRows, List.mem_map, List.mem_filterMap, mem_locksOf]
  constructor
  · rintro ⟨row, ⟨w, hw, hrow⟩, rfl⟩
    cases w with
    | record w =>
      obtain rfl := Option.some.inj hrow
      exact ⟨_, hw, by simp [Write.locks, Keyed.key]⟩
    | save => cases hrow
  · rintro ⟨w, hw, hid⟩
    cases w with
    | record w =>
      refine ⟨w.binding, ⟨_, hw, rfl⟩, ?_⟩
      simp only [Write.locks] at hid
      split_ifs at hid
      · simpa [tupleLock, Keyed.key, eq_comm] using hid
      · simpa [Keyed.key, eq_comm] using hid
    | save => simp [Write.locks] at hid

/-- A written binding is a stored one cut short, or its public tuple is locked. -/
def Owned (db : Db) (ws : List Write) : Prop :=
  ∀ a ∈ (ws.foldl Db.apply db).bindings.rows, Lock.binding a.id ∈ locksOf Write.locks ws →
    (∃ a₀ ∈ db.bindings.rows, a.Narrows a₀) ∨ a.tupleLock ∈ locksOf Write.locks ws

theorem owned_nil (db : Db) : Owned db [] := by
  intro a _ hlock
  simp [locksOf] at hlock

section Transactions

variable {db : Db} {ws us : List Write} {a : StoredBinding}

theorem mem_view_of_written (hlock : Lock.binding a.id ∈ locksOf Write.locks us) :
    a ∈ (us.foldl Db.apply (ws.foldl Db.apply db)).bindings.rows ↔
      a ∈ (us.foldl Db.apply db).bindings.rows := by
  rw [bindings_foldl us, bindings_foldl us]
  exact Table.mem_foldl_put_of_mem (mem_boundRows.2 hlock)

theorem mem_view_of_unwritten (hlock : Lock.binding a.id ∉ locksOf Write.locks us) :
    a ∈ (us.foldl Db.apply db).bindings.rows ↔ a ∈ db.bindings.rows := by
  rw [bindings_foldl us]
  exact Table.mem_foldl_put_of_not_mem fun h => hlock (mem_boundRows.1 h)

/-- Of two transactions with different locks, what one has written stays apart from what the
other has written or left alone. -/
theorem disjoint_across (hws : Exclusive (ws.foldl Db.apply db).bindings)
    (hus : Exclusive (us.foldl Db.apply db).bindings) (hows : Owned db ws) (hous : Owned db us)
    (hdisj : List.Disjoint (locksOf Write.locks ws) (locksOf Write.locks us))
    {b : StoredBinding} (ha : a ∈ (us.foldl Db.apply db).bindings.rows)
    (hau : Lock.binding a.id ∈ locksOf Write.locks us)
    (hb : b ∈ (ws.foldl Db.apply db).bindings.rows)
    (hbu : Lock.binding b.id ∉ locksOf Write.locks us) (hs : a.SharesTuple b) :
    Disjoint a.validity b.validity := by
  have hne : a.id ≠ b.id := fun hid => hbu (hid ▸ hau)
  rcases hous a ha hau with ⟨a₀, ha₀, hn⟩ | hlock
  · -- the row that it cuts short is there for the other, too
    have hmem : a₀ ∈ (ws.foldl Db.apply db).bindings.rows := by
      refine (mem_view_of_unwritten fun h => ?_).2 ha₀
      rw [hn.id] at h
      exact hdisj h hau
    exact hws.narrow hmem hb hn hne hs
  · by_cases hbw : Lock.binding b.id ∈ locksOf Write.locks ws
    · rcases hows b hb hbw with ⟨b₀, hb₀, hn⟩ | hlockb
      · have hmem : b₀ ∈ (us.foldl Db.apply db).bindings.rows :=
          (mem_view_of_unwritten (by rw [hn.id]; exact hbu)).2 hb₀
        exact (hus.narrow hmem ha hn hne.symm hs.symm).symm
      · -- both would hold the lock of the tuple
        rw [hs.lock] at hlock
        exact (hdisj hlockb hlock).elim
    · have hmem := (mem_view_of_unwritten hbu).2 ((mem_view_of_unwritten hbw).1 hb)
      exact hus a ha b hmem (fun h => hne (congrArg _ h)) hs

theorem exclusive_merges :
    Merges Db.apply Write.locks (fun db => Exclusive db.bindings) Owned := by
  intro db ws hws hows us hus hous hdisj
  have key : ∀ a ∈ (us.foldl Db.apply (ws.foldl Db.apply db)).bindings.rows,
      (Lock.binding a.id ∈ locksOf Write.locks us ∧ a ∈ (us.foldl Db.apply db).bindings.rows) ∨
        Lock.binding a.id ∉ locksOf Write.locks us ∧
          a ∈ (ws.foldl Db.apply db).bindings.rows := by
    intro a ha
    by_cases hau : Lock.binding a.id ∈ locksOf Write.locks us
    · exact .inl ⟨hau, (mem_view_of_written hau).1 ha⟩
    · exact .inr ⟨hau, (mem_view_of_unwritten hau).1 ha⟩
  refine ⟨fun a ha b hb hne hs => ?_, fun a ha hau => ?_⟩
  · rcases key a ha with ⟨hau, ha⟩ | ⟨hau, ha⟩
    · rcases key b hb with ⟨hbu, hb⟩ | ⟨hbu, hb⟩
      · exact hus a ha b hb hne hs
      · exact disjoint_across hws hus hows hous hdisj ha hau hb hbu hs
    · rcases key b hb with ⟨hbu, hb⟩ | ⟨hbu, hb⟩
      · exact (disjoint_across hws hus hows hous hdisj hb hbu ha hau hs.symm).symm
      · exact hws a ha b hb hne hs
  · rcases hous a ((mem_view_of_written hau).1 ha) hau with ⟨a₀, ha₀, hn⟩ | hlock
    · refine .inl ⟨a₀, (mem_view_of_unwritten fun h => ?_).2 ha₀, hn⟩
      rw [hn.id] at h
      exact hdisj h hau
    · exact .inr hlock

end Transactions

/-! ### The server -/

/-- **The invariant**: exclusive in the stored state and in the view of every batch. -/
abbrev ExclusiveServer (s : Server) : Prop :=
  Isolated Db.apply Write.locks (fun db => Exclusive db.bindings) Owned s.ledger

section Server

variable {settings : Config} {owners : TokenOwners} {s : Server}

/-- A stored record is owned by its transaction. -/
theorem Owned.record {db : Db} {ws : List Write} {radius : Radius.Db} {now : ℤ}
    {organizationId apiTokenId bindingId : ℕ} {b : Binding} {config : Exporter} {w : Writes}
    (h : Owned db ws) (hw : Stores settings (ws.foldl Db.apply db) radius now organizationId
      apiTokenId bindingId b config w) : Owned db (ws ++ [.record w]) := by
  intro a ha hlock
  rw [foldl_record] at ha
  have hmono : ∀ k ∈ locksOf Write.locks ws, k ∈ locksOf Write.locks (ws ++ [.record w]) := by
    intro k hk
    rw [locksOf_append]
    exact List.mem_append_left _ hk
  -- an older write of the transaction, or a row that it has not written yet
  have hold : ∀ p ∈ (ws.foldl Db.apply db).bindings.rows,
      (∃ a₀ ∈ db.bindings.rows, p.Narrows a₀) ∨
        p.tupleLock ∈ locksOf Write.locks (ws ++ [.record w]) := by
    intro p hp
    by_cases hpw : Lock.binding p.id ∈ locksOf Write.locks ws
    · exact (h p hp hpw).imp_right (hmono _)
    · exact .inl ⟨p, (mem_view_of_unwritten hpw).1 hp, .refl p⟩
  rcases Table.mem_put.1 ha with rfl | ⟨ha, -⟩
  · rcases hw.binding_cases with ⟨hb, -, -, -⟩ | ⟨-, p, hp, hopen, hrow⟩
    · refine .inr ?_
      rw [locksOf_append]
      refine List.mem_append_right _ (mem_locksOf.2 ⟨_, List.mem_singleton_self _, ?_⟩)
      simp [Write.locks, hw.event, hb]
    · have hn : w.binding.Narrows p := hrow ▸ releasedRow_narrows hopen
      rcases hold p hp with ⟨a₀, ha₀, hn₀⟩ | hlockp
      · exact .inl ⟨a₀, ha₀, hn.trans hn₀⟩
      · exact .inr (hn.tuple ▸ hlockp)
  · exact hold a ha

theorem ExclusiveServer.start : ExclusiveServer Server.start :=
  isolated_start fun a ha => by simp [Table.empty] at ha

/-- A batch takes no allocation next to a binding from the last instant of the range. -/
def KeepsExclusive (s : Server) : Act → Prop
  | .next _ _ batch => ∀ t ∈ s.ledger.inFlight.find? batch, ∀ record ∈ t.task.records.head?,
      BelowLimit (t.view Db.apply s.ledger.stored) t.task.organizationId record.2
  | _ => True

instance (db : Db) (organizationId : ℕ) (b : Binding) :
    Decidable (BelowLimit db organizationId b) := by
  unfold BelowLimit
  infer_instance

instance (s : Server) (act : Act) : Decidable (KeepsExclusive s act) := by
  unfold KeepsExclusive
  split <;> infer_instance

/-- **One act** keeps the bindings exclusive. -/
theorem ExclusiveServer.step (h : ExclusiveServer s) {act : Act} (hact : KeepsExclusive s act) :
    ExclusiveServer (s.step settings owners act) := by
  refine isolated_step owned_nil exclusive_merges act
    (fun t ht record htakes hview howned radius now bindingId config w hw => ?_)
    (fun c _ hstored => ?_) h
  · have hlimit : BelowLimit (t.view Db.apply s.ledger.stored) t.task.organizationId record.2 := by
      cases act with
      | next => exact hact t htakes.1 record htakes.2
      | _ => exact htakes.elim
    exact ⟨hw.exclusive hview hlimit, howned.record hw⟩
  · -- saving a configuration writes no binding
    have howned : Owned s.ledger.stored [.save c] := by
      intro a _ hlock
      simp [locksOf, Write.locks] at hlock
    exact ⟨hstored, exclusive_merges _ _ hstored howned⟩

/-- **No two stored bindings overlap**, in any interleaving of batches and configuration changes
that keeps clear of the last instant of the time range. -/
theorem bindings_exclusive_always (settings : Config) (owners : TokenOwners) (acts : List Act)
    (hacts : StepsMeet (Server.step settings owners) KeepsExclusive Server.start acts) :
    Always (Server.step settings owners) (fun s => Exclusive s.ledger.stored.bindings)
      Server.start acts :=
  (always_of_step (P := ExclusiveServer) (fun _ _ h hact => h.step hact) .start hacts).mono
    fun _ h => h.stored

/-- A port is allocated, released and allocated again; the second batch starts beside the first. -/
def reallocatedActs : List Act :=
  [.save 1000000 sampleRegistry 1 (sampleBody 1 1) (some 7),
    .submit 2000000 1 1 [sampleRecord "allocate" "k1" 1 2000000 none],
    .submit 2500000 1 1 [sampleRecord "release" "k1" 2 2000000 (some 2500000),
      sampleRecord "allocate" "k2" 3 2500000 none],
    .next 2600000 (sampleRadius 1000000 2600000) 1, .next 2600000 (sampleRadius 1000000 2600000) 2,
    .finish 1, .next 2600000 (sampleRadius 1000000 2600000) 2,
    .next 2600000 (sampleRadius 1000000 2600000) 2, .finish 2]

theorem bindings_exclusive_always_reallocated :
    Always (Server.step sampleSettings sampleOwners)
      (fun s => Exclusive s.ledger.stored.bindings) Server.start reallocatedActs :=
  bindings_exclusive_always sampleSettings sampleOwners reallocatedActs (by decide)

/-- Two allocations of one port at 2038-01-19T03:14:07Z, 100 seconds before it. -/
def limitActs : List Act :=
  [.save 2147483000000 sampleRegistry 1 (sampleBody 1 1) (some 7),
    .submit 2147483547000 1 1 [sampleRecord "allocate" "k1" 1 maxInstant none,
      sampleRecord "allocate" "k2" 2 maxInstant none],
    .next 2147483547000 (sampleRadius 2147483000000 2147483547000) 1,
    .next 2147483547000 (sampleRadius 2147483000000 2147483547000) 1, .finish 1]

/-- Both are stored, open-ended, for the same port. -/
theorem bindings_overlap_at_limit :
    ¬ Always (Server.step sampleSettings sampleOwners)
      (fun s => Exclusive s.ledger.stored.bindings) Server.start limitActs := by
  intro h
  have hrows : ∃ a ∈ (run (Server.step sampleSettings sampleOwners) Server.start
        limitActs).ledger.stored.bindings.rows,
      ∃ b ∈ (run (Server.step sampleSettings sampleOwners) Server.start
        limitActs).ledger.stored.bindings.rows,
      a ≠ b ∧ a.organizationId = b.organizationId ∧ a.publicIpv4 = b.publicIpv4 ∧
        a.protocol = b.protocol ∧ (a.publicPortStart = 5000 ∧ a.publicPortEnd = 5000) ∧
        (b.publicPortStart = 5000 ∧ b.publicPortEnd = 5000) ∧
        (a.allocatedAt.ms = maxInstant ∧ a.releasedAt = none) ∧
        b.allocatedAt.ms = maxInstant ∧ b.releasedAt = none := by
    decide
  obtain ⟨a, ha, b, hb, hne, horg, hip, hproto, ⟨ha1, ha2⟩, ⟨hb1, hb2⟩, ⟨ha3, ha4⟩, hb3, hb4⟩ :=
    hrows
  have hports : (5000 : ℕ) ∈ a.publicPorts ∩ b.publicPorts := by
    simp [publicPorts, ha1, ha2, hb1, hb2]
  have hdisj := h.last a ha b hb hne ⟨horg, hip, hproto, 5000, hports⟩
  have hamax : maxInstant ∈ a.validity := ⟨ha3.le, by simp [ha4]⟩
  have hbmax : maxInstant ∈ b.validity := ⟨hb3.le, by simp [hb4]⟩
  exact Set.disjoint_left.1 hdisj hamax hbmax

end Server

end Vigabss.Cgnat
