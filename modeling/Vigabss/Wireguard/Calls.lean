import Vigabss.Wireguard.Tunnels

/-!
# Vigabss.Wireguard.Calls — what each call leaves

The rows that are live after each statement, the address that is allocated, and the outcomes a call
can have, each with what the call has checked.
-/

namespace Vigabss.Wireguard

open Vigabss.Lib

/-! ### The allocated address -/

theorem toNat_and_netMask (x : BitVec 32) {len : ℕ} (hlen : len ≤ 32) :
    (x &&& netMask len).toNat = x.toNat / 2 ^ (32 - len) * 2 ^ (32 - len) := by
  refine Nat.eq_of_testBit_eq fun i => ?_
  rw [BitVec.testBit_toNat, BitVec.getLsbD_and, getLsbD_netMask hlen, Nat.testBit_mul_two_pow,
    Nat.testBit_div_two_pow, BitVec.testBit_toNat]
  by_cases hi : 32 - len ≤ i
  · rw [show i - (32 - len) + (32 - len) = i by omega]
    by_cases hwidth : i < 32
    · simp [hi, hwidth]
    · simp [hwidth, BitVec.getLsbD_of_ge x i (by omega)]
  · simp [hi]

theorem toNat_hostMask {shift : ℕ} (hshift : shift ≤ 32) :
    (if 32 ≤ shift then 0xffffffff#32 else (1#32 <<< shift) - 1#32).toNat = 2 ^ shift - 1 := by
  split_ifs with h
  · obtain rfl : shift = 32 := le_antisymm hshift h
    rfl
  · have hlt : 2 ^ shift < 2 ^ 32 := Nat.pow_lt_pow_right (by omega) (by omega)
    have hpos := Nat.two_pow_pos shift
    rw [BitVec.toNat_sub, BitVec.toNat_shiftLeft]
    simp only [BitVec.toNat_ofNat, Nat.shiftLeft_eq]
    omega

theorem not_hostMask {len : ℕ} (hlen : len ≤ 32) :
    ~~~(if 32 ≤ 32 - len then 0xffffffff#32 else (1#32 <<< (32 - len)) - 1#32) = netMask len := by
  ext i hi
  rw [← BitVec.getLsbD_eq_getElem, ← BitVec.getLsbD_eq_getElem, BitVec.getLsbD_not,
    ← BitVec.testBit_toNat, toNat_hostMask (by omega), Nat.testBit_two_pow_sub_one,
    getLsbD_netMask hlen, ← decide_not, ← Bool.decide_and]
  exact decide_eq_decide.2 (by omega)

/-- What lies between the network and the broadcast address is in the subnet. -/
theorem covers_of_range {s : Subnet} (hs : s.length ≤ 32) {n : ℕ}
    (hlow : (subnetToRange s).1.toNat ≤ n) (hhigh : n ≤ (subnetToRange s).2.toNat) :
    s.Covers (BitVec.ofNat 32 n) := by
  have hwidth : n < 2 ^ 32 := lt_of_le_of_lt hhigh (subnetToRange s).2.isLt
  have hpos : 0 < 2 ^ (32 - s.length) := Nat.two_pow_pos _
  have hnetwork : (subnetToRange s).1.toNat = s.address.toNat / 2 ^ (32 - s.length) *
      2 ^ (32 - s.length) := by
    rw [← toNat_and_netMask _ hs, ← not_hostMask hs]
    rfl
  have hbroadcast : (subnetToRange s).2.toNat / 2 ^ (32 - s.length) =
      s.address.toNat / 2 ^ (32 - s.length) := by
    have hor : (subnetToRange s).2 = (subnetToRange s).1 ||| ~~~netMask s.length := by
      rw [← not_hostMask hs, BitVec.not_not]
      rfl
    have hzero : (~~~netMask s.length).toNat / 2 ^ (32 - s.length) = 0 := by
      rw [← not_hostMask hs, BitVec.not_not, toNat_hostMask (by omega)]
      exact Nat.div_eq_of_lt (by omega)
    rw [hor, BitVec.toNat_or, ← Nat.shiftRight_eq_div_pow, Nat.shiftRight_or_distrib,
      Nat.shiftRight_eq_div_pow, Nat.shiftRight_eq_div_pow, hzero, hnetwork, Nat.or_zero,
      Nat.mul_div_cancel _ hpos]
  have hblock : n / 2 ^ (32 - s.length) = s.address.toNat / 2 ^ (32 - s.length) := by
    refine le_antisymm ?_ ?_
    · rw [← hbroadcast]
      exact Nat.div_le_div_right hhigh
    · rw [Nat.le_div_iff_mul_le hpos, ← hnetwork]
      exact hlow
  refine BitVec.eq_of_toNat_eq ?_
  rw [toNat_and_netMask _ hs, toNat_and_netMask _ hs, BitVec.toNat_ofNat, Nat.mod_eq_of_lt hwidth,
    hblock]

theorem allocateTunnelIp_some {cfg : WireguardConfig} {db : WgDb} {ip : BitVec 32}
    (h : allocateTunnelIp cfg db = some ip) :
    cfg.serverSubnet.Covers ip ∧ ∀ t ∈ db.live, t.tunnel_address ≠ ip := by
  obtain ⟨n, hn, rfl⟩ := Option.map_eq_some_iff.1 h
  obtain ⟨⟨hlow, hhigh, -⟩, hfree, -⟩ := firstFit_some hn
  refine ⟨covers_of_range cfg.fits (by omega) (by omega), fun t ht => ?_⟩
  simpa using List.all_eq_true.1 hfree t ht

/-! ### The live rows -/

section Rows

variable {db : WgDb} {t u : NasWgTunnel} {id nasId now : ℕ}

theorem mem_live : t ∈ db.live ↔ t ∈ db.tunnels.rows ∧ t.deleted = false := by
  rw [WgDb.live, List.mem_filter, decide_eq_true_eq]

@[simp] theorem live_asOf (call : WgCall) : (db.asOf call).live = db.live := by
  cases call <;> rfl

@[simp] theorem loadTunnel_asOf (call : WgCall) :
    (db.asOf call).loadTunnel nasId = db.loadTunnel nasId := by
  cases call <;> rfl

@[simp] theorem revivable_asOf (call : WgCall) :
    (db.asOf call).revivable nasId = db.revivable nasId := by
  cases call <;> rfl

theorem eq_of_live (ht : t ∈ db.live) (hu : u ∈ db.live) (h : t.id = u.id) : t = u :=
  Table.eq_of_key_eq (mem_live.1 ht).1 (mem_live.1 hu).1 h

theorem loadTunnel_some (h : db.loadTunnel nasId = some t) : t ∈ db.live ∧ t.nas_id = nasId :=
  ⟨List.mem_of_find?_eq_some h, by simpa using List.find?_some h⟩

theorem not_clashes {tunnelIp : BitVec 32} : db.clashes nasId tunnelIp = false ↔
    ∀ t ∈ db.live, t.nas_id ≠ nasId ∧ t.tunnel_address ≠ tunnelIp := by
  simp [WgDb.clashes]

theorem mem_live_create {tunnelIp : BitVec 32} :
    u ∈ (db.create nasId tunnelIp now).live ↔
      u ∈ db.live ∨ u = newTunnel nasId tunnelIp now db.tunnels.nextId := by
  rw [mem_live, mem_live, WgDb.create, Table.mem_insert, or_and_right]
  refine or_congr_right ⟨fun h => h.1, fun h => ⟨h, ?_⟩⟩
  rw [h, newTunnel]

theorem mem_live_store {subnets : List Subnet} (ht : t ∈ db.live) :
    u ∈ (db.storeSubnets t.id subnets now).live ↔ u ∈ db.live ∧ u.id ≠ t.id ∨
      u = { t with routed_subnets := subnets.map Subnet.text, updated_at := now } := by
  obtain ⟨hrow, hlive⟩ := mem_live.1 ht
  have hfind : db.tunnels.find? t.id = some t := Table.find?_key hrow
  rw [mem_live, mem_live, WgDb.storeSubnets, Table.mem_modify, hfind, or_and_right, and_right_comm]
  refine or_congr_right ⟨?_, ?_⟩
  · rintro ⟨⟨b, hb, rfl⟩, -⟩
    obtain rfl := Option.some.inj hb
    rfl
  · rintro rfl
    exact ⟨⟨t, rfl, rfl⟩, hlive⟩

theorem mem_live_revive (ht : t ∈ db.tunnels.rows) (hdeleted : t.deleted = true) :
    u ∈ (db.setDeleted t.id false now).live ↔
      u ∈ db.live ∨ u = { t with deleted := false, updated_at := now } := by
  have hfind : db.tunnels.find? t.id = some t := Table.find?_key ht
  rw [mem_live, mem_live, WgDb.setDeleted, Table.mem_modify, hfind, or_and_right]
  refine or_congr ⟨fun h => ⟨h.1.1, h.2⟩, fun h => ⟨⟨h.1, ?_⟩, h.2⟩⟩ ⟨?_, ?_⟩
  · rintro hid
    obtain rfl := Table.eq_of_key_eq h.1 ht hid
    rw [hdeleted] at h
    cases h.2
  · rintro ⟨⟨b, hb, rfl⟩, -⟩
    obtain rfl := Option.some.inj hb
    rfl
  · rintro rfl
    exact ⟨⟨t, rfl, rfl⟩, rfl⟩

theorem mem_live_delete : u ∈ (db.setDeleted id true now).live ↔ u ∈ db.live ∧ u.id ≠ id := by
  rw [mem_live, mem_live, WgDb.setDeleted, Table.mem_modify, or_and_right, and_right_comm]
  refine or_iff_left ?_
  rintro ⟨⟨b, -, rfl⟩, hlive⟩
  cases hlive

theorem mem_live_deleteAll {ts : List NasWgTunnel} :
    u ∈ (ts.foldl (fun db t => db.setDeleted t.id true now) db).live ↔
      u ∈ db.live ∧ ∀ t ∈ ts, u.id ≠ t.id := by
  induction ts generalizing db with
  | nil => simp
  | cons t ts ih => rw [List.foldl_cons, ih, mem_live_delete, List.forall_mem_cons, and_assoc]

theorem ne_of_deleted (ht : t ∈ db.tunnels.rows) (hdeleted : t.deleted = true)
    (hu : u ∈ db.live) : u.id ≠ t.id := by
  intro hid
  obtain ⟨hrow, hlive⟩ := mem_live.1 hu
  obtain rfl := Table.eq_of_key_eq hrow ht hid
  rw [hlive] at hdeleted
  cases hdeleted

theorem mem_live_teardown (cfg : WireguardConfig) :
    u ∈ (teardownNas cfg db nasId now).1.live ↔ u ∈ db.live ∧ u.nas_id ≠ nasId := by
  show u ∈ (List.foldl _ db _).live ↔ _
  rw [mem_live_deleteAll]
  refine and_congr_right fun hu => ⟨fun h hnas => ?_, fun h t ht hid => ?_⟩
  · exact h u (List.mem_filter.2 ⟨hu, by simpa using hnas⟩) rfl
  · obtain ⟨ht, hnas⟩ := List.mem_filter.1 ht
    rw [eq_of_live hu ht hid] at h
    exact h (by simpa using hnas)

theorem revivable_some (h : db.revivable nasId = some t) :
    t ∈ db.tunnels.rows ∧ t.nas_id = nasId ∧ t.deleted = true ∧ db.loadTunnel nasId = none := by
  unfold WgDb.revivable at h
  split_ifs at h with hlive
  have hmem := (List.mem_insertionSort newerFirst).1 (List.mem_of_mem_head? h)
  obtain ⟨hrow, hcond⟩ := List.mem_filter.1 hmem
  rw [decide_eq_true_eq] at hcond
  exact ⟨hrow, hcond.1, hcond.2, by simpa using hlive⟩

end Rows

/-! ### The outcomes of a call -/

/-- What a call leaves, with what it has checked. -/
inductive Leaves (cfg : WireguardConfig) (db : WgDb) : WgCall → WgDb → List HubCommand → Prop
  | nothing {call : WgCall} (hcall : ∀ nasId now, call ≠ .teardownNas nasId now) :
      Leaves cfg db call (db.asOf call) []
  | synced {nas : Nas} {pre : Option (BitVec 32)} {now : ℕ} {t : NasWgTunnel}
      (ht : db.loadTunnel nas.id = some t) :
      Leaves cfg db (.provisionDesiredState nas pre now)
        (db.asOf (.provisionDesiredState nas pre now)) (t.sync cfg)
  | created {nas : Nas} {pre : Option (BitVec 32)} {now : ℕ} {ip : BitVec 32}
      (hnone : db.loadTunnel nas.id = none)
      (hip : (givenIp nas pre <|> allocateTunnelIp cfg db) = some ip)
      (hfree : db.clashes nas.id ip = false) :
      Leaves cfg db (.provisionDesiredState nas pre now)
        ((db.asOf (.provisionDesiredState nas pre now)).create nas.id ip now)
        ((newTunnel nas.id ip now db.tunnels.nextId).sync cfg)
  | confirmed {nasId : ℕ} {requested : List String} {now : ℕ} {subnets : List Subnet}
      {t : NasWgTunnel} (hok : normalizeRoutedSubnets requested = .ok subnets)
      (ht : db.loadTunnel nasId = some t)
      (hfree : ∀ s ∈ subnets, ∀ r ∈ db.taken cfg t, overlapsSubnet r s = false) :
      Leaves cfg db (.confirmRoutes nasId requested now) (db.storeSubnets t.id subnets now)
        (syncPeer cfg t.nas_public_key t.tunnel_address subnets)
  | tornDown (nasId now : ℕ) :
      Leaves cfg db (.teardownNas nasId now)
        (teardownNas cfg (db.asOf (.teardownNas nasId now)) nasId now).1
        (teardownNas cfg (db.asOf (.teardownNas nasId now)) nasId now).2
  | revived {nasId now : ℕ} {t : NasWgTunnel} (ht : db.revivable nasId = some t)
      (hfree : db.clashes nasId t.tunnel_address = false) :
      Leaves cfg db (.restoreNas nasId now)
        ((db.asOf (.restoreNas nasId now)).setDeleted t.id false now) (t.sync cfg)

section Outcomes

variable {cfg : WireguardConfig} {db db' : WgDb} {commands : List HubCommand}

theorem leaves_provision {nas : Nas} {pre : Option (BitVec 32)} {now : ℕ}
    (h : provisionDesiredState cfg (db.asOf (.provisionDesiredState nas pre now)) nas pre now =
      .ok (db', commands)) :
    Leaves cfg db (.provisionDesiredState nas pre now) db' commands := by
  unfold provisionDesiredState at h
  split at h
  · rename_i t ht
    cases h
    exact .synced ht
  · rename_i hnone
    split at h
    · cases h
    · rename_i ip hip
      split_ifs at h with hclash
      cases h
      exact .created hnone hip (Bool.not_eq_true _ ▸ hclash)

theorem leaves_confirm {nasId : ℕ} {requested : List String} {now : ℕ}
    (h : confirmRoutes cfg db nasId requested now = .ok (db', commands)) :
    Leaves cfg db (.confirmRoutes nasId requested now) db' commands := by
  unfold confirmRoutes at h
  split at h
  · cases h
  · rename_i subnets hok
    split at h
    · cases h
    · rename_i t ht
      split at h
      · cases h
      · rename_i hfree
        cases h
        refine .confirmed hok ht fun s hs r hr => ?_
        have hnone := List.find?_eq_none.1 hfree s hs
        rw [Bool.not_eq_true, List.any_eq_false] at hnone
        exact Bool.not_eq_true _ ▸ hnone r hr

theorem leaves_restore {nasId now : ℕ}
    (h : restoreNas cfg (db.asOf (.restoreNas nasId now)) nasId now = .ok (db', commands)) :
    Leaves cfg db (.restoreNas nasId now) db' commands := by
  unfold restoreNas at h
  split at h
  · cases h
    exact .nothing nofun
  · rename_i t ht
    split_ifs at h with hclash
    cases h
    exact .revived ht (Bool.not_eq_true _ ▸ hclash)

end Outcomes

/-- **Every call has one of these outcomes.** -/
theorem leaves_run (cfg : WireguardConfig) (db : WgDb) (call : WgCall) :
    Leaves cfg db call (call.run cfg db).1 (call.run cfg db).2 := by
  unfold WgCall.run
  split
  · rename_i done hok
    cases call with
    | provisionDesiredState nas pre now => exact leaves_provision hok
    | confirmRoutes nasId requested now => exact leaves_confirm hok
    | teardownNas nasId now =>
      cases hok
      exact .tornDown nasId now
    | restoreNas nasId now => exact leaves_restore hok
  · rename_i failure herror
    refine .nothing ?_
    rintro nasId now rfl
    cases herror

/-! ### The calls that succeed -/

section Succeeding

variable {cfg : WireguardConfig} {db : WgDb} {t : NasWgTunnel} {now : ℕ}

theorem run_created {nas : Nas} {pre : Option (BitVec 32)} {ip : BitVec 32}
    (hnone : db.loadTunnel nas.id = none)
    (hip : (givenIp nas pre <|> allocateTunnelIp cfg db) = some ip)
    (hfree : db.clashes nas.id ip = false) :
    (WgCall.provisionDesiredState nas pre now).run cfg db =
      ((db.asOf (.provisionDesiredState nas pre now)).create nas.id ip now,
        (newTunnel nas.id ip now db.tunnels.nextId).sync cfg) := by
  have hresult : provisionDesiredState cfg (db.asOf (.provisionDesiredState nas pre now)) nas
      pre now = .ok ((db.asOf (.provisionDesiredState nas pre now)).create nas.id ip now,
        (newTunnel nas.id ip now db.tunnels.nextId).sync cfg) := by
    unfold provisionDesiredState
    rw [loadTunnel_asOf, hnone]
    simp only [show allocateTunnelIp cfg (db.asOf (.provisionDesiredState nas pre now)) =
      allocateTunnelIp cfg db from rfl, hip]
    exact if_neg (Bool.not_eq_true _ ▸ hfree)
  simp only [WgCall.run, WgCall.result, hresult]

theorem run_confirmed {nasId : ℕ} {requested : List String} {subnets : List Subnet}
    (hok : normalizeRoutedSubnets requested = .ok subnets) (ht : db.loadTunnel nasId = some t)
    (hfree : ∀ s ∈ subnets, ∀ r ∈ db.taken cfg t, overlapsSubnet r s = false) :
    (WgCall.confirmRoutes nasId requested now).run cfg db =
      (db.storeSubnets t.id subnets now,
        syncPeer cfg t.nas_public_key t.tunnel_address subnets) := by
  have hfind : subnets.find? (fun cidr => (db.taken cfg t).any (overlapsSubnet · cidr)) = none := by
    refine List.find?_eq_none.2 fun s hs => ?_
    rw [Bool.not_eq_true, List.any_eq_false]
    exact fun r hr => Bool.not_eq_true _ ▸ hfree s hs r hr
  have hresult : confirmRoutes cfg db nasId requested now = .ok (db.storeSubnets t.id subnets now,
      syncPeer cfg t.nas_public_key t.tunnel_address subnets) := by
    simp only [confirmRoutes, hok, ht, hfind]
  simp only [WgCall.run, WgCall.result, WgDb.asOf, hresult]

theorem run_revived {nasId : ℕ} (ht : db.revivable nasId = some t)
    (hfree : db.clashes nasId t.tunnel_address = false) :
    (WgCall.restoreNas nasId now).run cfg db =
      ((db.asOf (.restoreNas nasId now)).setDeleted t.id false now, t.sync cfg) := by
  have hresult : restoreNas cfg (db.asOf (.restoreNas nasId now)) nasId now =
      .ok ((db.asOf (.restoreNas nasId now)).setDeleted t.id false now, t.sync cfg) := by
    unfold restoreNas
    rw [revivable_asOf, ht]
    exact if_neg (Bool.not_eq_true _ ▸ hfree)
  simp only [WgCall.run, WgCall.result, hresult]

end Succeeding

end Vigabss.Wireguard

/-!
## The kernel's peers and routes

What the hub's commands do to the peer table and the routes of `wg-fireisp`, and the state
`rehydrateNasPeers` builds from nothing.  A network in the `allowed-ips` of one peer is taken away
from every other peer.
-/

namespace Vigabss.Wireguard

open Vigabss.Lib

/-! ### The state of the hub -/

/-- The peers with their allowed IPs, and the routes on the server interface. -/
@[ext] structure Hub where
  peers : ℕ → Option (Finset Subnet)
  routes : Finset Subnet

def Hub.empty : Hub := ⟨fun _ => none, ∅⟩

/-- One command, successful. -/
def HubCommand.exec (hub : Hub) : HubCommand → Hub
  | wgSet peer allowedIps =>
    { hub with peers := fun k =>
        if k = peer then some allowedIps.toFinset
        else (hub.peers k).map (· \ allowedIps.toFinset) }
  | wgRemove peer => { hub with peers := fun k => if k = peer then none else hub.peers k }
  | routeReplace subnet => { hub with routes := insert subnet hub.routes }
  | routeDel subnet => { hub with routes := hub.routes.erase subnet }

def Hub.run (hub : Hub) (commands : List HubCommand) : Hub := commands.foldl HubCommand.exec hub

/-- The rows `rehydrateNasPeers` reads, in some order: live tunnels of live NAS devices. -/
def WgDb.rehydrated (db : WgDb) : List NasWgTunnel :=
  db.live.filter fun t => t.nas_id ∉ db.deletedNas

/-- The hub that `rehydrateNasPeers` builds from an empty one. -/
def rehydrateNasPeers (cfg : WireguardConfig) (tunnels : List NasWgTunnel) : Hub :=
  Hub.empty.run (tunnels.flatMap (NasWgTunnel.sync cfg))

/-- The database and the hub. -/
structure WgState where
  db : WgDb
  hub : Hub

/-- A call with all its commands. -/
def wgHubStep (cfg : WireguardConfig) (s : WgState) (call : WgCall) : WgState :=
  ⟨(call.run cfg s.db).1, s.hub.run (call.run cfg s.db).2⟩

/-! ### What the commands do -/

section Commands

variable {cfg : WireguardConfig} {hub : Hub} {subnets : List Subnet} {publicKey : ℕ}
  {tunnelIp : BitVec 32}

theorem Hub.run_append (hub : Hub) (cs ds : List HubCommand) :
    hub.run (cs ++ ds) = (hub.run cs).run ds := List.foldl_append ..

theorem run_routeReplace (hub : Hub) (subnets : List Subnet) :
    hub.run (subnets.map .routeReplace) = { hub with routes := hub.routes ∪ subnets.toFinset } := by
  induction subnets generalizing hub with
  | nil => simp [Hub.run]
  | cons s subnets ih =>
    rw [List.map_cons, Hub.run, List.foldl_cons]
    refine (ih _).trans ?_
    ext
    · rfl
    · simp [HubCommand.exec, or_left_comm, or_assoc]

theorem run_routeDel (hub : Hub) (subnets : List Subnet) :
    hub.run (subnets.map .routeDel) = { hub with routes := hub.routes \ subnets.toFinset } := by
  induction subnets generalizing hub with
  | nil => simp [Hub.run]
  | cons s subnets ih =>
    rw [List.map_cons, Hub.run, List.foldl_cons]
    refine (ih _).trans ?_
    ext
    · rfl
    · simp [HubCommand.exec, and_assoc, and_left_comm]

theorem run_syncPeer (henabled : cfg.serverEnabled = true) :
    hub.run (syncPeer cfg publicKey tunnelIp subnets) =
      ⟨fun k => if k = publicKey then some (host tunnelIp :: subnets).toFinset
        else (hub.peers k).map (· \ (host tunnelIp :: subnets).toFinset),
        hub.routes ∪ (host tunnelIp :: subnets).toFinset⟩ := by
  rw [syncPeer, if_pos henabled, Hub.run, List.foldl_cons]
  exact run_routeReplace _ _

theorem run_removePeer (henabled : cfg.serverEnabled = true) :
    hub.run (removePeer cfg publicKey subnets) =
      ⟨fun k => if k = publicKey then none else hub.peers k,
        hub.routes \ subnets.toFinset⟩ := by
  rw [removePeer, if_pos henabled, Hub.run, List.foldl_cons]
  exact run_routeDel _ _

end Commands

end Vigabss.Wireguard
