import Mathlib.Data.List.Sort
import Vigabss.Lib.FirstFit
import Vigabss.Lib.Table
import Vigabss.Wireguard.Subnets

/-!
# Vigabss.Wireguard.Tunnels — the tunnels of the NAS devices

The writers of `nas_wg_tunnels` in `wgProvisioningService` and the commands they give the hub.
Each is one step: what it reads does not move before it has written.
-/

namespace Vigabss.Wireguard

open Vigabss.Lib

/-! ### The rows -/

/-- A row of `nas_wg_tunnels`; the address is the number its text stands for. -/
structure NasWgTunnel where
  id : ℕ
  nas_id : ℕ
  tunnel_address : BitVec 32
  routed_subnets : List String
  updated_at : ℕ
  deleted : Bool
  deriving DecidableEq, Repr

instance : Keyed NasWgTunnel := ⟨NasWgTunnel.id⟩

/-- The public key of the pair generated with the row, told apart by the row. -/
def NasWgTunnel.nas_public_key (t : NasWgTunnel) : ℕ := t.id

inductive AccessMode where
  | direct | nated
  deriving DecidableEq, Repr

structure Nas where
  id : ℕ
  access_mode : AccessMode
  ip_address : Option (BitVec 32)
  deriving DecidableEq, Repr

/-- `config.wireguard`. -/
structure WireguardConfig where
  serverSubnet : Subnet
  serverEnabled : Bool
  fits : serverSubnet.length ≤ 32

/-- The tunnels, and the NAS devices that are soft-deleted. -/
structure WgDb where
  tunnels : Table NasWgTunnel
  deletedNas : List ℕ

inductive WgFailure where
  | validation (message : String)
  | conflict (message : String)
  | duplicateEntry
  deriving DecidableEq, Repr

/-- The rows `WHERE deleted_at IS NULL`. -/
def WgDb.live (db : WgDb) : List NasWgTunnel := db.tunnels.rows.filter fun t => t.deleted = false

/-- The networks of a tunnel: its own address, and the stored ones that are valid. -/
def NasWgTunnel.ranges (t : NasWgTunnel) : List Subnet :=
  host t.tunnel_address :: storedRoutedSubnets t.routed_subnets

/-! ### The hub's commands -/

inductive HubCommand where
  | wgSet (peer : ℕ) (allowedIps : List Subnet)
  | wgRemove (peer : ℕ)
  | routeReplace (subnet : Subnet)
  | routeDel (subnet : Subnet)
  deriving DecidableEq, Repr

/-- `syncPeer({ publicKey, tunnelIp, subnets })`. -/
def syncPeer (cfg : WireguardConfig) (publicKey : ℕ) (tunnelIp : BitVec 32)
    (subnets : List Subnet) : List HubCommand :=
  if cfg.serverEnabled then
    .wgSet publicKey (host tunnelIp :: subnets) ::
      (host tunnelIp :: subnets).map .routeReplace
  else []

/-- `removePeer({ publicKey, subnets })`. -/
def removePeer (cfg : WireguardConfig) (publicKey : ℕ) (subnets : List Subnet) :
    List HubCommand :=
  if cfg.serverEnabled then .wgRemove publicKey :: subnets.map .routeDel else []

/-- `syncPeer` of a row as it is stored. -/
def NasWgTunnel.sync (cfg : WireguardConfig) (t : NasWgTunnel) : List HubCommand :=
  syncPeer cfg t.nas_public_key t.tunnel_address (storedRoutedSubnets t.routed_subnets)

/-! ### Addresses -/

/-- `subnetToRange(cidr)`: the network and the broadcast address. -/
def subnetToRange (cidr : Subnet) : BitVec 32 × BitVec 32 :=
  let shift := 32 - cidr.length
  let hostMask := if 32 ≤ shift then 0xffffffff#32 else (1#32 <<< shift) - 1#32
  let network := cidr.address &&& ~~~hostMask
  (network, network ||| hostMask)

/-- `allocateTunnelIp()`: the lowest address behind the hub's own that no live tunnel has. -/
def allocateTunnelIp (cfg : WireguardConfig) (db : WgDb) : Option (BitVec 32) :=
  let range := subnetToRange cfg.serverSubnet
  (firstFit (fun n => db.live.all fun t => t.tunnel_address ≠ BitVec.ofNat 32 n)
    range.2.toNat 1 Nat.one_pos (range.1.toNat + 2)).map (BitVec.ofNat 32)

/-! ### The operations -/

/-- `loadTunnel(nasId)`. -/
def WgDb.loadTunnel (db : WgDb) (nasId : ℕ) : Option NasWgTunnel :=
  db.live.find? fun t => t.nas_id = nasId

/-- `uq_wg_nas` and `uq_wg_tunnel_ip`: another live row has the NAS or the address. -/
def WgDb.clashes (db : WgDb) (nasId : ℕ) (tunnelIp : BitVec 32) : Bool :=
  db.live.any fun t => t.nas_id = nasId ∨ t.tunnel_address = tunnelIp

/-- The row `provisionDesiredState` creates. -/
def newTunnel (nasId : ℕ) (tunnelIp : BitVec 32) (now id : ℕ) : NasWgTunnel :=
  ⟨id, nasId, tunnelIp, [], now, false⟩

theorem key_newTunnel (nasId : ℕ) (tunnelIp : BitVec 32) (now n : ℕ) :
    Keyed.key (newTunnel nasId tunnelIp now n) = n := rfl

/-- `NasWgTunnel.create(tunnelData)`. -/
def WgDb.create (db : WgDb) (nasId : ℕ) (tunnelIp : BitVec 32) (now : ℕ) : WgDb :=
  { db with
    tunnels := db.tunnels.insert (newTunnel nasId tunnelIp now)
      (key_newTunnel nasId tunnelIp now) }

/-- The address a new tunnel is given, if it is not to be allocated. -/
def givenIp (nas : Nas) (preallocatedTunnelIp : Option (BitVec 32)) : Option (BitVec 32) :=
  preallocatedTunnelIp <|> if nas.access_mode = .nated then nas.ip_address else none

/-- `provisionDesiredState(nas, { preallocatedTunnelIp })`. -/
def provisionDesiredState (cfg : WireguardConfig) (db : WgDb) (nas : Nas)
    (preallocatedTunnelIp : Option (BitVec 32)) (now : ℕ) :
    Except WgFailure (WgDb × List HubCommand) :=
  match db.loadTunnel nas.id with
  | some tunnel => .ok (db, tunnel.sync cfg)
  | none =>
    match givenIp nas preallocatedTunnelIp <|> allocateTunnelIp cfg db with
    | none => .error (.validation ("WireGuard NAS tunnel address pool exhausted (subnet: " ++
        cfg.serverSubnet.text ++ ")"))
    | some tunnelIp =>
      if db.clashes nas.id tunnelIp then .error .duplicateEntry
      else .ok (db.create nas.id tunnelIp now,
        (newTunnel nas.id tunnelIp now db.tunnels.nextId).sync cfg)

/-- What `confirmRoutes` finds taken: the hub, and the networks of the other live tunnels. -/
def WgDb.taken (cfg : WireguardConfig) (db : WgDb) (tunnel : NasWgTunnel) : List Subnet :=
  cfg.serverSubnet :: (db.live.filter fun other => other.id ≠ tunnel.id).flatMap
    NasWgTunnel.ranges

/-- `UPDATE nas_wg_tunnels SET routed_subnets = ?, updated_at = NOW()` on one row. -/
def WgDb.storeSubnets (db : WgDb) (id : ℕ) (subnets : List Subnet) (now : ℕ) : WgDb :=
  { db with
    tunnels := db.tunnels.modify id
      (fun t => { t with routed_subnets := subnets.map Subnet.text, updated_at := now })
      fun _ => rfl }

/-- `confirmRoutes(nas, { subnets })`. -/
def confirmRoutes (cfg : WireguardConfig) (db : WgDb) (nasId : ℕ) (requested : List String)
    (now : ℕ) : Except WgFailure (WgDb × List HubCommand) :=
  match normalizeRoutedSubnets requested with
  | .error message => .error (.validation message)
  | .ok subnets =>
    match db.loadTunnel nasId with
    | none => .error (.validation
        "No WireGuard tunnel found for this NAS — call bootstrap first")
    | some tunnel =>
      match subnets.find? fun cidr => (db.taken cfg tunnel).any (overlapsSubnet · cidr) with
      | some cidr => .error (.conflict
          (cidr.text ++ " overlaps a network already routed through the WireGuard hub"))
      | none => .ok (db.storeSubnets tunnel.id subnets now,
          syncPeer cfg tunnel.nas_public_key tunnel.tunnel_address subnets)

/-- `UPDATE nas_wg_tunnels SET deleted_at = …, updated_at = NOW()` on one row. -/
def WgDb.setDeleted (db : WgDb) (id : ℕ) (deleted : Bool) (now : ℕ) : WgDb :=
  { db with
    tunnels := db.tunnels.modify id (fun t => { t with deleted, updated_at := now }) fun _ => rfl }

/-- `teardownNas(nasId)`. -/
def teardownNas (cfg : WireguardConfig) (db : WgDb) (nasId now : ℕ) : WgDb × List HubCommand :=
  let tunnels := db.live.filter fun t => t.nas_id = nasId
  (tunnels.foldl (fun db t => db.setDeleted t.id true now) db,
    tunnels.flatMap fun t => removePeer cfg t.nas_public_key t.ranges)

/-- `ORDER BY updated_at DESC, id DESC`. -/
def newerFirst (a b : NasWgTunnel) : Prop :=
  b.updated_at < a.updated_at ∨ b.updated_at = a.updated_at ∧ b.id ≤ a.id

instance : DecidableRel newerFirst := fun _ _ => inferInstanceAs (Decidable (_ ∨ _))

/-- The tunnel `restoreNas` would revive: the last that was torn down, if none is live. -/
def WgDb.revivable (db : WgDb) (nasId : ℕ) : Option NasWgTunnel :=
  if (db.loadTunnel nasId).isSome then none
  else ((db.tunnels.rows.filter fun (t : NasWgTunnel) =>
    t.nas_id = nasId ∧ t.deleted = true).insertionSort newerFirst).head?

/-- `restoreNas(nasId)`. -/
def restoreNas (cfg : WireguardConfig) (db : WgDb) (nasId now : ℕ) :
    Except WgFailure (WgDb × List HubCommand) :=
  match db.revivable nasId with
  | none => .ok (db, [])
  | some tunnel =>
    if db.clashes nasId tunnel.tunnel_address then .error .duplicateEntry
    else .ok (db.setDeleted tunnel.id false now, tunnel.sync cfg)

/-! ### Calls -/

/-- A call.  `teardownNas` follows the soft-delete of its NAS, the others are for a live one. -/
inductive WgCall where
  | provisionDesiredState (nas : Nas) (preallocatedTunnelIp : Option (BitVec 32)) (now : ℕ)
  | confirmRoutes (nasId : ℕ) (subnets : List String) (now : ℕ)
  | teardownNas (nasId now : ℕ)
  | restoreNas (nasId now : ℕ)

/-- The database when the call is made, its NAS deleted or live. -/
def WgDb.asOf (db : WgDb) : WgCall → WgDb
  | .provisionDesiredState nas _ _ =>
    { db with deletedNas := db.deletedNas.filter (· ≠ nas.id) }
  | .confirmRoutes .. => db
  | .teardownNas nasId _ => { db with deletedNas := nasId :: db.deletedNas }
  | .restoreNas nasId _ => { db with deletedNas := db.deletedNas.filter (· ≠ nasId) }

/-- The answer of a call. -/
def WgCall.result (cfg : WireguardConfig) (db : WgDb) :
    WgCall → Except WgFailure (WgDb × List HubCommand)
  | provisionDesiredState nas pre now => Wireguard.provisionDesiredState cfg db nas pre now
  | confirmRoutes nasId subnets now => Wireguard.confirmRoutes cfg db nasId subnets now
  | teardownNas nasId now => .ok (Wireguard.teardownNas cfg db nasId now)
  | restoreNas nasId now => Wireguard.restoreNas cfg db nasId now

/-- What a call does; one that fails leaves the tunnels and the hub as they are. -/
def WgCall.run (cfg : WireguardConfig) (db : WgDb) (call : WgCall) : WgDb × List HubCommand :=
  match call.result cfg (db.asOf call) with
  | .ok done => done
  | .error _ => (db.asOf call, [])

end Vigabss.Wireguard
