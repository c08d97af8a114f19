import Mathlib.Data.Int.Bitwise
import Vigabss.Lib.FirstFit
import Vigabss.Lib.IpText
import Vigabss.RadiusServer.CoaEncoder

/-!
# Vigabss.Pools.Assignment — the next free address of a pool

`poolAssignmentService`: the parsers of pools and of excluded ranges, and the search for the next
free IPv4 address or IPv6 prefix.  A pool is locked while an address is assigned from it, so the
search and its insert are one step.
-/

namespace Vigabss.Pools

open Vigabss.Lib
open Vigabss.RadiusServer (indexOfDoubleColon splitDoubleColon groupsOf toHex)

/-! ### The tables -/

inductive Version
  | v4
  | v6
  deriving DecidableEq, Repr

/-- The columns of `ip_pools` that are read here; a prefix length is at most 128. -/
structure Pool where
  id : ℕ
  organization_id : Option ℕ
  ip_version : Version
  network : String
  subnet_mask : Option String
  gateway : Option String
  default_prefix_len : Option (Fin 129)
  excluded_ranges : Option String

inductive Kind
  | static
  | dynamic
  | reserved
  deriving DecidableEq, Repr, Inhabited

inductive Status
  | active
  | available
  | expired
  deriving DecidableEq, Repr

/-- A row of `ip_assignments`. -/
structure Assignment where
  pool_id : ℕ
  organization_id : Option ℕ
  ip_address : String
  prefix_len : Option (Fin 129)
  contract_id : Option ℕ
  client_id : Option ℕ
  type : Kind
  status : Status
  deleted : Bool
  deriving DecidableEq, Repr

/-- `deleted_at IS NULL AND status != 'expired'`. -/
def Assignment.live (r : Assignment) : Bool := !r.deleted && r.status ≠ .expired

/-- The live assignments of a pool. -/
def liveRows (pool : Pool) (rows : List Assignment) : List Assignment :=
  rows.filter fun r => r.pool_id = pool.id ∧ r.live

/-! ### IPv4 -/

/-- `ipv4ToInt`. -/
def ipv4ToInt (ip : List Char) : ℕ :=
  JsText.toUint32 ((JsText.split '.' ip).foldl
    (fun acc octet => acc.bind fun n =>
      (JsText.parseInt 10 octet).map fun o => fl (fl (n * 256) + o)) (some 0))

/-- `intToIpv4`. -/
def intToIpv4 (n : ℕ) : List Char :=
  ['.'].intercalate ([n >>> 24 &&& 0xff, n >>> 16 &&& 0xff, n >>> 8 &&& 0xff, n &&& 0xff].map
    (Nat.toDigits 10))

/-- The bits of a mask that are set. -/
def countBits (mask : ℕ) : ℕ :=
  if mask = 0 then 0 else (mask &&& 1) + countBits (mask >>> 1)
termination_by mask
decreasing_by
  rw [Nat.shiftRight_one]
  omega

/-- `parseCidrPrefixLen`; `none` is `NaN`. -/
def parseCidrPrefixLen : Option String → Option ℤ
  | none => some 32
  | some subnetMask =>
    if subnetMask = "" then some 32
    else
      let trimmed := JsText.trim subnetMask.toList
      if trimmed.head? = some '/' then JsText.parseInt 10 trimmed.tail
      else if (trimmed.length = 1 ∨ trimmed.length = 2) ∧ trimmed.all (JsText.isDigit 10) then
        JsText.parseInt 10 trimmed
      else some (countBits (ipv4ToInt trimmed))

/-- The mask of a prefix length: a shift counts modulo 32, and by `NaN` it counts 0. -/
def ipv4Mask (prefixLen : Option ℤ) : BitVec 32 :=
  let hostBits := prefixLen.map (32 - ·)
  if hostBits = some 32 then 0 else 0xffffffff <<< ((hostBits.getD 0) % 32).toNat

/-- The first and the last address of a network. -/
def ipv4Range (addr : List Char) (prefixLen : Option ℤ) : ℕ × ℕ :=
  let mask := ipv4Mask prefixLen
  let net := BitVec.ofNat 32 (ipv4ToInt addr) &&& mask
  (net.toNat, (net ||| ~~~mask).toNat)

/-- `parseIpv4Pool`, which gives some network for every text. -/
def parseIpv4Pool (pool : Pool) : ℕ × ℕ :=
  let parts := JsText.split '/' pool.network.toList
  if '/' ∈ pool.network.toList then
    ipv4Range (JsText.trim (parts.getD 0 [])) (JsText.parseInt 10 (parts.getD 1 []))
  else ipv4Range pool.network.toList (parseCidrPrefixLen pool.subnet_mask)

/-- The entries of `excluded_ranges`. -/
def excludedEntries (excludedRanges : Option String) : List (List Char) :=
  (((excludedRanges.getD "").toList.splitOnP fun c => c = '\n' ∨ c = ',').map JsText.trim).filter
    (· ≠ [])

/-- `isIpv4Excluded`. -/
def isIpv4Excluded (ip : ℕ) (excludedRanges : Option String) : Bool :=
  (excludedEntries excludedRanges).any fun entry =>
    if '/' ∈ entry then
      let parts := JsText.split '/' entry
      let range := ipv4Range (JsText.trim (parts.getD 0 [])) (JsText.parseInt 10 (parts.getD 1 []))
      range.1 ≤ ip ∧ ip ≤ range.2
    else ipv4ToInt entry = ip

/-! ### IPv6 -/

/-- `ipv6ToBigInt`; `none` is a text for which it throws. -/
def ipv6ToBigInt (ip : List Char) : Option ℤ := do
  let left := groupsOf (splitDoubleColon ip).1
  let right := groupsOf (splitDoubleColon ip).2
  let groups ←
    if (indexOfDoubleColon ip).isSome then
      if 8 < left.length + right.length then none
      else
        let missing := 8 - left.length - right.length
        some (left ++ List.replicate missing ['0', '0', '0', '0'] ++ right)
    else some (JsText.split ':' ip)
  groups.foldlM (fun acc group =>
    (JsText.parseInt 16 (if group = [] then ['0'] else group)).map fun n =>
      Int.lor (acc <<< 16) n) 0

/-- The groups of `bigIntToIpv6`, `k` of them. -/
def bigIntGroups : ℕ → ℕ → List ℕ
  | 0, _ => []
  | k + 1, remaining => bigIntGroups k (remaining >>> 16) ++ [remaining &&& 0xffff]

/-- `bigIntToIpv6`. -/
def bigIntToIpv6 (n : ℕ) : List Char :=
  [':'].intercalate ((bigIntGroups 8 n).map fun group => JsText.padStart 4 '0' (toHex group))

/-- `1n << BigInt(bits)`. -/
def shl1 (bits : ℤ) : ℤ := if 0 ≤ bits then 2 ^ bits.toNat else 0

/-- The first and the last address of a network; `none` where `BigInt` throws. -/
def ipv6Range (entry : List Char) : Option (ℤ × ℤ) := do
  let parts := JsText.split '/' entry
  let prefixLen ← JsText.parseInt 10 (parts.getD 1 [])
  let addrBig ← ipv6ToBigInt (JsText.trim (parts.getD 0 []))
  let hostBits := 128 - prefixLen
  let mask := if hostBits = 128 then 0 else Int.land (Int.lnot (shl1 hostBits - 1)) (shl1 128 - 1)
  let net := Int.land addrBig mask
  return (net, Int.lor net (shl1 hostBits - 1))

/-- `parseIpv6Pool`. -/
def parseIpv6Pool (pool : Pool) : Option (ℤ × ℤ) :=
  if '/' ∈ pool.network.toList then ipv6Range pool.network.toList else none

/-- `isIpv6Excluded`. -/
def isIpv6Excluded (ip : ℕ) (excludedRanges : Option String) : Bool :=
  (excludedEntries excludedRanges).any fun entry =>
    if '/' ∈ entry then (ipv6Range entry).any fun range => range.1 ≤ (ip : ℤ) ∧ (ip : ℤ) ≤ range.2
    else ipv6ToBigInt entry = some (ip : ℤ)

/-! ### Assignment -/

/-- The options of a call. -/
structure Request where
  contractId : Option ℕ
  clientId : Option ℕ
  type : Kind
  deriving Inhabited

/-- An error with its status. -/
structure Refusal where
  status : ℕ
  message : String
  deriving DecidableEq, Repr

/-- The row of an assignment; an id of 0 is none. -/
def newAssignment (pool : Pool) (candidate : String) (r : Request) : Assignment where
  pool_id := pool.id
  organization_id := pool.organization_id
  ip_address := candidate
  prefix_len := none
  contract_id := r.contractId.filter (· ≠ 0)
  client_id := r.clientId.filter (· ≠ 0)
  type := r.type
  status := .active
  deleted := false

/-- Two texts are one to the unique key, which takes no notice of the case of letters. -/
def sameKey (a b : String) : Bool := a.toList.map Char.toLower = b.toList.map Char.toLower

/-- `tryInsertAssignment`, under `uq_ip_assignments_pool_ip`. -/
def tryInsertAssignment (pool : Pool) (rows : List Assignment) (candidate : String) (r : Request) :
    Option Assignment :=
  if (liveRows pool rows).any fun row => sameKey row.ip_address candidate then none
  else some (newAssignment pool candidate r)

/-- A loop over the candidates of a pool: where it goes, what it passes over, the text that it
inserts and the texts that must not be taken. -/
structure Search where
  start : ℕ
  stop : ℕ
  step : ℕ
  step_pos : 0 < step
  barred : ℕ → Bool
  candidate : ℕ → String
  texts : ℕ → List String

/-- A candidate is tried and inserted. -/
def Search.offers (s : Search) (pool : Pool) (rows : List Assignment) (p : ℕ) : Bool :=
  let taken := (liveRows pool rows).map Assignment.ip_address
  !s.barred p && (s.texts p).all (· ∉ taken) &&
    !(liveRows pool rows).any fun row => sameKey row.ip_address (s.candidate p)

/-- The loop. -/
def Search.assign (s : Search) (pool : Pool) (rows : List Assignment) (r : Request)
    (message : String) : Except Refusal Assignment :=
  match firstFit (s.offers pool rows) s.stop s.step s.step_pos s.start with
  | some p => .ok (newAssignment pool (s.candidate p) r)
  | none => .error ⟨422, message⟩

/-- `pool.gateway ? ipv4ToInt(pool.gateway) : null`. -/
def gatewayInt (pool : Pool) : Option ℕ :=
  (pool.gateway.filter (· ≠ "")).map fun gateway => ipv4ToInt gateway.toList

/-- The loop of `assignNextFreeIpv4`, from behind the network address up to before the broadcast
address. -/
def ipv4Search (pool : Pool) : Search where
  start := (parseIpv4Pool pool).1 + 1
  stop := (parseIpv4Pool pool).2
  step := 1
  step_pos := Nat.one_pos
  barred i := gatewayInt pool = some i || isIpv4Excluded i pool.excluded_ranges
  candidate i := String.ofList (intToIpv4 i)
  texts i := [String.ofList (intToIpv4 i)]

/-- `assignNextFreeIpv4`. -/
def assignNextFreeIpv4 (pool : Pool) (rows : List Assignment) (r : Request) :
    Except Refusal Assignment :=
  (ipv4Search pool).assign pool rows r "No free IPv4 addresses available in pool"

/-- `default_prefix_len`, where it is set and not 0. -/
def Pool.prefixLen (pool : Pool) : Option (Fin 129) :=
  pool.default_prefix_len.filter (· ≠ 0)

/-- The loop of `assignNextFreeIpv6Prefix`, by blocks; `blockSize` is `1n << BigInt(128 - len)`. -/
def ipv6Search (pool : Pool) (networkBig broadcastBig : ℤ) (len : Fin 129) : Search where
  start := networkBig.toNat
  stop := (broadcastBig + 1).toNat
  step := 2 ^ (128 - len.val)
  step_pos := Nat.two_pow_pos _
  barred prefixStart := isIpv6Excluded prefixStart pool.excluded_ranges
  candidate prefixStart :=
    String.ofList (bigIntToIpv6 prefixStart ++ '/' :: Nat.toDigits 10 len.val)
  texts prefixStart :=
    [String.ofList (bigIntToIpv6 prefixStart ++ '/' :: Nat.toDigits 10 len.val),
      String.ofList (bigIntToIpv6 prefixStart)]

/-- `assignNextFreeIpv6Prefix`. -/
def assignNextFreeIpv6Prefix (pool : Pool) (rows : List Assignment) (r : Request) :
    Except Refusal Assignment :=
  match parseIpv6Pool pool with
  | none => .error ⟨422, "Unable to parse IPv6 pool"⟩
  | some (networkBig, broadcastBig) =>
    match pool.prefixLen with
    | none => .error ⟨422, "Pool missing default_prefix_len for IPv6 prefix delegation"⟩
    | some len =>
      (ipv6Search pool networkBig broadcastBig len).assign pool rows r
        "No free IPv6 prefixes available in pool"

/-- The assignment of `assignNextFreeIp`, from a pool that was found. -/
def assignNextFreeIp (pool : Pool) (rows : List Assignment) (r : Request) :
    Except Refusal Assignment :=
  match pool.ip_version with
  | .v6 => assignNextFreeIpv6Prefix pool rows r
  | .v4 => assignNextFreeIpv4 pool rows r

/-- The table after a call. -/
def assigned (pool : Pool) (rows : List Assignment) (r : Request) : List Assignment :=
  match assignNextFreeIp pool rows r with
  | .ok row => rows ++ [row]
  | .error _ => rows

end Vigabss.Pools
