import Vigabss.Pools.Disjoint
import Vigabss.RadiusServer.PrefixCodec

/-!
# Vigabss.SubnetPlanner.Plan — networks split into subnets, and ranges of pools

`subnetPlannerService`: `planSubnets` with its two ways of counting, and `cidrsOverlap`.
-/

namespace Vigabss.SubnetPlanner

open Vigabss.Lib
open Vigabss.RadiusServer (indexOfDoubleColon splitDoubleColon groupsOf)
open Vigabss.Pools (shl1)

/-- The text of an integer. -/
def intText (n : ℤ) : List Char := (if n < 0 then ['-'] else []) ++ Nat.toDigits 10 n.natAbs

/-! ### Addresses -/

/-- `expandIPv6(addr)`. -/
def expandIPv6 (addr : List Char) : Except String (List Char) := do
  let full ←
    if (indexOfDoubleColon addr).isSome then
      let left := groupsOf (splitDoubleColon addr).1
      let right := groupsOf (splitDoubleColon addr).2
      if 8 < left.length + right.length then throw "Invalid array length"
      else
        let middle := List.replicate (8 - left.length - right.length) ['0', '0', '0', '0']
        pure ([':'].intercalate (left ++ middle ++ right))
    else pure addr
  return [':'].intercalate ((JsText.split ':' full).map (JsText.padStart 4 '0'))

/-- `(base << 16n) | BigInt(parseInt(g, 16))`. -/
def shiftIn (base : ℤ) (g : List Char) : Except String ℤ :=
  match JsText.parseInt 16 g with
  | some n => .ok (Int.lor (base <<< 16) n)
  | none => .error "The number NaN cannot be converted to a BigInt because it is not an integer"

/-- `base` of an IPv6 address. -/
def ipv6Base (addr : List Char) : Except String ℤ := do
  let expanded ← expandIPv6 addr
  (JsText.split ':' expanded).foldlM shiftIn 0

/-- `mask` of an IPv6 prefix. -/
def ipv6Mask (prefixLen : ℤ) : ℤ :=
  if prefixLen = 0 then 0 else (shl1 128 - 1) - (shl1 (128 - prefixLen) - 1)

/-- `base` of an IPv4 address. -/
def ipv4Base (addr : List Char) : BitVec 32 :=
  let parts := (JsText.split '.' addr).map JsText.number
  let part (i : ℕ) : BitVec 32 := BitVec.ofNat 32 (JsText.toUint32 (parts.getD i none))
  part 0 <<< 24 ||| part 1 <<< 16 ||| part 2 <<< 8 ||| part 3

/-- The bits that a shift by `32 - prefixLen` shifts. -/
def shiftCount (prefixLen : ℤ) : ℕ := ((32 - prefixLen) % 32).toNat

/-! ### Subnets -/

/-- `${a}.${b}.${c}.${d}/${subPrefixLen}`. -/
def ipv4Cidr (addr : BitVec 32) (subPrefixLen : ℤ) : List Char :=
  Pools.intToIpv4 addr.toNat ++ '/' :: intText subPrefixLen

/-- `planSubnetsIPv4`. -/
def planSubnetsIPv4 (baseAddr : List Char) (prefixLen subPrefixLen : ℤ) (subnetCount : ℕ) :
    List (List Char) :=
  let mask : BitVec 32 := if prefixLen = 0 then 0 else 0xffffffff#32 <<< shiftCount prefixLen
  let base := ipv4Base baseAddr &&& mask
  let step := if prefixLen = subPrefixLen then 0 else (1#32 <<< shiftCount subPrefixLen).toNat
  (List.range subnetCount).map fun i =>
    ipv4Cidr (BitVec.ofNat 32 (base.toNat + i * step)) subPrefixLen

/-- `addr.toString(16).padStart(32, '0')`. -/
def hexText (addr : ℤ) : List Char :=
  JsText.padStart 32 '0' ((if addr < 0 then ['-'] else []) ++ Nat.toDigits 16 addr.natAbs)

/-- `${groups2.join(':')}/${subPrefixLen}`. -/
def ipv6Cidr (addr subPrefixLen : ℤ) : List Char :=
  [':'].intercalate ((List.range 8).map fun j => ((hexText addr).drop (j * 4)).take 4) ++
    '/' :: intText subPrefixLen

/-- `planSubnetsIPv6`. -/
def planSubnetsIPv6 (baseAddr : List Char) (prefixLen subPrefixLen : ℤ) (subnetCount : ℕ) :
    Except String (List (List Char)) := do
  let n ← ipv6Base baseAddr
  let base := Int.land n (ipv6Mask prefixLen)
  let step := shl1 (128 - subPrefixLen)
  return (List.range subnetCount).map fun (i : ℕ) => ipv6Cidr (base + i * step) subPrefixLen

/-- `planSubnets(network, prefixLen, subPrefixLen)`. -/
def planSubnets (network : List Char) (prefixLen subPrefixLen : ℤ) :
    Except String (List (List Char)) := do
  if subPrefixLen < prefixLen then throw "sub_prefix_len must be >= prefix_len"
  let cidr := if '/' ∈ network then network else network ++ '/' :: intText prefixLen
  let baseAddr := (JsText.split '/' cidr).headD []
  let subnetCount := 2 ^ (subPrefixLen - prefixLen).toNat
  if 65536 < subnetCount then throw "Too many subnets requested (max 65536)"
  if ':' ∈ baseAddr then planSubnetsIPv6 baseAddr prefixLen subPrefixLen subnetCount
  else return planSubnetsIPv4 baseAddr prefixLen subPrefixLen subnetCount

/-! ### Ranges -/

/-- The first and the last address of a CIDR. -/
structure Range where
  start : ℤ
  stop : ℤ
  v6 : Bool

/-- `cidrToRange` of an IPv6 address: `BigInt` throws for a count of `NaN`. -/
def cidrToRangeIPv6 (addr : List Char) (bits : Option ℤ) : Except String Range := do
  let base ← ipv6Base addr
  match bits with
  | none => throw "The number NaN cannot be converted to a BigInt because it is not an integer"
  | some len =>
    let start := Int.land base (ipv6Mask len)
    return ⟨start, start + shl1 (128 - len) - 1, true⟩

/-- `cidrToRange` of an IPv4 address: a shift counts modulo 32, and by `NaN` it counts 0. -/
def cidrToRangeIPv4 (addr : List Char) (bits : Option ℤ) : Range :=
  let count := (bits.map shiftCount).getD 0
  let step : ℕ := if bits = some 32 then 1 else (1#32 <<< count).toNat
  let base : BitVec 32 := ipv4Base addr &&& (0xffffffff#32 <<< count)
  ⟨base.toNat, (BitVec.ofInt 32 (base.toNat + step - 1)).toNat, false⟩

/-- `cidrToRange(cidr)`. -/
def cidrToRange (cidr : List Char) : Except String (Option Range) :=
  if '/' ∉ cidr then .ok none
  else
    let addr := (JsText.split '/' cidr).getD 0 []
    let bits := JsText.parseInt 10 ((JsText.split '/' cidr).getD 1 [])
    if ':' ∈ addr then (cidrToRangeIPv6 addr bits).map some
    else .ok (some (cidrToRangeIPv4 addr bits))

/-- `cidrsOverlap(cidr1, cidr2)`. -/
def cidrsOverlap (cidr1 cidr2 : List Char) : Except String Bool := do
  match ← cidrToRange cidr1, ← cidrToRange cidr2 with
  | some r1, some r2 =>
    return r1.v6 = r2.v6 ∧ r1.start ≤ r2.stop ∧ r2.start ≤ r1.stop
  | _, _ => return false

end Vigabss.SubnetPlanner

/-!
## The addresses that the planner reads

The planner reads IPv4 addresses right.  In an IPv6 address it takes a dotted tail for one group,
that of the digits before the first dot (`ipv6Base_eq`); so does the pool service
(`ipv6ToBigInt_eq`).
-/

namespace Vigabss.SubnetPlanner

open Vigabss.Lib Vigabss.Lib.IpText
open Vigabss.RadiusServer (indexOfDoubleColon splitDoubleColon groupsOf splitDoubleColon_of_none
  splitDoubleColon_of_some groupsOf_intercalate)

/-! ### IPv4 -/

theorem number_octet {g : List Char} {n : ℕ} (h : octet g = some n) :
    JsText.toUint32 (JsText.number g) = n := by
  have hlt := octet_lt h
  rw [number_of_octet h, JsText.toUint32_natCast (by omega)]

/-- Four bytes side by side. -/
theorem bytes_or {a b c d : ℕ} (ha : a < 256) (hb : b < 256) (hc : c < 256) (hd : d < 256) :
    (BitVec.ofNat 32 a <<< 24 ||| BitVec.ofNat 32 b <<< 16 ||| BitVec.ofNat 32 c <<< 8 |||
      BitVec.ofNat 32 d).toNat = ((a * 256 + b) * 256 + c) * 256 + d := by
  have hshift : ∀ x k, x < 256 → k ≤ 24 →
      (BitVec.ofNat 32 x <<< k).toNat = 2 ^ k * x := by
    intro x k hx hk
    have hpow : 2 ^ k ≤ 2 ^ 24 := Nat.pow_le_pow_right (by omega) hk
    have hmul : 2 ^ k * x < 2 ^ 32 := by
      calc 2 ^ k * x < 2 ^ k * 256 := Nat.mul_lt_mul_of_pos_left hx (Nat.two_pow_pos k)
        _ ≤ 2 ^ 24 * 256 := Nat.mul_le_mul_right 256 hpow
        _ = 2 ^ 32 := by norm_num
    have hself : x % 2 ^ 32 = x := Nat.mod_eq_of_lt (by omega)
    rw [BitVec.toNat_shiftLeft, BitVec.toNat_ofNat, hself, Nat.shiftLeft_eq, Nat.mul_comm,
      Nat.mod_eq_of_lt hmul]
  have hab : 2 ^ 24 * a ||| 2 ^ 16 * b = 2 ^ 16 * (a * 256 + b) := by
    rw [← Nat.two_pow_add_eq_or_of_lt (show 2 ^ 16 * b < 2 ^ 24 by omega)]
    omega
  have habc : 2 ^ 16 * (a * 256 + b) ||| 2 ^ 8 * c = 2 ^ 8 * ((a * 256 + b) * 256 + c) := by
    rw [← Nat.two_pow_add_eq_or_of_lt (show 2 ^ 8 * c < 2 ^ 16 by omega)]
    omega
  rw [BitVec.toNat_or, BitVec.toNat_or, BitVec.toNat_or, hshift a 24 ha (by omega),
    hshift b 16 hb (by omega), hshift c 8 hc (by omega), BitVec.toNat_ofNat,
    Nat.mod_eq_of_lt (show d < 2 ^ 32 by omega), hab, habc,
    ← Nat.two_pow_add_eq_or_of_lt (show d < 2 ^ 8 from hd)]
  omega

/-- **An IPv4 address is read right.** -/
theorem ipv4Base_eq {text : List Char} {n : ℕ} (h : ipv4 text = some n) :
    (ipv4Base text).toNat = n := by
  obtain ⟨ns, hns, hfour, hlt, rfl⟩ := exists_octets h
  obtain ⟨a, b, c, d, rfl⟩ : ∃ a b c d, ns = [a, b, c, d] := by
    match ns, hfour with
    | [a, b, c, d], _ => exact ⟨a, b, c, d, rfl⟩
  simp only [List.forall_mem_cons, List.not_mem_nil, false_implies, implies_true, and_true] at hlt
  simp only [List.forall₂_cons_right_iff, List.forall₂_nil_right_iff] at hns
  obtain ⟨pa, _, ha, ⟨pb, _, hb, ⟨pc, _, hc, ⟨pd, _, hd, rfl, rfl⟩, rfl⟩, rfl⟩, hparts⟩ := hns
  have hparts' : (JsText.split '.' text).map JsText.number =
      [JsText.number pa, JsText.number pb, JsText.number pc, JsText.number pd] := by
    rw [JsText.split, hparts]
    rfl
  unfold ipv4Base
  rw [hparts']
  simp only [List.getD_cons_zero, List.getD_cons_succ, number_octet ha, number_octet hb,
    number_octet hc, number_octet hd]
  have hvalue : assemble 256 [a, b, c, d] = ((a * 256 + b) * 256 + c) * 256 + d := by
    simp [assemble]
  rw [hvalue]
  exact bytes_or hlt.1 hlt.2.1 hlt.2.2.1 hlt.2.2.2

/-! ### Groups -/

/-- An IPv6 address with the digits of its first octet in the place of a dotted tail, and with a
group of zero in front where no `::` makes up for the missing group. -/
def asRead (text : List Char) : List Char :=
  if '.' ∉ text then text
  else if splitDouble text = none then '0' :: ':' :: text.takeWhile (· ≠ '.')
  else text.takeWhile (· ≠ '.')

/-- A text between colons, and the number that is read from it. -/
structure Reads (g : List Char) (m : ℕ) : Prop where
  notMem : ':' ∉ g
  parsed : JsText.parseInt 16 g = some (m : ℤ)
  padded : JsText.parseInt 16 (JsText.padStart 4 '0' g) = some (m : ℤ)
  lt : m < 65536

/-- Hexadecimal digits before a dot, or alone. -/
theorem reads_digits {digits rest : List Char} (hdigits : ∃ n, group digits = some n)
    (hcolon : ':' ∉ rest) (hrest : rest = [] ∨ rest.head? = some '.') :
    ∃ m, group digits = some m ∧ Reads (digits ++ rest) m := by
  obtain ⟨n, hn⟩ := hdigits
  have hlt := group_lt hn
  have hgroup := hn
  rw [group] at hgroup
  split_ifs at hgroup with hg
  have hvalue : JsText.digitsValue 16 digits = n := Option.some.inj hgroup
  have hstop : ∀ c, rest.head? = some c → JsText.isDigit 16 c = false ∧ c ≠ 'x' ∧ c ≠ 'X' := by
    rintro c hc
    rcases hrest with rfl | hdot
    · cases hc
    · rw [hdot] at hc
      cases hc
      decide
  refine ⟨n, hn, ?_, ?_, ?_, hlt⟩
  · intro hmem
    rcases List.mem_append.1 hmem with hmem | hmem
    · exact absurd (mem_of_group hn hmem) (by decide)
    · exact hcolon hmem
  · rw [JsText.parseInt_digits_append le_rfl hg.1 hg.2.2 hstop (by omega), hvalue]
  · have hzeros : JsText.digitsValue 16
        (List.replicate (4 - (digits ++ rest).length) '0' ++ digits) = n := by
      rw [digitsValue_replicate, hvalue]
    rw [JsText.padStart, ← List.append_assoc,
      JsText.parseInt_digits_append le_rfl (List.append_ne_nil_of_right_ne_nil _ hg.1) ?_ hstop
        (by rw [hzeros]; omega), hzeros]
    rw [List.all_append, hg.2.2, Bool.and_true, List.all_eq_true]
    intro c hc
    rw [List.eq_of_mem_replicate hc]
    decide

theorem reads_of_group {g : List Char} {n : ℕ} (h : group g = some n) : Reads g n := by
  obtain ⟨m, hm, hreads⟩ := reads_digits ⟨n, h⟩ (List.not_mem_nil (a := ':')) (.inl rfl)
  rw [h] at hm
  cases hm
  rwa [List.append_nil] at hreads

theorem reads_groups {gs : List (List Char)} {ns : List ℕ} (h : groups false gs = some ns) :
    List.Forall₂ Reads gs ns := (forall₂_of_groups h).imp fun _ _ => reads_of_group

theorem dot_mem_of_ipv4 {text : List Char} {n : ℕ} (h : ipv4 text = some n) : '.' ∈ text := by
  by_contra hdot
  obtain ⟨ns, hns, hfour, -, -⟩ := exists_octets h
  rw [List.splitOn_eq_singleton hdot] at hns
  have hone := hns.length_eq
  rw [hfour] at hone
  cases hone

theorem group_of_octet {g : List Char} {n : ℕ} (h : octet g = some n) :
    ∃ m, group g = some m := by
  obtain ⟨hdigits, -⟩ := digits_of_octet h
  obtain ⟨hpos, hle⟩ := length_octet h
  refine ⟨_, if_pos ⟨List.length_pos_iff.1 hpos, by omega, ?_⟩⟩
  refine List.all_eq_true.2 fun c hc => decide_eq_true ?_
  have : JsText.digitValue c < 10 := of_decide_eq_true (List.all_eq_true.1 hdigits c hc)
  omega

/-- **A dotted tail is read as the group of its first digits.** -/
theorem reads_quad {quad : List Char} {m : ℕ} (h : ipv4 quad = some m) :
    ∃ k, group (quad.takeWhile (· ≠ '.')) = some k ∧ Reads quad k := by
  obtain ⟨ns, hns, hfour, -, -⟩ := exists_octets h
  have hcolon : ':' ∉ quad := fun hmem => by
    rcases mem_of_ipv4 h hmem with hdot | hdigit
    · exact absurd hdot (by decide)
    · exact absurd hdigit (by decide)
  obtain ⟨first, rest, hsplit⟩ := List.exists_cons_of_ne_nil (List.splitOn_ne_nil '.' quad)
  have hjoin : ['.'].intercalate (first :: rest) = quad := by
    rw [← hsplit]
    exact List.intercalate_splitOn '.'
  obtain ⟨n, hn⟩ : ∃ n, octet first = some n := by
    rw [hsplit] at hns
    cases hns with
    | cons hfirst _ => exact ⟨_, hfirst⟩
  have hdot : ∀ c ∈ first, decide (c ≠ '.') = true := by
    intro c hc
    refine decide_eq_true ?_
    rintro rfl
    exact absurd (List.all_eq_true.1 (digits_of_octet hn).1 '.' hc) (by decide)
  obtain ⟨more, hmore, hquad⟩ : ∃ more, (more = [] ∨ more.head? = some '.') ∧
      quad = first ++ more := by
    cases rest with
    | nil =>
      rw [List.intercalate_singleton] at hjoin
      exact ⟨[], .inl rfl, by rw [← hjoin, List.append_nil]⟩
    | cons second rest =>
      rw [List.intercalate_cons_cons, List.append_assoc] at hjoin
      exact ⟨_, .inr rfl, hjoin.symm⟩
  have htake : quad.takeWhile (fun c => decide (c ≠ '.')) = first := by
    rw [hquad, List.takeWhile_append_of_pos hdot]
    rcases hmore with rfl | hhead
    · rw [List.takeWhile_nil, List.append_nil]
    · obtain ⟨tail, rfl⟩ : ∃ tail, more = '.' :: tail := by
        cases more with
        | nil => cases hhead
        | cons c tail => exact ⟨tail, by rw [Option.some.inj hhead]⟩
      rw [List.takeWhile_cons_of_neg (by decide), List.append_nil]
  rw [htake, hquad]
  refine reads_digits (group_of_octet hn) (fun hmem => hcolon ?_) hmore
  rw [hquad]
  exact List.mem_append_right _ hmem

/-! ### Groups of an address -/

theorem exists_of_forall₂_append {α β : Type*} {R : α → β → Prop} {as bs : List α} {cs : List β}
    (h : List.Forall₂ R (as ++ bs) cs) :
    ∃ cs₁ cs₂, List.Forall₂ R as cs₁ ∧ List.Forall₂ R bs cs₂ ∧ cs = cs₁ ++ cs₂ := by
  induction as generalizing cs with
  | nil => exact ⟨[], cs, .nil, h, rfl⟩
  | cons a as ih =>
    cases h with
    | @cons _ c _ cs hac hrest =>
      obtain ⟨cs₁, cs₂, hcs₁, hcs₂, rfl⟩ := ih hrest
      exact ⟨c :: cs₁, cs₂, .cons hac hcs₁, hcs₂, rfl⟩

/-- The groups that a dotted tail is read in, and the text with its first digits alone. -/
theorem exists_reads {gs : List (List Char)} {ns : List ℕ} (h : groups true gs = some ns) :
    (groups false gs = some ns ∧ '.' ∉ [':'].intercalate gs) ∨
      ∃ gs' ms, groups false gs' = some ms ∧ ms.length + 1 = ns.length ∧
        List.Forall₂ Reads gs ms ∧ gs' ≠ [] ∧ '.' ∈ [':'].intercalate gs ∧
        ([':'].intercalate gs).takeWhile (· ≠ '.') = [':'].intercalate gs' := by
  rcases groups_undotted h with hplain | ⟨front, quad, m, rfl, hm, hfront⟩
  · exact .inl ⟨hplain, dot_notMem_intercalate hplain⟩
  obtain ⟨k, hk, hreads⟩ := reads_quad hm
  obtain ⟨fronts, lasts, hfronts, hlasts, hns⟩ :=
    exists_of_forall₂_append (forall₂_of_groups hfront)
  have hdots : '.' ∉ front.flatMap (· ++ [':']) := by
    intro hdot
    obtain ⟨g, hg, hmem⟩ := List.mem_flatMap.1 hdot
    obtain ⟨n, hn⟩ := group_of_mem hfront (List.mem_append_left _ hg)
    simp only [List.mem_append, List.mem_singleton, Char.reduceEq, or_false] at hmem
    exact dot_notMem_of_group hn hmem
  refine .inr ⟨front ++ [quad.takeWhile (· ≠ '.')], fronts ++ [k], ?_, ?_, ?_, by simp, ?_, ?_⟩
  · exact groups_of_forall₂ (List.rel_append hfronts (.cons hk .nil))
  · rw [hns, List.length_append, List.length_append, ← hlasts.length_eq]
    rfl
  · exact List.rel_append (hfronts.imp fun _ _ => reads_of_group) (.cons hreads .nil)
  · rw [intercalate_append_cons, List.intercalate_singleton]
    exact List.mem_append_right _ (dot_mem_of_ipv4 hm)
  · rw [intercalate_append_cons, intercalate_append_cons, List.intercalate_singleton,
      List.intercalate_singleton, List.takeWhile_append_of_pos]
    intro c hc
    refine decide_eq_true ?_
    rintro rfl
    exact hdots hc

/-- What `::` and the colons make of a text: groups in the number of those of the address as it is
read. -/
structure Expands (text : List Char) (gs : List (List Char)) (ms : List ℕ) : Prop where
  reads : List.Forall₂ Reads gs ms
  ne : gs ≠ []
  value : ipv6 (asRead text) = some (assemble 65536 ms)
  eq : ((indexOfDoubleColon text).isSome = false ∧ text = [':'].intercalate gs) ∨
    ∃ ls rs, (indexOfDoubleColon text).isSome = true ∧
      groupsOf (splitDoubleColon text).1 = ls ∧ groupsOf (splitDoubleColon text).2 = rs ∧
      ls.length + rs.length < 8 ∧
      gs = ls ++ List.replicate (8 - ls.length - rs.length) ['0', '0', '0', '0'] ++ rs

theorem reads_zeros (k : ℕ) :
    List.Forall₂ Reads (List.replicate k ['0', '0', '0', '0']) (List.replicate k 0) := by
  refine List.forall₂_iff_get.2 ⟨by simp, fun i h1 h2 => ?_⟩
  simp only [List.get_eq_getElem, List.getElem_replicate]
  exact reads_of_group rfl

/-- **The groups of an address**, as they are read. -/
theorem exists_expands {text : List Char} {n : ℕ} (h : ipv6 text = some n) :
    ∃ gs ms, Expands text gs ms := by
  rcases ipv6_shape h with ⟨gs, ns, rfl, hgs, hlength, rfl⟩ |
    ⟨ls, rs, lns, rns, rfl, hls, hrs, hfits, rfl⟩
  · have hnone := splitDouble_groups_none hgs
    obtain ⟨hindex, -⟩ := splitDoubleColon_of_none hnone
    have hne : gs ≠ [] := by
      rintro rfl
      cases hgs
      cases hlength
    rcases exists_reads hgs with ⟨hplain, hdot⟩ |
      ⟨gs', ms, hgs', hcount, hreads, hne', hdot, htake⟩
    · refine ⟨gs, ns, reads_groups hplain, hne, ?_, .inl ⟨by rw [hindex]; rfl, rfl⟩⟩
      rw [asRead, if_pos hdot, h]
    · refine ⟨gs, ms, hreads, hne, ?_, .inl ⟨by rw [hindex]; rfl, rfl⟩⟩
      have hzero : groups true (['0'] :: gs') = some (0 :: ms) := by
        obtain ⟨g, more, rfl⟩ := List.exists_cons_of_ne_nil hne'
        rw [groups_cons_cons, groups_true_of_false hgs']
        rfl
      have htext : '0' :: ':' :: [':'].intercalate gs' = [':'].intercalate (['0'] :: gs') := by
        rw [List.intercalate_cons_of_ne_nil hne']
        rfl
      rw [asRead, if_neg (not_not.2 hdot), if_pos hnone, htake, htext,
        ipv6_of_groups hzero (by rw [List.length_cons]; omega)]
      rw [← List.singleton_append, assemble_append_list]
      simp [assemble]
  · have hsome := splitDouble_groups hls ([':'].intercalate rs)
    obtain ⟨hindex, hsplit⟩ := splitDoubleColon_of_some hsome (splitDouble_groups_none hrs)
    have hll := (forall₂_of_groups hls).length_eq
    have hdotLeft := dot_notMem_intercalate hls
    rcases exists_reads hrs with ⟨hplain, hdot⟩ |
      ⟨rs', ms, hrs', hcount, hreads, hne', hdot, htake⟩
    · have hrl := (forall₂_of_groups hplain).length_eq
      refine ⟨ls ++ List.replicate (8 - ls.length - rs.length) ['0', '0', '0', '0'] ++ rs,
        lns ++ List.replicate (8 - ls.length - rs.length) 0 ++ rns,
        List.rel_append (List.rel_append (reads_groups hls) (reads_zeros _)) (reads_groups hplain),
        ?_, ?_, .inr ⟨ls, rs, hindex, ?_, ?_, by omega, rfl⟩⟩
      · intro hnil
        have := congrArg List.length hnil
        simp only [List.length_append, List.length_replicate, List.length_nil] at this
        omega
      · rw [asRead, if_pos, h, hll, hrl]
        intro hmem
        rcases List.mem_append.1 hmem with hmem | hmem
        · exact hdotLeft hmem
        · simp only [List.mem_cons, Char.reduceEq, false_or] at hmem
          exact hdot hmem
      · rw [hsplit, groupsOf_intercalate hls]
      · rw [hsplit, groupsOf_intercalate hrs]
    · have hrl := hreads.length_eq
      refine ⟨ls ++ List.replicate (8 - ls.length - rs.length) ['0', '0', '0', '0'] ++ rs,
        lns ++ List.replicate (8 - ls.length - rs.length) 0 ++ ms,
        List.rel_append (List.rel_append (reads_groups hls) (reads_zeros _)) hreads,
        ?_, ?_, .inr ⟨ls, rs, hindex, ?_, ?_, by omega, rfl⟩⟩
      · intro hnil
        have := congrArg List.length hnil
        simp only [List.length_append, List.length_replicate, List.length_nil] at this
        omega
      · have htail : ([':'].intercalate ls ++ ':' :: ':' :: [':'].intercalate rs).takeWhile
            (fun c => decide (c ≠ '.')) =
            [':'].intercalate ls ++ ':' :: ':' :: [':'].intercalate rs' := by
          rw [List.takeWhile_append_of_pos, List.takeWhile_cons_of_pos (by decide),
            List.takeWhile_cons_of_pos (by decide), htake]
          intro c hc
          refine decide_eq_true ?_
          rintro rfl
          exact hdotLeft hc
        rw [asRead, if_neg, if_neg (by rw [hsome]; exact Option.some_ne_none _), htail,
          ipv6_of_double hls (groups_true_of_false hrs') (by omega), hll, hrl]
        exact not_not.2 (List.mem_append_right _
          (List.mem_cons_of_mem _ (List.mem_cons_of_mem _ hdot)))
      · rw [hsplit, groupsOf_intercalate hls]
      · rw [hsplit, groupsOf_intercalate hrs]

/-! ### Numbers -/

theorem lor_shiftLeft (n : ℕ) {m : ℕ} (hm : m < 65536) :
    Int.lor ((n : ℤ) <<< 16) (m : ℤ) = ((n * 65536 + m : ℕ) : ℤ) := by
  have hor : n <<< 16 ||| m = n * 65536 + m := by
    rw [Nat.shiftLeft_eq, Nat.mul_comm, ← Nat.two_pow_add_eq_or_of_lt (show m < 2 ^ 16 from hm)]
  show ((n <<< 16 ||| m : ℕ) : ℤ) = _
  rw [hor]

theorem foldlM_shiftIn {gs : List (List Char)} {ms : List ℕ} (h : List.Forall₂ Reads gs ms)
    (start : ℕ) : (gs.map (JsText.padStart 4 '0')).foldlM shiftIn (start : ℤ) =
      .ok ((ms.foldl (fun n d => n * 65536 + d) start : ℕ) : ℤ) := by
  induction h generalizing start with
  | nil => rfl
  | @cons g m gs ms hread _ ih =>
    have hshift : shiftIn (start : ℤ) (JsText.padStart 4 '0' g) =
        .ok ((start * 65536 + m : ℕ) : ℤ) := by
      rw [shiftIn, hread.padded]
      dsimp only
      rw [lor_shiftLeft start hread.lt]
    rw [List.map_cons, List.foldlM_cons, hshift]
    exact ih _

theorem foldlM_parseInt {gs : List (List Char)} {ms : List ℕ} (h : List.Forall₂ Reads gs ms)
    (start : ℕ) : gs.foldlM (fun acc group =>
      (JsText.parseInt 16 (if group = [] then ['0'] else group)).map fun n =>
        Int.lor (acc <<< 16) n) (start : ℤ) =
      some ((ms.foldl (fun n d => n * 65536 + d) start : ℕ) : ℤ) := by
  induction h generalizing start with
  | nil => rfl
  | @cons g m gs ms hread _ ih =>
    have hne : g ≠ [] := by
      rintro rfl
      cases hread.parsed
    rw [List.foldlM_cons, if_neg hne, hread.parsed, Option.map_some, lor_shiftLeft start hread.lt]
    exact ih _

theorem Expands.notMem {text : List Char} {gs : List (List Char)} {ms : List ℕ}
    (h : Expands text gs ms) : ∀ g ∈ gs, ':' ∉ g := by
  have hreads := h.reads
  clear h
  induction hreads with
  | nil => exact fun _ hg => absurd hg List.not_mem_nil
  | cons hread _ ih =>
    intro g hg
    rcases List.mem_cons.1 hg with rfl | hg
    · exact hread.notMem
    · exact ih g hg

theorem colon_notMem_padStart {g : List Char} (h : ':' ∉ g) : ':' ∉ JsText.padStart 4 '0' g := by
  intro hmem
  rcases List.mem_append.1 hmem with hpad | hmem
  · exact absurd (List.eq_of_mem_replicate hpad) (by decide)
  · exact h hmem

theorem expandIPv6_eq {text : List Char} {gs : List (List Char)} {ms : List ℕ}
    (h : Expands text gs ms) :
    expandIPv6 text = .ok ([':'].intercalate (gs.map (JsText.padStart 4 '0'))) := by
  have hsplit : JsText.split ':' ([':'].intercalate gs) = gs :=
    List.splitOn_intercalate ':' h.notMem h.ne
  unfold expandIPv6
  rcases h.eq with ⟨hindex, htext⟩ | ⟨ls, rs, hindex, hleft, hright, hfits, hgs⟩
  · rw [if_neg (by rw [hindex]; decide), htext]
    show Except.ok _ = _
    rw [hsplit]
  · rw [if_pos hindex, hleft, hright]
    dsimp only
    rw [if_neg (by omega), ← hgs]
    show Except.ok _ = _
    rw [hsplit]

/-- **What is read of an IPv6 address.** -/
theorem ipv6Base_eq {text : List Char} {n : ℕ} (h : ipv6 text = some n) :
    ∃ m : ℕ, ipv6 (asRead text) = some m ∧ ipv6Base text = .ok (m : ℤ) ∧
      Pools.ipv6ToBigInt text = some (m : ℤ) := by
  obtain ⟨gs, ms, hexp⟩ := exists_expands h
  refine ⟨assemble 65536 ms, hexp.value, ?_, ?_⟩
  · have hsplit : JsText.split ':' ([':'].intercalate (gs.map (JsText.padStart 4 '0'))) =
        gs.map (JsText.padStart 4 '0') := by
      refine List.splitOn_intercalate ':' ?_ (by simpa using hexp.ne)
      intro g hg
      obtain ⟨g', hg', rfl⟩ := List.mem_map.1 hg
      exact colon_notMem_padStart (hexp.notMem g' hg')
    rw [ipv6Base, expandIPv6_eq hexp]
    show (JsText.split ':' _).foldlM shiftIn 0 = _
    rw [hsplit]
    exact foldlM_shiftIn hexp.reads 0
  · have hfold := foldlM_parseInt hexp.reads 0
    unfold Pools.ipv6ToBigInt
    rcases hexp.eq with ⟨hindex, htext⟩ | ⟨ls, rs, hindex, hleft, hright, hfits, hgs⟩
    · have hsplit : JsText.split ':' text = gs := by
        rw [htext]
        exact List.splitOn_intercalate ':' hexp.notMem hexp.ne
      rw [if_neg (by rw [hindex]; decide), hsplit]
      exact hfold
    · rw [if_pos hindex, hleft, hright]
      dsimp only
      rw [if_neg (by omega), ← hgs]
      exact hfold

end Vigabss.SubnetPlanner
