import Vigabss.SubnetPlanner.Cover

/-!
# Vigabss.SubnetPlanner.Conflicts — pools whose ranges overlap

The pool service (`detectOverlap`) and the subnet planner (`detectConflicts`) look for pools with
common addresses, each with readers of its own.

**Result** (`conflicts_iff`): both find what the ranges share, when sharing takes place exactly
between networks in CIDR notation, as the planner reads them.
-/

namespace Vigabss.SubnetPlanner

open Vigabss.Lib Vigabss.Lib.IpText
open Vigabss.Pools (Pool Version shl1 parseIpv4Pool parseIpv6Pool parseCidrPrefixLen countBits
  ipv4ToInt ipv4Mask ipv4Range ipv6Range)

/-! ### Detection -/

/-- A row of `ip_pools`. -/
structure PoolRow where
  pool : Pool
  deleted : Bool

/-- The rows that `detectOverlap` compares a pool with. -/
def isPeer (pool : Pool) (excludePoolId : Option ℕ) (row : PoolRow) : Bool :=
  !row.deleted && row.pool.ip_version = pool.ip_version &&
    (pool.organization_id.isSome && row.pool.organization_id = pool.organization_id) &&
    (excludePoolId.filter (· ≠ 0)).all (row.pool.id ≠ ·)

/-- The loop body of `detectOverlap`. -/
def overlapsPeer (pool peer : Pool) : Bool :=
  match pool.ip_version with
  | .v6 =>
    match parseIpv6Pool pool, parseIpv6Pool peer with
    | some a, some b => a.1 ≤ b.2 ∧ b.1 ≤ a.2
    | _, _ => false
  | .v4 =>
    let a := parseIpv4Pool pool
    let b := parseIpv4Pool peer
    a.1 ≤ b.2 ∧ b.1 ≤ a.2

/-- `detectOverlap(pool, excludePoolId)`. -/
def detectOverlap (rows : List PoolRow) (pool : Pool) (excludePoolId : Option ℕ) :
    Option PoolRow :=
  (rows.filter (isPeer pool excludePoolId)).find? fun peer => overlapsPeer pool peer.pool

/-- The rows that `detectConflicts` reads: two pools of the organization, each pair once. -/
def poolPairs (rows : List PoolRow) (orgId : ℕ) : List (PoolRow × PoolRow) :=
  (rows.flatMap fun a => rows.map fun b => (a, b)).filter fun pair =>
    pair.1.pool.organization_id = some orgId ∧ pair.2.pool.organization_id = some orgId ∧
      pair.1.pool.id < pair.2.pool.id ∧ !pair.1.deleted ∧ !pair.2.deleted

/-- `detectConflicts(orgId)`. -/
def detectConflicts (rows : List PoolRow) (orgId : ℕ) : List (PoolRow × PoolRow) :=
  (poolPairs rows orgId).filter fun pair =>
    match cidrsOverlap pair.1.pool.network.toList pair.2.pool.network.toList with
    | .ok overlap => overlap
    | .error _ => false

/-! ### Pools -/

/-- The prefix length that a mask gives: dotted, as a number or behind a slash; an IPv4 pool without
a mask is one address. -/
inductive MaskOf : Version → Option String → ℕ → Prop
  | single : MaskOf .v4 none 32
  | dotted {text : String} {len : ℕ} : len ≤ 32 →
      ipv4 text.toList = some (2 ^ 32 - 2 ^ (32 - len)) → MaskOf .v4 (some text) len
  | number {v : Version} {text : String} {len : ℕ} : len ≤ v.width →
      text.toList = Nat.toDigits 10 len → MaskOf v (some text) len
  | slash {v : Version} {text : String} {digits : List Char} {len : ℕ} : len ≤ v.width →
      text.toList = '/' :: digits → JsText.decimal digits = some len → MaskOf v (some text) len

/-- A pool whose network is given as a CIDR, or as an address and a mask. -/
structure NetworkPool extends Network where
  pool : Pool
  version_eq : pool.ip_version = version
  network_eq : pool.network.toList = toNetwork.text
  length : ℕ
  length_le : length ≤ version.width
  given : (∃ digits, suffix = some digits ∧ JsText.decimal digits = some length) ∨
    suffix = none ∧ MaskOf version pool.subnet_mask length

/-- The addresses of a pool. -/
def NetworkPool.block (p : NetworkPool) : ℕ × ℕ := (p.value, p.length)

/-- What the planner takes for the block of a CIDR: an IPv4 network of length 0 is one address, and
the tail of a dotted IPv6 address is one group. -/
def NetworkPool.seen (p : NetworkPool) : ℕ × ℕ :=
  ((addressOf p.version p.asRead).getD 0,
    if p.version = .v4 ∧ p.length = 0 then 32 else p.length)

/-- Two pools of one organization and IP version, among the pools of the table. -/
structure PoolPair where
  orgId : ℕ
  rows : List PoolRow
  first : NetworkPool
  second : NetworkPool
  version_eq : second.version = first.version
  org_first : first.pool.organization_id = some orgId
  org_second : second.pool.organization_id = some orgId
  id_pos : 0 < first.pool.id
  id_lt : first.pool.id < second.pool.id
  mem_first : ⟨first.pool, false⟩ ∈ rows
  mem_second : ⟨second.pool, false⟩ ∈ rows

/-- The planner reports the pair. -/
def PoolPair.Reported (pair : PoolPair) : Prop :=
  (⟨pair.first.pool, false⟩, ⟨pair.second.pool, false⟩) ∈ detectConflicts pair.rows pair.orgId

/-- The pool service finds an overlap of a pool with another. -/
def Finds (pool peer : NetworkPool) : Prop :=
  (detectOverlap [⟨pool.pool, false⟩, ⟨peer.pool, false⟩] pool.pool (some pool.pool.id)).isSome

/-! ### Networks of pools -/

theorem trim_of_forall {text : List Char} (h : ∀ c ∈ text, JsText.isSpace c = false) :
    JsText.trim text = text :=
  JsText.trim_of_ends (fun c hc => h c (List.mem_of_head? hc))
    fun c hc => h c (List.mem_of_getLast? hc)

theorem trim_address {v : Version} {text : List Char} {n : ℕ} (h : addressOf v text = some n) :
    JsText.trim text = text := by
  refine trim_of_forall fun c hc => ?_
  have hsigns : c = ':' ∨ c = '.' ∨ JsText.isDigit 16 c = true := by
    cases v with
    | v4 => exact .inr (mem_of_ipv4 h hc)
    | v6 => exact mem_of_ipv6 h hc
  rcases hsigns with rfl | rfl | hdigit
  · decide
  · decide
  · exact JsText.not_isSpace_of_isDigit le_rfl hdigit

theorem octet_step {g : List Char} {n d : ℕ} (hn : n < 2 ^ 24) (h : octet g = some d) :
    ((some (n : ℚ)).bind fun n => (JsText.parseInt 10 g).map fun o => fl (fl (n * 256) + o)) =
      some ((n * 256 + d : ℕ) : ℚ) := by
  have hlt := octet_lt h
  have hproduct : fl ((n : ℚ) * 256) = (n * 256 : ℕ) := by
    rw [← fl_natCast (show n * 256 < 2 ^ 53 by omega)]
    push_cast
    rfl
  have hsum : fl (((n * 256 : ℕ) : ℚ) + d) = (n * 256 + d : ℕ) := by
    rw [← fl_natCast (show n * 256 + d < 2 ^ 53 by omega)]
    push_cast
    rfl
  rw [Option.bind_some, parseInt_of_octet h, hproduct]
  show some (fl (((n * 256 : ℕ) : ℚ) + ((d : ℤ) : ℚ))) = _
  rw [Int.cast_natCast, hsum]

/-- **`ipv4ToInt` reads an address right.** -/
theorem ipv4ToInt_eq {text : List Char} {n : ℕ} (h : ipv4 text = some n) :
    ipv4ToInt text = n := by
  obtain ⟨ns, hns, hfour, hlt, rfl⟩ := exists_octets h
  obtain ⟨a, b, c, d, rfl⟩ : ∃ a b c d, ns = [a, b, c, d] := by
    match ns, hfour with
    | [a, b, c, d], _ => exact ⟨a, b, c, d, rfl⟩
  simp only [List.forall_mem_cons, List.not_mem_nil, false_implies, implies_true, and_true] at hlt
  simp only [List.forall₂_cons_right_iff, List.forall₂_nil_right_iff] at hns
  obtain ⟨pa, _, ha, ⟨pb, _, hb, ⟨pc, _, hc, ⟨pd, _, hd, rfl, rfl⟩, rfl⟩, rfl⟩, hparts⟩ := hns
  have hzero : (0 : ℚ) = (0 : ℕ) := Nat.cast_zero.symm
  rw [ipv4ToInt, JsText.split, hparts, hzero]
  simp only [List.foldl_cons, List.foldl_nil]
  rw [octet_step (by omega) ha, octet_step (by omega) hb, octet_step (by omega) hc,
    octet_step (by omega) hd, JsText.toUint32_natCast (by omega)]
  rfl

theorem countBits_two_pow_mul (k n : ℕ) : countBits (2 ^ k * n) = countBits n := by
  induction k with
  | zero => rw [pow_zero, Nat.one_mul]
  | succ k ih =>
    have heven : 2 ^ (k + 1) * n = 2 * (2 ^ k * n) := by rw [pow_succ]; ring
    rw [heven, countBits]
    split_ifs with hzero
    · rw [← ih, show 2 ^ k * n = 0 by omega, countBits, if_pos rfl]
    · rw [Nat.and_one_is_mod, Nat.mul_mod_right, Nat.zero_add, Nat.shiftRight_one,
        Nat.mul_div_cancel_left _ (by omega), ih]

theorem countBits_ones (len : ℕ) : countBits (2 ^ len - 1) = len := by
  induction len with
  | zero => rw [pow_zero, Nat.sub_self, countBits, if_pos rfl]
  | succ len ih =>
    have hpos := Nat.two_pow_pos len
    rw [countBits, if_neg (by rw [pow_succ]; omega), Nat.and_one_is_mod, Nat.shiftRight_one,
      show (2 ^ (len + 1) - 1) % 2 = 1 by rw [pow_succ]; omega,
      show (2 ^ (len + 1) - 1) / 2 = 2 ^ len - 1 by rw [pow_succ]; omega, ih, Nat.add_comm]

theorem countBits_mask {len : ℕ} (hlen : len ≤ 32) :
    countBits (2 ^ 32 - 2 ^ (32 - len)) = len := by
  have hpow : 2 ^ 32 = 2 ^ (32 - len) * 2 ^ len := by
    rw [← pow_add]
    congr 1
    omega
  have hmask : 2 ^ 32 - 2 ^ (32 - len) = 2 ^ (32 - len) * (2 ^ len - 1) := by
    rw [Nat.mul_sub, ← hpow, Nat.mul_one]
  rw [hmask, countBits_two_pow_mul, countBits_ones]

theorem length_toDigits_of_le :
    ∀ len ≤ 32, (Nat.toDigits 10 len).length = 1 ∨ (Nat.toDigits 10 len).length = 2 := by
  decide

theorem not_isSpace_of_decimal {c : Char} (h : JsText.isDigit 10 c = true) :
    JsText.isSpace c = false := JsText.not_isSpace_of_isDigit (by omega) h

/-- **A mask is read as its length.** -/
theorem parseCidrPrefixLen_eq {mask : Option String} {len : ℕ} (h : MaskOf .v4 mask len) :
    parseCidrPrefixLen mask = some (len : ℤ) := by
  have hnonempty : ∀ {text : String}, text.toList ≠ [] → text ≠ "" := by
    rintro text hne rfl
    exact hne rfl
  cases h with
  | single => rfl
  | @dotted text len hle hmask =>
    have htrim : JsText.trim text.toList = text.toList := trim_address (v := .v4) hmask
    have hdot := dot_mem_of_ipv4 hmask
    have hslash : text.toList.head? ≠ some '/' := by
      intro hhead
      rcases mem_of_ipv4 hmask (List.mem_of_head? hhead) with hsign | hsign
      · exact absurd hsign (by decide)
      · exact absurd hsign (by decide)
    have hdigits : ¬ ((text.toList.length = 1 ∨ text.toList.length = 2) ∧
        text.toList.all (JsText.isDigit 10)) := by
      rintro ⟨-, hall⟩
      exact absurd (List.all_eq_true.1 hall '.' hdot) (by decide)
    rw [parseCidrPrefixLen, if_neg (hnonempty (List.ne_nil_of_mem hdot))]
    dsimp only
    rw [htrim, if_neg hslash, if_neg hdigits, ipv4ToInt_eq hmask, countBits_mask hle]
  | @number _ text _ hle htext =>
    have hall : (Nat.toDigits 10 len).all (JsText.isDigit 10) = true :=
      all_isDigit_toDigits (by omega) (by omega) len
    have htrim : JsText.trim text.toList = text.toList := by
      refine trim_of_forall fun c hc => not_isSpace_of_decimal ?_
      rw [htext] at hc
      exact List.all_eq_true.1 hall c hc
    have hslash : (Nat.toDigits 10 len).head? ≠ some '/' := fun hhead =>
      absurd (List.all_eq_true.1 hall '/' (List.mem_of_head? hhead)) (by decide)
    have hlength : (Nat.toDigits 10 len).length = 1 ∨ (Nat.toDigits 10 len).length = 2 :=
      length_toDigits_of_le len hle
    rw [parseCidrPrefixLen, if_neg (hnonempty (by rw [htext]; exact Nat.toDigits_ne_nil))]
    dsimp only
    rw [htrim, htext, if_neg hslash, if_pos ⟨hlength, hall⟩]
    exact JsText.parseInt_decimal (decimal_toDigits len) (hle.trans_lt (by decide))
  | @slash _ text digits _ hle htext hdigits =>
    have hall : digits.all (JsText.isDigit 10) = true := by
      rw [JsText.decimal] at hdigits
      split_ifs at hdigits with hform
      exact hform.2
    have htrim : JsText.trim text.toList = text.toList := by
      refine trim_of_forall fun c hc => ?_
      rw [htext] at hc
      rcases List.mem_cons.1 hc with rfl | hc
      · decide
      · exact not_isSpace_of_decimal (List.all_eq_true.1 hall c hc)
    rw [parseCidrPrefixLen, if_neg (hnonempty (by rw [htext]; exact List.cons_ne_nil _ _))]
    dsimp only
    rw [htrim, htext, if_pos (show ('/' :: digits).head? = some '/' from rfl)]
    exact JsText.parseInt_decimal hdigits (hle.trans_lt (by decide))

/-! ### Ranges -/

/-- The last address of a block. -/
def last (width : ℕ) (b : ℕ × ℕ) : ℕ := first width b + 2 ^ (width - b.2) - 1

theorem share_iff_last {width : ℕ} {b c : ℕ × ℕ} : Share width b c ↔
    first width b ≤ last width c ∧ first width c ≤ last width b := by
  have hb := Nat.two_pow_pos (width - b.2)
  have hc := Nat.two_pow_pos (width - c.2)
  rw [share_iff, last, last]
  omega

theorem first_or_ones (width : ℕ) (b : ℕ × ℕ) :
    first width b ||| (2 ^ (width - b.2) - 1) = last width b := by
  have hpos := Nat.two_pow_pos (width - b.2)
  rw [last, first, Nat.mul_comm, ← Nat.two_pow_add_eq_or_of_lt (by omega)]
  omega

theorem toNat_ipv4Mask {len : ℕ} (hlen : len ≤ 32) :
    (ipv4Mask (some (len : ℤ))).toNat = (2 ^ 32 - 1) <<< (32 - len) % 2 ^ 32 := by
  unfold ipv4Mask
  dsimp only [Option.map_some, Option.getD_some]
  split_ifs with hzero
  · have hlen : len = 0 := by
      have := Option.some.inj hzero
      omega
    rw [hlen]
    rfl
  · have hcount : ((32 - (len : ℤ)) % 32).toNat = 32 - len := by
      have : ¬ 32 - (len : ℤ) = 32 := fun heq => hzero (by rw [heq])
      omega
    rw [hcount]
    exact BitVec.toNat_ofNat _ 32

/-- **The range of an IPv4 network.** -/
theorem ipv4Range_eq {text : List Char} {n len : ℕ} (h : ipv4 text = some n) (hlen : len ≤ 32) :
    ipv4Range text (some (len : ℤ)) = (first 32 (n, len), last 32 (n, len)) := by
  have hn : n < 2 ^ 32 := ipv4_lt h
  have hmask := toNat_ipv4Mask hlen
  have hnet : (BitVec.ofNat 32 n &&& ipv4Mask (some (len : ℤ))).toNat = first 32 (n, len) := by
    rw [BitVec.toNat_and, hmask, BitVec.toNat_ofNat, Nat.mod_eq_of_lt hn]
    exact and_ones_shift hn
  have hhosts : (~~~ ipv4Mask (some (len : ℤ))).toNat = 2 ^ (32 - len) - 1 := by
    have hle : 2 ^ (32 - len) ≤ 2 ^ 32 := Nat.pow_le_pow_right (by omega) (by omega)
    rw [BitVec.toNat_not, hmask, ones_shift (by omega)]
    omega
  unfold ipv4Range
  dsimp only
  rw [ipv4ToInt_eq h, BitVec.toNat_or, hnet, hhosts]
  exact Prod.ext rfl (first_or_ones 32 (n, len))

theorem ldiff_ones (w k : ℕ) :
    Nat.ldiff (2 ^ w - 1) (2 ^ k - 1) = (2 ^ w - 1) <<< k % 2 ^ w := by
  refine Nat.eq_of_testBit_eq fun i => ?_
  rw [Nat.testBit_ldiff, Nat.testBit_mod_two_pow, Nat.testBit_shiftLeft,
    Nat.testBit_two_pow_sub_one, Nat.testBit_two_pow_sub_one, Nat.testBit_two_pow_sub_one]
  by_cases hi : i < w
  · by_cases hlow : k ≤ i
    · have hsub : i - k < w := by omega
      simp [hi, hlow, hsub]
    · have hbelow : i < k := by omega
      simp [hlow, hbelow]
  · simp [hi]

/-- **The range of an IPv6 network**, as its address is read. -/
theorem ipv6Range_eq {address digits text : List Char} {m len : ℕ}
    (htext : JsText.split '/' text = [address, digits])
    (htrim : JsText.trim address = address)
    (haddress : Pools.ipv6ToBigInt address = some (m : ℤ)) (hm : m < 2 ^ 128)
    (hdigits : JsText.parseInt 10 digits = some (len : ℤ)) (hlen : len ≤ 128) :
    ipv6Range text = some ((first 128 (m, len) : ℤ), (last 128 (m, len) : ℤ)) := by
  have hsub : 128 - (len : ℤ) = (128 - len : ℕ) := by omega
  have hmask : (if ((128 - len : ℕ) : ℤ) = 128 then 0 else
      Int.land (Int.lnot (shl1 (128 - len : ℕ) - 1)) (shl1 128 - 1)) =
      (((2 ^ 128 - 1) <<< (128 - len) % 2 ^ 128 : ℕ) : ℤ) := by
    split_ifs with hzero
    · have hfull : 128 - len = 128 := by omega
      rw [hfull]
      rfl
    · have hones : shl1 128 - 1 = ((2 ^ 128 - 1 : ℕ) : ℤ) := Pools.shl1_sub_one 128
      rw [← ldiff_ones, Pools.shl1_sub_one, hones]
      rfl
  unfold ipv6Range
  dsimp only
  rw [htext]
  simp only [List.getD_cons_zero, List.getD_cons_succ, hdigits, htrim, haddress,
    Option.bind_eq_bind, Option.bind_some, hsub]
  rw [hmask, Pools.shl1_sub_one]
  have hnet : Int.land (m : ℤ) (((2 ^ 128 - 1) <<< (128 - len) % 2 ^ 128 : ℕ) : ℤ) =
      first 128 (m, len) := by
    rw [first, ← and_ones_shift hm]
    rfl
  rw [hnet, ← first_or_ones]
  rfl

/-- **What the planner makes of an IPv4 network.** -/
theorem cidrToRangeIPv4_eq {text : List Char} {n len : ℕ} (h : ipv4 text = some n)
    (hlen : len ≤ 32) {b : ℕ × ℕ} (hb : b = (n, if len = 0 then 32 else len)) :
    cidrToRangeIPv4 text (some (len : ℤ)) = ⟨first 32 b, last 32 b, false⟩ := by
  have hn : n < 2 ^ 32 := ipv4_lt h
  have hbits : b.2 ≤ 32 := by
    rw [hb]
    dsimp only
    split_ifs <;> omega
  have hcount : shiftCount len = 32 - b.2 := by
    rw [shiftCount, hb]
    dsimp only
    split_ifs <;> omega
  have hfirst : (ipv4Base text &&& 0xffffffff#32 <<< (32 - b.2)).toNat = first 32 b := by
    rw [BitVec.toNat_and, ipv4Base_eq h, BitVec.toNat_shiftLeft, first, hb]
    exact and_ones_shift (w := 32) hn
  have hstep : (if some (len : ℤ) = some 32 then 1 else (1#32 <<< (32 - b.2)).toNat) =
      2 ^ (32 - b.2) := by
    split_ifs with hfull
    · have hlen : len = 32 := by exact_mod_cast Option.some.inj hfull
      rw [hb, hlen]
      rfl
    · have hpos : 0 < b.2 := by
        rw [hb]
        dsimp only
        split_ifs <;> omega
      have hlt : 2 ^ (32 - b.2) < 2 ^ 32 := Nat.pow_lt_pow_right (by omega) (by omega)
      rw [BitVec.toNat_shiftLeft, Nat.shiftLeft_eq]
      show 1 * 2 ^ (32 - b.2) % 2 ^ 32 = _
      rw [Nat.one_mul, Nat.mod_eq_of_lt hlt]
  have hlt : first 32 b + 2 ^ (32 - b.2) ≤ 2 ^ 32 := by
    rw [hb] at hbits ⊢
    exact first_add_le hbits hn
  unfold cidrToRangeIPv4
  dsimp only [Option.map_some, Option.getD_some]
  rw [hcount, hstep, hfirst]
  have hpos := Nat.two_pow_pos (32 - b.2)
  have hlast : (BitVec.ofInt 32 (first 32 b + (2 ^ (32 - b.2) : ℕ) - 1)).toNat = last 32 b := by
    rw [BitVec.toNat_ofInt, last]
    omega
  rw [hlast]

/-! ### Pools -/

namespace NetworkPool

variable {p : NetworkPool}

theorem text_of_none (h : p.suffix = none) : p.pool.network.toList = p.address := by
  rw [p.network_eq, Network.text, h]
  exact List.append_nil _

theorem text_of_some {digits : List Char} (h : p.suffix = some digits) :
    p.pool.network.toList = p.address ++ '/' :: digits := by
  rw [p.network_eq, Network.text, h]

theorem slash_mem_iff : '/' ∈ p.pool.network.toList ↔ p.suffix ≠ none := by
  cases h : p.suffix with
  | none =>
    rw [text_of_none h]
    exact iff_of_false p.slash_notMem fun hne => hne rfl
  | some digits =>
    rw [text_of_some h]
    exact iff_of_true (by simp) (Option.some_ne_none _)

theorem exists_digits (h : '/' ∈ p.pool.network.toList) :
    ∃ digits, JsText.split '/' p.pool.network.toList = [p.address, digits] ∧
      JsText.parseInt 10 digits = some (p.length : ℤ) := by
  rcases p.given with ⟨digits, hsuffix, hdigits⟩ | ⟨hnone, -⟩
  · have hslash : '/' ∉ digits := by
      intro hmem
      rw [JsText.decimal] at hdigits
      split_ifs at hdigits with hform
      exact absurd (List.all_eq_true.1 hform.2 '/' hmem) (by decide)
    have hlt : p.length < 2 ^ 53 := by
      have hwidth : p.version.width ≤ 128 := by cases p.version <;> decide
      have := p.length_le
      omega
    refine ⟨digits, ?_, JsText.parseInt_decimal hdigits hlt⟩
    rw [text_of_some hsuffix, JsText.split,
      List.splitOn_append_cons_self_of_not_mem p.slash_notMem, List.splitOn_eq_singleton hslash]
  · exact absurd hnone (slash_mem_iff.1 h)

/-- **The pool service reads an IPv4 pool right.** -/
theorem parseIpv4Pool_eq (hv : p.version = .v4) :
    parseIpv4Pool p.pool = (first 32 p.block, last 32 p.block) := by
  have hreads := p.reads
  have hlength := p.length_le
  rw [hv] at hreads hlength
  unfold parseIpv4Pool
  dsimp only
  split_ifs with hslash
  · obtain ⟨digits, hsplit, hdigits⟩ := exists_digits hslash
    rw [hsplit]
    simp only [List.getD_cons_zero, List.getD_cons_succ]
    rw [hdigits, trim_address hreads]
    exact ipv4Range_eq hreads hlength
  · have hnone := not_not.1 (mt slash_mem_iff.2 hslash)
    rcases p.given with ⟨digits, hsuffix, -⟩ | ⟨-, hmask⟩
    · rw [hsuffix] at hnone
      cases hnone
    · rw [hv] at hmask
      rw [text_of_none hnone, parseCidrPrefixLen_eq hmask]
      exact ipv4Range_eq hreads hlength

theorem exists_base (hv : p.version = .v6) : ∃ m : ℕ, m < 2 ^ 128 ∧ p.seen = (m, p.length) ∧
    ipv6Base p.address = .ok (m : ℤ) ∧ Pools.ipv6ToBigInt p.address = some (m : ℤ) := by
  have hreads := p.reads
  rw [hv] at hreads
  obtain ⟨m, hm, hbase, hbig⟩ := ipv6Base_eq hreads
  refine ⟨m, ipv6_lt hm, ?_, hbase, hbig⟩
  have hasRead : addressOf p.version p.asRead = some m := by
    rw [Network.asRead, hv]
    exact hm
  rw [seen, hasRead, if_neg (by rw [hv]; exact fun h => Version.noConfusion h.1)]
  rfl

theorem seen_of_v4 (hv : p.version = .v4) :
    p.seen = (p.value, if p.length = 0 then 32 else p.length) := by
  have hasRead : addressOf p.version p.asRead = some p.value := by
    rw [Network.asRead, hv, ← p.reads, hv]
  rw [seen, hasRead, hv]
  simp

/-- **The pool service reads an IPv6 CIDR as the planner sees it.** -/
theorem parseIpv6Pool_eq (hv : p.version = .v6) :
    parseIpv6Pool p.pool = if '/' ∈ p.pool.network.toList then
      some ((first 128 p.seen : ℤ), (last 128 p.seen : ℤ)) else none := by
  have hlength := p.length_le
  rw [hv] at hlength
  unfold parseIpv6Pool
  split_ifs with hslash
  · obtain ⟨m, hm, hseen, -, hbig⟩ := exists_base hv
    obtain ⟨digits, hsplit, hdigits⟩ := exists_digits hslash
    rw [hseen]
    exact ipv6Range_eq hsplit (trim_address p.reads) hbig hm hdigits hlength
  · rfl

/-- **The planner's range of a network in CIDR notation.** -/
theorem cidrToRange_eq : cidrToRange p.pool.network.toList =
    .ok (if '/' ∈ p.pool.network.toList then
      some ⟨first p.version.width p.seen, last p.version.width p.seen, p.version = .v6⟩
    else none) := by
  unfold cidrToRange
  by_cases hslash : '/' ∈ p.pool.network.toList
  · obtain ⟨digits, hsplit, hdigits⟩ := exists_digits hslash
    rw [if_neg (not_not.2 hslash), if_pos hslash, hsplit]
    simp only [List.getD_cons_zero, List.getD_cons_succ]
    have hlength := p.length_le
    rw [hdigits]
    cases hv : p.version with
    | v4 =>
      have hreads := p.reads
      rw [hv] at hreads hlength
      rw [if_neg (by rw [p.colon_mem_iff, hv]; exact Version.noConfusion),
        cidrToRangeIPv4_eq hreads hlength (seen_of_v4 hv)]
      rfl
    | v6 =>
      obtain ⟨m, hm, hseen, hbase, -⟩ := exists_base hv
      rw [hv] at hlength
      have hsub : 128 - (p.length : ℤ) = (128 - p.length : ℕ) := by
        have : p.length ≤ 128 := hlength
        omega
      have hpos := Nat.two_pow_pos (128 - p.length)
      have hlast : (first 128 (m, p.length) : ℤ) + (2 ^ (128 - p.length) : ℕ) - 1 =
          last 128 (m, p.length) := by
        rw [last]
        dsimp only
        omega
      rw [if_pos (by rw [p.colon_mem_iff, hv]), cidrToRangeIPv6, hbase, hseen]
      show Except.map some (Except.ok _) = _
      rw [land_ipv6Mask hm hlength, hsub, shl1_natCast, hlast]
      rfl
  · rw [if_pos hslash, if_neg hslash]

theorem overlapsPeer_iff {q : NetworkPool} (hv : q.version = p.version) :
    overlapsPeer p.pool q.pool = true ↔
      match p.version with
      | .v4 => Share 32 p.block q.block
      | .v6 => ('/' ∈ p.pool.network.toList ∧ '/' ∈ q.pool.network.toList) ∧
          Share 128 p.seen q.seen := by
  unfold overlapsPeer
  rw [p.version_eq]
  cases hp : p.version with
  | v4 =>
    rw [parseIpv4Pool_eq hp, parseIpv4Pool_eq (hv.trans hp)]
    exact decide_eq_true_iff.trans share_iff_last.symm
  | v6 =>
    dsimp only
    rw [parseIpv6Pool_eq hp, parseIpv6Pool_eq (hv.trans hp)]
    by_cases hslash : '/' ∈ p.pool.network.toList
    · by_cases hslash' : '/' ∈ q.pool.network.toList
      · rw [if_pos hslash, if_pos hslash']
        refine decide_eq_true_iff.trans ?_
        rw [share_iff_last, Int.ofNat_le, Int.ofNat_le]
        exact (and_iff_right ⟨hslash, hslash'⟩).symm
      · rw [if_pos hslash, if_neg hslash']
        exact iff_of_false Bool.false_ne_true fun h => hslash' h.1.2
    · rw [if_neg hslash]
      exact iff_of_false Bool.false_ne_true fun h => hslash h.1.1

theorem cidrsOverlap_iff {q : NetworkPool} (hv : q.version = p.version) :
    cidrsOverlap p.pool.network.toList q.pool.network.toList = .ok true ↔
      ('/' ∈ p.pool.network.toList ∧ '/' ∈ q.pool.network.toList) ∧
        Share p.version.width p.seen q.seen := by
  unfold cidrsOverlap
  rw [cidrToRange_eq, cidrToRange_eq, hv]
  by_cases hslash : '/' ∈ p.pool.network.toList
  · by_cases hslash' : '/' ∈ q.pool.network.toList
    · rw [if_pos hslash, if_pos hslash']
      show Except.ok (decide _) = .ok true ↔ _
      rw [Except.ok.injEq, decide_eq_true_iff, share_iff_last, Int.ofNat_le, Int.ofNat_le]
      simp [hslash, hslash']
    · rw [if_pos hslash, if_neg hslash']
      refine iff_of_false (fun h => ?_) fun h => hslash' h.1.2
      cases h
  · rw [if_neg hslash]
    refine iff_of_false (fun h => ?_) fun h => hslash h.1.1
    cases h

end NetworkPool

/-! ### The two searches -/

theorem PoolPair.reported_iff (pair : PoolPair) : pair.Reported ↔
    ('/' ∈ pair.first.pool.network.toList ∧ '/' ∈ pair.second.pool.network.toList) ∧
      Share pair.first.version.width pair.first.seen pair.second.seen := by
  have hpair : ((⟨pair.first.pool, false⟩, ⟨pair.second.pool, false⟩) : PoolRow × PoolRow) ∈
      poolPairs pair.rows pair.orgId := by
    refine List.mem_filter.2 ⟨?_, ?_⟩
    · exact List.mem_flatMap.2 ⟨_, pair.mem_first, List.mem_map.2 ⟨_, pair.mem_second, rfl⟩⟩
    · simp [pair.org_first, pair.org_second, pair.id_lt]
  rw [Reported, detectConflicts, List.mem_filter, and_iff_right hpair,
    ← NetworkPool.cidrsOverlap_iff pair.version_eq]
  dsimp only
  split
  · rename_i overlap heq
    rw [heq, Except.ok.injEq]
  · rename_i message heq
    rw [heq]
    exact iff_of_false Bool.false_ne_true fun h => by cases h

theorem finds_iff {p q : NetworkPool} {orgId : ℕ} (hv : q.version = p.version)
    (hp : p.pool.organization_id = some orgId) (hq : q.pool.organization_id = some orgId)
    (hpos : 0 < p.pool.id) (hne : q.pool.id ≠ p.pool.id) :
    Finds p q ↔ overlapsPeer p.pool q.pool = true := by
  have hself : isPeer p.pool (some p.pool.id) ⟨p.pool, false⟩ = false := by
    simp [isPeer, Option.filter, hpos.ne']
  have hother : isPeer p.pool (some p.pool.id) ⟨q.pool, false⟩ = true := by
    simp [isPeer, Option.filter, hpos.ne', hp, hq, hne, p.version_eq, q.version_eq, hv]
  rw [Finds, detectOverlap, List.filter_cons_of_neg (by rw [hself]; decide),
    List.filter_cons_of_pos hother, List.filter_nil, List.find?_singleton]
  cases overlapsPeer p.pool q.pool <;> simp

/-- **Both services find a pair of pools** exactly when the pools share an address, if sharing means
that both networks are CIDRs and that what the planner takes for their blocks share an address. -/
theorem conflicts_iff (pair : PoolPair) :
    ((pair.Reported ↔ Finds pair.first pair.second) ∧
      (pair.Reported ↔ Finds pair.second pair.first) ∧
      (pair.Reported ↔ Share pair.first.version.width pair.first.block pair.second.block)) ↔
      (Share pair.first.version.width pair.first.block pair.second.block ↔
        ('/' ∈ pair.first.pool.network.toList ∧ '/' ∈ pair.second.pool.network.toList) ∧
          Share pair.first.version.width pair.first.seen pair.second.seen) := by
  have hid := pair.id_lt
  rw [pair.reported_iff,
    finds_iff pair.version_eq pair.org_first pair.org_second pair.id_pos (by omega),
    finds_iff pair.version_eq.symm pair.org_second pair.org_first (by omega) (by omega),
    NetworkPool.overlapsPeer_iff pair.version_eq,
    NetworkPool.overlapsPeer_iff pair.version_eq.symm, pair.version_eq]
  cases pair.first.version with
  | v4 =>
    have hsymm : Share 32 pair.second.block pair.first.block ↔
        Share 32 pair.first.block pair.second.block := ⟨Share.symm, Share.symm⟩
    dsimp only
    rw [hsymm]
    show _ ∧ _ ∧ (_ ↔ Share 32 _ _) ↔ (Share 32 _ _ ↔ _)
    tauto
  | v6 =>
    have hsymm : Share 128 pair.second.seen pair.first.seen ↔
        Share 128 pair.first.seen pair.second.seen := ⟨Share.symm, Share.symm⟩
    dsimp only
    rw [hsymm]
    show _ ∧ _ ∧ (_ ↔ Share 128 _ _) ↔ (Share 128 _ _ ↔ _ ∧ Share 128 _ _)
    tauto

/-- The pool `10.0.0.0/8`. -/
def backbonePool : NetworkPool where
  version := .v4
  address := "10.0.0.0".toList
  value := 167772160
  reads := addressOf_ten
  suffix := some "8".toList
  pool := ⟨1, some 1, .v4, "10.0.0.0/8", none, none, none, none⟩
  version_eq := rfl
  network_eq := by decide
  length := 8
  length_le := by decide
  given := .inl ⟨_, rfl, by decide⟩

/-- The pool `10.1.0.0` with the mask `255.255.255.0`. -/
def branchPool : NetworkPool where
  version := .v4
  address := "10.1.0.0".toList
  value := 167837696
  reads := by decide
  suffix := none
  pool := ⟨2, some 1, .v4, "10.1.0.0", some "255.255.255.0", none, none, none⟩
  version_eq := rfl
  network_eq := by decide
  length := 24
  length_le := by decide
  given := .inr ⟨rfl, .dotted (by decide) (by decide)⟩

def branchPair : PoolPair where
  orgId := 1
  rows := [⟨backbonePool.pool, false⟩, ⟨branchPool.pool, false⟩]
  first := backbonePool
  second := branchPool
  version_eq := show Version.v4 = Version.v4 from rfl
  org_first := rfl
  org_second := rfl
  id_pos := by decide
  id_lt := by decide
  mem_first := List.mem_cons_self
  mem_second := List.mem_cons_of_mem _ List.mem_cons_self

/-- The planner passes over a pool that is given with a mask. -/
theorem masked_pool_unreported :
    ¬ ((branchPair.Reported ↔ Finds branchPair.first branchPair.second) ∧
      (branchPair.Reported ↔ Finds branchPair.second branchPair.first) ∧
      (branchPair.Reported ↔
        Share branchPair.first.version.width branchPair.first.block branchPair.second.block)) := by
  rintro ⟨-, -, h⟩
  have hreported := h.2 ⟨167837696, by decide, by decide⟩
  rw [branchPair.reported_iff] at hreported
  exact absurd hreported.1.2 (by decide)

end Vigabss.SubnetPlanner
