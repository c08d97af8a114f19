import Vigabss.Lib.Blocks
import Vigabss.SubnetPlanner.Plan

/-!
# Vigabss.SubnetPlanner.Cover — a network is the subnets that it is split into

**Result** (`plan_iff`): what `planSubnets` returns is a split of the network, into disjoint blocks
in order, when the lengths are lengths of the version and the planner reads the network's prefix.
-/

namespace Vigabss.SubnetPlanner

open Vigabss.Lib Vigabss.Lib.IpText
open Vigabss.Pools (Version shl1 shl1_sub_one plain_intToIpv4 ipv4_intToIpv4)

/-! ### Hexadecimal texts -/

theorem all_isDigit_places (k n : ℕ) :
    ((places 16 k n).map Nat.digitChar).all (JsText.isDigit 16) = true := by
  rw [List.all_map, List.all_eq_true]
  intro d hd
  have hlt := lt_of_mem_places (by omega) hd
  exact decide_eq_true (by rw [digitValue_digitChar d hlt]; exact hlt)

theorem digitsValue_places (k n : ℕ) :
    JsText.digitsValue 16 ((places 16 k n).map Nat.digitChar) = n % 16 ^ k := by
  have hmap : (places 16 k n).map (JsText.digitValue ∘ Nat.digitChar) = places 16 k n := by
    refine (List.map_congr_left fun d hd => ?_).trans (List.map_id _)
    exact digitValue_digitChar d (lt_of_mem_places (by omega) hd)
  rw [digitsValue_eq_assemble, List.map_map, hmap, assemble_places]

/-- The text of eight groups of an address. -/
def hexGroups (n : ℕ) : List (List Char) :=
  (List.range 8).map fun j => ((hexText n).drop (j * 4)).take 4

theorem hexGroups_eq {n : ℕ} (hn : n < 2 ^ 128) :
    hexGroups n = (places 65536 8 n).map fun d => (places 16 4 d).map Nat.digitChar := by
  have htext : hexText n = (places 16 32 n).map Nat.digitChar := by
    unfold hexText
    rw [if_neg (by omega), List.nil_append, Int.natAbs_natCast]
    exact padStart_toDigits (by omega) (by omega)
  rw [hexGroups, places_eq_map, List.map_map]
  refine List.map_congr_left fun j hj => ?_
  have hj := List.mem_range.1 hj
  have hcount : 32 = j * 4 + 4 + 4 * (8 - 1 - j) := by omega
  show _ = (places 16 4 (n / 65536 ^ (8 - 1 - j) % 16 ^ 4)).map Nat.digitChar
  rw [htext, ← List.map_drop, ← List.map_take, places_mod, hcount, take_drop_places,
    show (65536 : ℕ) = 16 ^ 4 from rfl, ← Nat.pow_mul]

theorem mem_hexGroups {n : ℕ} (hn : n < 2 ^ 128) {g : List Char} (hg : g ∈ hexGroups n) {c : Char}
    (hc : c ∈ g) : ∃ d < 16, c = Nat.digitChar d := by
  rw [hexGroups_eq hn] at hg
  obtain ⟨d, -, rfl⟩ := List.mem_map.1 hg
  obtain ⟨d', hd', rfl⟩ := List.mem_map.1 hc
  exact ⟨d', lt_of_mem_places (by omega) hd', rfl⟩

theorem plain_hexGroups {n : ℕ} (hn : n < 2 ^ 128) : Plain ([':'].intercalate (hexGroups n)) := by
  refine plain_intercalate ?_ fun g hg => plain_of_digits fun c hc => mem_hexGroups hn hg hc
  intro c hc
  rw [List.mem_singleton.1 hc]
  decide

/-- **The text of an IPv6 address** is read as the address. -/
theorem ipv6_hexGroups {n : ℕ} (hn : n < 2 ^ 128) :
    ipv6 ([':'].intercalate (hexGroups n)) = some n := by
  have hgroups : groups false (hexGroups n) = some (places 65536 8 n) := by
    refine groups_of_forall₂ ?_
    rw [hexGroups_eq hn, List.forall₂_map_left_iff, List.forall₂_same]
    intro d hd
    have hlt : d < 16 ^ 4 := lt_of_mem_places (by omega) hd
    rw [group, if_pos ⟨by simp [places], by simp, all_isDigit_places 4 d⟩, digitsValue_places,
      Nat.mod_eq_of_lt hlt]
  rw [ipv6_of_groups (groups_true_of_false hgroups) (length_places _ _ _), assemble_places,
    Nat.mod_eq_of_lt (by omega)]

/-! ### Masks -/

theorem ipv4Base_and_mask {text : List Char} {n p : ℕ} (h : ipv4 text = some n) (hp : p ≤ 32) :
    (ipv4Base text &&& if (p : ℤ) = 0 then 0 else 0xffffffff#32 <<< shiftCount p).toNat =
      first 32 (n, p) := by
  have hlt := ipv4_lt h
  rw [first, BitVec.toNat_and, ipv4Base_eq h]
  by_cases hzero : p = 0
  · subst hzero
    show n &&& 0 = n / 2 ^ 32 * 2 ^ 32
    rw [Nat.and_zero, Nat.div_eq_of_lt (show n < 2 ^ 32 from hlt), Nat.zero_mul]
  · have hcount : shiftCount p = 32 - p := by
      rw [shiftCount]
      omega
    rw [if_neg (by omega), BitVec.toNat_shiftLeft, hcount]
    exact and_ones_shift (w := 32) hlt

theorem shl1_natCast (k : ℕ) : shl1 k = ((2 ^ k : ℕ) : ℤ) := by
  rw [shl1, if_pos (Int.natCast_nonneg k), Int.toNat_natCast]
  push_cast
  rfl

theorem ipv6Mask_natCast {p : ℕ} (hp : p ≤ 128) :
    ipv6Mask p = ((2 ^ 128 - 1) <<< (128 - p) % 2 ^ 128 : ℕ) := by
  have hle : 2 ^ (128 - p) ≤ 2 ^ 128 := Nat.pow_le_pow_right (by omega) (by omega)
  have hsub : 128 - (p : ℤ) = (128 - p : ℕ) := by omega
  rw [ones_shift (by omega), ipv6Mask]
  split_ifs with hzero
  · rw [Int.natCast_eq_zero.1 hzero, Nat.sub_zero, Nat.sub_self]
    rfl
  · have hfull : shl1 128 = (2 ^ 128 : ℕ) := shl1_natCast 128
    rw [hsub, shl1_natCast, hfull]
    omega

theorem land_ipv6Mask {n p : ℕ} (hn : n < 2 ^ 128) (hp : p ≤ 128) :
    Int.land n (ipv6Mask p) = first 128 (n, p) := by
  rw [ipv6Mask_natCast hp, first, ← and_ones_shift hn]
  rfl

/-! ### Networks -/

/-- The readers of addresses. -/
def addressOf : Version → List Char → Option ℕ
  | .v4 => ipv4
  | .v6 => ipv6

/-- A network as it is asked for: an address, and maybe a suffix that the planner does not read. -/
structure Network where
  version : Version
  address : List Char
  value : ℕ
  reads : addressOf version address = some value
  suffix : Option (List Char)

def Network.text (net : Network) : List Char :=
  net.address ++ match net.suffix with
    | none => []
    | some suffix => '/' :: suffix

/-- The address as the planner reads it. -/
def Network.asRead (net : Network) : List Char :=
  match net.version with
  | .v4 => net.address
  | .v6 => SubnetPlanner.asRead net.address

/-- Texts of blocks of `s` bits that are a split of the network of `p` bits. -/
def Planned (net : Network) (p s : ℤ) (subnets : List (List Char)) : Prop :=
  ∃ len : ℕ, p = len ∧ len ≤ net.version.width ∧ ∃ blocks : List (ℕ × ℕ),
    subnets.map (block net.version.width (addressOf net.version) none) = blocks.map some ∧
      (∀ b ∈ blocks, (b.2 : ℤ) = s) ∧ Splits net.version.width (net.value, len) blocks

theorem Network.slash_notMem (net : Network) : '/' ∉ net.address := by
  intro hmem
  have hreads := net.reads
  cases hv : net.version with
  | v4 =>
    rw [hv] at hreads
    rcases mem_of_ipv4 hreads hmem with h | h <;> exact absurd h (by decide)
  | v6 =>
    rw [hv] at hreads
    rcases mem_of_ipv6 hreads hmem with h | h | h <;> exact absurd h (by decide)

theorem Network.colon_mem_iff (net : Network) : ':' ∈ net.address ↔ net.version = .v6 := by
  have hreads := net.reads
  cases hv : net.version with
  | v4 =>
    rw [hv] at hreads
    refine iff_of_false (fun hmem => ?_) Version.noConfusion
    rcases mem_of_ipv4 hreads hmem with h | h <;> exact absurd h (by decide)
  | v6 =>
    rw [hv] at hreads
    exact iff_of_true (colon_mem_of_ipv6 hreads) rfl

theorem Network.headD_split (net : Network) (p : ℤ) :
    (JsText.split '/' (if '/' ∈ net.text then net.text else net.text ++ '/' :: intText p)).headD
      [] = net.address := by
  have htext : net.text = net.address ∨ ∃ suffix, net.text = net.address ++ '/' :: suffix := by
    rw [Network.text]
    cases net.suffix with
    | none => exact .inl (List.append_nil _)
    | some suffix => exact .inr ⟨suffix, rfl⟩
  have hhead : ∀ rest, (JsText.split '/' (net.address ++ '/' :: rest)).headD [] = net.address := by
    intro rest
    rw [JsText.split, List.splitOn_append_cons_self_of_not_mem net.slash_notMem]
    rfl
  rcases htext with htext | ⟨suffix, htext⟩
  · rw [if_neg (by rw [htext]; exact net.slash_notMem), htext]
    exact hhead _
  · rw [if_pos (by rw [htext]; simp), htext]
    exact hhead suffix

/-- The count of subnets. -/
def subnetCount (p s : ℤ) : ℕ := 2 ^ (s - p).toNat

theorem subnetCount_natCast (p s : ℕ) : subnetCount p s = 2 ^ (s - p) := by
  rw [subnetCount, show ((s : ℤ) - p).toNat = s - p by omega]

theorem subnetCount_le {p s : ℤ} (hps : p ≤ s) : subnetCount p s ≤ 65536 ↔ s ≤ p + 16 := by
  rw [subnetCount, show (65536 : ℕ) = 2 ^ 16 from rfl, Nat.pow_le_pow_iff_right (by omega)]
  omega

/-- **What is planned** of a network. -/
theorem planSubnets_text (net : Network) {p s : ℤ} (hps : p ≤ s) (hcount : s ≤ p + 16) :
    planSubnets net.text p s =
      match net.version with
      | .v4 => .ok (planSubnetsIPv4 net.address p s (subnetCount p s))
      | .v6 => planSubnetsIPv6 net.address p s (subnetCount p s) := by
  have hle := (subnetCount_le hps).2 hcount
  rw [subnetCount] at hle
  unfold planSubnets
  rw [if_neg (by omega), if_neg (by omega)]
  dsimp only
  rw [net.headD_split p]
  cases hv : net.version with
  | v4 =>
    rw [if_neg (by rw [net.colon_mem_iff, hv]; exact Version.noConfusion)]
    rfl
  | v6 =>
    rw [if_pos (by rw [net.colon_mem_iff, hv])]
    rfl

theorem le_of_planSubnets {network : List Char} {p s : ℤ} {subnets : List (List Char)}
    (h : planSubnets network p s = .ok subnets) : p ≤ s ∧ s ≤ p + 16 := by
  unfold planSubnets at h
  by_cases hps : s < p
  · rw [if_pos hps] at h
    cases h
  · rw [if_neg hps] at h
    by_cases hcount : 65536 < 2 ^ (s - p).toNat
    · dsimp only at h
      rw [if_pos hcount] at h
      cases h
    · exact ⟨not_lt.1 hps, (subnetCount_le (not_lt.1 hps)).1 (not_lt.1 hcount)⟩

/-! ### Plans -/

/-- The equal parts of a block. -/
def parts (width m p s : ℕ) : List (ℕ × ℕ) :=
  (List.range (2 ^ (s - p))).map fun i => (first width (m, p) + i * 2 ^ (width - s), s)

theorem intText_natCast (n : ℕ) : intText n = Nat.toDigits 10 n := by
  rw [intText, if_neg (by omega), List.nil_append, Int.natAbs_natCast]

/-- **An IPv4 plan.** -/
theorem planSubnetsIPv4_parts {text : List Char} {n p s : ℕ} (h : ipv4 text = some n) (hps : p ≤ s)
    (hs : s ≤ 32) :
    (planSubnetsIPv4 text p s (2 ^ (s - p))).map (block 32 ipv4 none) =
      (parts 32 n p s).map some := by
  have hn : n < 2 ^ 32 := ipv4_lt h
  unfold planSubnetsIPv4 parts
  dsimp only
  rw [ipv4Base_and_mask h (hps.trans hs), List.map_map, List.map_map]
  refine List.map_congr_left fun i hi => ?_
  have hi := List.mem_range.1 hi
  have hstep : i * (if (p : ℤ) = s then 0 else (1#32 <<< shiftCount s).toNat) =
      i * 2 ^ (32 - s) := by
    split_ifs with heq
    · have hone : 2 ^ (s - p) = 1 := by rw [Int.natCast_inj.1 heq, Nat.sub_self, pow_zero]
      have hzero : i = 0 := by omega
      rw [hzero, Nat.zero_mul, Nat.zero_mul]
    · have hcount : shiftCount s = 32 - s := by
        rw [shiftCount]
        omega
      have hlt : 2 ^ (32 - s) < 2 ^ 32 := Nat.pow_lt_pow_right (by omega) (by omega)
      rw [hcount, BitVec.toNat_shiftLeft, Nat.shiftLeft_eq]
      show i * (1 * 2 ^ (32 - s) % 2 ^ 32) = _
      rw [Nat.one_mul, Nat.mod_eq_of_lt hlt]
  have hlt := part_lt hps hs hn hi
  show block 32 ipv4 none (ipv4Cidr _ _) = some _
  rw [hstep, ipv4Cidr, BitVec.toNat_ofNat, Nat.mod_eq_of_lt hlt, intText_natCast]
  refine block_prefix (plain_intToIpv4 _) ?_ hs
  rw [ipv4_intToIpv4, Nat.mod_eq_of_lt hlt]

theorem planSubnetsIPv6_eq {text : List Char} {m : ℤ} (hbase : ipv6Base text = .ok m) (p s : ℤ)
    (count : ℕ) : planSubnetsIPv6 text p s count = .ok ((List.range count).map fun (i : ℕ) =>
      ipv6Cidr (Int.land m (ipv6Mask p) + i * shl1 (128 - s)) s) := by
  rw [planSubnetsIPv6, hbase]
  rfl

/-- **An IPv6 plan.** -/
theorem ipv6Cidrs_parts {m p s : ℕ} (hm : m < 2 ^ 128) (hps : p ≤ s) (hs : s ≤ 128) :
    ((List.range (2 ^ (s - p))).map fun (i : ℕ) =>
      ipv6Cidr (Int.land m (ipv6Mask p) + i * shl1 (128 - s)) s).map (block 128 ipv6 none) =
      (parts 128 m p s).map some := by
  rw [parts, List.map_map, List.map_map]
  refine List.map_congr_left fun i hi => ?_
  have hlt := part_lt hps hs hm (List.mem_range.1 hi)
  have hsub : 128 - (s : ℤ) = (128 - s : ℕ) := by omega
  show block 128 ipv6 none (ipv6Cidr (Int.land m (ipv6Mask p) + i * shl1 (128 - s)) s) = some _
  rw [land_ipv6Mask hm (hps.trans hs), hsub, shl1_natCast, ← Nat.cast_mul, ← Nat.cast_add,
    ipv6Cidr, intText_natCast]
  exact block_prefix (plain_hexGroups hlt) (ipv6_hexGroups hlt) hs

/-- **A plan is made** of the prefix that is read, where its lengths are lengths of the version. -/
theorem exists_plan (net : Network) :
    ∃ m, addressOf net.version net.asRead = some m ∧ m < 2 ^ net.version.width ∧
      ∀ {p s : ℤ}, p ≤ s → s ≤ p + 16 → ∃ subnets, planSubnets net.text p s = .ok subnets ∧
        subnets ≠ [] ∧ ∀ p' s' : ℕ, p = p' → s = s' → s' ≤ net.version.width →
          subnets.map (block net.version.width (addressOf net.version) none) =
            (parts net.version.width m p' s').map some := by
  have hreads := net.reads
  have htext := @planSubnets_text net
  have hrange : ∀ p s : ℤ, List.range (subnetCount p s) ≠ [] := by
    intro p s
    rw [ne_eq, List.range_eq_nil]
    exact (Nat.two_pow_pos _).ne'
  unfold Network.asRead
  cases hv : net.version with
  | v4 =>
    rw [hv] at hreads htext
    refine ⟨net.value, hreads, ipv4_lt hreads, fun {p s} hps hcount =>
      ⟨_, htext hps hcount, ?_, ?_⟩⟩
    · exact fun hnil => hrange p s (List.map_eq_nil_iff.1 hnil)
    · rintro p' s' rfl rfl hs
      rw [subnetCount_natCast]
      exact planSubnetsIPv4_parts hreads (Int.ofNat_le.1 hps) hs
  | v6 =>
    rw [hv] at hreads htext
    obtain ⟨m, hm, hbase, -⟩ := ipv6Base_eq hreads
    have hlt := ipv6_lt hm
    refine ⟨m, hm, hlt, fun {p s} hps hcount =>
      ⟨_, (htext hps hcount).trans (planSubnetsIPv6_eq hbase p s _), ?_, ?_⟩⟩
    · exact fun hnil => hrange p s (List.map_eq_nil_iff.1 hnil)
    · rintro p' s' rfl rfl hs
      rw [subnetCount_natCast]
      exact ipv6Cidrs_parts hlt (Int.ofNat_le.1 hps) hs

theorem exists_length {v : Version} {subnets : List (List Char)} {blocks : List (ℕ × ℕ)}
    (hne : subnets ≠ [])
    (hblocks : subnets.map (block v.width (addressOf v) none) = blocks.map some) :
    ∃ b ∈ blocks, b.2 ≤ v.width := by
  obtain ⟨text, rest, rfl⟩ := List.exists_cons_of_ne_nil hne
  obtain ⟨b, more, rfl⟩ : ∃ b more, blocks = b :: more := by
    refine List.exists_cons_of_ne_nil ?_
    rintro rfl
    cases hblocks
  rw [List.map_cons, List.map_cons] at hblocks
  exact ⟨b, List.mem_cons_self, block_length_le le_rfl (List.cons.inj hblocks).1⟩

/-- **A plan splits its network** exactly when its lengths are lengths of the version and the
planner reads the prefix of the network. -/
theorem plan_iff (net : Network) (p s : ℤ) :
    (∀ subnets, planSubnets net.text p s = .ok subnets → Planned net p s subnets) ↔
      (p ≤ s → s ≤ p + 16 → 0 ≤ p ∧ s ≤ net.version.width ∧
        ∃ m, addressOf net.version net.asRead = some m ∧
          m / 2 ^ (net.version.width - p.toNat) =
            net.value / 2 ^ (net.version.width - p.toNat)) := by
  obtain ⟨m, hm, hlt, hplan⟩ := exists_plan net
  constructor
  · intro h hps hcount
    obtain ⟨subnets, hok, hne, hparts⟩ := hplan hps hcount
    obtain ⟨len, rfl, hlen, blocks, hblocks, hlengths, hsplit⟩ := h subnets hok
    obtain ⟨b, hb, hwidth⟩ := exists_length hne hblocks
    have hlength := hlengths b hb
    refine ⟨Int.natCast_nonneg len, by omega, m, hm, ?_⟩
    have heq := hparts len b.2 rfl hlength.symm hwidth
    rw [hblocks] at heq
    have hsame := List.map_injective_iff.2 (Option.some_injective _) heq
    rw [hsame] at hsplit
    exact (splits_range (by omega) hwidth m).parent_eq hsplit
  · intro h subnets hok
    obtain ⟨hps, hcount⟩ := le_of_planSubnets hok
    obtain ⟨hp, hs, m', hm', hprefix⟩ := h hps hcount
    obtain ⟨len, rfl⟩ := Int.eq_ofNat_of_zero_le hp
    obtain ⟨sub, rfl⟩ := Int.eq_ofNat_of_zero_le (hp.trans hps)
    obtain rfl : m' = m := Option.some.inj (hm'.symm.trans hm)
    obtain ⟨subnets', hok', -, hparts⟩ := hplan hps hcount
    obtain rfl : subnets' = subnets := Except.ok.inj (hok'.symm.trans hok)
    refine ⟨len, rfl, by omega, _, hparts len sub rfl rfl (by omega), ?_, ?_⟩
    · intro b hb
      obtain ⟨i, -, rfl⟩ := List.mem_map.1 hb
      rfl
    · exact (splits_range (by omega) (by omega) m').congr hprefix

theorem addressOf_ten : addressOf .v4 "10.0.0.0".toList = some 167772160 := by decide

/-- The network of the counterexample, `10.0.0.0/24`. -/
def officeNetwork : Network where
  version := .v4
  address := "10.0.0.0".toList
  value := 167772160
  reads := addressOf_ten
  suffix := some "24".toList

/-- Lengths over 32 are accepted for an IPv4 network, and written behind its addresses. -/
theorem ipv4_length_forty :
    ¬ ∀ subnets, planSubnets officeNetwork.text 24 40 = .ok subnets →
      Planned officeNetwork 24 40 subnets := by
  intro h
  obtain ⟨m, -, -, hplan⟩ := exists_plan officeNetwork
  obtain ⟨subnets, hok, hne, -⟩ := hplan (p := 24) (s := 40) (by omega) (by omega)
  obtain ⟨-, -, -, blocks, hblocks, hlengths, -⟩ := h subnets hok
  obtain ⟨b, hb, hwidth⟩ := exists_length hne hblocks
  have hlength := hlengths b hb
  have hthirtytwo : b.2 ≤ 32 := hwidth
  omega

end Vigabss.SubnetPlanner
