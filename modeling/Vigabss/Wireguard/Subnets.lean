import Vigabss.Lib.Except
import Vigabss.Lib.IpText

/-!
# Vigabss.Wireguard.Subnets — routed subnets

The networks that `wgProvisioningService` reads from a request or from a stored row, and its test
whether two of them overlap, in the 32-bit arithmetic of the source.  A network that is accepted is
canonical: its text is read back as itself.
-/

namespace Vigabss.Wireguard

open Vigabss.Lib

/-! ### Networks -/

/-- An IPv4 network: an address and a length. -/
structure Subnet where
  address : BitVec 32
  length : ℕ
  deriving DecidableEq, Repr

/-- `(~0 << (32 - len)) >>> 0`, and 0 for a length of 0. -/
def netMask (len : ℕ) : BitVec 32 :=
  if len = 0 then 0 else BitVec.allOnes 32 <<< (32 - len)

/-- `overlapsSubnet(cidrA, cidrB)`: the networks agree at the shorter of the two lengths. -/
def overlapsSubnet (cidrA cidrB : Subnet) : Bool :=
  let mask := netMask (min cidrA.length cidrB.length)
  cidrA.address &&& mask = cidrB.address &&& mask

/-- `${ip}/32`. -/
def host (ip : BitVec 32) : Subnet := ⟨ip, 32⟩

/-! ### Texts -/

/-- `ipToInt(octets.join('.'))`. -/
def ipToInt : List ℕ → BitVec 32
  | [a, b, c, d] => BitVec.ofNat 32 a <<< 24 ||| BitVec.ofNat 32 b <<< 16 |||
      BitVec.ofNat 32 c <<< 8 ||| BitVec.ofNat 32 d
  | _ => 0

/-- `[24, 16, 8, 0].map(shift => (network >>> shift) & 255)`. -/
def octetsOf (network : BitVec 32) : List ℕ :=
  [24, 16, 8, 0].map fun shift => (network >>> shift &&& 255#32).toNat

/-- `${octets.join('.')}/${len}`. -/
def cidrText (octets : List ℕ) (len : ℕ) : List Char :=
  ['/'].intercalate [['.'].intercalate (octets.map (Nat.toDigits 10)), Nat.toDigits 10 len]

def Subnet.text (s : Subnet) : String := String.ofList (cidrText (octetsOf s.address) s.length)

/-- `\d{1,k}`. -/
def digits (k : ℕ) (text : List Char) : Option ℕ :=
  if text ≠ [] ∧ text.length ≤ k ∧ text.all (JsText.isDigit 10) then
    some (JsText.digitsValue 10 text)
  else none

/-- `CIDR_RE`: the four octets and the length. -/
def cidrMatch (text : List Char) : Option (List ℕ × ℕ) :=
  match text.splitOn '/' with
  | [ip, len] => do
    let octets ← (ip.splitOn '.').mapM (digits 3)
    let len ← digits 2 len
    if octets.length = 4 then some (octets, len) else none
  | _ => none

/-! ### Routed subnets -/

def MAX_ROUTED_SUBNETS : ℕ := 64

def MIN_ROUTED_PREFIX : ℕ := 8

def RESERVED_NETWORKS : List Subnet :=
  [⟨ipToInt [0, 0, 0, 0], 8⟩, ⟨ipToInt [127, 0, 0, 0], 8⟩, ⟨ipToInt [169, 254, 0, 0], 16⟩,
    ⟨ipToInt [224, 0, 0, 0], 4⟩, ⟨ipToInt [240, 0, 0, 0], 4⟩]

/-- `String(raw).slice(0, 50)`. -/
def shortened (raw : String) : String := String.ofList (raw.toList.take 50)

/-- One turn of the loop of `normalizeRoutedSubnets`; an error is the message of a
`ValidationError`. -/
def normalizeSubnet (result : List Subnet) (raw : String) : Except String (List Subnet) :=
  let malformed := "\"" ++ shortened raw ++ "\" is not an IPv4 network between /" ++
    toString MIN_ROUTED_PREFIX ++ " and /32"
  match cidrMatch (JsText.trim raw.toList) with
  | none => .error malformed
  | some (octets, len) =>
    if octets.any (255 < ·) ∨ len < MIN_ROUTED_PREFIX ∨ 32 < len then .error malformed
    else
      let canonical : Subnet := ⟨ipToInt octets &&& netMask len, len⟩
      if canonical.text ≠ String.ofList (cidrText octets len) then
        .error (raw ++ " has host bits set; use " ++ canonical.text)
      else if RESERVED_NETWORKS.any (overlapsSubnet · canonical) then
        .error (canonical.text ++ " is a reserved range and cannot be routed")
      else
        match result.find? (overlapsSubnet · canonical) with
        | some clash =>
          .error (canonical.text ++ " overlaps " ++ clash.text ++ " in the same list")
        | none => .ok (result ++ [canonical])

/-- `normalizeRoutedSubnets(subnets)`. -/
def normalizeRoutedSubnets (subnets : List String) : Except String (List Subnet) :=
  if MAX_ROUTED_SUBNETS < subnets.length then
    .error ("At most " ++ toString MAX_ROUTED_SUBNETS ++ " routed subnets are allowed")
  else subnets.foldlM normalizeSubnet []

/-- `storedRoutedSubnets(value)`: the entries of the column that are valid networks. -/
def storedRoutedSubnets (stored : List String) : List Subnet :=
  stored.flatMap fun cidr =>
    match normalizeRoutedSubnets [cidr] with
    | .ok subnets => subnets
    | .error _ => []

/-! ### Masks and octets -/

theorem getLsbD_netMask {len i : ℕ} (hlen : len ≤ 32) :
    (netMask len).getLsbD i = decide (32 - len ≤ i ∧ i < 32) := by
  unfold netMask
  split_ifs with h
  · subst h
    simp
  · rw [BitVec.getLsbD_shiftLeft, BitVec.getLsbD_allOnes]
    rw [← decide_not, ← Bool.decide_and, ← Bool.decide_and]
    exact decide_eq_decide.2 (by omega)

theorem netMask_and {m n : ℕ} (hm : m ≤ 32) (hn : n ≤ 32) :
    netMask m &&& netMask n = netMask (min m n) := by
  ext i hi
  rw [← BitVec.getLsbD_eq_getElem, ← BitVec.getLsbD_eq_getElem, BitVec.getLsbD_and,
    getLsbD_netMask hm, getLsbD_netMask hn, getLsbD_netMask (le_trans (min_le_left m n) hm),
    ← Bool.decide_and]
  exact decide_eq_decide.2 (by omega)

theorem getLsbD_byte (x : BitVec 32) (shift : ℕ) {i : ℕ} (hi : i < 32) :
    ((x >>> shift &&& 255#32) <<< shift).getLsbD i =
      (decide (shift ≤ i ∧ i < shift + 8) && x.getLsbD i) := by
  have hbyte : ∀ j, (255#32).getLsbD j = decide (j < 8) := by
    intro j
    rw [BitVec.getLsbD_ofNat, show (255 : ℕ) = 2 ^ 8 - 1 from rfl, Nat.testBit_two_pow_sub_one,
      ← Bool.decide_and]
    exact decide_eq_decide.2 (by omega)
  rw [BitVec.getLsbD_shiftLeft, BitVec.getLsbD_and, BitVec.getLsbD_ushiftRight, hbyte]
  by_cases hshift : shift ≤ i
  · rw [show shift + (i - shift) = i by omega, ← decide_not, Bool.and_comm (x.getLsbD i),
      ← Bool.and_assoc, ← Bool.decide_and, ← Bool.decide_and]
    congr 1
    exact decide_eq_decide.2 (by omega)
  · simp [hshift, show i < shift by omega]

theorem ipToInt_octetsOf (x : BitVec 32) : ipToInt (octetsOf x) = x := by
  have hbytes : ipToInt (octetsOf x) = (x >>> 24 &&& 255#32) <<< 24 |||
      (x >>> 16 &&& 255#32) <<< 16 ||| (x >>> 8 &&& 255#32) <<< 8 |||
        (x >>> 0 &&& 255#32) <<< 0 := by
    simp only [ipToInt, octetsOf, List.map_cons, List.map_nil, BitVec.ofNat_toNat,
      BitVec.setWidth_eq, BitVec.shiftLeft_zero]
  rw [hbytes]
  ext i hi
  rw [← BitVec.getLsbD_eq_getElem, ← BitVec.getLsbD_eq_getElem, BitVec.getLsbD_or,
    BitVec.getLsbD_or, BitVec.getLsbD_or, getLsbD_byte x 24 hi, getLsbD_byte x 16 hi,
    getLsbD_byte x 8 hi, getLsbD_byte x 0 hi, ← Bool.and_or_distrib_right,
    ← Bool.and_or_distrib_right, ← Bool.and_or_distrib_right, ← Bool.decide_or, ← Bool.decide_or,
    ← Bool.decide_or, decide_eq_true (by omega), Bool.true_and]

theorem octetsOf_le (x : BitVec 32) : ∀ n ∈ octetsOf x, n ≤ 255 := by
  intro n hn
  obtain ⟨shift, -, rfl⟩ := List.mem_map.1 hn
  rw [BitVec.toNat_and]
  exact Nat.and_le_right

/-! ### Overlaps -/

/-- The addresses of a network. -/
def Subnet.Covers (s : Subnet) (x : BitVec 32) : Prop :=
  x &&& netMask s.length = s.address &&& netMask s.length

/-- Two networks without a common address. -/
def Apart (a b : Subnet) : Prop := ∀ x, a.Covers x → ¬ b.Covers x

/-- **The test is right**: it finds an overlap just when an address lies in both networks. -/
theorem overlapsSubnet_iff {a b : Subnet} (ha : a.length ≤ 32) (hb : b.length ≤ 32) :
    overlapsSubnet a b = true ↔ ∃ x, a.Covers x ∧ b.Covers x := by
  have hmask := netMask_and ha hb
  simp only [overlapsSubnet, decide_eq_true_eq, Subnet.Covers]
  constructor
  · intro h
    rcases le_total a.length b.length with hle | hle
    · rw [min_eq_left hle] at h
      exact ⟨b.address, h.symm, rfl⟩
    · rw [min_eq_right hle] at h
      exact ⟨a.address, rfl, h⟩
  · rintro ⟨x, hxa, hxb⟩
    calc a.address &&& netMask (min a.length b.length)
        = (a.address &&& netMask a.length) &&& netMask b.length := by
          rw [← hmask, BitVec.and_assoc]
      _ = (x &&& netMask b.length) &&& netMask a.length := by
          rw [← hxa, BitVec.and_assoc, BitVec.and_assoc, BitVec.and_comm (netMask a.length)]
      _ = b.address &&& netMask (min a.length b.length) := by
          rw [hxb, ← hmask, BitVec.and_assoc, BitVec.and_comm (netMask b.length)]

theorem apart_iff {a b : Subnet} (ha : a.length ≤ 32) (hb : b.length ≤ 32) :
    Apart a b ↔ overlapsSubnet a b = false := by
  rw [← Bool.not_eq_true, overlapsSubnet_iff ha hb, not_exists]
  exact forall_congr' fun x => not_and.symm

theorem covers_host {ip x : BitVec 32} : (host ip).Covers x ↔ x = ip := by
  have hmask : netMask 32 = BitVec.allOnes 32 := by decide
  rw [Subnet.Covers, host, hmask, BitVec.and_allOnes, BitVec.and_allOnes]

/-! ### Canonical texts -/

theorem digits_toDigits {k n : ℕ} (hk : 0 < k) (hn : n < 10 ^ k) :
    digits k (Nat.toDigits 10 n) = some n := by
  rw [digits, if_pos, IpText.digitsValue_toDigits (by omega) (by omega)]
  exact ⟨Nat.toDigits_ne_nil, (Nat.length_toDigits_le_iff (by omega) hk).2 hn,
    IpText.all_isDigit_toDigits (by omega) (by omega) n⟩

theorem mapM_digits {ns : List ℕ} (hns : ∀ n ∈ ns, n ≤ 255) :
    (ns.map (Nat.toDigits 10)).mapM (digits 3) = some ns := by
  induction ns with
  | nil => rfl
  | cons n ns ih =>
    have hn : n ≤ 255 := hns n List.mem_cons_self
    rw [List.map_cons, List.mapM_cons, digits_toDigits (by omega) (by omega),
      ih fun m hm => hns m (List.mem_cons_of_mem _ hm)]
    rfl

theorem plain_dotted (octets : List ℕ) :
    IpText.Plain (['.'].intercalate (octets.map (Nat.toDigits 10))) := by
  refine IpText.plain_intercalate ?_ ?_
  · intro c hc
    rw [List.mem_singleton.1 hc]
    decide
  · intro g hg
    obtain ⟨n, -, rfl⟩ := List.mem_map.1 hg
    exact IpText.plain_toDigits n

/-- **A canonical text is read back.** -/
theorem cidrMatch_cidrText {octets : List ℕ} {len : ℕ} (hlength : octets.length = 4)
    (hoctets : ∀ n ∈ octets, n ≤ 255) (hlen : len ≤ 32) :
    cidrMatch (cidrText octets len) = some (octets, len) := by
  have hslash : (cidrText octets len).splitOn '/' =
      [['.'].intercalate (octets.map (Nat.toDigits 10)), Nat.toDigits 10 len] := by
    refine List.splitOn_intercalate '/' ?_ (List.cons_ne_nil _ _)
    intro l hl
    rcases List.mem_pair.1 hl with rfl | rfl
    · exact (plain_dotted octets).notMem
    · exact (IpText.plain_toDigits len).notMem
  have hdots : (['.'].intercalate (octets.map (Nat.toDigits 10))).splitOn '.' =
      octets.map (Nat.toDigits 10) := by
    refine List.splitOn_intercalate '.' ?_ ?_
    · intro l hl
      obtain ⟨n, -, rfl⟩ := List.mem_map.1 hl
      exact IpText.notMem_toDigits (by omega) (by omega) (by decide) n
    · intro hnil
      rw [List.map_eq_nil_iff.1 hnil] at hlength
      cases hlength
  rw [cidrMatch, hslash]
  simp [hdots, mapM_digits hoctets, digits_toDigits (k := 2) (by omega) (by omega : len < 10 ^ 2),
    hlength]

theorem not_isSpace_of_mem {octets : List ℕ} {len : ℕ} {c : Char}
    (hc : c ∈ cidrText octets len) : JsText.isSpace c = false := by
  have hdigits : ∀ n, c ∈ Nat.toDigits 10 n → JsText.isSpace c = false := fun n hn =>
    JsText.not_isSpace_of_isDigit (by omega) (List.all_eq_true.1
      (IpText.all_isDigit_toDigits (by omega) (by omega) n) c hn)
  rcases IpText.mem_intercalate hc with rfl | ⟨g, hg, hcg⟩
  · decide
  · rcases List.mem_pair.1 hg with rfl | rfl
    · rcases IpText.mem_intercalate hcg with rfl | ⟨l, hl, hcl⟩
      · decide
      · obtain ⟨n, -, rfl⟩ := List.mem_map.1 hl
        exact hdigits n hcl
    · exact hdigits len hcg

theorem trim_cidrText (octets : List ℕ) (len : ℕ) :
    JsText.trim (cidrText octets len) = cidrText octets len :=
  JsText.trim_of_ends (fun _ hc => not_isSpace_of_mem (List.mem_of_mem_head? hc))
    fun _ hc => not_isSpace_of_mem (List.mem_of_getLast? hc)

/-! ### Accepted networks -/

/-- A network that `normalizeRoutedSubnets` accepts. -/
structure Subnet.Routable (s : Subnet) : Prop where
  minLength : MIN_ROUTED_PREFIX ≤ s.length
  maxLength : s.length ≤ 32
  canonical : s.address &&& netMask s.length = s.address
  unreserved : RESERVED_NETWORKS.any (overlapsSubnet · s) = false

theorem normalizeSubnet_ok {result result' : List Subnet} {raw : String}
    (h : normalizeSubnet result raw = .ok result') :
    ∃ s : Subnet, s.Routable ∧ result' = result ++ [s] := by
  unfold normalizeSubnet at h
  dsimp only at h
  split at h
  · cases h
  · rename_i octets len hmatch
    split_ifs at h with hrange htext hreserved
    split at h
    · cases h
    · push Not at hrange
      refine ⟨_, ⟨hrange.2.1, hrange.2.2, ?_, by simpa using hreserved⟩, (Except.ok.inj h).symm⟩
      · show ipToInt octets &&& netMask len &&& netMask len = ipToInt octets &&& netMask len
        rw [BitVec.and_assoc, BitVec.and_self]

theorem foldlM_normalize_ok {subnets : List String} {result result' : List Subnet}
    (hresult : ∀ s ∈ result, s.Routable)
    (h : subnets.foldlM normalizeSubnet result = .ok result') : ∀ s ∈ result', s.Routable := by
  induction subnets generalizing result with
  | nil =>
    obtain rfl := Except.ok.inj h
    exact hresult
  | cons raw subnets ih =>
    rw [List.foldlM_cons] at h
    obtain ⟨result₁, hraw, hrest⟩ := except_bind_ok.1 h
    obtain ⟨s, hs, rfl⟩ := normalizeSubnet_ok hraw
    refine ih ?_ hrest
    intro r hr
    rcases List.mem_append.1 hr with hr | hr
    · exact hresult r hr
    · exact List.mem_singleton.1 hr ▸ hs

theorem routable_of_normalize {subnets : List String} {result : List Subnet}
    (h : normalizeRoutedSubnets subnets = .ok result) : ∀ s ∈ result, s.Routable := by
  unfold normalizeRoutedSubnets at h
  split_ifs at h
  exact foldlM_normalize_ok (fun s hs => absurd hs List.not_mem_nil) h

theorem routable_of_stored {stored : List String} {s : Subnet}
    (h : s ∈ storedRoutedSubnets stored) : s.Routable := by
  obtain ⟨cidr, -, hs⟩ := List.mem_flatMap.1 h
  split at hs
  · rename_i subnets hok
    exact routable_of_normalize hok s hs
  · exact absurd hs List.not_mem_nil

/-- **What is accepted is read back from its text.** -/
theorem normalize_text {s : Subnet} (h : s.Routable) :
    normalizeRoutedSubnets [s.text] = .ok [s] := by
  have hmatch : cidrMatch (JsText.trim s.text.toList) = some (octetsOf s.address, s.length) := by
    rw [Subnet.text, String.toList_ofList, trim_cidrText]
    exact cidrMatch_cidrText rfl (octetsOf_le s.address) h.maxLength
  have hcanonical :
      (⟨ipToInt (octetsOf s.address) &&& netMask s.length, s.length⟩ : Subnet) = s := by
    rw [ipToInt_octetsOf, h.canonical]
  have hrange : ¬ ((octetsOf s.address).any (255 < ·) = true ∨ s.length < MIN_ROUTED_PREFIX ∨
      32 < s.length) := by
    rintro (hany | hlow | hhigh)
    · obtain ⟨n, hn, hlt⟩ := List.any_eq_true.1 hany
      have hle := octetsOf_le s.address n hn
      rw [decide_eq_true_eq] at hlt
      omega
    · exact absurd h.minLength (not_le.2 hlow)
    · exact absurd h.maxLength (not_le.2 hhigh)
  have hturn : normalizeSubnet [] s.text = .ok [s] := by
    unfold normalizeSubnet
    simp only [hmatch]
    rw [if_neg hrange, hcanonical]
    show (if s.text ≠ s.text then _ else _ : Except String (List Subnet)) = _
    rw [if_neg (not_not_intro (Eq.refl s.text)),
      if_neg (by rw [h.unreserved]; exact Bool.false_ne_true)]
    rfl
  have hlength : ¬ MAX_ROUTED_SUBNETS < [s.text].length := not_lt.2 (show 1 ≤ 64 by omega)
  rw [normalizeRoutedSubnets, if_neg hlength, List.foldlM_cons, hturn]
  rfl

theorem stored_texts {subnets : List Subnet} (h : ∀ s ∈ subnets, s.Routable) :
    storedRoutedSubnets (subnets.map Subnet.text) = subnets := by
  induction subnets with
  | nil => rfl
  | cons s subnets ih =>
    have hs := normalize_text (h s List.mem_cons_self)
    have hrest := ih fun r hr => h r (List.mem_cons_of_mem _ hr)
    rw [storedRoutedSubnets] at hrest ⊢
    rw [List.map_cons, List.flatMap_cons, hrest, hs]
    rfl

end Vigabss.Wireguard
