import Vigabss.Addresses.Prefixes
import Vigabss.Lib.Ipv6Forms
import Vigabss.RadiusServer.RoundTrip

/-!
# Vigabss.RadiusServer.PrefixCodec — IPv6 prefixes in attributes and in text

`getIpv6Prefix` prints the prefix of an attribute without help of a URL.  What it prints for the
attribute that `encodeIpv6PrefixAttr` makes is the text that `canonicalIpv6Prefix` gives
(`prefix_round_trip`), and it takes no attribute but that of a prefix without host bits
(`decodePrefix_ok`).
-/

namespace Vigabss.RadiusServer

open Vigabss.Lib Vigabss.Lib.IpText Vigabss.Addresses

/-! ### The code -/

/-- `buf.readUInt16BE(offset)` at every second offset. -/
def words : Bytes → List ℕ
  | hi :: lo :: rest => (hi.toNat * 256 + lo.toNat) :: words rest
  | _ => []

/-- The loop that looks for the longest run of zero groups, in as many rounds as there are groups at
most; `best` is `bestStart` and `bestLength`, with `bestStart` 0 for -1. -/
def bestLoop (zeros : List Bool) : ℕ → ℕ → ℕ × ℕ → ℕ × ℕ
  | 0, _, best => best
  | rounds + 1, start, best =>
    if zeros.length ≤ start then best
    else if zeros[start]? ≠ some true then bestLoop zeros rounds (start + 1) best
    else
      let stop := start + ((zeros.drop start).takeWhile id).length
      bestLoop zeros rounds stop
        (if best.2 < stop - start then (start, stop - start) else best)

/-- The run that `::` stands for, when it is longer than one group. -/
def bestRun (zeros : List Bool) : ℕ × ℕ := bestLoop zeros zeros.length 0 (0, 0)

/-- `formatted` of `getIpv6Prefix`. -/
def formatGroups (groups : List (List Char)) : List Char :=
  let best := bestRun (groups.map (· = ['0']))
  if 1 < best.2 then
    [':'].intercalate (groups.take best.1) ++ [':', ':'] ++
      [':'].intercalate (groups.drop (best.1 + best.2))
  else [':'].intercalate groups

/-- The 16 bytes that begin with those of a prefix. -/
def paddedAddress (body : Bytes) : Bytes :=
  body.take 16 ++ List.replicate (16 - body.length) 0

/-- `getIpv6Prefix` on the value of an attribute. -/
def decodePrefix (value : Bytes) : Except String (List Char) :=
  match value with
  | reserved :: length :: body =>
    let prefixLength := length.toNat
    let remainingBits := prefixLength % 8
    if reserved ≠ 0 then .error "Malformed Framed-IPv6-Prefix reserved byte"
    else if 128 < prefixLength ∨ value.length ≠ 2 + (prefixLength + 7) / 8 then
      .error "Malformed Framed-IPv6-Prefix length"
    else if remainingBits ≠ 0 ∧ 2 < value.length ∧
        (body.getLastD 0).toNat &&& (1 <<< (8 - remainingBits)) - 1 ≠ 0 then
      .error "Malformed Framed-IPv6-Prefix host bits"
    else
      .ok (formatGroups ((words (paddedAddress body)).map toHex) ++
        '/' :: Nat.toDigits 10 prefixLength)
  | _ => .error "Malformed Framed-IPv6-Prefix attribute"

/-- `getIpv6Prefix(attributes, type)`. -/
def getIpv6Prefix (attributes : List Tlv.Attr) (type : UInt8) :
    Except String (Option (List Char)) :=
  match getAttr attributes type with
  | none => .ok none
  | some value => (decodePrefix value).map some

/-! ### The text of an address -/

theorem bestRun_eq_longestRun {zeros : List Bool} (h : zeros.length = 8) :
    (1 < (bestRun zeros).2 ↔ 1 < (longestRun zeros).2) ∧
      (1 < (bestRun zeros).2 → bestRun zeros = longestRun zeros) := by
  have hall : ∀ a b c d e f g h : Bool,
      (1 < (bestRun [a, b, c, d, e, f, g, h]).2 ↔ 1 < (longestRun [a, b, c, d, e, f, g, h]).2) ∧
        (1 < (bestRun [a, b, c, d, e, f, g, h]).2 →
          bestRun [a, b, c, d, e, f, g, h] = longestRun [a, b, c, d, e, f, g, h]) := by
    decide
  obtain ⟨a, b, c, d, e, f, g, i, rfl⟩ : ∃ a b c d e f g i, zeros = [a, b, c, d, e, f, g, i] := by
    match zeros, h with
    | [a, b, c, d, e, f, g, i], _ => exact ⟨a, b, c, d, e, f, g, i, rfl⟩
  exact hall a b c d e f g i

theorem shortGroup_eq_zero (n : ℕ) : shortGroup n = ['0'] ↔ n = 0 := by
  constructor
  · intro h
    exact head_toDigits (show 1 < 16 by omega) (by rw [shortGroup] at h; rw [h]; rfl)
  · rintro rfl
    rfl

/-- **The text that is printed is the canonical one.** -/
theorem formatGroups_eq {ns : List ℕ} (h : ns.length = 8) :
    formatGroups (ns.map toHex) = canonicalGroups ns := by
  have hzeros : (ns.map toHex).map (fun g => decide (g = ['0'])) =
      ns.map fun n => decide (n = 0) := by
    rw [List.map_map]
    refine List.map_congr_left fun n _ => ?_
    exact decide_eq_decide.2 (shortGroup_eq_zero n)
  have hjoined : ∀ ms : List ℕ, [':'].intercalate (ms.map toHex) = joined ms := fun _ => rfl
  obtain ⟨hiff, heq⟩ := bestRun_eq_longestRun
    (show (ns.map fun n => decide (n = 0)).length = 8 by rw [List.length_map, h])
  rw [formatGroups, canonicalGroups, hzeros]
  by_cases hrun : 1 < (bestRun (ns.map (· = 0))).2
  · rw [if_pos hrun, if_pos (hiff.1 hrun), heq hrun, ← List.map_take, ← List.map_drop, hjoined,
      hjoined, List.append_assoc]
    rfl
  · rw [if_neg hrun, if_neg (mt hiff.2 hrun), hjoined]

/-! ### The number of the bytes -/

/-- The number that bytes write. -/
def byteValue (bytes : Bytes) : ℕ := assemble 256 (bytes.map UInt8.toNat)

theorem toNat_lt_of_mem {bytes : Bytes} : ∀ n ∈ bytes.map UInt8.toNat, n < 256 := by
  intro n hn
  obtain ⟨b, -, rfl⟩ := List.mem_map.1 hn
  exact b.toNat_lt

theorem byteValue_lt (bytes : Bytes) : byteValue bytes < 256 ^ bytes.length := by
  have hlt : ∀ n ∈ bytes.map UInt8.toNat, n < 256 := toNat_lt_of_mem
  have := assemble_lt hlt
  rwa [List.length_map] at this

theorem byteValue_append (as bs : Bytes) :
    byteValue (as ++ bs) = byteValue as * 256 ^ bs.length + byteValue bs := by
  rw [byteValue, List.map_append, assemble_append_list, List.length_map]
  rfl

theorem byteValue_zeros (k : ℕ) : byteValue (List.replicate k 0) = 0 := by
  rw [byteValue, List.map_replicate]
  exact assemble_replicate_zero 256 k

theorem exists_pair {bytes : Bytes} {k : ℕ} (h : bytes.length = 2 * (k + 1)) :
    ∃ hi lo rest, bytes = hi :: lo :: rest ∧ rest.length = 2 * k := by
  rcases bytes with _ | ⟨hi, _ | ⟨lo, rest⟩⟩
  · rw [List.length_nil] at h
    omega
  · rw [List.length_singleton] at h
    omega
  · rw [List.length_cons, List.length_cons] at h
    exact ⟨hi, lo, rest, rfl, by omega⟩

theorem words_fold {bytes : Bytes} {k : ℕ} (h : bytes.length = 2 * k) :
    (words bytes).length = k ∧ (∀ w ∈ words bytes, w < 65536) ∧
      ∀ start, (words bytes).foldl (fun n d => n * 65536 + d) start =
        (bytes.map UInt8.toNat).foldl (fun n d => n * 256 + d) start := by
  induction k generalizing bytes with
  | zero =>
    obtain rfl := List.length_eq_zero_iff.1 h
    exact ⟨rfl, by simp [words], fun _ => by simp [words]⟩
  | succ k ih =>
    obtain ⟨hi, lo, rest, rfl, hrest⟩ := exists_pair h
    obtain ⟨hlength, hlt, hfold⟩ := ih hrest
    refine ⟨by rw [words, List.length_cons, hlength], fun w hw => ?_, fun start => ?_⟩
    · rcases List.mem_cons.1 hw with rfl | hw
      · have := hi.toNat_lt
        have := lo.toNat_lt
        omega
      · exact hlt w hw
    · have hstart : start * 65536 + (hi.toNat * 256 + lo.toNat) =
          (start * 256 + hi.toNat) * 256 + lo.toNat := by ring
      rw [words, List.foldl_cons, List.map_cons, List.map_cons, List.foldl_cons, List.foldl_cons,
        hfold, hstart]

theorem words_spec {bytes : Bytes} {k : ℕ} (h : bytes.length = 2 * k) :
    (words bytes).length = k ∧ (∀ w ∈ words bytes, w < 65536) ∧
      assemble 65536 (words bytes) = byteValue bytes :=
  ⟨(words_fold h).1, (words_fold h).2.1, (words_fold h).2.2 0⟩

/-- **The text of sixteen bytes** is the canonical text of their number. -/
theorem formatGroups_words {bytes : Bytes} (h : bytes.length = 16) :
    formatGroups ((words bytes).map toHex) = canonicalText (byteValue bytes) := by
  obtain ⟨hlength, hlt, hvalue⟩ := words_spec (show bytes.length = 2 * 8 from h)
  have hplaces := places_assemble hlt
  rw [hlength, hvalue] at hplaces
  rw [formatGroups_eq hlength, canonicalText, hplaces]

/-! ### Host bits -/

theorem length_paddedAddress {body : Bytes} (h : body.length ≤ 16) :
    (paddedAddress body).length = 16 := by
  rw [paddedAddress, List.length_append, List.length_take, List.length_replicate]
  omega

theorem byteValue_paddedAddress {body : Bytes} (h : body.length ≤ 16) :
    byteValue (paddedAddress body) = byteValue body * 256 ^ (16 - body.length) := by
  rw [paddedAddress, List.take_of_length_le h, byteValue_append, byteValue_zeros,
    List.length_replicate, Nat.add_zero]

theorem toNat_and_mask (b : UInt8) (k : ℕ) :
    (b &&& UInt8.ofNat (0xff <<< k)).toNat = b.toNat / 2 ^ k * 2 ^ k := by
  rw [UInt8.toNat_and, UInt8.toNat_ofNat', ← and_ones_shift b.toNat_lt]
  rfl

theorem modify_append_last (f : UInt8 → UInt8) (front : Bytes) (b : UInt8) :
    (front ++ [b]).modify front.length f = front ++ [f b] := by
  induction front with
  | nil => rfl
  | cons a front ih => rw [List.cons_append, List.length_cons, List.modify_succ_cons, ih]; rfl

theorem clear_low_bits {high b rest m k : ℕ} (hk : k ≤ 8) (hrest : rest < 256 ^ m) :
    ((high * 256 + b) * 256 ^ m + rest) / 2 ^ (8 * m + k) * 2 ^ (8 * m + k) =
      (high * 256 + b / 2 ^ k * 2 ^ k) * 256 ^ m := by
  have hpow : 2 ^ (8 * m + k) = 256 ^ m * 2 ^ k := by
    rw [Nat.pow_add, Nat.pow_mul]
  obtain ⟨j, hj⟩ : ∃ j, 256 = 2 ^ k * j := by
    refine ⟨2 ^ (8 - k), ?_⟩
    rw [← Nat.pow_add, show k + (8 - k) = 8 by omega]
  have hpos : 0 < 256 ^ m := Nat.pow_pos (by omega)
  have hcut : ((high * 256 + b) * 256 ^ m + rest) / 256 ^ m = high * 256 + b := by
    rw [Nat.mul_comm, Nat.mul_add_div hpos, Nat.div_eq_of_lt hrest, Nat.add_zero]
  have hhigh : (high * 256 + b) / 2 ^ k = high * j + b / 2 ^ k := by
    have hcomm : high * 256 = 2 ^ k * (high * j) := by
      rw [hj]
      ring
    rw [hcomm, Nat.mul_add_div (Nat.two_pow_pos k)]
  rw [hpow, ← Nat.div_div_eq_div_mul, hcut, hhigh]
  calc (high * j + b / 2 ^ k) * (256 ^ m * 2 ^ k)
      = (high * (2 ^ k * j) + b / 2 ^ k * 2 ^ k) * 256 ^ m := by ring
    _ = (high * 256 + b / 2 ^ k * 2 ^ k) * 256 ^ m := by rw [← hj]

/-- **The bytes of a prefix** are those of its network. -/
theorem byteValue_ipv6PrefixBody {bytes : Bytes} (h : bytes.length = 16) {len : ℕ}
    (hlen : len ≤ 128) :
    byteValue (paddedAddress (ipv6PrefixBody bytes len)) =
      byteValue bytes / 2 ^ (128 - len) * 2 ^ (128 - len) := by
  have hlength := ipv6PrefixBody_length h hlen
  rw [byteValue_paddedAddress (by omega), hlength]
  by_cases hwhole : len % 8 = 0
  · have hbody : ipv6PrefixBody bytes len = bytes.take (len / 8) := by
      rw [ipv6PrefixBody, if_neg (by simpa using hwhole), show (len + 7) / 8 = len / 8 by omega]
    have hpow : 2 ^ (128 - len) = 256 ^ (16 - len / 8) := by
      rw [show (256 : ℕ) = 2 ^ 8 by norm_num, ← Nat.pow_mul]
      congr 1
      omega
    have hsplit := byteValue_append (bytes.take (len / 8)) (bytes.drop (len / 8))
    have hrest := byteValue_lt (bytes.drop (len / 8))
    rw [List.take_append_drop, List.length_drop, h] at hsplit
    rw [List.length_drop, h] at hrest
    rw [hbody, hpow, hsplit, show (len + 7) / 8 = len / 8 by omega, Nat.mul_comm (byteValue _),
      Nat.mul_add_div (Nat.pos_of_ne_zero (by positivity)), Nat.div_eq_of_lt hrest, Nat.add_zero,
      Nat.mul_comm]
  · -- the last byte keeps its highest bits
    obtain ⟨q, r, hr, rfl⟩ : ∃ q r, (0 < r ∧ r < 8) ∧ len = 8 * q + r :=
      ⟨len / 8, len % 8, by omega, by omega⟩
    have hq : q < bytes.length := by omega
    have hcount : (8 * q + r + 7) / 8 = q + 1 := by omega
    have hrem : (8 * q + r) % 8 = r := by omega
    have htake : bytes.take (q + 1) = bytes.take q ++ [bytes[q]] :=
      List.take_succ_eq_append_getElem hq
    have hbody : ipv6PrefixBody bytes (8 * q + r) =
        bytes.take q ++ [bytes[q] &&& UInt8.ofNat (0xff <<< (8 - r))] := by
      have hfront : (bytes.take q).length = q := by
        rw [List.length_take]
        omega
      have hlast := modify_append_last (· &&& UInt8.ofNat (0xff <<< (8 - r))) (bytes.take q)
        bytes[q]
      rw [hfront] at hlast
      rw [ipv6PrefixBody, if_pos (by omega), hcount, hrem, htake, Nat.add_sub_cancel]
      exact hlast
    have hsplit := byteValue_append (bytes.take (q + 1)) (bytes.drop (q + 1))
    have hrest := byteValue_lt (bytes.drop (q + 1))
    have hone : ∀ b : UInt8, byteValue [b] = b.toNat := fun b => by simp [byteValue, assemble]
    rw [List.take_append_drop, List.length_drop, h, htake, byteValue_append, List.length_singleton,
      pow_one, hone] at hsplit
    rw [List.length_drop, h] at hrest
    rw [hbody, hcount, byteValue_append, List.length_singleton, pow_one, hone, toNat_and_mask,
      hsplit, show 128 - (8 * q + r) = 8 * (16 - (q + 1)) + (8 - r) by omega,
      clear_low_bits (by omega) hrest]

/-! ### Addresses as the codec reads them -/

theorem groupBytes_of_group {g : List Char} {n : ℕ} (h : group g = some n) :
    groupBytes g = .ok [UInt8.ofNat (n / 256), UInt8.ofNat n] := by
  have hlt := group_lt h
  rw [group] at h
  split_ifs at h with hg
  have hvalue := Option.some.inj h
  have hparse := JsText.parseInt_digits le_rfl hg.1 hg.2.2 (by rw [hvalue]; omega)
  rw [groupBytes, if_neg hg.1, hparse, hvalue]
  simp only [Option.getD_some, Int.toNat_natCast]
  rw [if_neg (by omega)]

theorem words_groupBytes {ns : List ℕ} (h : ∀ n ∈ ns, n < 65536) :
    words (ns.map fun n => [UInt8.ofNat (n / 256), UInt8.ofNat n]).flatten = ns := by
  induction ns with
  | nil => rfl
  | cons n ns ih =>
    have hn := h n List.mem_cons_self
    have hword : (UInt8.ofNat (n / 256)).toNat * 256 + (UInt8.ofNat n).toNat = n := by
      rw [UInt8.toNat_ofNat', UInt8.toNat_ofNat']
      omega
    rw [List.map_cons, List.flatten_cons, List.cons_append, List.cons_append, List.nil_append,
      words, hword, ih fun m hm => h m (List.mem_cons_of_mem n hm)]

theorem mapM_groupBytes {gs : List (List Char)} {ns : List ℕ} (h : groups false gs = some ns) :
    ∃ bs, gs.mapM groupBytes = .ok bs ∧ bs.flatten.length = 2 * ns.length ∧
      byteValue bs.flatten = assemble 65536 ns := by
  have hbytes : gs.mapM groupBytes =
      .ok (ns.map fun n => [UInt8.ofNat (n / 256), UInt8.ofNat n]) := by
    rw [mapM_ok, List.forall₂_map_right_iff]
    exact (forall₂_of_groups h).imp fun g n hg => groupBytes_of_group hg
  have hlength := groups_length hbytes
  rw [(forall₂_of_groups h).length_eq] at hlength
  refine ⟨_, hbytes, hlength, ?_⟩
  obtain ⟨-, -, hvalue⟩ := words_spec hlength
  rw [← hvalue, words_groupBytes (groups_lt h)]

theorem indexOfDoubleColon_eq (value : List Char) :
    indexOfDoubleColon value = (splitDouble value).map fun halves => halves.1.length := by
  rw [indexOfDoubleColon]
  fun_induction splitDouble value with
  | case1 rest =>
    rw [List.length_cons, List.range_succ_eq_map, List.find?_cons_of_pos (by simp)]
    rfl
  | case2 c rest hnot ih =>
    have hhere : ¬ (c :: rest).take 2 = [':', ':'] := by
      rcases rest with _ | ⟨d, rest⟩
      · simp
      · simp only [List.take_succ_cons, List.take_zero, List.cons.injEq, and_true]
        rintro ⟨rfl, rfl⟩
        exact hnot rest rfl rfl
    rw [List.length_cons, List.range_succ_eq_map, List.find?_cons_of_neg (by simpa using hhere),
      List.find?_map, Option.map_map]
    have hshift : ((fun i => decide (((c :: rest).drop i).take 2 = [':', ':'])) ∘ Nat.succ) =
        fun i => decide ((rest.drop i).take 2 = [':', ':']) := rfl
    rw [hshift, ih, Option.map_map]
    rfl
  | case3 => rfl

theorem splitDoubleColon_of_none {value : List Char} (h : splitDouble value = none) :
    indexOfDoubleColon value = none ∧ splitDoubleColon value = (value, []) := by
  have hindex : indexOfDoubleColon value = none := by rw [indexOfDoubleColon_eq, h]; rfl
  exact ⟨hindex, by rw [splitDoubleColon, hindex]⟩

theorem splitDoubleColon_of_some {value left right : List Char}
    (h : splitDouble value = some (left, right)) (hright : splitDouble right = none) :
    (indexOfDoubleColon value).isSome = true ∧ splitDoubleColon value = (left, right) := by
  have hindex : indexOfDoubleColon value = some left.length := by
    rw [indexOfDoubleColon_eq, h]
    rfl
  have hrest : indexOfDoubleColon right = none := by
    rw [indexOfDoubleColon_eq, hright]
    rfl
  refine ⟨by rw [hindex]; rfl, ?_⟩
  rw [splitDoubleColon, hindex, splitDouble_eq h]
  dsimp only
  have hdrop : (left ++ ':' :: ':' :: right).drop (left.length + 2) = right := by
    rw [← List.drop_drop, List.drop_left]
    rfl
  rw [hdrop, hrest, List.take_left, Option.getD_none, List.take_length]

theorem groupsOf_intercalate {dotted : Bool} {gs : List (List Char)} {ns : List ℕ}
    (h : groups dotted gs = some ns) : groupsOf ([':'].intercalate gs) = gs := by
  rcases gs with _ | ⟨g, gs⟩
  · rfl
  · have hsplit : ([':'].intercalate (g :: gs)).splitOn ':' = g :: gs :=
      List.splitOn_intercalate ':' (colon_notMem_of_groups h) (List.cons_ne_nil _ _)
    have hne : [':'].intercalate (g :: gs) ≠ [] := by
      intro hnil
      rw [hnil] at hsplit
      have hg : ([] : List Char) = g := (List.cons.inj hsplit).1
      exact ne_nil_of_groups h g List.mem_cons_self hg.symm
    rw [groupsOf, if_neg hne, JsText.split, hsplit]

/-- **The groups of an address** without a dotted tail. -/
theorem ipv6Groups_of_undotted {text : List Char} {n : ℕ} (h : Undotted text n) :
    ∃ gs ns, ipv6Groups text = .ok gs ∧ groups false gs = some ns ∧ gs.length = 8 ∧
      assemble 65536 ns = n := by
  cases h with
  | @full gs ns hgs hlength =>
    obtain ⟨hindex, hsplit⟩ := splitDoubleColon_of_none (splitDouble_groups_none hgs)
    refine ⟨gs, ns, ?_, hgs, (forall₂_of_groups hgs).length_eq.trans hlength, rfl⟩
    rw [ipv6Groups, hindex, hsplit]
    simp [groupsOf_intercalate hgs]
  | @double ls rs lns rns hls hrs hfits =>
    obtain ⟨hindex, hsplit⟩ := splitDoubleColon_of_some (splitDouble_groups hls _)
      (splitDouble_groups_none hrs)
    have hl := (forall₂_of_groups hls).length_eq
    have hr := (forall₂_of_groups hrs).length_eq
    refine ⟨ls ++ List.replicate (8 - ls.length - rs.length) ['0'] ++ rs, _, ?_, ?_, ?_, rfl⟩
    · rw [ipv6Groups, hindex, hsplit]
      dsimp only
      rw [groupsOf_intercalate hls, groupsOf_intercalate hrs, if_pos rfl, if_neg (by omega)]
    · rw [← hl, ← hr]
      refine groups_of_forall₂ (List.rel_append (List.rel_append (forall₂_of_groups hls) ?_)
        (forall₂_of_groups hrs))
      exact List.forall₂_iff_get.2
        ⟨by simp, fun i h1 h2 => by simp [show group ['0'] = some 0 from rfl]⟩
    · rw [List.length_append, List.length_append, List.length_replicate]
      omega

/-! ### The dotted tail -/

theorem dotted_of_isDottedQuad {text : List Char} (h : isDottedQuad text = true) : '.' ∈ text := by
  by_contra hdot
  have hsplit : JsText.split '.' text = [text] := List.splitOn_eq_singleton hdot
  rw [isDottedQuad, hsplit] at h
  simp at h

/-- A dotted quad of octets is found. -/
theorem isDottedQuad_of_ipv4 {quad : List Char} {m : ℕ} (h : ipv4 quad = some m) :
    isDottedQuad quad = true ∧
      dottedGroups quad = shortGroup (m / 65536) ++ ':' :: shortGroup (m % 65536) := by
  obtain ⟨ns, hns, hfour, hlt, rfl⟩ := exists_octets h
  obtain ⟨a, b, c, d, rfl⟩ : ∃ a b c d, ns = [a, b, c, d] := by
    match ns, hfour with
    | [a, b, c, d], _ => exact ⟨a, b, c, d, rfl⟩
  simp only [List.forall_mem_cons, List.not_mem_nil, false_implies, implies_true, and_true] at hlt
  obtain ⟨hlta, hltb, hltc, hltd⟩ := hlt
  simp only [List.forall₂_cons_right_iff, List.forall₂_nil_right_iff] at hns
  obtain ⟨pa, _, ha, ⟨pb, _, hb, ⟨pc, _, hc, ⟨pd, _, hd, rfl, rfl⟩, rfl⟩, rfl⟩, hparts⟩ := hns
  have hshift : ∀ x y : ℕ, y < 256 → x <<< 8 ||| y = x * 256 + y := by
    intro x y hy
    rw [Nat.shiftLeft_eq, Nat.mul_comm x, ← Nat.two_pow_add_eq_or_of_lt (show y < 2 ^ 8 from hy)]
  have hvalue : assemble 256 [a, b, c, d] = ((a * 256 + b) * 256 + c) * 256 + d := by
    simp [assemble]
  constructor
  · rw [isDottedQuad, JsText.split, hparts]
    simp only [List.length_cons, List.length_nil, List.all_cons, List.all_nil, length_octet ha,
      length_octet hb, length_octet hc, length_octet hd, (digits_of_octet ha).1,
      (digits_of_octet hb).1, (digits_of_octet hc).1, (digits_of_octet hd).1]
    decide
  · rw [dottedGroups, JsText.split, hparts, hvalue]
    simp only [List.getD_cons_zero, List.getD_cons_succ, (digits_of_octet ha).2,
      (digits_of_octet hb).2, (digits_of_octet hc).2, (digits_of_octet hd).2]
    rw [hshift a b hltb, hshift c d hltd,
      show (((a * 256 + b) * 256 + c) * 256 + d) / 65536 = a * 256 + b by omega,
      show (((a * 256 + b) * 256 + c) * 256 + d) % 65536 = c * 256 + d by omega]
    rfl

theorem splitOn_append_left {front : List Char} (h : '.' ∉ front) (text : List Char) :
    (front ++ text).splitOn '.' = (text.splitOn '.').modifyHead (front ++ ·) := by
  induction front with
  | nil =>
    rw [List.nil_append]
    cases text.splitOn '.' <;> rfl
  | cons c front ih =>
    have hc : (c == '.') = false := by
      rw [beq_eq_false_iff_ne]
      exact (List.ne_of_not_mem_cons h).symm
    rw [List.cons_append, List.splitOn_cons_eq_if_modifyHead, hc,
      ih (List.not_mem_of_not_mem_cons h)]
    cases text.splitOn '.' <;> rfl

theorem not_isDottedQuad {front : List Char} (hdot : '.' ∉ front) (hcolon : ':' ∈ front)
    (quad : List Char) : isDottedQuad (front ++ quad) = false := by
  rw [isDottedQuad, JsText.split, splitOn_append_left hdot]
  obtain ⟨first, rest, hsplit⟩ := List.exists_cons_of_ne_nil (List.splitOn_ne_nil '.' quad)
  rw [hsplit, List.modifyHead_cons, decide_eq_false_iff_not]
  rintro ⟨-, hall⟩
  have hfirst := of_decide_eq_true (List.all_eq_true.1 hall (front ++ first) List.mem_cons_self)
  have hdigit := List.all_eq_true.1 hfirst.2.2 ':' (List.mem_append_left _ hcolon)
  exact absurd hdigit (by decide)

theorem find?_tails {front quad : List Char} (hdot : '.' ∉ front)
    (hlast : front = [] ∨ front.getLast? = some ':') (hquad : isDottedQuad quad = true) :
    (front ++ quad).tails.find? isDottedQuad = some quad := by
  induction front with
  | nil =>
    rw [List.nil_append]
    cases quad with
    | nil => exact absurd (dotted_of_isDottedQuad hquad) List.not_mem_nil
    | cons c quad => rw [List.tails_cons, List.find?_cons_of_pos hquad]
  | cons c front ih =>
    have hlast' : (c :: front).getLast? = some ':' := hlast.resolve_left (List.cons_ne_nil _ _)
    have hnot : ¬ isDottedQuad (c :: (front ++ quad)) = true := by
      have hfalse := not_isDottedQuad hdot (List.mem_of_getLast? hlast') quad
      rw [List.cons_append] at hfalse
      rw [hfalse]
      decide
    rw [List.cons_append, List.tails_cons, List.find?_cons_of_neg hnot]
    refine ih (List.not_mem_of_not_mem_cons hdot) ?_
    rcases front with _ | ⟨d, front⟩
    · exact .inl rfl
    · rw [List.getLast?_cons_cons] at hlast'
      exact .inr hlast'

/-- **The dotted tail is replaced** by its two groups. -/
theorem undotted_spec {text : List Char} {n : ℕ} (h : ipv6 text = some n) :
    Undotted (undotted text) n := by
  rcases ipv6_forms h with hplain | ⟨front, quad, m, rfl, hdot, hlast, hm, hnew⟩
  · have hnone : text.tails.find? isDottedQuad = none := by
      rw [List.find?_eq_none]
      intro tail htail hquad
      have hsuffix := (List.mem_tails _ _).1 htail
      exact hplain.dot_notMem (hsuffix.subset (dotted_of_isDottedQuad hquad))
    rw [undotted, hnone]
    exact hplain
  · obtain ⟨hquad, hgroups⟩ := isDottedQuad_of_ipv4 hm
    rw [undotted, find?_tails hdot (.inr hlast) hquad]
    dsimp only
    rw [List.length_append, Nat.add_sub_cancel, List.take_left, hgroups]
    exact hnew

/-- **The bytes of an address**, a zone behind it left out. -/
theorem ipv6Bytes_of_ipv6 {address : String} {n : ℕ}
    (h : ipv6 (address.toList.takeWhile (· ≠ '%')) = some n) :
    ∃ bytes, ipv6Bytes isIPv6 address = .ok (some bytes) ∧ bytes.length = 16 ∧
      byteValue bytes = n := by
  rw [← ipv6_map_toLower] at h
  have his := isIPv6_of_ipv6 h
  obtain ⟨gs, ns, hgroups, hgs, height, rfl⟩ := ipv6Groups_of_undotted (undotted_spec h)
  obtain ⟨bs, hbs, hlength, hvalue⟩ := mapM_groupBytes hgs
  refine ⟨bs.flatten, ?_, ?_, hvalue⟩
  · rw [ipv6Bytes]
    simp only [his, hgroups]
    rw [if_neg (by decide)]
    refine except_bind_ok.2 ⟨gs, rfl, ?_⟩
    rw [if_neg (by omega)]
    exact except_bind_ok.2 ⟨bs, hbs, rfl⟩
  · rw [hlength, ← (forall₂_of_groups hgs).length_eq, height]

/-! ### What is accepted -/

/-- The byte string denotes a prefix: a reserved byte that is zero, the length, and as many bytes of
the address as the length needs. -/
def DenotesBytes (value : Bytes) (address length : ℕ) : Prop :=
  ∃ (len : UInt8) (body : Bytes), value = 0 :: len :: body ∧ len.toNat = length ∧ length ≤ 128 ∧
    body.length = (length + 7) / 8 ∧ byteValue (paddedAddress body) = address

theorem two_pow_dvd_byteValue (front : Bytes) (b : UInt8) {k : ℕ} (hk : k ≤ 8) :
    2 ^ k ∣ byteValue (front ++ [b]) ↔ b.toNat &&& (1 <<< k) - 1 = 0 := by
  have hone : byteValue [b] = b.toNat := by simp [byteValue, assemble]
  have hhigh : 2 ^ k ∣ byteValue front * 256 ^ [b].length := by
    have hpow : (2 : ℕ) ^ k ∣ 2 ^ 8 := Nat.pow_dvd_pow 2 hk
    rw [List.length_singleton, pow_one]
    exact hpow.mul_left _
  rw [byteValue_append, hone, Nat.dvd_add_right hhigh, Nat.shiftLeft_eq, Nat.one_mul,
    Nat.and_two_pow_sub_one_eq_mod]
  exact Nat.dvd_iff_mod_eq_zero

/-- **Host bits** are what the address has beyond the length. -/
theorem host_bits_iff {body : Bytes} {len : ℕ} (hlen : len ≤ 128)
    (hbody : body.length = (len + 7) / 8) :
    ¬ (len % 8 ≠ 0 ∧ 2 < body.length + 2 ∧
        (body.getLastD 0).toNat &&& (1 <<< (8 - len % 8)) - 1 ≠ 0) ↔
      2 ^ (128 - len) ∣ byteValue (paddedAddress body) := by
  have hpow : 2 ^ (128 - len) = 2 ^ (8 * body.length - len) * 256 ^ (16 - body.length) := by
    rw [show (256 : ℕ) = 2 ^ 8 by norm_num, ← Nat.pow_mul, ← Nat.pow_add]
    congr 1
    omega
  rw [byteValue_paddedAddress (by omega), hpow,
    Nat.mul_dvd_mul_iff_right (Nat.pow_pos (by omega))]
  by_cases hwhole : len % 8 = 0
  · refine iff_of_true (fun h => h.1 hwhole) ?_
    rw [show 8 * body.length - len = 0 by omega, pow_zero]
    exact one_dvd _
  · obtain ⟨front, b, rfl⟩ : ∃ front b, body = front ++ [b] :=
      (List.eq_nil_or_concat' body).resolve_left fun h => by
        rw [h, List.length_nil] at hbody
        omega
    have hbits : 8 * (front ++ [b]).length - len = 8 - len % 8 := by omega
    rw [hbits, two_pow_dvd_byteValue front b (by omega), List.getLastD_concat]
    constructor
    · intro h
      by_contra hne
      refine h ⟨hwhole, ?_, hne⟩
      rw [List.length_append, List.length_singleton]
      omega
    · intro h hhost
      exact hhost.2.2 h

/-- **What is taken**: the byte strings that denote a prefix without host bits. -/
theorem decodePrefix_ok {value : Bytes} {text : List Char} :
    decodePrefix value = .ok text ↔
      ∃ n len, DenotesBytes value n len ∧ 2 ^ (128 - len) ∣ n ∧
        text = withLength (canonicalText n) len := by
  constructor
  · intro h
    rcases value with _ | ⟨reserved, _ | ⟨len, body⟩⟩
    · cases h
    · cases h
    · rw [decodePrefix] at h
      rw [List.length_cons, List.length_cons] at h
      split_ifs at h with hreserved hlength hhost
      have hlen : len.toNat ≤ 128 := by omega
      have hbody : body.length = (len.toNat + 7) / 8 := by omega
      obtain rfl : reserved = 0 := by simpa using hreserved
      refine ⟨_, _, ⟨len, body, rfl, rfl, hlen, hbody, rfl⟩,
        (host_bits_iff hlen hbody).1 hhost, ?_⟩
      rw [formatGroups_words (length_paddedAddress (by omega))] at h
      exact (Except.ok.inj h).symm
  · rintro ⟨n, len, ⟨lenByte, body, rfl, rfl, hlen, hbody, rfl⟩, hzero, rfl⟩
    rw [decodePrefix, List.length_cons, List.length_cons, if_neg (by simp), if_neg (by omega),
      if_neg ((host_bits_iff hlen hbody).2 hzero),
      formatGroups_words (length_paddedAddress (by omega))]
    rfl

/-! ### The round trip -/

/-- The attribute of a prefix is read back, with the bytes of its network. -/
theorem encodeIpv6PrefixAttr_reads {address : String} {n len : ℕ} (type : ℤ)
    (haddress : ipv6 (address.toList.takeWhile (· ≠ '%')) = some n) (hlen : len ≤ 128) :
    ∃ attr value, encodeIpv6PrefixAttr isIPv6 type address (.int len) = .ok (some attr) ∧
      Tlv.parse attr = [⟨toUint8 type, value⟩] ∧
      DenotesBytes value (n / 2 ^ (128 - len) * 2 ^ (128 - len)) len := by
  obtain ⟨bytes, hbytes, hlength, rfl⟩ := ipv6Bytes_of_ipv6 haddress
  have hbody := ipv6PrefixBody_length hlength hlen
  set body := ipv6PrefixBody bytes len with hbodyDef
  let value : Bytes := 0 :: UInt8.ofNat len :: body
  have hvalue : value.length = 2 + (len + 7) / 8 := by
    show body.length + 1 + 1 = _
    omega
  refine ⟨Tlv.encode ⟨toUint8 type, value⟩, value, ?_, ?_, ?_⟩
  · rw [encodeIpv6PrefixAttr]
    refine except_bind_ok.2 ⟨_, hbytes, ?_⟩
    dsimp only
    rw [if_neg (by omega), Int.toNat_natCast, ← hbodyDef, Tlv.encode]
    dsimp only
    rw [hvalue, ← Nat.add_assoc]
    rfl
  · have hfits : ∀ a ∈ [(⟨toUint8 type, value⟩ : Tlv.Attr)], a.value.length ≤ 253 := by
      rw [List.forall_mem_singleton]
      show value.length ≤ 253
      omega
    have hread := Tlv.parse_flatMap_encode hfits []
    rwa [List.flatMap_singleton, List.append_nil, Tlv.parse_nil, List.append_nil] at hread
  · refine ⟨UInt8.ofNat len, body, rfl, toNat_ofNat (by omega), hlen, hbody, ?_⟩
    exact byteValue_ipv6PrefixBody hlength hlen

/-- **Prefixes in attributes**: the attribute made for a prefix is decoded to the canonical text of
the prefix with its host bits cleared, the text that `canonicalIpv6Prefix` gives; and no attribute
is decoded but that of a prefix without host bits. -/
theorem prefix_round_trip {value : List Char} {address : String} {n len : ℕ} (type : ℤ)
    (hvalue : Denotes value n len)
    (haddress : ipv6 (address.toList.takeWhile (· ≠ '%')) = some n) :
    (∃ attr text, encodeIpv6PrefixAttr isIPv6 type address (.int len) = .ok (some attr) ∧
      getIpv6Prefix (Tlv.parse attr) (toUint8 type) = .ok (some text) ∧
      canonicalIpv6Prefix value = .ok text ∧
      text = withLength (canonicalText (n / 2 ^ (128 - len) * 2 ^ (128 - len))) len) ∧
    ∀ attributes (type : UInt8) text, getIpv6Prefix attributes type = .ok (some text) →
      ∃ bytes m k, getAttr attributes type = some bytes ∧ DenotesBytes bytes m k ∧
        2 ^ (128 - k) ∣ m ∧ text = withLength (canonicalText m) k := by
  obtain ⟨-, -, -, -, -, -, -, -, hlen⟩ := id hvalue
  obtain ⟨attr, bytes, hencode, hparse, hdenotes⟩ := encodeIpv6PrefixAttr_reads type haddress hlen
  refine ⟨⟨attr, _, hencode, ?_, canonicalIpv6Prefix_of_denotes hvalue, rfl⟩, ?_⟩
  · have hget : getAttr (Tlv.parse attr) (toUint8 type) = some bytes := by
      rw [hparse]
      simp [getAttr]
    rw [getIpv6Prefix, hget]
    dsimp only
    rw [decodePrefix_ok.2 ⟨_, _, hdenotes, Nat.dvd_mul_left _ _, rfl⟩]
    rfl
  · intro attributes type text h
    rw [getIpv6Prefix] at h
    rcases hget : getAttr attributes type with _ | bytes
    · rw [hget] at h
      cases h
    · rw [hget] at h
      dsimp only at h
      rcases hdecode : decodePrefix bytes with _ | decoded
      · rw [hdecode] at h
        cases h
      · rw [hdecode] at h
        cases h
        obtain ⟨m, k, hm⟩ := decodePrefix_ok.1 hdecode
        exact ⟨bytes, m, k, rfl, hm⟩

theorem prefix_round_trip_mapped :
    (∃ attr text, encodeIpv6PrefixAttr isIPv6 123 "::FFFF:10.1.2.255%eth0" (.int 121) =
        .ok (some attr) ∧
      getIpv6Prefix (Tlv.parse attr) (toUint8 123) = .ok (some text) ∧
      canonicalIpv6Prefix
        ['0', ':', ':', 'f', 'f', 'f', 'f', ':', 'a', '0', '1', ':', '2', 'f', 'f', '/', '1', '2',
          '1', ' '] = .ok text ∧
      text = withLength (canonicalText (0xffff0a0102ff / 2 ^ 7 * 2 ^ 7)) 121) ∧
    ∀ attributes (type : UInt8) text, getIpv6Prefix attributes type = .ok (some text) →
      ∃ bytes m k, getAttr attributes type = some bytes ∧ DenotesBytes bytes m k ∧
        2 ^ (128 - k) ∣ m ∧ text = withLength (canonicalText m) k :=
  prefix_round_trip 123
    ⟨['0', ':', ':', 'f', 'f', 'f', 'f', ':', 'a', '0', '1', ':', '2', 'f', 'f'],
      ['1', '2', '1'], by decide, by decide, by decide, by decide, by decide, by decide, by decide⟩
    (by decide)

end Vigabss.RadiusServer
