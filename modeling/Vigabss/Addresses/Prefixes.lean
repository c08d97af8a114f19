import Vigabss.Lib.Except
import Vigabss.Lib.Ipv6Text

/-!
# Vigabss.Addresses.Prefixes — canonical IPv6 addresses and prefixes

The functions of `ipAddress` on IPv6 addresses and prefixes.  The prefixes that contain an address
are listed in canonical text, so a prefix is in the list when its canonical text is
(`listed_iff_covers`).
-/

namespace Vigabss.Addresses

open Vigabss.Lib Vigabss.Lib.IpText

/-! ### The code -/

/-- The characters of a zone. -/
def isZoneChar (c : Char) : Bool := c.isAlphanum ∨ c = '-' ∨ c = '.' ∨ c = ':'

/-- `net.isIP(text) === 6`: an IPv6 address, and maybe a zone behind it. -/
def isIPv6 (text : List Char) : Bool :=
  let zone := (text.dropWhile (· ≠ '%')).tail
  (ipv6 text).isSome ∨ (ipv6 (text.takeWhile (· ≠ '%'))).isSome ∧ zone ≠ [] ∧ zone.all isZoneChar

/-- `canonicalIpv6(value)`: the host of a URL is the canonical text of the address in it; a URL with
a zone is not valid. -/
def canonicalIpv6 (value : List Char) : Except String (List Char) :=
  if isIPv6 value = false then .error "Expected an IPv6 address"
  else match ipv6 value with
    | some n => .ok (canonicalText n)
    | none => .error "Invalid URL"

/-- `text ? text.split(':') : []`. -/
def groupTexts (text : List Char) : List (List Char) :=
  if text = [] then [] else JsText.split ':' text

/-- `groups` of `ipv6ToBigInt`. -/
def bigIntGroups (canonical : List Char) : Except String (List (List Char)) :=
  match splitDouble canonical with
  | none => .ok (groupTexts canonical)
  | some (head, tail) =>
    let left := groupTexts head
    let right := groupTexts tail
    if 8 < left.length + right.length then .error "Invalid array length"
    else .ok (left ++ List.replicate (8 - left.length - right.length) ['0'] ++ right)

/-- `(n << 16n) | BigInt(parseInt(g, 16))`. -/
def shiftIn (n : ℕ) (g : List Char) : Except String ℕ :=
  match JsText.parseInt 16 g with
  | some v => .ok (n <<< 16 ||| v.toNat)
  | none => .error "The number NaN cannot be converted to a BigInt because it is not an integer"

/-- `ipv6ToBigInt(value)`. -/
def ipv6ToBigInt (value : List Char) : Except String ℕ := do
  let canonical ← canonicalIpv6 value
  let groups ← bigIntGroups canonical
  groups.foldlM shiftIn 0

/-- `bigIntToIpv6(n)`. -/
def bigIntToIpv6 (n : ℕ) : Except String (List Char) :=
  let groups := [7, 6, 5, 4, 3, 2, 1, 0].map fun i => Nat.toDigits 16 ((n >>> (i * 16)) &&& 0xffff)
  canonicalIpv6 ([':'].intercalate groups)

def ALL_ONES : ℕ := (1 <<< 128) - 1

/-- `maskOf(length)`. -/
def maskOf (length : ℕ) : ℕ :=
  if length = 0 then 0 else (ALL_ONES <<< (128 - length)) &&& ALL_ONES

/-- `networkOf(address, length)`. -/
def networkOf (address : List Char) (length : ℕ) : Except String (List Char) := do
  let n ← ipv6ToBigInt address
  bigIntToIpv6 (n &&& maskOf length)

/-- `${network}/${length}`. -/
def withLength (network : List Char) (length : ℕ) : List Char :=
  network ++ '/' :: Nat.toDigits 10 length

/-- The characters that `.` does not stand for. -/
def isLineEnd (c : Char) : Bool := c.toNat ∈ [0x0A, 0x0D, 0x2028, 0x2029]

/-- The groups of `/^(.+)\/(\d{1,3})$/`. -/
def prefixParts (text : List Char) : Option (List Char × List Char) :=
  let digits := (text.reverse.takeWhile (JsText.isDigit 10)).reverse
  match text.reverse.dropWhile (JsText.isDigit 10) with
  | '/' :: address =>
    if digits ≠ [] ∧ digits.length ≤ 3 ∧ address ≠ [] ∧ address.any isLineEnd = false then
      some (address.reverse, digits)
    else none
  | _ => none

/-- `canonicalIpv6Prefix(value)`. -/
def canonicalIpv6Prefix (value : List Char) : Except String (List Char) :=
  match prefixParts (JsText.trim value) with
  | none => .error "Expected an IPv6 CIDR prefix"
  | some (address, digits) =>
    let prefixLength := JsText.digitsValue 10 digits
    if 128 < prefixLength then .error "Invalid IPv6 prefix length"
    else do
      let network ← networkOf address prefixLength
      return withLength network prefixLength

/-- `containingIpv6Prefixes(address, { minLength, maxLength })`. -/
def containingIpv6Prefixes (address : List Char) (minLength maxLength : ℕ) :
    Except String (List (List Char)) := do
  let n ← ipv6ToBigInt address
  (List.range' minLength (maxLength + 1 - minLength)).mapM fun len => do
    let network ← bigIntToIpv6 (n &&& maskOf len)
    return withLength network len

/-! ### Addresses -/

theorem isIPv6_of_ipv6 {text : List Char} {n : ℕ} (h : ipv6 text = some n) :
    isIPv6 text = true := by
  simp [isIPv6, h]

theorem canonicalIpv6_of_ipv6 {value : List Char} {n : ℕ} (h : ipv6 value = some n) :
    canonicalIpv6 value = .ok (canonicalText n) := by
  rw [canonicalIpv6, isIPv6_of_ipv6 h, if_neg (by decide), h]

theorem groupTexts_joined (ns : List ℕ) : groupTexts (joined ns) = ns.map shortGroup := by
  by_cases hnil : ns = []
  · subst hnil
    rfl
  · rw [groupTexts, if_neg (joined_ne_nil hnil), JsText.split, splitOn_joined hnil]

theorem bigIntGroups_canonicalGroups {ns : List ℕ} (hlength : ns.length = 8) :
    bigIntGroups (canonicalGroups ns) = .ok (ns.map shortGroup) := by
  rw [canonicalGroups]
  split_ifs with hrun
  · obtain ⟨hcut, hle⟩ := eq_of_run (run_longestRun _ hrun) (by omega)
    generalize longestRun (ns.map (· = 0)) = run at hrun hcut hle
    have hsum : (ns.take run.1).length + (ns.drop (run.1 + run.2)).length + run.2 = 8 := by
      rw [List.length_take, List.length_drop]
      omega
    rw [bigIntGroups, splitDouble_joined]
    dsimp only
    rw [groupTexts_joined, groupTexts_joined, List.length_map, List.length_map,
      if_neg (by omega)]
    congr 1
    have hzeros : List.replicate run.2 ['0'] = (List.replicate run.2 0).map shortGroup := by
      rw [List.map_replicate]
      rfl
    rw [show 8 - (ns.take run.1).length - (ns.drop (run.1 + run.2)).length = run.2 by omega,
      hzeros, ← List.map_append, ← List.map_append, ← hcut]
  · rw [bigIntGroups, splitDouble_joined_none, groupTexts_joined]

theorem shiftIn_shortGroup (n : ℕ) {g : ℕ} (hg : g < 65536) :
    shiftIn n (shortGroup g) = .ok (n * 65536 + g) := by
  have hvalue : JsText.digitsValue 16 (shortGroup g) = g :=
    digitsValue_toDigits (by omega) (by omega) g
  have hparse := JsText.parseInt_digits le_rfl (shortGroup_ne_nil g)
    (all_isDigit_toDigits (by omega) (by omega) g) (by rw [hvalue]; omega)
  rw [shiftIn, hparse, hvalue]
  dsimp only
  rw [Int.toNat_natCast, Nat.shiftLeft_eq, Nat.mul_comm n (2 ^ 16),
    ← Nat.two_pow_add_eq_or_of_lt (show g < 2 ^ 16 from hg), Nat.mul_comm (2 ^ 16) n]

theorem foldlM_shiftIn {ns : List ℕ} (hns : ∀ n ∈ ns, n < 65536) (start : ℕ) :
    (ns.map shortGroup).foldlM shiftIn start =
      .ok (ns.foldl (fun n d => n * 65536 + d) start) := by
  induction ns generalizing start with
  | nil => rfl
  | cons n ns ih =>
    rw [List.map_cons, List.foldlM_cons, shiftIn_shortGroup start (hns n List.mem_cons_self)]
    exact ih (fun m hm => hns m (List.mem_cons_of_mem n hm)) _

/-- **`ipv6ToBigInt` is the number of the address.** -/
theorem ipv6ToBigInt_of_ipv6 {value : List Char} {n : ℕ} (h : ipv6 value = some n) :
    ipv6ToBigInt value = .ok n := by
  have hpow : (65536 : ℕ) ^ 8 = 2 ^ 128 := by norm_num
  have hnumber : (places 65536 8 n).foldl (fun n d => n * 65536 + d) 0 = n := by
    have hplaces := assemble_places 65536 8 n
    rwa [hpow, Nat.mod_eq_of_lt (ipv6_lt h)] at hplaces
  rw [ipv6ToBigInt, canonicalIpv6_of_ipv6 h]
  show (bigIntGroups (canonicalGroups (places 65536 8 n)) >>= fun groups =>
    groups.foldlM shiftIn 0) = .ok n
  rw [bigIntGroups_canonicalGroups (length_places _ _ _)]
  show (((places 65536 8 n).map shortGroup).foldlM shiftIn 0) = .ok n
  rw [foldlM_shiftIn fun d hd => lt_of_mem_places (by omega) hd, hnumber]

theorem shifted_groups (n : ℕ) :
    ([7, 6, 5, 4, 3, 2, 1, 0].map fun i => Nat.toDigits 16 ((n >>> (i * 16)) &&& 0xffff)) =
      (places 65536 8 n).map shortGroup := by
  have hgroup : ∀ i, (n >>> (i * 16)) &&& 0xffff = n / 65536 ^ i % 65536 := by
    intro i
    have hmask := Nat.and_two_pow_sub_one_eq_mod (n >>> (i * 16)) 16
    rw [Nat.shiftRight_eq_div_pow, Nat.mul_comm i 16, Nat.pow_mul] at hmask ⊢
    exact hmask
  simp only [hgroup, places, List.map_cons, List.map_nil, List.nil_append, List.cons_append,
    Nat.div_div_eq_div_mul, shortGroup, pow_zero, Nat.div_one]
  norm_num

/-- **`bigIntToIpv6` is the canonical text of the number.** -/
theorem bigIntToIpv6_eq {n : ℕ} (hn : n < 2 ^ 128) : bigIntToIpv6 n = .ok (canonicalText n) := by
  have hpow : (65536 : ℕ) ^ 8 = 2 ^ 128 := by norm_num
  have hread := ipv6_joined (length_places 65536 8 n)
    fun d hd => lt_of_mem_places (by omega) hd
  rw [assemble_places, hpow, Nat.mod_eq_of_lt hn] at hread
  rw [bigIntToIpv6, shifted_groups]
  exact canonicalIpv6_of_ipv6 hread

/-! ### Masks -/

theorem and_maskOf {n length : ℕ} (hn : n < 2 ^ 128) (h : length ≤ 128) :
    n &&& maskOf length = n / 2 ^ (128 - length) * 2 ^ (128 - length) := by
  by_cases hzero : length = 0
  · subst hzero
    rw [maskOf, if_pos rfl, Nat.and_zero, Nat.div_eq_of_lt (by simpa using hn), zero_mul]
  · have hones : ALL_ONES = 2 ^ 128 - 1 := by rw [ALL_ONES, Nat.one_shiftLeft]
    rw [maskOf, if_neg hzero, hones, Nat.and_two_pow_sub_one_eq_mod, and_ones_shift hn]

theorem networkOf_of_ipv6 {address : List Char} {n length : ℕ} (h : ipv6 address = some n)
    (hlength : length ≤ 128) :
    networkOf address length =
      .ok (canonicalText (n / 2 ^ (128 - length) * 2 ^ (128 - length))) := by
  have hlt : n / 2 ^ (128 - length) * 2 ^ (128 - length) < 2 ^ 128 :=
    (Nat.div_mul_le_self _ _).trans_lt (ipv6_lt h)
  rw [networkOf, ipv6ToBigInt_of_ipv6 h]
  show bigIntToIpv6 (n &&& maskOf length) = _
  rw [and_maskOf (ipv6_lt h) hlength, bigIntToIpv6_eq hlt]

/-! ### Prefixes -/

/-- The text denotes the prefix: an address, a slash and one to three digits, blanks around. -/
def Denotes (value : List Char) (address length : ℕ) : Prop :=
  ∃ text digits, JsText.trim value = text ++ '/' :: digits ∧ ipv6 text = some address ∧
    digits ≠ [] ∧ digits.length ≤ 3 ∧ digits.all (JsText.isDigit 10) = true ∧
    JsText.digitsValue 10 digits = length ∧ length ≤ 128

theorem prefixParts_of_denotes {text digits : List Char} {n : ℕ} (haddress : ipv6 text = some n)
    (hne : digits ≠ []) (hlength : digits.length ≤ 3)
    (hdigits : digits.all (JsText.isDigit 10) = true) :
    prefixParts (text ++ '/' :: digits) = some (text, digits) := by
  have hreverse : (text ++ '/' :: digits).reverse = digits.reverse ++ '/' :: text.reverse := by
    simp
  have hall : ∀ c ∈ digits.reverse, JsText.isDigit 10 c = true := fun c hc =>
    List.all_eq_true.1 hdigits c (List.mem_reverse.1 hc)
  have hslash : ¬ JsText.isDigit 10 '/' = true := by decide
  have htake : (digits.reverse ++ '/' :: text.reverse).takeWhile (JsText.isDigit 10) =
      digits.reverse := by
    rw [List.takeWhile_append_of_pos hall, List.takeWhile_cons_of_neg hslash, List.append_nil]
  have hdrop : (digits.reverse ++ '/' :: text.reverse).dropWhile (JsText.isDigit 10) =
      '/' :: text.reverse := by
    rw [List.dropWhile_append_of_pos hall, List.dropWhile_cons_of_neg hslash]
  have htext : text ≠ [] := by
    rintro rfl
    cases haddress
  have hends : text.reverse.any isLineEnd = false := by
    rw [List.any_eq_false]
    intro c hc hend
    have hspace : JsText.isSpace c = true := by
      simp only [isLineEnd, List.mem_cons, List.not_mem_nil, or_false, decide_eq_true_eq] at hend
      simp only [JsText.isSpace, List.mem_cons, List.not_mem_nil, or_false, decide_eq_true_eq]
      omega
    rcases mem_of_ipv6 haddress (List.mem_reverse.1 hc) with rfl | rfl | hdigit
    · exact absurd hspace (by decide)
    · exact absurd hspace (by decide)
    · rw [JsText.not_isSpace_of_isDigit (by omega) hdigit] at hspace
      cases hspace
  have hform : digits ≠ [] ∧ digits.length ≤ 3 ∧ text.reverse ≠ [] ∧
      text.reverse.any isLineEnd = false := ⟨hne, hlength, by simpa using htext, hends⟩
  rw [prefixParts, hreverse, htake, hdrop, List.reverse_reverse]
  exact (if_pos hform).trans (by rw [List.reverse_reverse])

/-- **The canonical text of a prefix** is that of its network. -/
theorem canonicalIpv6Prefix_of_denotes {value : List Char} {n length : ℕ}
    (h : Denotes value n length) :
    canonicalIpv6Prefix value =
      .ok (withLength (canonicalText (n / 2 ^ (128 - length) * 2 ^ (128 - length))) length) := by
  obtain ⟨text, digits, htrim, haddress, hne, hfew, hdigits, rfl, hlength⟩ := h
  rw [canonicalIpv6Prefix, htrim, prefixParts_of_denotes haddress hne hfew hdigits]
  dsimp only
  rw [if_neg (not_lt.2 hlength), networkOf_of_ipv6 haddress hlength]
  rfl

/-- **The prefixes that contain an address**, for the lengths between the two. -/
theorem containingIpv6Prefixes_of_ipv6 {address : List Char} {n maxLength : ℕ}
    (h : ipv6 address = some n) (minLength : ℕ) (hmax : maxLength ≤ 128) :
    containingIpv6Prefixes address minLength maxLength =
      .ok ((List.range' minLength (maxLength + 1 - minLength)).map fun len =>
        withLength (canonicalText (n / 2 ^ (128 - len) * 2 ^ (128 - len))) len) := by
  rw [containingIpv6Prefixes, ipv6ToBigInt_of_ipv6 h]
  refine mapM_ok.2 (List.forall₂_map_right_iff.2 (List.forall₂_same.2 fun len hlen => ?_))
  have hlength : len ≤ 128 := by
    rw [List.mem_range'_1] at hlen
    omega
  have hlt : n / 2 ^ (128 - len) * 2 ^ (128 - len) < 2 ^ 128 :=
    (Nat.div_mul_le_self _ _).trans_lt (ipv6_lt h)
  rw [and_maskOf (ipv6_lt h) hlength, bigIntToIpv6_eq hlt]
  rfl

theorem withLength_inj {a b : List Char} {m n : ℕ} (ha : '/' ∉ a) (hb : '/' ∉ b)
    (h : withLength a m = withLength b n) : a = b ∧ m = n := by
  have hsplit : ∀ {text : List Char} {k : ℕ}, '/' ∉ text →
      (withLength text k).takeWhile (· ≠ '/') = text := by
    intro text k hslash
    rw [withLength, List.takeWhile_append_of_pos, List.takeWhile_cons_of_neg (by decide),
      List.append_nil]
    intro c hc
    simpa using ne_of_mem_of_not_mem hc hslash
  have hab : a = b := by rw [← hsplit (k := m) ha, h, hsplit hb]
  subst hab
  have hdigits := List.append_cancel_left h
  have hm := decimal_toDigits m
  rw [(List.cons.inj hdigits).2, decimal_toDigits n] at hm
  exact ⟨rfl, (Option.some.inj hm).symm⟩

theorem slash_notMem_canonicalText (n : ℕ) : '/' ∉ canonicalText n := by
  intro hmem
  rcases mem_canonicalText hmem with h | ⟨d, hd, h⟩
  · exact absurd h (by decide)
  · have hvalue := digitValue_digitChar d hd
    rw [← h] at hvalue
    have : JsText.digitValue '/' = 36 := rfl
    omega

/-- **Which prefixes are listed**: a prefix is in the list of the prefixes that contain an address,
by its canonical text, exactly when the address is in it. -/
theorem listed_iff_covers {value address : List Char} {p length a : ℕ}
    (hp : Denotes value p length) (ha : ipv6 address = some a) :
    ∃ canonical prefixes, canonicalIpv6Prefix value = .ok canonical ∧
      containingIpv6Prefixes address 0 128 = .ok prefixes ∧
      (canonical ∈ prefixes ↔ Covers 128 (p, length) a) := by
  refine ⟨_, _, canonicalIpv6Prefix_of_denotes hp, containingIpv6Prefixes_of_ipv6 ha 0 le_rfl, ?_⟩
  obtain ⟨text, -, -, haddress, -, -, -, -, hlength⟩ := hp
  rw [List.mem_map]
  have hnetwork : ∀ {n k : ℕ}, n < 2 ^ 128 → n / 2 ^ (128 - k) * 2 ^ (128 - k) < 2 ^ 128 :=
    fun hn => (Nat.div_mul_le_self _ _).trans_lt hn
  constructor
  · rintro ⟨len, -, heq⟩
    obtain ⟨htext, rfl⟩ := withLength_inj (slash_notMem_canonicalText _)
      (slash_notMem_canonicalText _) heq
    have hsame :=
      canonicalText_injective (hnetwork (ipv6_lt ha)) (hnetwork (ipv6_lt haddress)) htext
    exact Nat.eq_of_mul_eq_mul_right (Nat.two_pow_pos _) hsame
  · intro hcovers
    refine ⟨length, ?_, ?_⟩
    · rw [List.mem_range'_1]
      omega
    · have hsame : a / 2 ^ (128 - length) = p / 2 ^ (128 - length) := hcovers
      rw [hsame]

theorem denotes_documentation :
    Denotes [' ', '2', '0', '0', '1', ':', 'D', 'B', '8', ':', ':', '1', '/', '0', '3', '2']
      (0x20010db8 * 2 ^ 96 + 1) 32 :=
  ⟨['2', '0', '0', '1', ':', 'D', 'B', '8', ':', ':', '1'], ['0', '3', '2'], by decide, by decide,
    by decide, by decide, by decide, by decide, by decide⟩

theorem listed_iff_covers_documentation :
    ∃ canonical prefixes,
      canonicalIpv6Prefix
        [' ', '2', '0', '0', '1', ':', 'D', 'B', '8', ':', ':', '1', '/', '0', '3', '2'] =
          .ok canonical ∧
      containingIpv6Prefixes ['2', '0', '0', '1', ':', 'd', 'b', '8', ':', ':', '5'] 0 128 =
        .ok prefixes ∧
      (canonical ∈ prefixes ↔
        Covers 128 (0x20010db8 * 2 ^ 96 + 1, 32) (0x20010db8 * 2 ^ 96 + 5)) :=
  listed_iff_covers denotes_documentation (by decide)

end Vigabss.Addresses
