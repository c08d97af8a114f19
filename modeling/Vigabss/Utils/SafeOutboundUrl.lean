import Vigabss.Lib.Blocks
import Vigabss.RadiusServer.PrefixCodec

/-!
# Vigabss.Utils.SafeOutboundUrl — addresses that outbound requests must not reach

`safeOutboundUrl`: the readers of addresses and the cascade of `isBlockedIp`.
-/

namespace Vigabss.Utils.SafeOutboundUrl

open Vigabss.Lib
open Vigabss.Addresses (isIPv6)
open Vigabss.RadiusServer (isDottedQuad toHex)

/-- `net.isIP(text)`. -/
def isIP (text : List Char) : ℕ :=
  if (IpText.ipv4 text).isSome then 4 else if isIPv6 text then 6 else 0

/-- `parseIpv4(ip)`. -/
def parseIpv4 (ip : List Char) : Option (List ℕ) :=
  if isIP ip ≠ 4 then none
  else
    let octets := (JsText.split '.' ip).map JsText.number
    if octets.length ≠ 4 ∨ octets.any fun n => !(n.any fun q => q.isInt ∧ 0 ≤ q ∧ q ≤ 255) then
      none
    else some (octets.map fun n => (n.getD 0).num.toNat)

/-- `value.split('::')`. -/
def splitDoubles : List Char → List (List Char)
  | ':' :: ':' :: rest => [] :: splitDoubles rest
  | c :: rest => (splitDoubles rest).modifyHead (c :: ·)
  | [] => [[]]

/-- `half ? half.split(':').filter(Boolean) : []`. -/
def halfWords (half : List Char) : List (List Char) :=
  if half = [] then [] else (JsText.split ':' half).filter (· ≠ [])

/-- `value` of `parseIpv6`, a dotted tail replaced by its two words. -/
def undotted (value : List Char) : Option (List Char) :=
  match value.tails.find? isDottedQuad with
  | none => some value
  | some dotted =>
    (parseIpv4 dotted).map fun octets =>
      let o (i : ℕ) : ℕ := octets.getD i 0
      value.take (value.length - dotted.length) ++
        (toHex (o 0 <<< 8 ||| o 1) ++ ':' :: toHex (o 2 <<< 8 ||| o 3))

/-- The words of `parseIpv6`, from the halves of `value`. -/
def wordsOf (value : List Char) : Option (List ℕ) :=
  let halves := splitDoubles value
  if 2 < halves.length then none
  else
    let left := halfWords (halves.getD 0 [])
    let right := if halves.length = 2 then halfWords (halves.getD 1 []) else []
    let missing : ℤ := 8 - left.length - right.length
    if (halves.length = 1 ∧ missing ≠ 0) ∨ (halves.length = 2 ∧ missing < 1) then none
    else
      let words := (left ++ List.replicate missing.toNat ['0'] ++ right).map fun word =>
        JsText.parseInt 16 (if word = [] then ['0'] else word)
      if words.length ≠ 8 ∨ words.any fun word => !(word.any fun n => 0 ≤ n ∧ n ≤ 0xffff) then none
      else some (words.map fun word => (word.getD 0).toNat)

/-- `parseIpv6(ip)`. -/
def parseIpv6 (ip : List Char) : Option (List ℕ) :=
  if isIP ip ≠ 6 then none
  else (undotted ((JsText.split '%' (ip.map Char.toLower)).headD [])).bind wordsOf

/-- The bytes of two words. -/
def embedded (high low : ℕ) : List ℕ := [high >>> 8, high &&& 0xff, low >>> 8, low &&& 0xff]

/-- `mappedIpv4(words)`. -/
def mappedIpv4 (words : List ℕ) : Option (List ℕ) :=
  if ¬ (words.take 5).all (· = 0) ∨ words.getD 5 0 ≠ 0xffff then none
  else some (embedded (words.getD 6 0) (words.getD 7 0))

/-- `isBlockedIpv4(octets)`. -/
def isBlockedIpv4 (octets : List ℕ) : Bool :=
  let a := octets.getD 0 0
  let b := octets.getD 1 0
  let c := octets.getD 2 0
  if a = 0 ∨ a = 10 ∨ a = 127 then true
  else if a = 100 ∧ 64 ≤ b ∧ b ≤ 127 then true
  else if a = 169 ∧ b = 254 then true
  else if a = 172 ∧ 16 ≤ b ∧ b ≤ 31 then true
  else if a = 192 ∧ b = 168 then true
  else if a = 192 ∧ b = 0 ∧ c = 0 then true
  else if a = 192 ∧ b = 0 ∧ c = 2 then true
  else if a = 198 ∧ (b = 18 ∨ b = 19) then true
  else if a = 198 ∧ b = 51 ∧ c = 100 then true
  else if a = 203 ∧ b = 0 ∧ c = 113 then true
  else if 224 ≤ a then true
  else false

/-- The tests of `isBlockedIp` on the words of an address that is not mapped. -/
def isBlockedWords (words : List ℕ) : Bool :=
  let w (i : ℕ) : ℕ := words.getD i 0
  if (words.take 6).all (· = 0) then true
  else if (words.take 4).all (· = 0) ∧ w 4 = 0xffff ∧ w 5 = 0 then true
  else if w 0 = 0x0064 ∧ w 1 = 0xff9b ∧ ((words.drop 2).take 4).all (· = 0) ∧
      isBlockedIpv4 (embedded (w 6) (w 7)) then true
  else if w 0 = 0x0064 ∧ w 1 = 0xff9b ∧ w 2 = 0x0001 then true
  else if w 0 = 0x2002 ∧ isBlockedIpv4 (embedded (w 1) (w 2)) then true
  else if (words.take 7).all (· = 0) ∧ (w 7 = 0 ∨ w 7 = 1) then true
  else if w 0 &&& 0xfe00 = 0xfc00 then true
  else if w 0 &&& 0xffc0 = 0xfe80 then true
  else if w 0 &&& 0xffc0 = 0xfec0 then true
  else if w 0 &&& 0xff00 = 0xff00 then true
  else if w 0 = 0x2001 ∧ w 1 = 0x0db8 then true
  else false

/-- `isBlockedIp(ip)`. -/
def isBlockedIp (ip : List Char) : Bool :=
  let normalized := (JsText.split '%' ip).headD []
  match parseIpv4 normalized with
  | some octets => isBlockedIpv4 octets
  | none =>
    match parseIpv6 normalized with
    | none => true
    | some words =>
      match mappedIpv4 words with
      | some mapped => isBlockedIpv4 mapped
      | none => isBlockedWords words

end Vigabss.Utils.SafeOutboundUrl

/-!
## Blocked is what lies in the listed ranges

**Result** (`isBlockedIp_iff`): whether an address is blocked depends on its value alone, however it
is spelled: it lies in a listed range, or it is an IPv6 address with such an IPv4 address in it.
-/

namespace Vigabss.Utils.SafeOutboundUrl

open Vigabss.Lib Vigabss.Lib.IpText
open Vigabss.Addresses (isIPv6)
open Vigabss.RadiusServer (isDottedQuad toHex find?_tails dotted_of_isDottedQuad
  isDottedQuad_of_ipv4)

/-! ### Addresses and ranges -/

inductive Address
  | v4 (n : ℕ)
  | v6 (n : ℕ)
  deriving DecidableEq, Repr

/-- The address that a text spells, with or without a zone. -/
def readIP (text : List Char) : Option Address :=
  match ipv4 text with
  | some n => some (.v4 n)
  | none => if isIPv6 text then (ipv6 (text.takeWhile (· ≠ '%'))).map .v6 else none

/-- The IPv4 address that begins with these octets. -/
def net4 (octets : List ℕ) : ℕ :=
  assemble (2 ^ 8) (octets ++ List.replicate (4 - octets.length) 0)

/-- The IPv6 address that begins with these words. -/
def net6 (words : List ℕ) : ℕ :=
  assemble (2 ^ 16) (words ++ List.replicate (8 - words.length) 0)

/-- Private, loopback, link-local, shared, documentation, multicast and reserved IPv4 networks. -/
def ipv4Ranges : List (List ℕ × ℕ) :=
  [([0], 8), ([10], 8), ([127], 8), ([100, 64], 10), ([169, 254], 16), ([172, 16], 12),
    ([192, 168], 16), ([192, 0, 0], 24), ([192, 0, 2], 24), ([198, 18], 15), ([198, 51, 100], 24),
    ([203, 0, 113], 24), ([224], 3)]

/-- IPv6 networks of the same kinds; the first holds `::` and `::1`. -/
def ipv6Ranges : List (List ℕ × ℕ) :=
  [([0, 0, 0, 0, 0, 0], 96), ([0, 0, 0, 0, 0xffff, 0], 96), ([0x64, 0xff9b, 1], 48),
    ([0xfc00], 7), ([0xfe80], 10), ([0xfec0], 10), ([0xff00], 8), ([0x2001, 0xdb8], 32)]

/-- An IPv4 address in a listed range. -/
def Listed4 (n : ℕ) : Prop := ∃ r ∈ ipv4Ranges, Covers 32 (net4 r.1, r.2) n

/-- An IPv6 address in a listed range. -/
def Listed6 (n : ℕ) : Prop := ∃ r ∈ ipv6Ranges, Covers 128 (net6 r.1, r.2) n

/-- An IPv6 address embeds an IPv4 address. -/
inductive Embeds (n : ℕ) : ℕ → Prop
  | mapped : Covers 128 (net6 [0, 0, 0, 0, 0, 0xffff], 96) n → Embeds n (n % 2 ^ 32)
  | compatible : Covers 128 (net6 [0, 0, 0, 0, 0, 0], 96) n → Embeds n (n % 2 ^ 32)
  | translated : Covers 128 (net6 [0, 0, 0, 0, 0xffff, 0], 96) n → Embeds n (n % 2 ^ 32)
  | nat64 : Covers 128 (net6 [0x64, 0xff9b, 0, 0, 0, 0], 96) n → Embeds n (n % 2 ^ 32)
  | sixToFour : Covers 128 (net6 [0x2002], 16) n → Embeds n (n / 2 ^ 80 % 2 ^ 32)

/-- An address that must not be reached. -/
def Address.Blocked : Address → Prop
  | .v4 n => Listed4 n
  | .v6 n => Listed6 n ∨ ∃ m, Embeds n m ∧ Listed4 m

/-! ### IPv4 -/

section Octets

variable {a b c d : ℕ} (h : ∀ n ∈ [a, b, c, d], n < 2 ^ 8)
include h

theorem covers_octet {x k : ℕ} (hx : ∀ y ∈ [x], y < 2 ^ 8) (hk : k ≤ 8) :
    Covers 32 (net4 [x], k) (assemble (2 ^ 8) [a, b, c, d]) ↔
      a / 2 ^ (8 - k) = x / 2 ^ (8 - k) := by
  have hdigits : Covers 32 (net4 [x], k) (assemble (2 ^ 8) [a, b, c, d]) ↔ _ :=
    covers_digits hk [] [] [b, c, d] h hx rfl rfl (by simp)
  exact hdigits.trans (and_iff_right rfl)

theorem covers_two_octets {w x k len : ℕ} (hx : ∀ y ∈ [w, x], y < 2 ^ 8) (hk : k ≤ 8)
    (hlen : len = 8 + k) :
    Covers 32 (net4 [w, x], len) (assemble (2 ^ 8) [a, b, c, d]) ↔
      a = w ∧ b / 2 ^ (8 - k) = x / 2 ^ (8 - k) := by
  have hdigits : Covers 32 (net4 [w, x], len) (assemble (2 ^ 8) [a, b, c, d]) ↔ _ :=
    covers_digits hk [a] [w] [c, d] h hx rfl rfl hlen
  exact hdigits.trans (by simp)

theorem covers_three_octets {v w x : ℕ} (hx : ∀ y ∈ [v, w, x], y < 2 ^ 8) :
    Covers 32 (net4 [v, w, x], 24) (assemble (2 ^ 8) [a, b, c, d]) ↔ a = v ∧ b = w ∧ c = x := by
  have hdigits : Covers 32 (net4 [v, w, x], 24) (assemble (2 ^ 8) [a, b, c, d]) ↔ _ :=
    covers_digits le_rfl [a, b] [v, w] [d] h hx rfl rfl rfl
  exact hdigits.trans (by simp [and_assoc])

/-- **The listed IPv4 ranges** by their octets. -/
theorem isBlockedIpv4_iff :
    isBlockedIpv4 [a, b, c, d] = true ↔ Listed4 (assemble (2 ^ 8) [a, b, c, d]) := by
  have ha : a < 256 := h a (by simp)
  have hb : b < 256 := h b (by simp)
  unfold Listed4 ipv4Ranges
  simp only [List.mem_cons, List.not_mem_nil, or_false, exists_eq_or_imp, exists_eq_left]
  rw [covers_octet h (by decide) (by omega), covers_octet h (by decide) (by omega),
    covers_octet h (by decide) (by omega),
    covers_two_octets h (k := 2) (by decide) (by omega) rfl,
    covers_two_octets h (k := 8) (by decide) (by omega) rfl,
    covers_two_octets h (k := 4) (by decide) (by omega) rfl,
    covers_two_octets h (k := 8) (by decide) (by omega) rfl, covers_three_octets h (by decide),
    covers_three_octets h (by decide), covers_two_octets h (k := 7) (by decide) (by omega) rfl,
    covers_three_octets h (by decide), covers_three_octets h (by decide),
    covers_octet h (by decide) (by omega)]
  unfold isBlockedIpv4
  simp only [List.getD_cons_zero, List.getD_cons_succ, Bool.if_true_left, Bool.or_eq_true,
    decide_eq_true_eq]
  have hshared : b / 2 ^ (8 - 2) = 64 / 2 ^ (8 - 2) ↔ 64 ≤ b ∧ b ≤ 127 := by omega
  have hprivate : b / 2 ^ (8 - 4) = 16 / 2 ^ (8 - 4) ↔ 16 ≤ b ∧ b ≤ 31 := by omega
  have hbench : b / 2 ^ (8 - 7) = 18 / 2 ^ (8 - 7) ↔ b = 18 ∨ b = 19 := by omega
  have hreserved : a / 2 ^ (8 - 3) = 224 / 2 ^ (8 - 3) ↔ 224 ≤ a := by omega
  rw [hshared, hprivate, hbench, hreserved]
  simp only [Nat.sub_self, pow_zero, Nat.div_one, or_assoc, Bool.false_eq_true, or_false]

end Octets

/-! ### IPv6 -/

section Words

variable {a b c d e f g i : ℕ} (h : ∀ n ∈ [a, b, c, d, e, f, g, i], n < 2 ^ 16)
include h

theorem covers_word {x k : ℕ} (hx : ∀ y ∈ [x], y < 2 ^ 16) (hk : k ≤ 16) :
    Covers 128 (net6 [x], k) (assemble (2 ^ 16) [a, b, c, d, e, f, g, i]) ↔
      a / 2 ^ (16 - k) = x / 2 ^ (16 - k) := by
  have hdigits : Covers 128 (net6 [x], k) (assemble (2 ^ 16) [a, b, c, d, e, f, g, i]) ↔ _ :=
    covers_digits hk [] [] [b, c, d, e, f, g, i] h hx rfl rfl (by simp)
  exact hdigits.trans (and_iff_right rfl)

theorem covers_two_words {w x : ℕ} (hx : ∀ y ∈ [w, x], y < 2 ^ 16) :
    Covers 128 (net6 [w, x], 32) (assemble (2 ^ 16) [a, b, c, d, e, f, g, i]) ↔
      a = w ∧ b = x := by
  have hdigits : Covers 128 (net6 [w, x], 32) (assemble (2 ^ 16) [a, b, c, d, e, f, g, i]) ↔ _ :=
    covers_digits le_rfl [a] [w] [c, d, e, f, g, i] h hx rfl rfl rfl
  exact hdigits.trans (by simp)

theorem covers_three_words {v w x : ℕ} (hx : ∀ y ∈ [v, w, x], y < 2 ^ 16) :
    Covers 128 (net6 [v, w, x], 48) (assemble (2 ^ 16) [a, b, c, d, e, f, g, i]) ↔
      a = v ∧ b = w ∧ c = x := by
  have hdigits : Covers 128 (net6 [v, w, x], 48) (assemble (2 ^ 16) [a, b, c, d, e, f, g, i]) ↔ _ :=
    covers_digits le_rfl [a, b] [v, w] [d, e, f, g, i] h hx rfl rfl rfl
  exact hdigits.trans (by simp [and_assoc])

theorem covers_six_words {s t u v w x : ℕ} (hx : ∀ y ∈ [s, t, u, v, w, x], y < 2 ^ 16) :
    Covers 128 (net6 [s, t, u, v, w, x], 96) (assemble (2 ^ 16) [a, b, c, d, e, f, g, i]) ↔
      a = s ∧ b = t ∧ c = u ∧ d = v ∧ e = w ∧ f = x := by
  have hdigits : Covers 128 (net6 [s, t, u, v, w, x], 96)
      (assemble (2 ^ 16) [a, b, c, d, e, f, g, i]) ↔ _ :=
    covers_digits le_rfl [a, b, c, d, e] [s, t, u, v, w] [g, i] h hx rfl rfl rfl
  exact hdigits.trans (by simp [and_assoc])

theorem listed6_iff : Listed6 (assemble (2 ^ 16) [a, b, c, d, e, f, g, i]) ↔
    (a = 0 ∧ b = 0 ∧ c = 0 ∧ d = 0 ∧ e = 0 ∧ f = 0) ∨
    (a = 0 ∧ b = 0 ∧ c = 0 ∧ d = 0 ∧ e = 0xffff ∧ f = 0) ∨ (a = 0x64 ∧ b = 0xff9b ∧ c = 1) ∨
    a / 2 ^ 9 = 0xfc00 / 2 ^ 9 ∨ a / 2 ^ 6 = 0xfe80 / 2 ^ 6 ∨ a / 2 ^ 6 = 0xfec0 / 2 ^ 6 ∨
    a / 2 ^ 8 = 0xff00 / 2 ^ 8 ∨ a = 0x2001 ∧ b = 0xdb8 := by
  unfold Listed6 ipv6Ranges
  simp only [List.mem_cons, List.not_mem_nil, or_false, exists_eq_or_imp, exists_eq_left]
  rw [covers_six_words h (by decide), covers_six_words h (by decide),
    covers_three_words h (by decide), covers_word h (by decide) (by omega),
    covers_word h (by decide) (by omega), covers_word h (by decide) (by omega),
    covers_word h (by decide) (by omega), covers_two_words h (by decide)]

theorem low_words : assemble (2 ^ 16) [a, b, c, d, e, f, g, i] % 2 ^ 32 = g * 2 ^ 16 + i := by
  have hlow : assemble (2 ^ 16) ([a, b, c, d, e, f] ++ [g, i]) % (2 ^ 16) ^ 2 =
      assemble (2 ^ 16) [g, i] :=
    assemble_mod _ fun n hn => h n (List.mem_append_right [a, b, c, d, e, f] hn)
  rw [show (2 : ℕ) ^ 32 = (2 ^ 16) ^ 2 by norm_num]
  refine hlow.trans ?_
  rw [assemble, List.foldl_cons, List.foldl_cons, List.foldl_nil, Nat.zero_mul, Nat.zero_add]

theorem high_words :
    assemble (2 ^ 16) [a, b, c, d, e, f, g, i] / 2 ^ 80 % 2 ^ 32 = b * 2 ^ 16 + c := by
  have hdiv : assemble (2 ^ 16) ([a, b, c] ++ [d, e, f, g, i]) / (2 ^ 16) ^ 5 =
      assemble (2 ^ 16) [a, b, c] :=
    assemble_div (Nat.two_pow_pos 16) _ fun n hn => h n (List.mem_append_right [a, b, c] hn)
  have hmod : assemble (2 ^ 16) ([a] ++ [b, c]) % (2 ^ 16) ^ 2 = assemble (2 ^ 16) [b, c] :=
    assemble_mod _ fun n hn => h n (List.mem_cons_of_mem a
      (List.mem_append_left [d, e, f, g, i] hn))
  rw [show (2 : ℕ) ^ 80 = (2 ^ 16) ^ 5 by norm_num, show (2 : ℕ) ^ 32 = (2 ^ 16) ^ 2 by norm_num]
  refine (congrArg (· % (2 ^ 16) ^ 2) hdiv).trans (hmod.trans ?_)
  rw [assemble, List.foldl_cons, List.foldl_cons, List.foldl_nil, Nat.zero_mul, Nat.zero_add]

end Words

theorem listed4_embedded {high low : ℕ} (hhigh : high < 2 ^ 16) (hlow : low < 2 ^ 16) :
    isBlockedIpv4 (embedded high low) = true ↔ Listed4 (high * 2 ^ 16 + low) := by
  have hbyte : ∀ n, n &&& 0xff = n % 256 := fun n => Nat.and_two_pow_sub_one_eq_mod n 8
  have hlt : ∀ n ∈ [high >>> 8, high &&& 0xff, low >>> 8, low &&& 0xff], n < 2 ^ 8 := by
    simp only [hbyte, Nat.shiftRight_eq_div_pow, List.forall_mem_cons, List.not_mem_nil,
      false_implies, implies_true, and_true]
    omega
  have hvalue : assemble (2 ^ 8) [high >>> 8, high &&& 0xff, low >>> 8, low &&& 0xff] =
      high * 2 ^ 16 + low := by
    simp only [assemble, List.foldl_cons, List.foldl_nil, hbyte, Nat.shiftRight_eq_div_pow]
    omega
  rw [embedded, isBlockedIpv4_iff hlt, hvalue]

theorem word_mask {w k n : ℕ} (hw : w < 2 ^ 16) :
    w &&& ((2 ^ 16 - 1) <<< k % 2 ^ 16) = n * 2 ^ k ↔ w / 2 ^ k = n := by
  rw [and_ones_shift hw]
  exact ⟨Nat.eq_of_mul_eq_mul_right (Nat.two_pow_pos k), fun h => by rw [h]⟩

section Words

variable {a b c d e f g i : ℕ} (h : ∀ n ∈ [a, b, c, d, e, f, g, i], n < 2 ^ 16)
include h

/-- The embedded IPv4 addresses by their words. -/
theorem embeds_iff :
    (∃ m, Embeds (assemble (2 ^ 16) [a, b, c, d, e, f, g, i]) m ∧ Listed4 m) ↔
      ((a = 0 ∧ b = 0 ∧ c = 0 ∧ d = 0 ∧ e = 0 ∧ f = 0xffff ∨
        a = 0 ∧ b = 0 ∧ c = 0 ∧ d = 0 ∧ e = 0 ∧ f = 0 ∨
        a = 0 ∧ b = 0 ∧ c = 0 ∧ d = 0 ∧ e = 0xffff ∧ f = 0 ∨
        a = 0x64 ∧ b = 0xff9b ∧ c = 0 ∧ d = 0 ∧ e = 0 ∧ f = 0) ∧
          Listed4 (g * 2 ^ 16 + i)) ∨ a = 0x2002 ∧ Listed4 (b * 2 ^ 16 + c) := by
  have hlow := low_words h
  have hhigh := high_words h
  have hmapped := covers_six_words h (s := 0) (t := 0) (u := 0) (v := 0) (w := 0) (x := 0xffff)
    (by decide)
  have hcompatible := covers_six_words h (s := 0) (t := 0) (u := 0) (v := 0) (w := 0) (x := 0)
    (by decide)
  have htranslated := covers_six_words h (s := 0) (t := 0) (u := 0) (v := 0) (w := 0xffff) (x := 0)
    (by decide)
  have hnat := covers_six_words h (s := 0x64) (t := 0xff9b) (u := 0) (v := 0) (w := 0) (x := 0)
    (by decide)
  have hsix := covers_word h (x := 0x2002) (k := 16) (by decide) le_rfl
  rw [Nat.sub_self, pow_zero, Nat.div_one, Nat.div_one] at hsix
  constructor
  · rintro ⟨m, hembeds, hlisted⟩
    cases hembeds with
    | mapped hcover =>
      rw [hlow] at hlisted
      exact .inl ⟨.inl (hmapped.1 hcover), hlisted⟩
    | compatible hcover =>
      rw [hlow] at hlisted
      exact .inl ⟨.inr (.inl (hcompatible.1 hcover)), hlisted⟩
    | translated hcover =>
      rw [hlow] at hlisted
      exact .inl ⟨.inr (.inr (.inl (htranslated.1 hcover))), hlisted⟩
    | nat64 hcover =>
      rw [hlow] at hlisted
      exact .inl ⟨.inr (.inr (.inr (hnat.1 hcover))), hlisted⟩
    | sixToFour hcover =>
      rw [hhigh] at hlisted
      exact .inr ⟨hsix.1 hcover, hlisted⟩
  · rintro (⟨hforms, hlisted⟩ | ⟨hfirst, hlisted⟩)
    · rw [← hlow] at hlisted
      rcases hforms with hform | hform | hform | hform
      · exact ⟨_, .mapped (hmapped.2 hform), hlisted⟩
      · exact ⟨_, .compatible (hcompatible.2 hform), hlisted⟩
      · exact ⟨_, .translated (htranslated.2 hform), hlisted⟩
      · exact ⟨_, .nat64 (hnat.2 hform), hlisted⟩
    · rw [← hhigh] at hlisted
      exact ⟨_, .sixToFour (hsix.2 hfirst), hlisted⟩

/-- **The cascade** decides what is listed or embeds what is listed. -/
theorem isBlockedWords_iff :
    (match mappedIpv4 [a, b, c, d, e, f, g, i] with
      | some mapped => isBlockedIpv4 mapped
      | none => isBlockedWords [a, b, c, d, e, f, g, i]) = true ↔
      Address.Blocked (.v6 (assemble (2 ^ 16) [a, b, c, d, e, f, g, i])) := by
  have ha : a < 2 ^ 16 := h a (by simp)
  have hlow := listed4_embedded (h g (by simp)) (h i (by simp))
  have hhigh := listed4_embedded (h b (by simp)) (h c (by simp))
  have hlocal : a &&& 0xfe00 = 0xfc00 ↔ a / 2 ^ 9 = 0xfc00 / 2 ^ 9 :=
    word_mask (k := 9) (n := 0xfc00 / 2 ^ 9) ha
  have hlink : a &&& 0xffc0 = 0xfe80 ↔ a / 2 ^ 6 = 0xfe80 / 2 ^ 6 :=
    word_mask (k := 6) (n := 0xfe80 / 2 ^ 6) ha
  have hsite : a &&& 0xffc0 = 0xfec0 ↔ a / 2 ^ 6 = 0xfec0 / 2 ^ 6 :=
    word_mask (k := 6) (n := 0xfec0 / 2 ^ 6) ha
  have hmulti : a &&& 0xff00 = 0xff00 ↔ a / 2 ^ 8 = 0xff00 / 2 ^ 8 :=
    word_mask (k := 8) (n := 0xff00 / 2 ^ 8) ha
  rw [Address.Blocked, listed6_iff h, embeds_iff h, ← hlow, ← hhigh]
  unfold mappedIpv4
  simp only [List.take_succ_cons, List.take_zero, List.all_cons, List.all_nil, Bool.and_true,
    Bool.and_eq_true, decide_eq_true_eq, List.getD_cons_zero, List.getD_cons_succ]
  by_cases hmapped : a = 0 ∧ b = 0 ∧ c = 0 ∧ d = 0 ∧ e = 0 ∧ f = 0xffff
  · obtain ⟨rfl, rfl, rfl, rfl, rfl, rfl⟩ := hmapped
    rw [if_neg (by simp)]
    simp
  · have hcond : ¬ (a = 0 ∧ b = 0 ∧ c = 0 ∧ d = 0 ∧ e = 0) ∨ f ≠ 0xffff := by
      by_contra hnot
      rw [not_or, not_not, not_not] at hnot
      obtain ⟨⟨ha, hb, hc, hd, he⟩, hf⟩ := hnot
      exact hmapped ⟨ha, hb, hc, hd, he, hf⟩
    rw [if_pos hcond]
    dsimp only
    unfold isBlockedWords
    simp only [List.take_succ_cons, List.take_zero, List.drop_succ_cons, List.drop_zero,
      List.all_cons, List.all_nil, Bool.and_true, Bool.and_eq_true, decide_eq_true_eq,
      List.getD_cons_zero, List.getD_cons_succ, Bool.if_true_left, Bool.or_eq_true, hlocal, hlink,
      hsite, hmulti, Bool.false_eq_true, or_false]
    constructor
    · rintro (hzero | ⟨⟨h0, h1, h2, h3⟩, h4, h5⟩ | ⟨h0, h1, ⟨h2, h3, h4, h5⟩, hembedded⟩ |
        hlocalNat | hsix | ⟨⟨h0, h1, h2, h3, h4, h5, -⟩, -⟩ | hrest)
      · exact .inl (.inl hzero)
      · exact .inl (.inr (.inl ⟨h0, h1, h2, h3, h4, h5⟩))
      · exact .inr (.inl ⟨.inr (.inr (.inr ⟨h0, h1, h2, h3, h4, h5⟩)), hembedded⟩)
      · exact .inl (.inr (.inr (.inl hlocalNat)))
      · exact .inr (.inr hsix)
      · exact .inl (.inl ⟨h0, h1, h2, h3, h4, h5⟩)
      · exact .inl (.inr (.inr (.inr hrest)))
    · rintro ((hzero | ⟨h0, h1, h2, h3, h4, h5⟩ | hlocalNat | hrest) |
        ⟨hmap | hzero | ⟨h0, h1, h2, h3, h4, h5⟩ | ⟨h0, h1, h2, h3, h4, h5⟩, hembedded⟩ | hsix)
      · exact .inl hzero
      · exact .inr (.inl ⟨⟨h0, h1, h2, h3⟩, h4, h5⟩)
      · exact .inr (.inr (.inr (.inl hlocalNat)))
      · exact .inr (.inr (.inr (.inr (.inr (.inr hrest)))))
      · exact absurd hmap hmapped
      · exact .inl hzero
      · exact .inr (.inl ⟨⟨h0, h1, h2, h3⟩, h4, h5⟩)
      · exact .inr (.inr (.inl ⟨h0, h1, ⟨h2, h3, h4, h5⟩, hembedded⟩))
      · exact .inr (.inr (.inr (.inr (.inl hsix))))

end Words

/-! ### Readers -/

theorem map_number {gs : List (List Char)} {ns : List ℕ}
    (h : List.Forall₂ (fun g n => octet g = some n) gs ns) :
    gs.map JsText.number = ns.map fun (n : ℕ) => some (n : ℚ) := by
  induction h with
  | nil => rfl
  | cons hoctet _ ih => rw [List.map_cons, List.map_cons, number_of_octet hoctet, ih]

/-- **The octets of an IPv4 address.** -/
theorem parseIpv4_eq {text : List Char} {n : ℕ} (h : ipv4 text = some n) :
    ∃ octets, parseIpv4 text = some octets ∧ octets.length = 4 ∧ (∀ o ∈ octets, o < 2 ^ 8) ∧
      assemble (2 ^ 8) octets = n := by
  have hisIP : isIP text = 4 := by rw [isIP, h]; rfl
  obtain ⟨ns, hns, hfour, hlt, rfl⟩ := exists_octets h
  have hgood : ∀ n ∈ ns, (some (n : ℚ)).any (fun q => q.isInt ∧ 0 ≤ q ∧ q ≤ 255) = true := by
    intro n hn
    have hle : (n : ℚ) ≤ 255 := by exact_mod_cast Nat.le_of_lt_succ (hlt n hn)
    exact decide_eq_true ⟨by simp [Rat.isInt], Nat.cast_nonneg n, hle⟩
  have hbad : ¬ ((ns.map fun (n : ℕ) => some (n : ℚ)).length ≠ 4 ∨
      ((ns.map fun (n : ℕ) => some (n : ℚ)).any fun n =>
        !(n.any fun q => q.isInt ∧ 0 ≤ q ∧ q ≤ 255)) = true) := by
    rintro (hcount | hany)
    · exact hcount (by rw [List.length_map, hfour])
    · obtain ⟨_, hmem, hnot⟩ := List.any_eq_true.1 hany
      obtain ⟨n, hn, rfl⟩ := List.mem_map.1 hmem
      rw [hgood n hn] at hnot
      cases hnot
  refine ⟨ns, ?_, hfour, hlt, rfl⟩
  rw [parseIpv4, if_neg (not_not.2 hisIP), JsText.split]
  dsimp only
  rw [map_number hns, if_neg hbad, List.map_map]
  refine congrArg some ((List.map_congr_left fun n _ => ?_).trans (List.map_id _))
  show ((n : ℚ)).num.toNat = n
  rw [Rat.num_natCast, Int.toNat_natCast]

theorem headD_splitOn (c : Char) (text : List Char) :
    (text.splitOn c).headD [] = text.takeWhile (· ≠ c) := by
  induction text with
  | nil => rfl
  | cons d text ih =>
    rw [List.splitOn_cons_eq_if_modifyHead]
    by_cases hd : d = c
    · rw [if_pos (beq_iff_eq.2 hd), List.takeWhile_cons_of_neg (by simp [hd])]
      rfl
    · rw [if_neg (by simpa using hd), List.takeWhile_cons_of_pos (by simp [hd]), ← ih]
      obtain ⟨first, rest, hsplit⟩ := List.exists_cons_of_ne_nil (List.splitOn_ne_nil c text)
      rw [hsplit]
      rfl

theorem splitDoubles_none {text : List Char} (h : splitDouble text = none) :
    splitDoubles text = [text] := by
  fun_induction splitDouble text with
  | case1 rest => cases h
  | case2 c rest hnot ih =>
    rw [splitDoubles, ih (Option.map_eq_none_iff.1 h)]
    · rfl
    · exact hnot
  | case3 => rfl

theorem splitDoubles_some {text left right : List Char}
    (h : splitDouble text = some (left, right)) :
    splitDoubles text = left :: splitDoubles right := by
  fun_induction splitDouble text generalizing left right with
  | case1 rest =>
    obtain ⟨rfl, rfl⟩ := Prod.mk.inj (Option.some.inj h)
    rw [splitDoubles]
  | case2 c rest hnot ih =>
    obtain ⟨halves, hhalves, heq⟩ := Option.map_eq_some_iff.1 h
    obtain ⟨rfl, rfl⟩ := Prod.mk.inj heq
    rw [splitDoubles, ih hhalves]
    · rfl
    · exact hnot
  | case3 => cases h

theorem halfWords_intercalate {gs : List (List Char)} {ns : List ℕ}
    (h : groups false gs = some ns) : halfWords ([':'].intercalate gs) = gs := by
  have hgroups := RadiusServer.groupsOf_intercalate h
  have hne : ∀ g ∈ gs, decide (g ≠ []) = true := fun g hg =>
    decide_eq_true (ne_nil_of_groups h g hg)
  rw [RadiusServer.groupsOf] at hgroups
  rw [halfWords]
  split_ifs at hgroups ⊢ with hnil
  · exact hgroups
  · rw [hgroups, List.filter_eq_self.2 hne]

theorem map_parseInt {gs : List (List Char)} {ns : List ℕ}
    (h : List.Forall₂ (fun g n => group g = some n) gs ns) :
    (gs.map fun word => JsText.parseInt 16 (if word = [] then ['0'] else word)) =
      ns.map fun (n : ℕ) => some (n : ℤ) := by
  induction h with
  | nil => rfl
  | cons hgroup _ ih =>
    rw [List.map_cons, List.map_cons, if_neg (group_ne_nil hgroup), parseInt_of_group hgroup, ih]

/-- Eight groups are eight words. -/
theorem words_of_groups {gs : List (List Char)} {ns : List ℕ} (h : groups false gs = some ns)
    (hlength : gs.length = 8) :
    (let words := gs.map fun word => JsText.parseInt 16 (if word = [] then ['0'] else word)
      if words.length ≠ 8 ∨ words.any fun word => !(word.any fun n => 0 ≤ n ∧ n ≤ 0xffff) then none
      else some (words.map fun word => (word.getD 0).toNat)) = some ns := by
  have hwords := map_parseInt (forall₂_of_groups h)
  have hgood : ∀ n ∈ ns, (some (n : ℤ)).any (fun n => 0 ≤ n ∧ n ≤ 0xffff) = true := by
    intro n hn
    have hlt := groups_lt h n hn
    exact decide_eq_true ⟨Int.natCast_nonneg n, by omega⟩
  have hbad : ¬ ((ns.map fun (n : ℕ) => some (n : ℤ)).length ≠ 8 ∨
      ((ns.map fun (n : ℕ) => some (n : ℤ)).any fun word =>
        !(word.any fun n => 0 ≤ n ∧ n ≤ 0xffff)) = true) := by
    rintro (hcount | hany)
    · exact hcount (by rw [List.length_map, ← (forall₂_of_groups h).length_eq, hlength])
    · obtain ⟨_, hmem, hnot⟩ := List.any_eq_true.1 hany
      obtain ⟨n, hn, rfl⟩ := List.mem_map.1 hmem
      rw [hgood n hn] at hnot
      cases hnot
  dsimp only
  rw [hwords, if_neg hbad, List.map_map]
  exact congrArg some ((List.map_congr_left fun n _ => rfl).trans (List.map_id _))

/-- **The words of an address** without a dotted tail. -/
theorem wordsOf_of_undotted {text : List Char} {n : ℕ} (h : Undotted text n) :
    ∃ words, wordsOf text = some words ∧ words.length = 8 ∧ (∀ w ∈ words, w < 2 ^ 16) ∧
      assemble (2 ^ 16) words = n := by
  cases h with
  | @full gs ns hgs hlength =>
    have hcount := (forall₂_of_groups hgs).length_eq
    refine ⟨ns, ?_, hlength, groups_lt hgs, rfl⟩
    have hwords := words_of_groups hgs (hcount.trans hlength)
    unfold wordsOf
    rw [splitDoubles_none (splitDouble_groups_none hgs), if_neg (by simp)]
    simp only [List.getD_cons_zero, List.length_singleton, halfWords_intercalate hgs]
    rw [if_neg (show ¬ (1 : ℕ) = 2 by omega), if_neg (by rw [hcount, hlength]; decide)]
    simpa [hcount, hlength] using hwords
  | @double ls rs lns rns hls hrs hfits =>
    have hl := (forall₂_of_groups hls).length_eq
    have hr := (forall₂_of_groups hrs).length_eq
    have hgs : groups false (ls ++ List.replicate (8 - lns.length - rns.length) ['0'] ++ rs) =
        some (lns ++ List.replicate (8 - lns.length - rns.length) 0 ++ rns) := by
      refine groups_of_forall₂ (List.rel_append (List.rel_append (forall₂_of_groups hls) ?_)
        (forall₂_of_groups hrs))
      exact List.forall₂_iff_get.2
        ⟨by simp, fun i h1 h2 => by simp [show group ['0'] = some 0 from rfl]⟩
    have hcount : (ls ++ List.replicate (8 - lns.length - rns.length) ['0'] ++ rs).length = 8 := by
      rw [List.length_append, List.length_append, List.length_replicate]
      omega
    refine ⟨_, ?_, ?_, groups_lt hgs, rfl⟩
    · have hwords := words_of_groups hgs hcount
      have hmissing : ((8 : ℤ) - ls.length - rs.length).toNat = 8 - lns.length - rns.length := by
        omega
      unfold wordsOf
      rw [splitDoubles_some (splitDouble_groups hls _),
        splitDoubles_none (splitDouble_groups_none hrs), if_neg (by simp)]
      simp only [List.getD_cons_zero, List.getD_cons_succ, List.length_cons, List.length_nil,
        halfWords_intercalate hls, halfWords_intercalate hrs, if_true]
      rw [if_neg (by omega), hmissing]
      exact hwords
    · rw [← (forall₂_of_groups hgs).length_eq, hcount]

theorem isIP_of_ipv6 {text : List Char} {n : ℕ} (h : ipv6 text = some n) : isIP text = 6 := by
  have hcolon := colon_mem_of_ipv6 h
  have hnone : ipv4 text = none := by
    rw [Option.eq_none_iff_forall_ne_some]
    intro m hm
    rcases mem_of_ipv4 hm hcolon with hsign | hsign <;> exact absurd hsign (by decide)
  have hsix : isIPv6 text = true := decide_eq_true (.inl (by rw [h]; rfl))
  rw [isIP, hnone, hsix]
  rfl

/-- The dotted tail is replaced by its two words. -/
theorem undotted_spec {text : List Char} {n : ℕ} (h : ipv6 text = some n) :
    ∃ value, undotted text = some value ∧ Undotted value n := by
  rcases ipv6_forms h with hplain | ⟨front, quad, m, rfl, hdot, hlast, hm, hnew⟩
  · have hnone : text.tails.find? isDottedQuad = none := by
      rw [List.find?_eq_none]
      intro tail htail hquad
      have hsuffix := (List.mem_tails _ _).1 htail
      exact hplain.dot_notMem (hsuffix.subset (dotted_of_isDottedQuad hquad))
    refine ⟨text, ?_, hplain⟩
    rw [undotted, hnone]
  · obtain ⟨octets, hoctets, hfour, hlt, hvalue⟩ := parseIpv4_eq hm
    obtain ⟨a, b, c, d, rfl⟩ : ∃ a b c d, octets = [a, b, c, d] := by
      match octets, hfour with
      | [a, b, c, d], _ => exact ⟨a, b, c, d, rfl⟩
    have hb : b < 2 ^ 8 := hlt b (by simp)
    have hd : d < 2 ^ 8 := hlt d (by simp)
    have hc : c < 2 ^ 8 := hlt c (by simp)
    have hshift : ∀ x y : ℕ, y < 2 ^ 8 → x <<< 8 ||| y = x * 256 + y := by
      intro x y hy
      rw [Nat.shiftLeft_eq, Nat.mul_comm x, ← Nat.two_pow_add_eq_or_of_lt hy]
    have hm' : m = ((a * 256 + b) * 256 + c) * 256 + d := by
      rw [← hvalue]
      simp [assemble]
    have hhigh : m / 65536 = a * 256 + b := by omega
    have hlow : m % 65536 = c * 256 + d := by omega
    refine ⟨_, ?_, hnew⟩
    rw [undotted, find?_tails hdot (.inr hlast) (isDottedQuad_of_ipv4 hm).1]
    dsimp only
    rw [hoctets, Option.map_some, List.length_append, Nat.add_sub_cancel, List.take_left, hhigh,
      hlow, ← hshift a b hb, ← hshift c d hd]
    rfl

/-- **The words of an IPv6 address.** -/
theorem parseIpv6_eq {text : List Char} {n : ℕ} (h : ipv6 text = some n) :
    ∃ words, parseIpv6 text = some words ∧ words.length = 8 ∧ (∀ w ∈ words, w < 2 ^ 16) ∧
      assemble (2 ^ 16) words = n := by
  have hpercent : ∀ {text : List Char}, ipv6 text = some n → '%' ∉ text := by
    intro text h hmem
    rcases mem_of_ipv6 h hmem with hsign | hsign | hsign <;> exact absurd hsign (by decide)
  have hlower := ipv6_map_toLower text
  rw [h] at hlower
  obtain ⟨value, hvalue, hundotted⟩ := undotted_spec hlower
  obtain ⟨words, hwords, hrest⟩ := wordsOf_of_undotted hundotted
  refine ⟨words, ?_, hrest⟩
  rw [parseIpv6, if_neg (not_not.2 (isIP_of_ipv6 h)), JsText.split,
    List.splitOn_eq_singleton (hpercent hlower), List.headD_cons, hvalue, Option.bind_some, hwords]

theorem normalized_eq (text : List Char) :
    (JsText.split '%' text).headD [] = text.takeWhile (· ≠ '%') := headD_splitOn '%' text

/-- **What is blocked** is what lies in a listed range or embeds what does, for every spelling of an
address. -/
theorem isBlockedIp_iff {text : List Char} {a : Address} (h : readIP text = some a) :
    isBlockedIp text = true ↔ a.Blocked := by
  unfold isBlockedIp
  dsimp only
  rw [normalized_eq]
  unfold readIP at h
  cases hfour : ipv4 text with
  | some n =>
    rw [hfour] at h
    cases h
    have hzone : text.takeWhile (· ≠ '%') = text := by
      refine List.takeWhile_eq_self_iff.2 fun c hc => decide_eq_true ?_
      rintro rfl
      rcases mem_of_ipv4 hfour hc with hsign | hsign <;> exact absurd hsign (by decide)
    obtain ⟨octets, hoctets, hlength, hlt, rfl⟩ := parseIpv4_eq hfour
    obtain ⟨a, b, c, d, rfl⟩ : ∃ a b c d, octets = [a, b, c, d] := by
      match octets, hlength with
      | [a, b, c, d], _ => exact ⟨a, b, c, d, rfl⟩
    rw [hzone, hoctets]
    exact isBlockedIpv4_iff hlt
  | none =>
    rw [hfour] at h
    dsimp only at h
    split_ifs at h with hsix
    obtain ⟨n, hn, rfl⟩ := Option.map_eq_some_iff.1 h
    have hnone : parseIpv4 (text.takeWhile (· ≠ '%')) = none := by
      rw [parseIpv4, if_pos (by rw [isIP_of_ipv6 hn]; decide)]
    obtain ⟨words, hwords, hlength, hlt, rfl⟩ := parseIpv6_eq hn
    obtain ⟨a, b, c, d, e, f, g, i, rfl⟩ : ∃ a b c d e f g i, words = [a, b, c, d, e, f, g, i] := by
      match words, hlength with
      | [a, b, c, d, e, f, g, i], _ => exact ⟨a, b, c, d, e, f, g, i, rfl⟩
    rw [hnone, hwords]
    exact isBlockedWords_iff hlt

/-- A link-local address with a zone, in capital letters. -/
theorem isBlockedIp_link_local : isBlockedIp "FE80::1%eth0".toList = true ↔
    Address.Blocked (.v6 0xfe800000000000000000000000000001) :=
  isBlockedIp_iff (by decide)

end Vigabss.Utils.SafeOutboundUrl
