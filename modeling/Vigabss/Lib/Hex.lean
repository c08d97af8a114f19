import Vigabss.Lib.JsText
import Vigabss.Lib.Tlv

/-!
# Vigabss.Lib.Hex — bytes as hexadecimal text

`buf.toString('hex')` and `Buffer.from(text, 'hex')`.  The text is in lower case; reading takes
either case and stops at the first pair that is not one of hexadecimal digits.
-/

namespace Vigabss.Lib.Hex

open JsText (digitValue)

/-- A digit as `toString('hex')` writes it. -/
def isLower (c : Char) : Bool := '0' ≤ c ∧ c ≤ '9' ∨ 'a' ≤ c ∧ c ≤ 'f'

/-- A hexadecimal digit of either case. -/
def isHex (c : Char) : Bool := isLower c ∨ 'A' ≤ c ∧ c ≤ 'F'

/-- The two digits of a byte. -/
def pair (b : UInt8) : List Char := [Nat.digitChar (b.toNat / 16), Nat.digitChar (b.toNat % 16)]

/-- `buf.toString('hex')`. -/
def ofBytes (bytes : Bytes) : List Char := bytes.flatMap pair

/-- `Buffer.from(text, 'hex')`. -/
def toBytes : List Char → Bytes
  | a :: b :: text =>
    if isHex a ∧ isHex b then UInt8.ofNat (digitValue a * 16 + digitValue b) :: toBytes text
    else []
  | _ => []

theorem isHex_of_isLower {c : Char} (h : isLower c = true) : isHex c = true := by
  simp [isHex, h]

theorem digit_spec : ∀ n < 16, isLower (Nat.digitChar n) = true ∧
    digitValue (Nat.digitChar n) = n := by
  decide

theorem isLower_of_mem_pair {b : UInt8} {c : Char} (h : c ∈ pair b) : isLower c = true := by
  have hb : b.toNat < 256 := b.toNat_lt
  rcases List.mem_pair.1 h with rfl | rfl
  · exact (digit_spec _ (by omega)).1
  · exact (digit_spec _ (by omega)).1

theorem isLower_of_mem {bytes : Bytes} {c : Char} (h : c ∈ ofBytes bytes) : isLower c = true := by
  obtain ⟨b, -, hc⟩ := List.mem_flatMap.1 h
  exact isLower_of_mem_pair hc

@[simp] theorem length_ofBytes (bytes : Bytes) : (ofBytes bytes).length = 2 * bytes.length := by
  induction bytes with
  | nil => rfl
  | cons b bytes ih =>
    rw [ofBytes, List.flatMap_cons, List.length_append, ← ofBytes, ih, List.length_cons]
    show 2 + 2 * bytes.length = 2 * (bytes.length + 1)
    omega

/-- **The round trip of bytes.** -/
@[simp] theorem toBytes_ofBytes (bytes : Bytes) : toBytes (ofBytes bytes) = bytes := by
  induction bytes with
  | nil => rfl
  | cons b bytes ih =>
    have hb : b.toNat < 256 := b.toNat_lt
    obtain ⟨hhigh, hhighValue⟩ := digit_spec (b.toNat / 16) (by omega)
    obtain ⟨hlow, hlowValue⟩ := digit_spec (b.toNat % 16) (by omega)
    show toBytes (Nat.digitChar (b.toNat / 16) :: Nat.digitChar (b.toNat % 16) ::
      ofBytes bytes) = b :: bytes
    rw [toBytes, if_pos ⟨isHex_of_isLower hhigh, isHex_of_isLower hlow⟩, hhighValue, hlowValue, ih]
    have hsum : b.toNat / 16 * 16 + b.toNat % 16 = b.toNat := by omega
    rw [hsum, UInt8.ofNat_toNat]

theorem length_toBytes {text : List Char} (h : ∀ c ∈ text, isHex c = true) :
    (toBytes text).length = text.length / 2 := by
  fun_induction toBytes text with
  | case1 a b text hpair ih =>
    have hrest := ih fun c hc => h c (List.mem_cons_of_mem _ (List.mem_cons_of_mem _ hc))
    simp only [List.length_cons, hrest]
    omega
  | case2 a b text hpair => exact absurd ⟨h a (by simp), h b (by simp)⟩ hpair
  | case3 text hshort =>
    rcases text with - | ⟨a, - | ⟨b, text⟩⟩
    · rfl
    · simp
    · exact absurd rfl (hshort a b text)

end Vigabss.Lib.Hex
