import Vigabss.Lib.Tlv

/-!
# Vigabss.Lib.Utf8 — text and bytes

Encoding text, and decoding bytes as `Buffer.toString('utf8')` does: a byte that cannot continue
what was begun gives U+FFFD and is read again as a first byte.
-/

namespace Vigabss.Lib

/-- `Buffer.from(text, 'utf8')`. -/
def utf8 (text : String) : Bytes := text.toList.flatMap String.utf8EncodeChar

theorem utf8_injective {a b : String} (h : utf8 a = utf8 b) : a = b := by
  rw [← String.toByteArray_inj, ← String.utf8Encode_toList, ← String.utf8Encode_toList]
  exact congrArg List.toByteArray h

/-- A sequence that is being read: how many bytes are to come, the bounds of the next one, and the
bits so far. -/
structure Utf8State where
  needed : ℕ
  lower : ℕ
  upper : ℕ
  codePoint : ℕ

namespace Utf8State

def idle : Utf8State := ⟨0, 0x80, 0xBF, 0⟩

def replacement : Char := Char.ofNat 0xFFFD

/-- A byte where a sequence begins. -/
def lead (b : ℕ) : List Char × Utf8State :=
  if b < 0x80 then ([Char.ofNat b], idle)
  else if b < 0xC2 then ([replacement], idle)
  else if b < 0xE0 then ([], ⟨1, 0x80, 0xBF, b - 0xC0⟩)
  else if b = 0xE0 then ([], ⟨2, 0xA0, 0xBF, 0⟩)
  else if b = 0xED then ([], ⟨2, 0x80, 0x9F, 0xD⟩)
  else if b < 0xF0 then ([], ⟨2, 0x80, 0xBF, b - 0xE0⟩)
  else if b = 0xF0 then ([], ⟨3, 0x90, 0xBF, 0⟩)
  else if b < 0xF4 then ([], ⟨3, 0x80, 0xBF, b - 0xF0⟩)
  else if b = 0xF4 then ([], ⟨3, 0x80, 0x8F, 4⟩)
  else ([replacement], idle)

/-- The next byte, and the characters that it completes. -/
def next (s : Utf8State) (b : ℕ) : List Char × Utf8State :=
  if s.needed = 0 then lead b
  else if s.lower ≤ b ∧ b ≤ s.upper then
    let codePoint := s.codePoint * 64 + b % 64
    if s.needed = 1 then ([Char.ofNat codePoint], idle)
    else ([], ⟨s.needed - 1, 0x80, 0xBF, codePoint⟩)
  else (replacement :: (lead b).1, (lead b).2)

/-- The characters of what is left to read; a sequence that is cut off gives U+FFFD. -/
def decode (s : Utf8State) : Bytes → List Char
  | [] => if s.needed = 0 then [] else [replacement]
  | b :: bytes => (s.next b.toNat).1 ++ decode (s.next b.toNat).2 bytes

end Utf8State

/-- `buf.toString('utf8')`. -/
def utf8Decode (bytes : Bytes) : String := String.ofList (Utf8State.idle.decode bytes)

/-! ### The round trip -/

namespace Utf8State

theorem next_idle (b : ℕ) : idle.next b = lead b := rfl

theorem decode_lead {b : ℕ} (hb : b < 256) {s : Utf8State} (h : lead b = ([], s)) (rest : Bytes) :
    idle.decode (UInt8.ofNat b :: rest) = s.decode rest := by
  rw [decode]
  have hb' : (UInt8.ofNat b).toNat = b := Nat.mod_eq_of_lt hb
  rw [hb', next_idle, h, List.nil_append]

theorem decode_more {s : Utf8State} {b : ℕ} (hb : s.lower ≤ b ∧ b ≤ s.upper) (hlt : b < 256)
    (hs : 1 < s.needed) (rest : Bytes) :
    s.decode (UInt8.ofNat b :: rest) =
      (⟨s.needed - 1, 0x80, 0xBF, s.codePoint * 64 + b % 64⟩ : Utf8State).decode rest := by
  have hb' : (UInt8.ofNat b).toNat = b := Nat.mod_eq_of_lt hlt
  rw [decode, hb', next, if_neg (by omega), if_pos hb]
  simp only
  rw [if_neg (by omega), List.nil_append]

theorem decode_last {s : Utf8State} {b : ℕ} (hb : s.lower ≤ b ∧ b ≤ s.upper) (hlt : b < 256)
    (hs : s.needed = 1) (rest : Bytes) :
    s.decode (UInt8.ofNat b :: rest) =
      Char.ofNat (s.codePoint * 64 + b % 64) :: idle.decode rest := by
  have hb' : (UInt8.ofNat b).toNat = b := Nat.mod_eq_of_lt hlt
  rw [decode, hb', next, if_neg (by omega), if_pos hb]
  simp only
  rw [if_pos hs, List.singleton_append]

theorem lead_three {v : ℕ} (h : 0x7FF < v) (h' : v ≤ 0xFFFF) (hv : v < 0xD800 ∨ 0xDFFF < v) :
    ∃ low high, lead (v / 4096 % 16 + 224) = ([], ⟨2, low, high, v / 4096⟩) ∧
      low ≤ v / 64 % 64 + 128 ∧ v / 64 % 64 + 128 ≤ high := by
  have hrest : v / 4096 % 16 + 224 - 224 = v / 4096 := by omega
  rw [lead, if_neg (by omega), if_neg (by omega), if_neg (by omega)]
  split_ifs
  · exact ⟨_, _, by rw [show v / 4096 = 0 by omega], by omega, by omega⟩
  · exact ⟨_, _, by rw [show v / 4096 = 0xD by omega], by omega, by omega⟩
  · exact ⟨_, _, by rw [hrest], by omega, by omega⟩
  all_goals omega

theorem lead_four {v : ℕ} (h : 0xFFFF < v) (h' : v < 0x110000) :
    ∃ low high, lead (v / 262144 % 8 + 240) = ([], ⟨3, low, high, v / 262144⟩) ∧
      low ≤ v / 4096 % 64 + 128 ∧ v / 4096 % 64 + 128 ≤ high := by
  have hrest : v / 262144 % 8 + 240 - 240 = v / 262144 := by omega
  rw [lead, if_neg (by omega), if_neg (by omega), if_neg (by omega), if_neg (by omega),
    if_neg (by omega), if_neg (by omega)]
  split_ifs
  · exact ⟨_, _, by rw [show v / 262144 = 0 by omega], by omega, by omega⟩
  · exact ⟨_, _, by rw [hrest], by omega, by omega⟩
  · exact ⟨_, _, by rw [show v / 262144 = 4 by omega], by omega, by omega⟩
  all_goals omega

/-- The bytes of a character are read as it. -/
theorem decode_utf8EncodeChar (c : Char) (rest : Bytes) :
    idle.decode (String.utf8EncodeChar c ++ rest) = c :: idle.decode rest := by
  have hvalid : c.val.toNat < 0xD800 ∨ 0xDFFF < c.val.toNat ∧ c.val.toNat < 0x110000 := c.valid
  have hc : ∀ n, n = c.val.toNat → Char.ofNat n = c := by
    rintro n rfl
    exact Char.ofNat_toNat c
  unfold String.utf8EncodeChar
  generalize c.val.toNat = v at hvalid hc
  simp only
  split_ifs with h1 h2 h3
  · have hb : (UInt8.ofNat v).toNat = v := Nat.mod_eq_of_lt (by omega)
    rw [List.singleton_append, decode, hb, next_idle, lead, if_pos (by omega), hc v rfl]
    rfl
  · have hlead : lead (v / 64 % 32 + 192) = ([], ⟨1, 0x80, 0xBF, v / 64⟩) := by
      have hrest : v / 64 % 32 + 192 - 192 = v / 64 := by omega
      rw [lead, if_neg (by omega), if_neg (by omega), if_pos (by omega), hrest]
    rw [List.cons_append, List.cons_append, List.nil_append, decode_lead (by omega) hlead,
      decode_last (by simp only; omega) (by omega) rfl]
    exact congrArg (· :: _) (hc _ (by simp only; omega))
  · obtain ⟨low, high, hlead, hsecond⟩ := lead_three (Nat.lt_of_not_le h2) h3 (by omega)
    rw [List.cons_append, List.cons_append, List.cons_append, List.nil_append,
      decode_lead (by omega) hlead, decode_more hsecond (by omega) (Nat.lt_succ_self 1),
      decode_last (by simp only; omega) (by omega) rfl]
    exact congrArg (· :: _) (hc _ (by simp only; omega))
  · obtain ⟨low, high, hlead, hsecond⟩ := lead_four (Nat.lt_of_not_le h3) (by omega)
    rw [List.cons_append, List.cons_append, List.cons_append, List.cons_append, List.nil_append,
      decode_lead (by omega) hlead,
      decode_more hsecond (by omega) (Nat.succ_lt_succ Nat.zero_lt_two),
      decode_more (by simp only; omega) (by omega) (Nat.lt_succ_self 1),
      decode_last (by simp only; omega) (by omega) rfl]
    exact congrArg (· :: _) (hc _ (by simp only; omega))

end Utf8State

/-- **The round trip of a text.** -/
@[simp] theorem utf8Decode_utf8 (text : String) : utf8Decode (utf8 text) = text := by
  have hdecode : ∀ cs : List Char,
      Utf8State.idle.decode (cs.flatMap String.utf8EncodeChar) = cs := by
    intro cs
    induction cs with
    | nil => rfl
    | cons c cs ih => rw [List.flatMap_cons, Utf8State.decode_utf8EncodeChar, ih]
  rw [utf8Decode, utf8, hdecode, String.ofList_toList]

/-! ### Cut texts -/

/-- The bytes of characters. -/
def encodeChars (cs : List Char) : Bytes := cs.flatMap String.utf8EncodeChar

@[simp] theorem encodeChars_append (as bs : List Char) :
    encodeChars (as ++ bs) = encodeChars as ++ encodeChars bs := List.flatMap_append

theorem length_utf8EncodeChar (c : Char) :
    1 ≤ (String.utf8EncodeChar c).length ∧ (String.utf8EncodeChar c).length ≤ 4 := by
  rw [String.length_utf8EncodeChar]
  exact ⟨c.utf8Size_pos, c.utf8Size_le_four⟩

namespace Utf8State

theorem decode_encodeChars (cs : List Char) (rest : Bytes) :
    idle.decode (encodeChars cs ++ rest) = cs ++ idle.decode rest := by
  induction cs with
  | nil => rfl
  | cons c cs ih =>
    rw [encodeChars, List.flatMap_cons, List.append_assoc, decode_utf8EncodeChar]
    exact congrArg (c :: ·) ih

/-- **A character that is cut off** gives one replacement character. -/
theorem decode_take_utf8EncodeChar (c : Char) {k : ℕ} (hpos : 0 < k)
    (hk : k < (String.utf8EncodeChar c).length) :
    idle.decode ((String.utf8EncodeChar c).take k) = [replacement] := by
  have hvalid : c.val.toNat < 0xD800 ∨ 0xDFFF < c.val.toNat ∧ c.val.toNat < 0x110000 := c.valid
  unfold String.utf8EncodeChar at hk ⊢
  generalize c.val.toNat = v at hvalid hk
  simp only at hk ⊢
  split_ifs at hk ⊢ with h1 h2 h3
  · simp only [List.length_singleton] at hk
    omega
  · obtain rfl : k = 1 := by
      simp only [List.length_cons, List.length_nil] at hk
      omega
    have hlead : lead (v / 64 % 32 + 192) = ([], ⟨1, 0x80, 0xBF, v / 64⟩) := by
      have hrest : v / 64 % 32 + 192 - 192 = v / 64 := by omega
      rw [lead, if_neg (by omega), if_neg (by omega), if_pos (by omega), hrest]
    rw [List.take_succ_cons, List.take_zero, decode_lead (by omega) hlead]
    rfl
  · obtain ⟨low, high, hlead, hsecond⟩ := lead_three (Nat.lt_of_not_le h2) h3 (by omega)
    have hcases : k = 1 ∨ k = 2 := by
      simp only [List.length_cons, List.length_nil] at hk
      omega
    rcases hcases with rfl | rfl
    · rw [List.take_succ_cons, List.take_zero, decode_lead (by omega) hlead]
      rfl
    · rw [List.take_succ_cons, List.take_succ_cons, List.take_zero, decode_lead (by omega) hlead,
        decode_more hsecond (by omega) (Nat.lt_succ_self 1)]
      rfl
  · obtain ⟨low, high, hlead, hsecond⟩ := lead_four (Nat.lt_of_not_le h3) (by omega)
    have hcases : k = 1 ∨ k = 2 ∨ k = 3 := by
      simp only [List.length_cons, List.length_nil] at hk
      omega
    rcases hcases with rfl | rfl | rfl
    · rw [List.take_succ_cons, List.take_zero, decode_lead (by omega) hlead]
      rfl
    · rw [List.take_succ_cons, List.take_succ_cons, List.take_zero, decode_lead (by omega) hlead,
        decode_more hsecond (by omega) (Nat.succ_lt_succ Nat.zero_lt_two)]
      rfl
    · rw [List.take_succ_cons, List.take_succ_cons, List.take_succ_cons, List.take_zero,
        decode_lead (by omega) hlead,
        decode_more hsecond (by omega) (Nat.succ_lt_succ Nat.zero_lt_two),
        decode_more (by simp only; omega) (by omega) (Nat.lt_succ_self 1)]
      rfl

end Utf8State

theorem exists_cut {cs : List Char} {p : ℕ} (hp : p < (encodeChars cs).length) :
    ∃ as c bs, cs = as ++ c :: bs ∧ (encodeChars as).length ≤ p ∧
      p < (encodeChars as).length + (String.utf8EncodeChar c).length := by
  induction cs generalizing p with
  | nil => cases hp
  | cons c cs ih =>
    by_cases hfirst : p < (String.utf8EncodeChar c).length
    · exact ⟨[], c, cs, rfl, Nat.zero_le p, by simpa [encodeChars] using hfirst⟩
    · rw [encodeChars, List.flatMap_cons, List.length_append] at hp
      obtain ⟨as, d, bs, rfl, hlow, hhigh⟩ :=
        ih (p := p - (String.utf8EncodeChar c).length) (by rw [encodeChars]; omega)
      refine ⟨c :: as, d, bs, rfl, ?_, ?_⟩
      · rw [encodeChars, List.flatMap_cons, List.length_append, ← encodeChars]
        omega
      · rw [encodeChars, List.flatMap_cons, List.length_append, ← encodeChars]
        omega

theorem decode_cut {as bs : List Char} {c : Char} {k : ℕ}
    (hk : k < (String.utf8EncodeChar c).length) :
    Utf8State.idle.decode ((encodeChars (as ++ c :: bs)).take ((encodeChars as).length + k)) =
      as ++ if k = 0 then [] else [Utf8State.replacement] := by
  have hc : encodeChars (c :: bs) = String.utf8EncodeChar c ++ encodeChars bs := List.flatMap_cons
  rw [encodeChars_append, List.take_length_add_append, hc, List.take_append_of_le_length hk.le,
    Utf8State.decode_encodeChars]
  congr 1
  split_ifs with hzero
  · rw [hzero]
    rfl
  · exact Utf8State.decode_take_utf8EncodeChar c (Nat.pos_of_ne_zero hzero) hk

end Vigabss.Lib
