import Vigabss.Lib.JsText
import Vigabss.Lib.Run

/-!
# Vigabss.Routeros.Codec — the RouterOS API reader

A RouterOS sentence is a sequence of length-prefixed words closed by an empty word.  `readWord`
reads one word, with JavaScript's signed 32-bit arithmetic on the length, and `scanBody` is one
pass of the double loop that `parseSentences` and `RouterOSClient._onData` share.

A word is kept in its UTF-8 bytes: the reader compares words with `''` and with ASCII texts only,
and the decoded text of a word is empty, or starts with an ASCII text, exactly when its bytes do.
-/

namespace Vigabss.Routeros

open Vigabss.Lib

/-- The contents of a Node `Buffer`. -/
abbrev Buf := List UInt8

/-- A word, in its UTF-8 bytes. -/
abbrev Word := List UInt8

/-- A sentence: its words without the closing empty word. -/
abbrev Sentence := List Word

/-- The word spelled by an ASCII literal. -/
def ascii (s : String) : Word := s.toList.map fun c => UInt8.ofNat c.toNat

/-! ### Node buffers -/

/-- How `Buffer.prototype.slice` reads a bound: a negative one counts from the end, `NaN` is 0,
and no bound passes the end. -/
def adjustOffset (offset : JsNum) (length : ℕ) : ℕ :=
  match offset with
  | .nan => 0
  | .int o => if o < 0 then (o + length).toNat else min o.toNat length

/-- `buf.slice(start, end)`. -/
def slice (buf : Buf) (start stop : JsNum) : Buf :=
  (buf.drop (adjustOffset start buf.length)).take
    (adjustOffset stop buf.length - adjustOffset start buf.length)

/-- `buf[offset]`, `undefined` outside the buffer. -/
def byteAt (buf : Buf) (offset : JsNum) : JsNum :=
  match offset with
  | .nan => .nan
  | .int o => if o < 0 then .nan else (buf[o.toNat]?.map JsNum.ofByte).getD .nan

/-- The byte at a position, 0 past the end. -/
def byte (buf : Buf) (o : ℕ) : UInt8 := buf.getD o 0

theorem byteAt_natCast {buf : Buf} {o : ℕ} (h : o < buf.length) :
    byteAt buf (.int o) = .ofByte (byte buf o) := by
  simp [byteAt, byte, h]

theorem byteAt_add {buf : Buf} {o i : ℕ} (h : o + i < buf.length) :
    byteAt buf (.int (o + i)) = .ofByte (byte buf (o + i)) := by
  rw [← byteAt_natCast h]
  push_cast
  rfl

/-! ### `readWord` -/

/-- What `readWord` returns when there is a whole word. -/
structure ReadWord where
  word : Word
  nextOffset : JsNum
  deriving DecidableEq, Repr

/-- The end of `readWord`, once the prefix has given `headerBytes` and `len`. -/
def readBody (buf : Buf) (offset headerBytes len : JsNum) : Option ReadWord :=
  if (JsNum.int buf.length).lt (offset + headerBytes + len) then none
  else some
    { word := slice buf (offset + headerBytes) (offset + headerBytes + len)
      nextOffset := offset + headerBytes + len }

/-- Read a single length-prefixed word; `none` is the source's `null`. -/
def readWord (buf : Buf) (offset : JsNum) : Option ReadWord :=
  let length : JsNum := .int buf.length
  if offset.ge length then none else
  let b0 := byteAt buf offset
  if b0.and32 0x80 = 0 then
    readBody buf offset 1 b0
  else if b0.and32 0xc0 = 0x80 then
    if length.lt (offset + 2) then none else
    readBody buf offset 2 (((b0.and32 0x3f).shl32 8).or32 (byteAt buf (offset + 1)))
  else if b0.and32 0xe0 = 0xc0 then
    if length.lt (offset + 3) then none else
    readBody buf offset 3
      ((((b0.and32 0x1f).shl32 16).or32 ((byteAt buf (offset + 1)).shl32 8)).or32
        (byteAt buf (offset + 2)))
  else if b0.and32 0xf0 = 0xe0 then
    if length.lt (offset + 4) then none else
    readBody buf offset 4
      (((((b0.and32 0x0f).shl32 24).or32 ((byteAt buf (offset + 1)).shl32 16)).or32
        ((byteAt buf (offset + 2)).shl32 8)).or32 (byteAt buf (offset + 3)))
  else
    if length.lt (offset + 5) then none else
    readBody buf offset 5
      (((((byteAt buf (offset + 1)).shl32 24).or32 ((byteAt buf (offset + 2)).shl32 16)).or32
        ((byteAt buf (offset + 3)).shl32 8)).or32 (byteAt buf (offset + 4)))

/-! ### The sentence loops -/

/-- The local variables of the double loop, with the value `acc` that the sentences are folded
into. -/
structure Scan (σ : Type*) where
  acc : σ
  sentence : Sentence
  startOffset : JsNum
  offset : JsNum

variable {σ : Type*}

/-- The state in which the loop is entered. -/
def Scan.start (acc : σ) : Scan σ := ⟨acc, [], 0, 0⟩

/-- One pass: read a word, and close the sentence when it is empty.  The outer loop only resets
`sentence` and `startOffset`, so both loops are one. -/
def scanBody (onSentence : σ → Sentence → σ) (buf : Buf) (s : Scan σ) :
    Pass (Scan σ) (σ × JsNum) :=
  match readWord buf s.offset with
  | none => .leave (s.acc, s.startOffset)
  | some result =>
    if result.word = [] then
      .again
        { acc := onSentence s.acc s.sentence
          sentence := []
          startOffset := result.nextOffset
          offset := result.nextOffset }
    else
      .again { s with sentence := s.sentence ++ [result.word], offset := result.nextOffset }

/-- `parseSentences(buf)` with at most `fuel` words: the complete sentences and the remaining
bytes. -/
def parseSentences (fuel : ℕ) (buf : Buf) : Option (List Sentence × Buf) :=
  (loop (scanBody (fun sentences sentence => sentences ++ [sentence]) buf) fuel (.start [])).map
    fun (sentences, startOffset) => (sentences, slice buf startOffset (.int buf.length))

theorem scanBody_again {f : σ → Sentence → σ} {buf : Buf} {s s' : Scan σ}
    (h : scanBody f buf s = .again s') :
    ∃ r, readWord buf s.offset = some r ∧ s'.offset = r.nextOffset := by
  unfold scanBody at h
  cases hr : readWord buf s.offset with
  | none => simp [hr] at h
  | some r =>
    refine ⟨r, rfl, ?_⟩
    rw [hr] at h
    dsimp only at h
    split_ifs at h <;> cases h <;> rfl

theorem scanBody_of_some {f : σ → Sentence → σ} {buf : Buf} {s : Scan σ} {r : ReadWord}
    (hr : readWord buf s.offset = some r) :
    ∃ s', scanBody f buf s = .again s' ∧ s'.offset = r.nextOffset := by
  unfold scanBody
  rw [hr]
  dsimp only
  split_ifs
  · exact ⟨_, rfl, rfl⟩
  · exact ⟨_, rfl, rfl⟩

/-! ### The length prefix as a number

The same five forms read in natural numbers: `headerBytes` is the size of the prefix,
`prefixValue` its unsigned value, and `wordLength` the length `readWord` takes from it. -/

/-- The size and the unsigned big-endian value of the length prefix at `o`. -/
def lengthPrefix (buf : Buf) (o : ℕ) : ℕ × ℕ :=
  let b (i : ℕ) := (byte buf (o + i)).toNat
  if b 0 < 0x80 then (1, b 0)
  else if b 0 < 0xc0 then (2, b 0 % 0x40 * 2 ^ 8 + b 1)
  else if b 0 < 0xe0 then (3, b 0 % 0x20 * 2 ^ 16 + b 1 * 2 ^ 8 + b 2)
  else if b 0 < 0xf0 then (4, b 0 % 0x10 * 2 ^ 24 + b 1 * 2 ^ 16 + b 2 * 2 ^ 8 + b 3)
  else (5, b 1 * 2 ^ 24 + b 2 * 2 ^ 16 + b 3 * 2 ^ 8 + b 4)

def headerBytes (buf : Buf) (o : ℕ) : ℕ := (lengthPrefix buf o).1

def prefixValue (buf : Buf) (o : ℕ) : ℕ := (lengthPrefix buf o).2

/-- The length the reader takes from the prefix: its signed 32-bit reading. -/
def wordLength (buf : Buf) (o : ℕ) : ℤ := JsNum.signed32 (prefixValue buf o)

/-- The offset behind the word at `o`. -/
def wordEnd (buf : Buf) (o : ℕ) : ℤ := o + headerBytes buf o + wordLength buf o

/-- There is a whole word at `o`, as far as the length prefix tells. -/
def HasWord (buf : Buf) (o : ℕ) : Prop :=
  o < buf.length ∧ o + headerBytes buf o ≤ buf.length ∧ wordEnd buf o ≤ buf.length

instance (buf : Buf) (o : ℕ) : Decidable (HasWord buf o) := by
  unfold HasWord
  infer_instance

/-- What `readWord` returns at `o`, in numbers. -/
def wordAt (buf : Buf) (o : ℕ) : Option ReadWord :=
  if HasWord buf o then
    some ⟨slice buf (.int (o + headerBytes buf o)) (.int (wordEnd buf o)), .int (wordEnd buf o)⟩
  else none

theorem headerBytes_pos (buf : Buf) (o : ℕ) : 1 ≤ headerBytes buf o := by
  unfold headerBytes lengthPrefix
  dsimp only
  split_ifs <;> simp

theorem prefixValue_lt {buf : Buf} {o : ℕ} (h : (byte buf o).toNat < 0xf0) :
    prefixValue buf o < 2 ^ 31 := by
  have h₁ := (byte buf (o + 1)).toNat_lt
  have h₂ := (byte buf (o + 2)).toNat_lt
  have h₃ := (byte buf (o + 3)).toNat_lt
  unfold prefixValue lengthPrefix
  dsimp only [Nat.add_zero]
  split_ifs <;> dsimp only <;> omega

theorem wordLength_of_lt {buf : Buf} {o : ℕ} (h : (byte buf o).toNat < 0xf0) :
    wordLength buf o = prefixValue buf o := JsNum.signed32_of_lt (prefixValue_lt h)

theorem mask_spec : ∀ n < 2 ^ 8,
    (n &&& 0x80 = 0 ↔ n < 0x80) ∧ (n &&& 0xc0 = 0x80 ↔ 0x80 ≤ n ∧ n < 0xc0) ∧
    (n &&& 0xe0 = 0xc0 ↔ 0xc0 ≤ n ∧ n < 0xe0) ∧ (n &&& 0xf0 = 0xe0 ↔ 0xe0 ≤ n ∧ n < 0xf0) ∧
    n &&& 0x3f = n % 0x40 ∧ n &&& 0x1f = n % 0x20 ∧ n &&& 0x0f = n % 0x10 := by
  decide +kernel

theorem and32_mask (b : UInt8) {m r : ℕ} (hm : m < 2 ^ 8) :
    (JsNum.ofByte b).and32 (.int m) = .int r ↔ b.toNat &&& m = r := by
  rw [JsNum.and32_ofByte b hm, JsNum.int.injEq]
  omega

theorem readBody_eq_wordAt {buf : Buf} {o h : ℕ} {len : JsNum} (ho : o < buf.length)
    (hh : headerBytes buf o = h) (hlen : o + h ≤ buf.length → len = .int (wordLength buf o)) :
    (if (JsNum.int buf.length).lt (.int (o + h)) then none
      else readBody buf (.int o) (.int h) len) = wordAt buf o := by
  unfold wordAt readBody
  by_cases hle : o + h ≤ buf.length
  · rw [hlen hle, if_neg (by simp; omega)]
    simp only [JsNum.int_add_int, JsNum.int_lt_int, decide_eq_true_eq, HasWord, wordEnd, hh]
    by_cases hend : (buf.length : ℤ) < o + h + wordLength buf o
    · rw [if_pos hend, if_neg (by omega)]
    · rw [if_neg hend, if_pos (by omega)]
  · rw [if_pos (by simp; omega), if_neg (by rw [HasWord, hh]; omega)]

/-- **`readWord` in numbers.**  From an offset inside the buffer it returns the bytes between the
prefix and `wordEnd`, or nothing when they are not all there. -/
theorem readWord_natCast (buf : Buf) (o : ℕ) : readWord buf (.int o) = wordAt buf o := by
  unfold readWord
  by_cases ho : o < buf.length
  case neg =>
    rw [if_pos (by simpa using ho), wordAt, if_neg (fun h => ho h.1)]
  rw [if_neg (by simpa using ho), byteAt_natCast ho]
  simp only [JsNum.ofNat_eq_int, JsNum.int_add_int]
  obtain ⟨m1, m2, m3, m4, v2, v3, v4⟩ := mask_spec (byte buf o).toNat (byte buf o).toNat_lt
  rw [← and32_mask _ (by decide)] at m1 m2 m3 m4
  have hb := (byte buf o).toNat_lt
  by_cases h1 : (byte buf o).toNat < 0x80
  · have hp : lengthPrefix buf o = (1, (byte buf o).toNat) := by simp [lengthPrefix, h1]
    rw [if_pos (m1.2 h1), ← readBody_eq_wordAt ho (congrArg Prod.fst hp), if_neg]
    · simp; omega
    · intro _
      rw [wordLength_of_lt (by omega), prefixValue, hp]
      rfl
  rw [if_neg (fun h => h1 (m1.1 h))]
  by_cases h2 : (byte buf o).toNat < 0xc0
  · have hp : lengthPrefix buf o =
        (2, (byte buf o).toNat % 0x40 * 2 ^ 8 + (byte buf (o + 1)).toNat) := by
      simp [lengthPrefix, h1, h2]
    rw [if_pos (m2.2 ⟨by omega, h2⟩)]
    refine readBody_eq_wordAt ho (congrArg Prod.fst hp) fun hle => ?_
    rw [byteAt_add (by omega), JsNum.and32_ofByte _ (by decide), v2, JsNum.or32_two _ (by omega),
      wordLength_of_lt (by omega), prefixValue, hp]
  rw [if_neg (fun h => h2 (m2.1 h).2)]
  by_cases h3 : (byte buf o).toNat < 0xe0
  · have hp : lengthPrefix buf o = (3, (byte buf o).toNat % 0x20 * 2 ^ 16 +
        (byte buf (o + 1)).toNat * 2 ^ 8 + (byte buf (o + 2)).toNat) := by
      simp [lengthPrefix, h1, h2, h3]
    rw [if_pos (m3.2 ⟨by omega, h3⟩)]
    refine readBody_eq_wordAt ho (congrArg Prod.fst hp) fun hle => ?_
    rw [byteAt_add (by omega), byteAt_add (by omega), JsNum.and32_ofByte _ (by decide), v3,
      JsNum.or32_three _ (by omega), wordLength_of_lt (by omega), prefixValue, hp]
  rw [if_neg (fun h => h3 (m3.1 h).2)]
  by_cases h4 : (byte buf o).toNat < 0xf0
  · have hp : lengthPrefix buf o = (4, (byte buf o).toNat % 0x10 * 2 ^ 24 +
        (byte buf (o + 1)).toNat * 2 ^ 16 + (byte buf (o + 2)).toNat * 2 ^ 8 +
        (byte buf (o + 3)).toNat) := by
      simp [lengthPrefix, h1, h2, h3, h4]
    rw [if_pos (m4.2 ⟨by omega, h4⟩)]
    refine readBody_eq_wordAt ho (congrArg Prod.fst hp) fun hle => ?_
    rw [byteAt_add (by omega), byteAt_add (by omega), byteAt_add (by omega),
      JsNum.and32_ofByte _ (by decide), v4, JsNum.or32_four _ (by omega), wordLength, prefixValue,
      hp]
  rw [if_neg (fun h => h4 (m4.1 h).2)]
  have hp : lengthPrefix buf o = (5, (byte buf (o + 1)).toNat * 2 ^ 24 +
      (byte buf (o + 2)).toNat * 2 ^ 16 + (byte buf (o + 3)).toNat * 2 ^ 8 +
      (byte buf (o + 4)).toNat) := by
    simp [lengthPrefix, h1, h2, h3, h4]
  refine readBody_eq_wordAt ho (congrArg Prod.fst hp) fun hle => ?_
  rw [byteAt_add (by omega), byteAt_add (by omega), byteAt_add (by omega), byteAt_add (by omega),
    JsNum.ofByte, JsNum.or32_four _ (byte buf (o + 1)).toNat_lt, wordLength, prefixValue, hp]

end Vigabss.Routeros
