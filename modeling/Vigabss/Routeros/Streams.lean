import Vigabss.Lib.Utf8
import Vigabss.Routeros.Client

/-!
# Vigabss.Routeros.Streams — encoded sentences are read back, whole or in pieces

The encoder puts the length of a word before its bytes, in one to five bytes.  Below `2 ^ 28` the
reader takes the same word off again, and nothing as long as a byte of it is missing, so a stream
of sentences is read in the same way however it is cut.
-/

namespace Vigabss.Routeros

open Vigabss.Lib

/-! ### The encoder -/

/-- `lenBuf` of `encodeWord`. -/
def encodeLength (len : ℕ) : Buf :=
  if len < 0x80 then [UInt8.ofNat len]
  else if len < 0x4000 then [UInt8.ofNat (len >>> 8 ||| 0x80), UInt8.ofNat (len &&& 0xff)]
  else if len < 0x200000 then
    [UInt8.ofNat (len >>> 16 ||| 0xc0), UInt8.ofNat (len >>> 8 &&& 0xff),
      UInt8.ofNat (len &&& 0xff)]
  else if len < 0x10000000 then
    [UInt8.ofNat (len >>> 24 ||| 0xe0), UInt8.ofNat (len >>> 16 &&& 0xff),
      UInt8.ofNat (len >>> 8 &&& 0xff), UInt8.ofNat (len &&& 0xff)]
  else
    [0xf0, UInt8.ofNat (len >>> 24 &&& 0xff), UInt8.ofNat (len >>> 16 &&& 0xff),
      UInt8.ofNat (len >>> 8 &&& 0xff), UInt8.ofNat (len &&& 0xff)]

/-- The bytes of a word behind their length. -/
def frame (wordBuf : Buf) : Buf := encodeLength wordBuf.length ++ wordBuf

/-- `encodeWord(word)`. -/
def encodeWord (word : String) : Buf := frame (utf8 word)

/-- `encodeSentence(words)`. -/
def encodeSentence (words : List String) : Buf := words.flatMap encodeWord ++ [0]

/-- A word that is not empty, of fewer than `2 ^ 28` bytes. -/
def Sendable (word : String) : Prop := word ≠ "" ∧ (utf8 word).length < 2 ^ 28

/-! ### The length of a word -/

theorem byte_append (pre rest : Buf) (i : ℕ) :
    byte (pre ++ rest) (pre.length + i) = byte rest i := by
  simp [byte, List.getD_eq_getElem?_getD, List.getElem?_append_right]

theorem lengthPrefix_append (pre rest : Buf) (o : ℕ) :
    lengthPrefix (pre ++ rest) (pre.length + o) = lengthPrefix rest o := by
  simp only [lengthPrefix, Nat.add_assoc, byte_append]

@[simp] theorem byte_cons_zero (b : UInt8) (rest : Buf) : byte (b :: rest) 0 = b := rfl

@[simp] theorem byte_cons_succ (b : UInt8) (rest : Buf) (i : ℕ) :
    byte (b :: rest) (i + 1) = byte rest i := rfl

theorem and_255 (n : ℕ) : n &&& 0xff = n % 256 := Nat.and_two_pow_sub_one_eq_mod n 8

/-- The reader takes the length that the encoder wrote. -/
theorem lengthPrefix_encodeLength {n : ℕ} (hn : n < 2 ^ 28) (rest : Buf) :
    lengthPrefix (encodeLength n ++ rest) 0 = ((encodeLength n).length, n) := by
  have h80 : ∀ m < 2 ^ 7, m ||| 0x80 = 0x80 + m := fun m hm =>
    (Nat.or_comm _ _).trans (JsNum.mul_two_pow_or (a := 1) hm)
  have hc0 : ∀ m < 2 ^ 6, m ||| 0xc0 = 0xc0 + m := fun m hm =>
    (Nat.or_comm _ _).trans (JsNum.mul_two_pow_or (a := 3) hm)
  have he0 : ∀ m < 2 ^ 5, m ||| 0xe0 = 0xe0 + m := fun m hm =>
    (Nat.or_comm _ _).trans (JsNum.mul_two_pow_or (a := 7) hm)
  have hbyte : ∀ m, (UInt8.ofNat m).toNat = m % 256 := fun m => UInt8.toNat_ofNat'
  unfold encodeLength
  split_ifs with h1 h2 h3 h4
  · have hb : byte ([UInt8.ofNat n] ++ rest) 0 = UInt8.ofNat n := rfl
    simp only [lengthPrefix, Nat.add_zero, hb, hbyte, List.length_singleton]
    rw [if_pos (by omega), Nat.mod_eq_of_lt (by omega)]
  · rw [h80 _ (by rw [Nat.shiftRight_eq_div_pow]; omega), and_255, Nat.shiftRight_eq_div_pow]
    simp only [lengthPrefix, List.cons_append, List.nil_append, Nat.zero_add, byte_cons_zero,
      byte_cons_succ, hbyte, List.length_cons, List.length_nil]
    rw [if_neg (by omega), if_pos (by omega)]
    exact Prod.ext rfl (by simp only; omega)
  · rw [hc0 _ (by rw [Nat.shiftRight_eq_div_pow]; omega), and_255, and_255,
      Nat.shiftRight_eq_div_pow, Nat.shiftRight_eq_div_pow]
    simp only [lengthPrefix, List.cons_append, List.nil_append, Nat.zero_add, byte_cons_zero,
      byte_cons_succ, hbyte, List.length_cons, List.length_nil]
    rw [if_neg (by omega), if_neg (by omega), if_pos (by omega)]
    exact Prod.ext rfl (by simp only; omega)
  · rw [he0 _ (by rw [Nat.shiftRight_eq_div_pow]; omega), and_255, and_255, and_255,
      Nat.shiftRight_eq_div_pow, Nat.shiftRight_eq_div_pow, Nat.shiftRight_eq_div_pow]
    simp only [lengthPrefix, List.cons_append, List.nil_append, Nat.zero_add, byte_cons_zero,
      byte_cons_succ, hbyte, List.length_cons, List.length_nil]
    rw [if_neg (by omega), if_neg (by omega), if_neg (by omega), if_pos (by omega)]
    exact Prod.ext rfl (by simp only; omega)
  · omega

theorem length_encodeLength_pos (n : ℕ) : 1 ≤ (encodeLength n).length := by
  unfold encodeLength
  split_ifs <;> simp

/-! ### One word -/

theorem slice_natCast {buf : Buf} {a b : ℕ} (ha : a ≤ buf.length) (hb : b ≤ buf.length) :
    slice buf (.int a) (.int b) = (buf.drop a).take (b - a) := by
  have hnat : ∀ {n : ℕ}, n ≤ buf.length → adjustOffset (.int n) buf.length = n := by
    intro n hn
    rw [adjustOffset, if_neg (by omega), Int.toNat_natCast, Nat.min_eq_left hn]
  rw [slice, hnat ha, hnat hb]

/-- A word that is all there is read. -/
theorem readWord_frame {w : Buf} (hw : w.length < 2 ^ 28) (pre rest : Buf) :
    readWord (pre ++ (frame w ++ rest)) (.int pre.length) =
      some ⟨w, .int (pre ++ frame w).length⟩ := by
  have hlength : (pre ++ (frame w ++ rest)).length =
      pre.length + ((encodeLength w.length).length + w.length + rest.length) := by
    simp only [frame, List.length_append]
  have hprefix : lengthPrefix (pre ++ (frame w ++ rest)) pre.length =
      ((encodeLength w.length).length, w.length) := by
    have h := lengthPrefix_append pre (frame w ++ rest) 0
    rw [frame, List.append_assoc, lengthPrefix_encodeLength hw] at h
    rw [frame, List.append_assoc]
    exact h
  have hhead : headerBytes (pre ++ (frame w ++ rest)) pre.length =
      (encodeLength w.length).length := congrArg Prod.fst hprefix
  have hvalue : prefixValue (pre ++ (frame w ++ rest)) pre.length = w.length :=
    congrArg Prod.snd hprefix
  have hend : wordEnd (pre ++ (frame w ++ rest)) pre.length =
      ((pre ++ frame w).length : ℕ) := by
    rw [wordEnd, wordLength, hhead, hvalue, JsNum.signed32_of_lt (by omega), frame]
    simp only [List.length_append]
    push_cast
    ring
  have hpos := length_encodeLength_pos w.length
  have hall : (pre ++ frame w).length =
      pre.length + (encodeLength w.length).length + w.length := by
    rw [frame, List.length_append, List.length_append]
    omega
  rw [readWord_natCast, wordAt, if_pos ⟨by omega, by omega, by rw [hend]; omega⟩, hend, hhead]
  congr 2
  have hcast : ((pre.length : ℤ) + ((encodeLength w.length).length : ℤ)) =
      ((pre ++ encodeLength w.length).length : ℕ) := by
    rw [List.length_append]
    push_cast
    rfl
  have hstart : (pre ++ encodeLength w.length).length =
      pre.length + (encodeLength w.length).length := List.length_append
  have hwhole : pre ++ (frame w ++ rest) = (pre ++ encodeLength w.length) ++ (w ++ rest) := by
    simp only [frame, List.append_assoc]
  rw [hcast, slice_natCast (by omega) (by omega), hwhole, List.drop_left,
    List.take_left' (by omega)]

theorem headerBytes_congr {a b : Buf} {o : ℕ} (h : byte a o = byte b o) :
    headerBytes a o = headerBytes b o := by
  simp only [headerBytes, lengthPrefix, Nat.add_zero, h]
  split_ifs <;> rfl

/-- A word of which a byte is missing is not read. -/
theorem readWord_cut {w x : Buf} (hw : w.length < 2 ^ 28) (hx : x <+: frame w)
    (hne : x.length < (frame w).length) (pre : Buf) :
    readWord (pre ++ x) (.int pre.length) = none := by
  have hshift := lengthPrefix_append pre x 0
  rw [Nat.add_zero] at hshift
  rw [readWord_natCast, wordAt, if_neg]
  rintro ⟨hsome, hheader, hword⟩
  rw [List.length_append] at hsome hheader hword
  have hfirst : byte x 0 = byte (frame w) 0 := by
    obtain ⟨y, hy⟩ := hx
    rw [← hy]
    cases x with
    | nil => simp at hsome
    | cons b x => rfl
  have hlength : headerBytes (frame w) 0 = (encodeLength w.length).length :=
    congrArg Prod.fst (lengthPrefix_encodeLength hw w)
  have hhead : headerBytes (pre ++ x) pre.length = (encodeLength w.length).length := by
    rw [← hlength, ← headerBytes_congr hfirst]
    exact congrArg Prod.fst hshift
  obtain ⟨y, hy⟩ : encodeLength w.length <+: x :=
    List.prefix_of_prefix_length_le (List.prefix_append _ w) hx (by omega)
  have hvalue : prefixValue (pre ++ x) pre.length = w.length := by
    rw [prefixValue, hshift, ← hy, lengthPrefix_encodeLength hw]
  rw [wordEnd, wordLength, hhead, hvalue, JsNum.signed32_of_lt (by omega)] at hword
  rw [frame, List.length_append] at hne
  omega

/-! ### One sentence -/

/-- A sentence as it is sent, the empty word behind it. -/
def sent (sentence : Sentence) : Buf := sentence.flatMap frame ++ frame []

/-- The words of a sentence as the encoder is given them. -/
def WellFormed (sentence : Sentence) : Prop := ∀ w ∈ sentence, w ≠ [] ∧ w.length < 2 ^ 28

variable {σ : Type*} {f : σ → Sentence → σ}

theorem loop_word {w : Buf} (hw : w ≠ [] ∧ w.length < 2 ^ 28) (pre rest : Buf) (fuel : ℕ) (acc : σ)
    (sentence : Sentence) (start : JsNum) :
    loop (scanBody f (pre ++ (frame w ++ rest))) (fuel + 1)
        ⟨acc, sentence, start, .int pre.length⟩ =
      loop (scanBody f (pre ++ (frame w ++ rest))) fuel
        ⟨acc, sentence ++ [w], start, .int (pre ++ frame w).length⟩ := by
  rw [loop, scanBody, readWord_frame hw.2]
  simp only
  rw [if_neg hw.1]

theorem loop_words {words : Sentence} (hwords : WellFormed words) (pre rest : Buf) (fuel : ℕ)
    (acc : σ) (sentence : Sentence) (start : JsNum) :
    loop (scanBody f (pre ++ (words.flatMap frame ++ rest))) (words.length + fuel)
        ⟨acc, sentence, start, .int pre.length⟩ =
      loop (scanBody f (pre ++ (words.flatMap frame ++ rest))) fuel
        ⟨acc, sentence ++ words, start, .int (pre ++ words.flatMap frame).length⟩ := by
  induction words generalizing pre sentence with
  | nil => simp
  | cons w words ih =>
    have hsplit : pre ++ ((w :: words).flatMap frame ++ rest) =
        pre ++ (frame w ++ (words.flatMap frame ++ rest)) := by
      rw [List.flatMap_cons, List.append_assoc]
    have hshift : pre ++ (frame w ++ (words.flatMap frame ++ rest)) =
        (pre ++ frame w) ++ (words.flatMap frame ++ rest) := by
      rw [List.append_assoc]
    have hfuel : (w :: words).length + fuel = words.length + fuel + 1 := by
      rw [List.length_cons]
      omega
    rw [hsplit, hfuel, loop_word (hwords w List.mem_cons_self), hshift,
      ih (fun v hv => hwords v (List.mem_cons_of_mem _ hv)), List.append_assoc sentence,
      List.flatMap_cons, ← List.append_assoc pre, List.singleton_append]

theorem loop_sent {words : Sentence} (hwords : WellFormed words) (pre rest : Buf) (fuel : ℕ)
    (acc : σ) :
    loop (scanBody f (pre ++ (sent words ++ rest))) (words.length + 1 + fuel)
        ⟨acc, [], .int pre.length, .int pre.length⟩ =
      loop (scanBody f (pre ++ (sent words ++ rest))) fuel
        ⟨f acc words, [], .int (pre ++ sent words).length, .int (pre ++ sent words).length⟩ := by
  have hsplit : pre ++ (sent words ++ rest) =
      pre ++ (words.flatMap frame ++ (frame [] ++ rest)) := by
    rw [sent, List.append_assoc]
  have hshift : pre ++ (words.flatMap frame ++ (frame [] ++ rest)) =
      (pre ++ words.flatMap frame) ++ (frame [] ++ rest) := by
    rw [List.append_assoc]
  have hfuel : words.length + 1 + fuel = words.length + (fuel + 1) := by omega
  rw [hsplit, hfuel, loop_words hwords, hshift, loop, scanBody,
    readWord_frame (w := []) (by simp)]
  simp only [if_true, List.nil_append]
  rw [sent, ← List.append_assoc pre]

/-! ### The bytes behind a sentence -/

theorem hasWord_shift (pre rest : Buf) (o : ℕ) :
    HasWord (pre ++ rest) (pre.length + o) ↔ HasWord rest o := by
  simp only [HasWord, wordEnd, wordLength, headerBytes, prefixValue, lengthPrefix_append,
    List.length_append]
  push_cast
  omega

/-- A word that does not lead back is read in the same way wherever it stands. -/
theorem readWord_shift {rest : Buf} {o : ℕ} (h : ¬ NegativeLength rest o) (pre : Buf) :
    readWord (pre ++ rest) (.int (pre.length + o : ℕ)) =
      (readWord rest (.int o)).map fun r => ⟨r.word, .int pre.length + r.nextOffset⟩ := by
  have hprefix := lengthPrefix_append pre rest o
  have hend : wordEnd (pre ++ rest) (pre.length + o) = pre.length + wordEnd rest o := by
    simp only [wordEnd, wordLength, headerBytes, prefixValue, hprefix]
    push_cast
    ring
  have hhead : headerBytes (pre ++ rest) (pre.length + o) = headerBytes rest o :=
    congrArg Prod.fst hprefix
  rw [readWord_natCast, readWord_natCast, wordAt, wordAt]
  by_cases hw : HasWord rest o
  · rw [if_pos ((hasWord_shift pre rest o).2 hw), if_pos hw, Option.map_some, hend, hhead]
    have hlt := (lt_wordEnd_iff hw).2 h
    obtain ⟨n, hn⟩ := Int.eq_ofNat_of_zero_le (show 0 ≤ wordEnd rest o by omega)
    obtain ⟨-, hheader, hle⟩ := hw
    rw [hn] at hle
    have hstart : (((pre.length + o : ℕ) : ℤ) + (headerBytes rest o : ℤ)) =
        ((pre.length + (o + headerBytes rest o) : ℕ) : ℤ) := by
      push_cast
      ring
    have hstop : ((pre.length : ℤ) + (n : ℤ)) = ((pre.length + n : ℕ) : ℤ) := by
      push_cast
      rfl
    have hall : (pre ++ rest).length = pre.length + rest.length := List.length_append
    have hcast : ((o : ℤ) + (headerBytes rest o : ℤ)) = ((o + headerBytes rest o : ℕ) : ℤ) := by
      push_cast
      rfl
    rw [hn, JsNum.int_add_int, hstart, hstop, hcast, slice_natCast (by omega) (by omega),
      slice_natCast (by omega) (by omega), List.drop_append, List.drop_eq_nil_of_le (by omega),
      List.nil_append, Nat.add_sub_cancel_left, Nat.add_sub_add_left]
  · rw [if_neg fun hw' => hw ((hasWord_shift pre rest o).1 hw'), if_neg hw, Option.map_none]

/-- No word of the bytes leads back: none has a negative length. -/
def NoNegative (rest : Buf) : Prop := ∀ o, WordStart rest o → ¬ NegativeLength rest o

/-- The loop goes over the bytes in the same way wherever they stand, with what was collected
before them in front. -/
theorem loop_shift {rest : Buf} (hneg : NoNegative rest) (pre : Buf) {g : σ → σ}
    (hg : ∀ acc s, f (g acc) s = g (f acc s)) (fuel : ℕ) (acc : σ) (sentence : Sentence)
    (start o : ℕ) (ho : WordStart rest o) :
    loop (scanBody f (pre ++ rest)) fuel
        ⟨g acc, sentence, .int (pre.length + start : ℕ), .int (pre.length + o : ℕ)⟩ =
      ((loop (scanBody f rest) fuel ⟨acc, sentence, .int start, .int o⟩).map
        fun r => (g r.1, .int pre.length + r.2)) ∧
    ∀ r, loop (scanBody f rest) fuel ⟨acc, sentence, .int start, .int o⟩ = some r →
      ∃ n : ℕ, r.2 = .int n := by
  induction fuel generalizing acc sentence start o with
  | zero => exact ⟨rfl, nofun⟩
  | succ fuel ih =>
    simp only [loop, scanBody, readWord_shift (hneg o ho)]
    cases hr : readWord rest (.int o) with
    | none =>
      refine ⟨?_, fun r hsome => ⟨start, ?_⟩⟩
      · simp only [Option.map_none, Option.map_some, JsNum.int_add_int]
        push_cast
        rfl
      · exact (Option.some.inj hsome) ▸ rfl
    | some r =>
      obtain ⟨n, hn, -, -⟩ := (advances_iff rest o).2 (hneg o ho) r hr
      have hnext : WordStart rest n := by
        rw [readWord_natCast, wordAt] at hr
        split_ifs at hr with hw
        obtain rfl := Option.some.inj hr
        exact .next ho hw (JsNum.int.inj hn)
      have hcast : (JsNum.int pre.length + .int n) = .int (pre.length + n : ℕ) := by
        rw [JsNum.int_add_int]
        push_cast
        rfl
      simp only [Option.map_some, hn, hcast]
      by_cases hempty : r.word = []
      · simp only [hempty, if_true, hg]
        exact ih (f acc sentence) [] n n hnext
      · simp only [hempty, if_false]
        exact ih acc (sentence ++ [r.word]) start n hnext

theorem slice_rest (pre rest : Buf) (n : ℕ) :
    slice (pre ++ rest) (.int (pre.length + n : ℕ)) (.int (pre ++ rest).length) =
      slice rest (.int n) (.int rest.length) := by
  have hnat : ∀ (buf : Buf) (m : ℕ), adjustOffset (.int m) buf.length = min m buf.length := by
    intro buf m
    rw [adjustOffset, if_neg (by omega), Int.toNat_natCast]
  have hall : ∀ (buf : Buf) (m : ℕ), slice buf (.int m) (.int buf.length) = buf.drop m := by
    intro buf m
    rw [slice, hnat, hnat, Nat.min_self, List.take_of_length_le (by rw [List.length_drop])]
    rcases Nat.le_total m buf.length with hle | hle
    · rw [Nat.min_eq_left hle]
    · rw [Nat.min_eq_right hle, List.drop_length, List.drop_eq_nil_of_le hle]
  rw [hall, hall, List.drop_append, List.drop_eq_nil_of_le (by omega), List.nil_append,
    Nat.add_sub_cancel_left]

/-- **The reader continues with the following bytes**, when no word in them leads back. -/
theorem parseSentences_sent {words : Sentence} (hwords : WellFormed words) {rest : Buf}
    (hneg : NoNegative rest) (fuel : ℕ) :
    parseSentences (words.length + 1 + fuel) (sent words ++ rest) =
      (parseSentences fuel rest).map fun r => (words :: r.1, r.2) := by
  have hfirst := loop_sent (f := fun sentences sentence => sentences ++ [sentence]) hwords [] rest
    fuel []
  obtain ⟨hshift, hnat⟩ := loop_shift (f := fun sentences sentence => sentences ++ [sentence])
    (g := fun sentences => words :: sentences) hneg (sent words) (fun _ _ => rfl) fuel [] [] 0 0
    .first
  rw [parseSentences, parseSentences, Option.map_map]
  have hstart : loop (scanBody (fun sentences sentence => sentences ++ [sentence])
      (sent words ++ rest)) (words.length + 1 + fuel) (.start []) = _ := hfirst
  rw [hstart]
  have hrest : loop (scanBody (fun sentences sentence => sentences ++ [sentence])
      (sent words ++ rest)) fuel ⟨[words], [], .int (sent words).length,
        .int (sent words).length⟩ = _ := hshift
  simp only [List.nil_append]
  rw [hrest, Option.map_map]
  cases hloop : loop (scanBody (fun sentences sentence => sentences ++ [sentence]) rest) fuel
      ⟨[], [], .int (0 : ℕ), .int (0 : ℕ)⟩ with
  | none =>
    have hloop' : loop (scanBody (fun sentences sentence => sentences ++ [sentence]) rest) fuel
      (.start []) = none := hloop
    rw [hloop']
    rfl
  | some r =>
    have hloop' : loop (scanBody (fun sentences sentence => sentences ++ [sentence]) rest) fuel
      (.start []) = some r := hloop
    obtain ⟨n, hn⟩ := hnat r hloop
    rw [hloop', Option.map_some, Option.map_some]
    simp only [Function.comp_apply, hn, JsNum.int_add_int]
    rw [← slice_rest (sent words) rest n]
    push_cast
    rfl

/-! ### Streams -/

theorem sent_cons (w : Word) (words : Sentence) : sent (w :: words) = frame w ++ sent words := by
  rw [sent, sent, List.flatMap_cons, List.append_assoc]

theorem length_le_sent (words : Sentence) : words.length + 1 ≤ (sent words).length := by
  induction words with
  | nil => exact le_refl 1
  | cons w words ih =>
    have hpos := length_encodeLength_pos w.length
    simp only [sent_cons, frame, List.length_append, List.length_cons]
    omega

/-- The reader leaves at the start of a sentence of which a byte is missing. -/
theorem loop_cut {words : Sentence} (hwords : WellFormed words) {x : Buf} (hx : x <+: sent words)
    (hne : x.length < (sent words).length) (pre : Buf) (acc : σ) (sentence : Sentence)
    (start : JsNum) {fuel : ℕ} (hfuel : x.length < fuel) :
    loop (scanBody f (pre ++ x)) fuel ⟨acc, sentence, start, .int pre.length⟩ =
      some (acc, start) := by
  have hnone : ∀ {w : Word}, w.length < 2 ^ 28 → x <+: frame w → x.length < (frame w).length →
      loop (scanBody f (pre ++ x)) fuel ⟨acc, sentence, start, .int pre.length⟩ =
        some (acc, start) := by
    intro w hw hxw hlt
    obtain ⟨fuel, rfl⟩ := Nat.exists_eq_succ_of_ne_zero (Nat.ne_zero_of_lt hfuel)
    rw [loop, scanBody, readWord_cut hw hxw hlt]
  induction words generalizing pre sentence x fuel with
  | nil => exact hnone (w := []) (by simp) hx hne
  | cons w words ih =>
    rw [sent_cons] at hx hne
    have hw := hwords w List.mem_cons_self
    by_cases hlt : x.length < (frame w).length
    · exact hnone hw.2 (List.prefix_of_prefix_length_le hx (List.prefix_append _ _) hlt.le) hlt
    · obtain ⟨y, rfl⟩ : frame w <+: x :=
        List.prefix_of_prefix_length_le (List.prefix_append _ _) hx (by omega)
      have hy : y <+: sent words := (List.prefix_append_right_inj _).1 hx
      have hpos := length_encodeLength_pos w.length
      have hframe : (frame w).length = (encodeLength w.length).length + w.length :=
        List.length_append
      rw [List.length_append] at hfuel hne
      rw [List.length_append] at hne
      obtain ⟨fuel, rfl⟩ := Nat.exists_eq_succ_of_ne_zero (Nat.ne_zero_of_lt hfuel)
      have hwords' : WellFormed words := fun v hv => hwords v (List.mem_cons_of_mem _ hv)
      rw [loop_word hw, ← List.append_assoc]
      refine ih hwords' hy (by omega) (pre ++ frame w) _ (by omega) ?_
      intro v hv hyv hlt'
      obtain ⟨fuel, rfl⟩ := Nat.exists_eq_succ_of_ne_zero
        (show fuel ≠ 0 by omega)
      rw [loop, scanBody, readWord_cut hv hyv hlt']

/-- The bytes of sentences that are sent one after the other. -/
def stream (sentences : List Sentence) : Buf := sentences.flatMap sent

theorem stream_cons (s : Sentence) (sentences : List Sentence) :
    stream (s :: sentences) = sent s ++ stream sentences := List.flatMap_cons ..

theorem stream_append (done todo : List Sentence) :
    stream (done ++ todo) = stream done ++ stream todo := List.flatMap_append ..

/-- The first sentence is not all there. -/
def Missing (todo : List Sentence) (b : Buf) : Prop :=
  ∀ s rest, todo = s :: rest → b.length < (sent s).length

/-- From the beginning of a stream the reader takes the sentences that are all there. -/
theorem loop_stream {sentences : List Sentence} (h : ∀ s ∈ sentences, WellFormed s) {p : Buf}
    (hp : p <+: stream sentences) (pre : Buf) (acc : σ) {fuel : ℕ} (hfuel : p.length < fuel) :
    ∃ done todo b, sentences = done ++ todo ∧ p = stream done ++ b ∧ Missing todo b ∧
      loop (scanBody f (pre ++ p)) fuel ⟨acc, [], .int pre.length, .int pre.length⟩ =
        some (done.foldl f acc, .int (pre ++ stream done).length) := by
  induction sentences generalizing p pre acc fuel with
  | nil =>
    obtain rfl : p = [] := List.prefix_nil.1 hp
    refine ⟨[], [], [], rfl, rfl, nofun, ?_⟩
    obtain ⟨fuel, rfl⟩ := Nat.exists_eq_succ_of_ne_zero (Nat.ne_zero_of_lt hfuel)
    have hnone := readWord_cut (w := []) (x := []) (by simp) List.nil_prefix (by decide) pre
    rw [loop, scanBody, hnone]
    simp only [List.foldl_nil, stream, List.flatMap_nil, List.append_nil]
  | cons s sentences ih =>
    rw [stream_cons] at hp
    have hs := h s List.mem_cons_self
    by_cases hlt : p.length < (sent s).length
    · have hcut : p <+: sent s :=
        List.prefix_of_prefix_length_le hp (List.prefix_append _ _) hlt.le
      refine ⟨[], s :: sentences, p, rfl, rfl, ?_, ?_⟩
      · rintro t rest heq
        obtain ⟨rfl, -⟩ := List.cons.inj heq
        exact hlt
      · rw [loop_cut hs hcut hlt pre acc [] (.int pre.length) hfuel]
        simp only [List.foldl_nil, stream, List.flatMap_nil, List.append_nil]
    · obtain ⟨q, rfl⟩ : sent s <+: p :=
        List.prefix_of_prefix_length_le (List.prefix_append _ _) hp (by omega)
      have hq : q <+: stream sentences := (List.prefix_append_right_inj _).1 hp
      have hwords := length_le_sent s
      rw [List.length_append] at hfuel
      obtain ⟨more, rfl⟩ : ∃ more, fuel = s.length + 1 + more := ⟨fuel - (s.length + 1), by omega⟩
      obtain ⟨done, todo, b, rfl, rfl, hmissing, hloop⟩ :=
        ih (fun t ht => h t (List.mem_cons_of_mem _ ht)) hq (pre ++ sent s) (f acc s)
          (show q.length < more by omega)
      refine ⟨s :: done, todo, b, rfl, ?_, hmissing, ?_⟩
      · rw [stream_cons, List.append_assoc]
      · rw [loop_sent hs, ← List.append_assoc pre, hloop, stream_cons, ← List.append_assoc pre,
          List.foldl_cons]

/-! ### Chunks -/

namespace Client

theorem onSentence_withBuf (c : Client) (b : Buf) (s : Sentence) :
    ({ c with buf := b } : Client).onSentence s = { c.onSentence s with buf := b } := by
  obtain ⟨buf, _ | ⟨q, rest⟩, settled, nextId⟩ := c
  · rfl
  · cases s with
    | nil => rfl
    | cons type words =>
      show (if _ then _ else if _ then _ else _) =
        { (if type = ascii "!done" then _ else if _ then _ else _ : Client) with buf := b }
      split_ifs <;> rfl

theorem foldl_onSentence_withBuf (c : Client) (b : Buf) (sentences : List Sentence) :
    sentences.foldl onSentence { c with buf := b } =
      { sentences.foldl onSentence c with buf := b } := by
  induction sentences generalizing c with
  | nil => rfl
  | cons s sentences ih => rw [List.foldl_cons, List.foldl_cons, onSentence_withBuf, ih]

theorem onData_stream {sentences : List Sentence} (h : ∀ s ∈ sentences, WellFormed s) {c : Client}
    {chunk : Buf} (hp : c.buf ++ chunk <+: stream sentences) {fuel : ℕ}
    (hfuel : (c.buf ++ chunk).length < fuel) :
    ∃ done todo b, sentences = done ++ todo ∧ c.buf ++ chunk = stream done ++ b ∧
      Missing todo b ∧
      c.onData fuel chunk = some { done.foldl onSentence c with buf := b } := by
  obtain ⟨done, todo, b, hsplit, hbuf, hmissing, hloop⟩ :=
    loop_stream (f := onSentence) h hp [] { c with buf := c.buf ++ chunk } hfuel
  refine ⟨done, todo, b, hsplit, hbuf, hmissing, ?_⟩
  have hstart : loop (scanBody onSentence (c.buf ++ chunk)) fuel
      (.start { c with buf := c.buf ++ chunk }) = _ := hloop
  have hslice : slice (c.buf ++ chunk) (.int (stream done).length) (.int (c.buf ++ chunk).length) =
      b := by
    have hrest := slice_rest (stream done) b 0
    rw [Nat.add_zero, ← hbuf] at hrest
    rw [hrest, slice_natCast (Nat.zero_le _) le_rfl, List.drop_zero, Nat.sub_zero, List.take_length]
  rw [onData, hstart, Option.map_some, foldl_onSentence_withBuf, List.nil_append]
  simp only [hslice]

/-- The chunks of a stream, one after the other. -/
def feed (fuel : ℕ) (c : Client) (chunks : List Buf) : Option Client :=
  chunks.foldlM (fun c chunk => c.onData fuel chunk) c

/-- The chunks of a stream deliver its sentences, wherever it is cut. -/
theorem feed_stream {sentences : List Sentence} (h : ∀ s ∈ sentences, WellFormed s) {c : Client}
    {chunks : List Buf} (hstream : c.buf ++ chunks.flatten = stream sentences)
    (hmissing : Missing sentences c.buf) {fuel : ℕ} (hfuel : (stream sentences).length < fuel) :
    c.feed fuel chunks = some { sentences.foldl onSentence c with buf := [] } := by
  induction chunks generalizing c sentences with
  | nil =>
    rw [List.flatten_nil, List.append_nil] at hstream
    cases sentences with
    | nil =>
      have hbuf : c.buf = [] := hstream
      show some c = some { c with buf := [] }
      rw [← hbuf]
    | cons s sentences =>
      have hlt := hmissing s sentences rfl
      rw [hstream, stream_cons, List.length_append] at hlt
      omega
  | cons chunk chunks ih =>
    rw [List.flatten_cons, ← List.append_assoc] at hstream
    have hp : c.buf ++ chunk <+: stream sentences := ⟨_, hstream⟩
    obtain ⟨done, todo, b, rfl, hbuf, hmissing', hdata⟩ :=
      onData_stream h hp (lt_of_le_of_lt hp.length_le hfuel)
    rw [hbuf, stream_append, List.append_assoc] at hstream
    have hrest : b ++ chunks.flatten = stream todo := List.append_cancel_left hstream
    rw [stream_append, List.length_append] at hfuel
    have hfeed := ih (c := { done.foldl onSentence c with buf := b })
      (fun s hs => h s (List.mem_append_right _ hs)) hrest hmissing' (by omega)
    rw [feed, List.foldlM_cons, hdata]
    show feed fuel { done.foldl onSentence c with buf := b } chunks = _
    rw [hfeed, foldl_onSentence_withBuf, List.foldl_append]

end Client

/-! ### Texts -/

theorem wellFormed_map {words : List String} (h : ∀ word ∈ words, Sendable word) :
    WellFormed (words.map utf8) := by
  intro w hw
  obtain ⟨word, hword, rfl⟩ := List.mem_map.1 hw
  refine ⟨fun hnil => (h word hword).1 ?_, (h word hword).2⟩
  exact utf8_injective (hnil.trans rfl)

theorem encodeSentence_eq_sent (words : List String) :
    encodeSentence words = sent (words.map utf8) := by
  rw [encodeSentence, sent, List.flatMap_map]
  rfl

theorem flatMap_encodeSentence (sentences : List (List String)) :
    sentences.flatMap encodeSentence = stream (sentences.map (List.map utf8)) := by
  rw [stream, List.flatMap_map]
  exact List.flatMap_congr fun words _ => encodeSentence_eq_sent words

theorem decode_words (words : List String) : (words.map utf8).map utf8Decode = words := by
  rw [List.map_map]
  exact List.map_id'' (fun word => utf8Decode_utf8 word) words

/-- **Encoded sentences are read back**: the words of a sentence come first and the reader goes on
with exactly the bytes behind it, when no word in these has a negative length; and a stream of
sentences is delivered in the same way however it is cut. -/
theorem sentences_read_back (sentences : List (List String))
    (hsentences : ∀ words ∈ sentences, ∀ word ∈ words, Sendable word) :
    (∀ words ∈ sentences, ∀ rest : Buf, NoNegative rest →
      (words.map utf8).map utf8Decode = words ∧ ParseHalts (encodeSentence words ++ rest) ∧
      ∀ fuel, parseSentences (words.length + 1 + fuel) (encodeSentence words ++ rest) =
        (parseSentences fuel rest).map fun r => (words.map utf8 :: r.1, r.2)) ∧
    ∀ (chunks : List Buf) (c : Client) (fuel : ℕ), c.buf = [] →
      chunks.flatten = sentences.flatMap encodeSentence →
      (sentences.flatMap encodeSentence).length < fuel →
      c.feed fuel chunks = c.onData fuel (sentences.flatMap encodeSentence) ∧
      c.feed fuel chunks =
        some { (sentences.map (List.map utf8)).foldl Client.onSentence c with buf := [] } := by
  constructor
  · intro words hmem rest hneg
    have hwords := hsentences words hmem
    have hparse := fun fuel => parseSentences_sent (wellFormed_map hwords) hneg fuel
    rw [← encodeSentence_eq_sent, List.length_map] at hparse
    refine ⟨decode_words words, ?_, hparse⟩
    obtain ⟨fuel, r, hr⟩ := parseHalts_of_halts (scan_halts hneg [])
    exact ⟨words.length + 1 + fuel, _, by rw [hparse, hr, Option.map_some]⟩
  · intro chunks c fuel hbuf hchunks hfuel
    have hwell : ∀ s ∈ sentences.map (List.map utf8), WellFormed s := by
      intro s hs
      obtain ⟨words, hwords, rfl⟩ := List.mem_map.1 hs
      exact wellFormed_map (hsentences words hwords)
    rw [flatMap_encodeSentence] at hchunks hfuel ⊢
    have hmissing : Missing (sentences.map (List.map utf8)) c.buf := by
      intro s rest _
      have hpos := length_le_sent s
      rw [hbuf, List.length_nil]
      omega
    have hall : ∀ chunks : List Buf, chunks.flatten = stream (sentences.map (List.map utf8)) →
        c.feed fuel chunks =
          some { (sentences.map (List.map utf8)).foldl Client.onSentence c with buf := [] } := by
      intro chunks hchunks
      exact Client.feed_stream hwell (by rw [hbuf, List.nil_append, hchunks]) hmissing hfuel
    have hwhole := hall [stream (sentences.map (List.map utf8))] (by simp)
    have hone : c.feed fuel [stream (sentences.map (List.map utf8))] =
        c.onData fuel (stream (sentences.map (List.map utf8))) := by
      rw [Client.feed, List.foldlM_cons]
      exact bind_pure _
    exact ⟨(hall chunks hchunks).trans (hwhole.symm.trans hone), hall chunks hchunks⟩

/-- A login reply with the beginning of the next word behind it, and the same reply in three
pieces. -/
theorem sentences_read_back_login :
    parseSentences 4 (encodeSentence ["!done", "=ret=00"] ++ [2, 33]) =
        some ([["!done", "=ret=00"].map utf8], [2, 33]) ∧
      Client.init.feed 16 [[5, 33, 100], [111, 110], [101, 7, 61, 114, 101, 116, 61, 48, 48, 0]] =
        some Client.init := by
  have hsendable : ∀ words ∈ [["!done", "=ret=00"]], ∀ word ∈ words, Sendable word := by
    intro words hwords word hword
    obtain rfl := List.mem_singleton.1 hwords
    rcases List.mem_pair.1 hword with rfl | rfl
    · exact ⟨by decide, by decide⟩
    · exact ⟨by decide, by decide⟩
  have hneg : NoNegative [2, 33] := by
    intro o _ hlong
    have hlen : o + 5 ≤ 2 := hlong.1
    omega
  obtain ⟨hfirst, hchunks⟩ := sentences_read_back [["!done", "=ret=00"]] hsendable
  constructor
  · exact ((hfirst _ List.mem_cons_self [2, 33] hneg).2.2 1).trans (by decide)
  · exact (hchunks _ Client.init 16 rfl (by decide) (by decide)).2.trans (by decide)

/-- The length behind `!done` is `-5`: the reader stays where it stands. -/
theorem following_length_loops :
    ¬ ParseHalts (encodeSentence ["!done"] ++ [0xf0, 0xff, 0xff, 0xff, 0xfb]) := by
  have hbytes : encodeSentence ["!done"] ++ [0xf0, 0xff, 0xff, 0xff, 0xfb] =
      [5, 33, 100, 111, 110, 101, 0, 0xf0, 0xff, 0xff, 0xff, 0xfb] := by decide
  rw [hbytes]
  rintro ⟨fuel, r, hr⟩
  rw [parseSentences, Option.map_eq_some_iff] at hr
  obtain ⟨a, ha, -⟩ := hr
  have h0 : readWord [5, 33, 100, 111, 110, 101, 0, 0xf0, 0xff, 0xff, 0xff, 0xfb] (.int 0) =
      some ⟨[33, 100, 111, 110, 101], .int 6⟩ := by decide
  have h6 : readWord [5, 33, 100, 111, 110, 101, 0, 0xf0, 0xff, 0xff, 0xff, 0xfb] (.int 6) =
      some ⟨[], .int 7⟩ := by decide
  have h7 : readWord [5, 33, 100, 111, 110, 101, 0, 0xf0, 0xff, 0xff, 0xff, 0xfb] (.int 7) =
      some ⟨[], .int 7⟩ := by decide
  refine not_halts_of_inv (fun s => s.offset = .int 0 ∨ s.offset = .int 6 ∨ s.offset = .int 7)
    ?_ (Or.inl rfl) ⟨fuel, a, ha⟩
  rintro s (h | h | h)
  · rw [← h] at h0
    obtain ⟨s', hs', hoff⟩ := scanBody_of_some h0
    exact ⟨s', hs', Or.inr (Or.inl hoff)⟩
  · rw [← h] at h6
    obtain ⟨s', hs', hoff⟩ := scanBody_of_some h6
    exact ⟨s', hs', Or.inr (Or.inr hoff)⟩
  · rw [← h] at h7
    obtain ⟨s', hs', hoff⟩ := scanBody_of_some h7
    exact ⟨s', hs', Or.inr (Or.inr (hoff.trans h))⟩

end Vigabss.Routeros
