import Vigabss.Routeros.Codec

/-!
# Vigabss.Routeros.Client — the pending queue of `RouterOSClient`

A client holds the bytes it has not read yet and the queue of commands that wait for their
reply.  Replies carry no tag: `onSentence` gives every sentence to the head of the queue.  The
promises are a log `settled` of what each command's promise was settled with, by its number.
-/

namespace Vigabss.Routeros

open Vigabss.Lib

/-- What a command's promise was settled with. -/
inductive Outcome where
  | resolved (sentences : List Sentence)
  | rejected (message : Word) (routerUnreachable : Bool)
  deriving DecidableEq, Repr

/-- An entry of `_pending`.  The number `id` stands for the identity of its `reject` function,
and `command` is the `words[0]` that the timer's message names. -/
structure Pending where
  id : ℕ
  command : Word
  sentences : List Sentence
  deriving DecidableEq, Repr

/-- The state of a `RouterOSClient` once it is connected. -/
structure Client where
  buf : Buf
  pending : List Pending
  settled : List (ℕ × Outcome)
  nextId : ℕ
  deriving DecidableEq, Repr

/-- A freshly connected client. -/
def Client.init : Client := ⟨[], [], [], 0⟩

namespace Client

/-- `words[0]` inside a template string. -/
def commandName (words : Sentence) : Word := words.head?.getD (ascii "undefined")

/-- `_sendSentence(words)`: queue a promise and write the words.  When the write throws, the
entry is popped again and the promise rejects with the error of the write. -/
def sendSentence (c : Client) (words : Sentence) (writeError : Option Word) : Client :=
  match writeError with
  | none =>
    { c with
      pending := c.pending ++ [⟨c.nextId, commandName words, []⟩]
      nextId := c.nextId + 1 }
  | some err =>
    { c with
      settled := c.settled ++ [(c.nextId, .rejected err false)]
      nextId := c.nextId + 1 }

/-- The timer of command `id` fires.  A settled command has cleared its timer. -/
def commandTimeout (c : Client) (id : ℕ) : Client :=
  match c.pending.find? (fun p => p.id = id) with
  | none => c
  | some p =>
    { c with
      pending := c.pending.filter fun p => p.id ≠ id
      settled := c.settled ++
        [(id, .rejected (ascii "RouterOS command timed out: " ++ p.command) true)] }

/-- The message of a rejecting sentence: its first `=message=` word, else its type. -/
def errorMessage (sentence : Sentence) (type : Word) : Word :=
  match sentence.find? fun w => (ascii "=message=").isPrefixOf w with
  | some msg => msg.drop 9
  | none => ascii "RouterOS " ++ type

/-- `_onSentence(sentence)`. -/
def onSentence (c : Client) (sentence : Sentence) : Client :=
  match c.pending with
  | [] => c
  | p :: rest =>
    let sentences := p.sentences ++ [sentence]
    match sentence.head? with
    | some type =>
      if type = ascii "!done" then
        { c with pending := rest, settled := c.settled ++ [(p.id, .resolved sentences)] }
      else if type = ascii "!trap" ∨ type = ascii "!fatal" then
        { c with
          pending := rest
          settled := c.settled ++ [(p.id, .rejected (errorMessage sentence type) false)] }
      else { c with pending := { p with sentences } :: rest }
    | none => { c with pending := { p with sentences } :: rest }

/-- `_onData(chunk)` with at most `fuel` words. -/
def onData (fuel : ℕ) (c : Client) (chunk : Buf) : Option Client :=
  let buf := c.buf ++ chunk
  (loop (scanBody onSentence buf) fuel (.start { c with buf })).map fun (c, startOffset) =>
    { c with buf := slice buf startOffset (.int buf.length) }

/-- The loop shared by `_onSocketError` and `_onClose`: reject every pending command. -/
def rejectPending (c : Client) (message : Word) : Client :=
  { c with
    pending := []
    settled := c.settled ++ c.pending.map fun p => (p.id, .rejected message true) }

/-- `_onSocketError(err)`. -/
def onSocketError (c : Client) (err : Word) : Client := c.rejectPending err

/-- `_onClose()`. -/
def onClose (c : Client) : Client := c.rejectPending (ascii "RouterOS connection closed")

/-! ### What each operation does to the queue -/

@[simp] theorem sendSentence_nextId (c : Client) (words : Sentence) (writeError : Option Word) :
    (c.sendSentence words writeError).nextId = c.nextId + 1 := by
  cases writeError <;> rfl

theorem sendSentence_pending (c : Client) (words : Sentence) (writeError : Option Word) :
    (c.sendSentence words writeError).pending = c.pending ++
      if writeError = none then [⟨c.nextId, commandName words, []⟩] else [] := by
  cases writeError <;> simp [sendSentence]

theorem sendSentence_settled (c : Client) (words : Sentence) (writeError : Option Word) :
    (c.sendSentence words writeError).settled = c.settled ++
      writeError.toList.map fun err => (c.nextId, .rejected err false) := by
  cases writeError <;> simp [sendSentence]

/-- A sentence that is neither `!done`, `!trap` nor `!fatal`. -/
def IsRow (sentence : Sentence) : Prop :=
  ∀ type, sentence.head? = some type →
    type ≠ ascii "!done" ∧ type ≠ ascii "!trap" ∧ type ≠ ascii "!fatal"

theorem onSentence_nil {c : Client} (h : c.pending = []) (x : Sentence) : c.onSentence x = c := by
  simp [onSentence, h]

theorem onSentence_row {c : Client} {p : Pending} {rest : List Pending} {x : Sentence}
    (h : c.pending = p :: rest) (hx : IsRow x) :
    c.onSentence x = { c with pending := { p with sentences := p.sentences ++ [x] } :: rest } := by
  unfold onSentence
  rw [h]
  cases hh : x.head? with
  | none => rfl
  | some type =>
    obtain ⟨h₁, h₂, h₃⟩ := hx type hh
    simp [h₁, h₂, h₃]

theorem onSentence_done {c : Client} {p : Pending} {rest : List Pending} {x : Sentence}
    (h : c.pending = p :: rest) (hx : x.head? = some (ascii "!done")) :
    c.onSentence x =
      { c with
        pending := rest
        settled := c.settled ++ [(p.id, .resolved (p.sentences ++ [x]))] } := by
  simp [onSentence, h, hx]

theorem onSentence_trap {c : Client} {p : Pending} {rest : List Pending} {x : Sentence}
    (h : c.pending = p :: rest) (hx : x.head? = some (ascii "!trap")) :
    c.onSentence x =
      { c with
        pending := rest
        settled := c.settled ++
          [(p.id, .rejected (errorMessage x (ascii "!trap")) false)] } := by
  have hne : ascii "!trap" ≠ ascii "!done" := by decide
  simp [onSentence, h, hx, hne]

end Client

end Vigabss.Routeros

/-!
## When the reader gets on

The reader goes round its loop as long as `readWord` finds a word, so it ends only because every
word lies behind the one before it.  A five-byte prefix is read with its sign: from `0x80000000`
on the length is negative, and below `-4` it cancels the five bytes of the prefix.  Those are
the prefixes on which the reader does not get on (`advances_iff`), and when no word start holds
one, both loops finish (`reader_terminates_iff`).
-/

namespace Vigabss.Routeros

open Vigabss.Lib

variable {σ : Type*}

/-- `readWord` at `o` returns `null`, or a `nextOffset` past `o` and inside the buffer. -/
def Advances (buf : Buf) (o : JsNum) : Prop :=
  ∀ r, readWord buf o = some r →
    ∃ n : ℕ, r.nextOffset = .int n ∧ o.lt (.int n) = true ∧ n ≤ buf.length

/-- The five-byte length prefix at `o` is complete and its big-endian value is one of
`0x80000000 … 0xFFFFFFFB`: as a signed number it is `-5` or less. -/
def NegativeLength (buf : Buf) (o : ℕ) : Prop :=
  o + 5 ≤ buf.length ∧ 0xf0 ≤ (byte buf o).toNat ∧
    0x80000000 ≤ prefixValue buf o ∧ prefixValue buf o ≤ 0xFFFFFFFB

/-- The offsets at which a word of the buffer starts: the beginning, and behind every word that
is complete. -/
inductive WordStart (buf : Buf) : ℕ → Prop where
  | first : WordStart buf 0
  | next {o n : ℕ} : WordStart buf o → HasWord buf o → wordEnd buf o = n → WordStart buf n

/-- `parseSentences(buf)` finishes. -/
def ParseHalts (buf : Buf) : Prop := ∃ fuel r, parseSentences fuel buf = some r

/-- `_onData(chunk)` finishes. -/
def OnDataHalts (c : Client) (chunk : Buf) : Prop := ∃ fuel c', c.onData fuel chunk = some c'

/-- `readWord` gets on at every offset it is called with while the buffer is parsed. -/
def ReadsAdvance (buf : Buf) : Prop :=
  ∀ s, Visits (scanBody (fun sentences sentence => sentences ++ [sentence]) buf)
    (.start ([] : List Sentence)) s → Advances buf s.offset

/-! ### One word -/

theorem headerBytes_of_ge {buf : Buf} {o : ℕ} (h : 0xf0 ≤ (byte buf o).toNat) :
    headerBytes buf o = 5 := by
  unfold headerBytes lengthPrefix
  dsimp only [Nat.add_zero]
  rw [if_neg (by omega), if_neg (by omega), if_neg (by omega), if_neg (by omega)]

theorem prefixValue_lt_two_pow (buf : Buf) (o : ℕ) : prefixValue buf o < 2 ^ 32 := by
  by_cases h : (byte buf o).toNat < 0xf0
  · have := prefixValue_lt h
    omega
  have h₁ := (byte buf (o + 1)).toNat_lt
  have h₂ := (byte buf (o + 2)).toNat_lt
  have h₃ := (byte buf (o + 3)).toNat_lt
  have h₄ := (byte buf (o + 4)).toNat_lt
  unfold prefixValue lengthPrefix
  dsimp only [Nat.add_zero]
  rw [if_neg (by omega), if_neg (by omega), if_neg (by omega), if_neg h]
  dsimp only
  omega

theorem lt_wordEnd_iff {buf : Buf} {o : ℕ} (hw : HasWord buf o) :
    (o : ℤ) < wordEnd buf o ↔ ¬ NegativeLength buf o := by
  obtain ⟨ho, hh, -⟩ := hw
  have hpos := headerBytes_pos buf o
  have hlt := prefixValue_lt_two_pow buf o
  unfold NegativeLength wordEnd
  by_cases h : (byte buf o).toNat < 0xf0
  · rw [wordLength_of_lt h]
    omega
  · rw [headerBytes_of_ge (by omega)] at hh ⊢
    unfold wordLength JsNum.signed32
    split_ifs <;> omega

theorem hasWord_of_negative {buf : Buf} {o : ℕ} (h : NegativeLength buf o) : HasWord buf o := by
  obtain ⟨hlen, hb, hlo, hhi⟩ := h
  refine ⟨by omega, by rw [headerBytes_of_ge hb]; exact hlen, ?_⟩
  unfold wordEnd wordLength JsNum.signed32
  rw [headerBytes_of_ge hb, if_neg (by omega)]
  omega

/-- **`readWord` gets on at an offset exactly when no negative length is there.** -/
theorem advances_iff (buf : Buf) (o : ℕ) : Advances buf (.int o) ↔ ¬ NegativeLength buf o := by
  unfold Advances
  rw [readWord_natCast, wordAt]
  constructor
  · intro h hneg
    have hw := hasWord_of_negative hneg
    rw [if_pos hw] at h
    obtain ⟨n, hn, hlt, -⟩ := h _ rfl
    rw [JsNum.int.injEq] at hn
    simp only [JsNum.int_lt_int, decide_eq_true_eq] at hlt
    exact (lt_wordEnd_iff hw).1 (by omega) hneg
  · intro h r hr
    split_ifs at hr with hw
    obtain rfl := Option.some.inj hr
    have hlt := (lt_wordEnd_iff hw).2 h
    obtain ⟨n, hn⟩ := Int.eq_ofNat_of_zero_le (show 0 ≤ wordEnd buf o by omega)
    have hle := hw.2.2
    rw [hn] at hlt hle ⊢
    exact ⟨n, rfl, by simpa using hlt, by omega⟩

/-! ### The loops -/

/-- The loop is at a word start. -/
def AtWordStart (buf : Buf) (s : Scan σ) : Prop := ∃ o : ℕ, s.offset = .int o ∧ WordStart buf o

theorem pass_advances {f : σ → Sentence → σ} {buf : Buf}
    (hneg : ∀ o, WordStart buf o → ¬ NegativeLength buf o) {s s' : Scan σ}
    (hs : AtWordStart buf s) (hb : scanBody f buf s = .again s') :
    AtWordStart buf s' ∧
      ∃ o n : ℕ, s.offset = .int o ∧ s'.offset = .int n ∧ o < n ∧ n ≤ buf.length := by
  obtain ⟨o, ho, hstart⟩ := hs
  obtain ⟨r, hr, hoff⟩ := scanBody_again hb
  rw [ho] at hr
  obtain ⟨n, hn, hlt, hle⟩ := (advances_iff buf o).2 (hneg o hstart) r hr
  have hlt' : o < n := by simpa using hlt
  refine ⟨⟨n, by rw [hoff, hn], ?_⟩, o, n, ho, by rw [hoff, hn], hlt', hle⟩
  rw [readWord_natCast, wordAt] at hr
  split_ifs at hr with hw
  obtain rfl := Option.some.inj hr
  exact .next hstart hw (JsNum.int.inj hn)

/-- The bytes that are left behind the offset of the loop. -/
def bytesLeft (buf : Buf) (s : Scan σ) : ℕ :=
  match s.offset with
  | .int o => buf.length - o.toNat
  | .nan => 0

/-- **Either loop finishes** when no word start holds a negative length: every pass leaves fewer
bytes. -/
theorem scan_halts {f : σ → Sentence → σ} {buf : Buf}
    (hneg : ∀ o, WordStart buf o → ¬ NegativeLength buf o) (acc : σ) :
    Halts (scanBody f buf) (.start acc) := by
  refine Halts.of_measure (AtWordStart buf) (bytesLeft buf) ?_ _ ⟨0, rfl, .first⟩
  intro s s' hs hb
  obtain ⟨hs', o, n, ho, hn, hlt, hle⟩ := pass_advances hneg hs hb
  refine ⟨hs', ?_⟩
  simp only [bytesLeft, ho, hn, Int.toNat_natCast]
  omega

theorem visits_wordStart (f : σ → Sentence → σ) {buf : Buf} (acc : σ) {o : ℕ}
    (h : WordStart buf o) : ∃ s, Visits (scanBody f buf) (.start acc) s ∧ s.offset = .int o := by
  induction h with
  | first => exact ⟨_, .start, rfl⟩
  | @next o n _ hw hend ih =>
    obtain ⟨s, hv, ho⟩ := ih
    have hr : readWord buf s.offset = some
        ⟨slice buf (.int (o + headerBytes buf o)) (.int (wordEnd buf o)), .int (wordEnd buf o)⟩ := by
      rw [ho, readWord_natCast, wordAt, if_pos hw]
    obtain ⟨s', hb, hoff⟩ := scanBody_of_some (f := f) hr
    exact ⟨s', hv.next hb, by rw [hoff, hend]⟩

theorem parseHalts_of_halts {buf : Buf}
    (h : Halts (scanBody (fun sentences sentence => sentences ++ [sentence]) buf)
      (.start ([] : List Sentence))) : ParseHalts buf := by
  obtain ⟨fuel, r, hr⟩ := h
  exact ⟨fuel, _, by rw [parseSentences, hr, Option.map_some]⟩

theorem onDataHalts_of_halts {c : Client} {chunk : Buf}
    (h : Halts (scanBody Client.onSentence (c.buf ++ chunk))
      (.start { c with buf := c.buf ++ chunk })) : OnDataHalts c chunk := by
  obtain ⟨fuel, r, hr⟩ := h
  exact ⟨fuel, _, by rw [Client.onData, hr, Option.map_some]⟩

/-- **When the RouterOS reader terminates.**  At any offset `readWord` gets on if and only if
there is no negative length there.  Parsing a buffer gets on at every word and both
`parseSentences` and `_onData` finish if and only if no word of the buffer starts with a negative
length. -/
theorem reader_terminates_iff (buf : Buf) :
    (∀ o : ℕ, Advances buf (.int o) ↔ ¬ NegativeLength buf o) ∧
    ((ReadsAdvance buf ∧ ParseHalts buf ∧
        ∀ (c : Client) (chunk : Buf), c.buf ++ chunk = buf → OnDataHalts c chunk) ↔
      ∀ o, WordStart buf o → ¬ NegativeLength buf o) := by
  refine ⟨advances_iff buf, ?_, fun hneg => ⟨?_, ?_, ?_⟩⟩
  · rintro ⟨hadv, -⟩ o ho
    obtain ⟨s, hv, hoff⟩ := visits_wordStart _ _ ho
    rw [← advances_iff, ← hoff]
    exact hadv s hv
  · intro s hv
    obtain ⟨o, ho, hstart⟩ := Visits.inv (AtWordStart buf)
      (fun s s' hs hb => (pass_advances hneg hs hb).1) ⟨0, rfl, .first⟩ hv
    rw [ho]
    exact (advances_iff buf o).2 (hneg o hstart)
  · exact parseHalts_of_halts (scan_halts hneg [])
  · rintro c chunk rfl
    exact onDataHalts_of_halts (scan_halts hneg _)

/-! ### A buffer on which the reader does not stop

The five bytes `F0 FF FF FF FB` are a length of `-5`: the empty word at offset 0 ends at
offset 0, where the reader starts over. -/

theorem not_halts_of_stuck {f : σ → Sentence → σ} {buf : Buf} {w : Word}
    (h : readWord buf 0 = some ⟨w, 0⟩) (acc : σ) : ¬ Halts (scanBody f buf) (.start acc) := by
  refine not_halts_of_inv (fun s => s.offset = 0) (fun s hs => ?_) rfl
  have hs' : readWord buf s.offset = some ⟨w, 0⟩ := by
    rw [hs]
    exact h
  exact scanBody_of_some hs'

/-- The reader of RouterOS sentences loops for ever on five bytes. -/
theorem reader_loops_on_five_bytes :
    readWord [0xf0, 0xff, 0xff, 0xff, 0xfb] 0 = some ⟨[], 0⟩ ∧
      ¬ ParseHalts [0xf0, 0xff, 0xff, 0xff, 0xfb] ∧
      ¬ OnDataHalts Client.init [0xf0, 0xff, 0xff, 0xff, 0xfb] := by
  have h : readWord [0xf0, 0xff, 0xff, 0xff, 0xfb] 0 = some ⟨[], 0⟩ := by decide
  refine ⟨h, ?_, ?_⟩
  · rintro ⟨fuel, r, hr⟩
    rw [parseSentences, Option.map_eq_some_iff] at hr
    obtain ⟨a, ha, -⟩ := hr
    exact not_halts_of_stuck h _ ⟨fuel, a, ha⟩
  · rintro ⟨fuel, r, hr⟩
    rw [Client.onData, Option.map_eq_some_iff] at hr
    obtain ⟨a, ha, -⟩ := hr
    exact absurd ⟨fuel, a, ha⟩ (not_halts_of_stuck h _)

end Vigabss.Routeros
