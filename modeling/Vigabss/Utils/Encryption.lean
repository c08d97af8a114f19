import Vigabss.Lib.Except
import Vigabss.Lib.Hex
import Vigabss.Lib.Utf8

/-!
# Vigabss.Utils.Encryption — AES-256-GCM envelope encryption

Sealed values `vb1:<key id>:<iv>:<auth tag>:<ciphertext>`, the ring of keys that open them, and
`resealWithCurrentKey`, which seals again with the current key what another key of the ring sealed.
SHA-256 and AES-256-GCM are node's: a `Crypto` says what they compute.
-/

namespace Vigabss.Utils.Encryption

open Vigabss.Lib
open JsText (split trim)

/-! ### node's crypto -/

/-- SHA-256, and AES-256-GCM's ciphertext with its tag; `decrypt` gives nothing where the bytes do
not authenticate. -/
structure Crypto where
  sha256 : Bytes → Bytes
  encrypt : (key iv plaintext : Bytes) → Bytes × Bytes
  decrypt : (key iv tag ciphertext : Bytes) → Option Bytes

def IV_LENGTH : ℕ := 12
def TAG_LENGTH : ℕ := 16

/-- What `crypto` documents: the lengths of a digest and of a tag, and that a key opens what it
sealed. -/
structure Crypto.Lawful (C : Crypto) : Prop where
  digest : ∀ bytes, (C.sha256 bytes).length = 32
  tag : ∀ key iv plaintext, (C.encrypt key iv plaintext).2.length = TAG_LENGTH
  opens : ∀ key iv plaintext, key.length = 32 → iv.length = IV_LENGTH →
    C.decrypt key iv (C.encrypt key iv plaintext).2 (C.encrypt key iv plaintext).1 = some plaintext

/-- What `crypto.randomBytes(IV_LENGTH)` returns. -/
abbrev Iv := {bytes : Bytes // bytes.length = IV_LENGTH}

/-! ### The keys -/

/-- An error's `code` and `message`. -/
structure Failure where
  code : Option String
  message : String
  deriving DecidableEq, Repr

/-- `process.env`. -/
structure Env where
  ENCRYPTION_KEY : Option (List Char)
  ENCRYPTION_KEYS_PREVIOUS : Option (List Char)

/-- `HEX_64_RE.test(hex)`. -/
def isHex64 (hex : List Char) : Bool := hex.length = 64 ∧ hex.all Hex.isHex

def parseKey (hex : List Char) (name : String) : Except Failure Bytes :=
  if isHex64 hex then .ok (Hex.toBytes hex)
  else .error ⟨none, name ++ " must be a 64-character hex string (256 bits)"⟩

/-- The id a ciphertext carries for a key: 8 hex digits of its SHA-256. -/
def keyIdOf (C : Crypto) (key : Bytes) : List Char := (Hex.ofBytes (C.sha256 key)).take 8

def getKey (env : Env) : Except Failure (Option Bytes) :=
  match env.ENCRYPTION_KEY.getD [] with
  | [] => .ok none
  | hex => (parseKey hex "ENCRYPTION_KEY").map some

/-- An entry of the ring. -/
structure RingKey where
  id : List Char
  key : Bytes
  deriving DecidableEq, Repr

/-- The current key, then each previous one. -/
def keyRing (C : Crypto) (env : Env) : Except Failure (List RingKey) := do
  match ← getKey env with
  | none => .ok []
  | some current =>
    let previous ← (((split ',' (env.ENCRYPTION_KEYS_PREVIOUS.getD [])).map trim).filter
      (· ≠ [])).mapM fun hex => parseKey hex "Each ENCRYPTION_KEYS_PREVIOUS entry"
    .ok ((current :: previous).map fun key => ⟨keyIdOf C key, key⟩)

/-! ### One sealed value -/

/-- The groups of `CIPHERTEXT_RE`. -/
structure Sealed where
  kid : List Char
  iv : List Char
  tag : List Char
  enc : List Char
  deriving DecidableEq, Repr

/-- The text of a sealed value. -/
def Sealed.text (v : Sealed) : List Char :=
  "vb1:".toList ++ (v.kid ++ ([':'] ++ (v.iv ++ ([':'] ++ (v.tag ++ ([':'] ++ v.enc))))))

/-- A literal of an expression. -/
def literal (expected text : List Char) : Option (List Char) :=
  if expected <+: text then some (text.drop expected.length) else none

/-- `([0-9a-f]{n})`. -/
def hexField (n : ℕ) (text : List Char) : Option (List Char × List Char) :=
  if (text.take n).length = n ∧ (text.take n).all Hex.isLower then
    some (text.take n, text.drop n)
  else none

/-- `((?:[0-9a-f]{2})*)`. -/
def hexPairs : List Char → List Char × List Char
  | a :: b :: text =>
    if Hex.isLower a ∧ Hex.isLower b then (a :: b :: (hexPairs text).1, (hexPairs text).2)
    else ([], a :: b :: text)
  | text => ([], text)

/-- `CIPHERTEXT_GLOBAL_RE` where a text begins, with the text behind the match. -/
def matchSealed (text : List Char) : Option (Sealed × List Char) := do
  let text ← literal "vb1:".toList text
  let (kid, text) ← hexField 8 text
  let text ← literal [':'] text
  let (iv, text) ← hexField 24 text
  let text ← literal [':'] text
  let (tag, text) ← hexField 32 text
  let text ← literal [':'] text
  some (⟨kid, iv, tag, (hexPairs text).1⟩, (hexPairs text).2)

/-- `CIPHERTEXT_RE.exec(text)`. -/
def exec (text : List Char) : Option Sealed :=
  match matchSealed text with
  | some (v, []) => some v
  | _ => none

/-- The groups of what `seal` returns, with the `iv` that it drew. -/
def sealedWith (C : Crypto) (key : Bytes) (iv : Iv) (plaintext : List Char) : Sealed :=
  let encrypted := C.encrypt key iv (encodeChars plaintext)
  ⟨keyIdOf C key, Hex.ofBytes iv, Hex.ofBytes encrypted.2, Hex.ofBytes encrypted.1⟩

/-- `seal(key, plaintext)`. -/
def sealPlaintext (C : Crypto) (key : Bytes) (iv : Iv) (plaintext : List Char) : List Char :=
  (sealedWith C key iv plaintext).text

/-- `open(match, ring)`. -/
def openSealed (C : Crypto) (v : Sealed) (ring : List RingKey) : Except Failure (List Char) :=
  match ring.find? fun k => k.id = v.kid with
  | none => .error ⟨some "ENCRYPTION_KEY_UNKNOWN", "No configured key has id " ++
      String.ofList v.kid ++ " (set it in ENCRYPTION_KEYS_PREVIOUS)"⟩
  | some entry =>
    match C.decrypt entry.key (Hex.toBytes v.iv) (Hex.toBytes v.tag) (Hex.toBytes v.enc) with
    | some plaintext => .ok (Utf8State.idle.decode plaintext)
    | none => .error ⟨none, "Unsupported state or unable to authenticate data"⟩

/-! ### Fail-closed variants -/

def encryptionConfigurationError : Failure :=
  ⟨some "ENCRYPTION_NOT_CONFIGURED",
    "Encryption is required for this secret but ENCRYPTION_KEY is unavailable."⟩

def invalidCiphertextError : Failure :=
  ⟨some "ENCRYPTED_SECRET_INVALID", "Encrypted secret could not be authenticated."⟩

/-- `encryptStrict(plaintext)`; `none` is `null` and `undefined`. -/
def encryptStrict (C : Crypto) (env : Env) (iv : Iv) :
    Option (List Char) → Except Failure (Option (List Char))
  | none => .ok none
  | some plaintext => do
    match ← getKey env with
    | none => .error encryptionConfigurationError
    | some key => .ok (some (sealPlaintext C key iv plaintext))

/-- `decryptStrict(ciphertext)`. -/
def decryptStrict (C : Crypto) (env : Env) :
    Option (List Char) → Except Failure (Option (List Char))
  | none => .ok none
  | some ciphertext => do
    let ring ← keyRing C env
    if ring = [] then .error encryptionConfigurationError
    else match exec ciphertext with
      | none => .error invalidCiphertextError
      | some v =>
        match openSealed C v ring with
        | .ok plaintext => .ok (some plaintext)
        | .error err =>
          if err.code = some "ENCRYPTION_KEY_UNKNOWN" then .error err
          else .error invalidCiphertextError

/-! ### Rotation -/

/-- `{ text, resealed, unknown }`. -/
structure Resealed where
  text : List Char
  resealed : ℕ
  unknown : ℕ
  deriving DecidableEq, Repr

/-- One character or match of the text; `ivs` are the values that `randomBytes` returns in turn. -/
def resealPiece (C : Crypto) (ring : List RingKey) (current : RingKey) (ivs : ℕ → Iv)
    (out : Resealed) : Char ⊕ Sealed → Resealed
  | .inl c => { out with text := out.text ++ [c] }
  | .inr v =>
    if v.kid = current.id then { out with text := out.text ++ v.text }
    else match openSealed C v ring with
      | .error _ => { out with text := out.text ++ v.text, unknown := out.unknown + 1 }
      | .ok plaintext =>
        { out with
          text := out.text ++ sealPlaintext C current.key (ivs out.resealed) plaintext
          resealed := out.resealed + 1 }

/-- The characters of a text and the sealed values in it. -/
def sealedPieces (text : List Char) : List (Char ⊕ Sealed) :=
  Replace.pieces (fun t => (matchSealed t).map Prod.fst) Sealed.text 0 text

def resealWithCurrentKey (C : Crypto) (env : Env) (ivs : ℕ → Iv) (text : List Char) :
    Except Failure Resealed := do
  match ← keyRing C env with
  | [] => .error encryptionConfigurationError
  | current :: previous =>
    .ok ((sealedPieces text).foldl
      (resealPiece C (current :: previous) current ivs) ⟨[], 0, 0⟩)

end Vigabss.Utils.Encryption

/-!
## Sealed values within a text

What the expression for sealed values matches, and texts laid out as gaps with values between them:
where no value is followed by a hexadecimal digit, the expression finds just these values.
-/

namespace Vigabss.Utils.Encryption

open Vigabss.Lib

/-! ### What the expression matches -/

/-- A field of `n` digits in lower case. -/
def HexText (n : ℕ) (text : List Char) : Prop := text.length = n ∧ text.all Hex.isLower = true

/-- The groups of a match. -/
structure Sealed.WellFormed (v : Sealed) : Prop where
  kid : HexText 8 v.kid
  iv : HexText 24 v.iv
  tag : HexText 32 v.tag
  even : v.enc.length % 2 = 0
  enc : v.enc.all Hex.isLower = true

theorem literal_eq_some {expected text rest : List Char} :
    literal expected text = some rest ↔ text = expected ++ rest := by
  unfold literal
  constructor
  · intro h
    split_ifs at h with hstart
    obtain ⟨tail, rfl⟩ := hstart
    simpa using h
  · rintro rfl
    rw [if_pos (List.prefix_append expected rest), List.drop_left]

theorem hexField_eq_some {n : ℕ} {text field rest : List Char} :
    hexField n text = some (field, rest) ↔ HexText n field ∧ text = field ++ rest := by
  unfold hexField
  constructor
  · intro h
    split_ifs at h with hfield
    obtain ⟨rfl, rfl⟩ := Prod.mk.inj (Option.some.inj h)
    exact ⟨hfield, (List.take_append_drop n text).symm⟩
  · rintro ⟨⟨rfl, hall⟩, rfl⟩
    simp [hall]

theorem hexPairs_spec (text : List Char) :
    text = (hexPairs text).1 ++ (hexPairs text).2 ∧ (hexPairs text).1.length % 2 = 0 ∧
      (hexPairs text).1.all Hex.isLower = true ∧
      hexPairs (hexPairs text).2 = ([], (hexPairs text).2) := by
  fun_induction hexPairs text with
  | case1 a b text hpair ih =>
    obtain ⟨htext, heven, hall, hstop⟩ := ih
    refine ⟨?_, ?_, ?_, hstop⟩
    · show a :: b :: text = a :: b :: ((hexPairs text).1 ++ (hexPairs text).2)
      rw [← htext]
    · show ((hexPairs text).1.length + 2) % 2 = 0
      omega
    · simp [hpair, hall]
  | case2 a b text hpair => exact ⟨rfl, rfl, rfl, by rw [hexPairs, if_neg hpair]⟩
  | case3 text hshort => exact ⟨rfl, rfl, rfl, hexPairs.eq_2 text hshort⟩

theorem hexPairs_append {enc rest : List Char} (heven : enc.length % 2 = 0)
    (hall : enc.all Hex.isLower = true) (hstop : hexPairs rest = ([], rest)) :
    hexPairs (enc ++ rest) = (enc, rest) := by
  fun_induction hexPairs enc with
  | case1 a b enc hpair ih =>
    have hrest : enc.all Hex.isLower = true := by simp_all
    have hih := ih (by simp only [List.length_cons] at heven; omega) hrest
    rw [List.cons_append, List.cons_append, hexPairs, if_pos hpair, hih]
  | case2 a b enc hpair =>
    simp only [List.all_cons, Bool.and_eq_true] at hall
    exact absurd ⟨hall.1, hall.2.1⟩ hpair
  | case3 enc hshort =>
    rcases enc with - | ⟨a, - | ⟨b, enc⟩⟩
    · exact hstop
    · simp at heven
    · exact absurd rfl (hshort a b enc)

/-- **What the expression matches** where a text begins: a value that no pair of digits follows. -/
theorem matchSealed_eq_some {text rest : List Char} {v : Sealed} :
    matchSealed text = some (v, rest) ↔
      v.WellFormed ∧ text = v.text ++ rest ∧ hexPairs rest = ([], rest) := by
  simp only [matchSealed, Option.bind_eq_bind, Option.bind_eq_some_iff, literal_eq_some,
    Prod.exists, hexField_eq_some, Option.some.injEq, Prod.mk.injEq]
  constructor
  · rintro ⟨t1, rfl, kid, t2, ⟨hkid, rfl⟩, t3, rfl, iv, t4, ⟨hiv, rfl⟩, t5, rfl, tag, t6,
      ⟨htag, rfl⟩, t7, rfl, rfl, rfl⟩
    obtain ⟨htext, heven, hall, hstop⟩ := hexPairs_spec t7
    refine ⟨⟨hkid, hiv, htag, heven, hall⟩, ?_, hstop⟩
    simp only [Sealed.text, List.append_assoc]
    rw [← htext]
  · rintro ⟨hv, rfl, hstop⟩
    have hpairs := hexPairs_append hv.even hv.enc hstop
    refine ⟨_, List.append_assoc .., v.kid, _, ⟨hv.kid, List.append_assoc ..⟩, _,
      List.append_assoc .., v.iv, _, ⟨hv.iv, List.append_assoc ..⟩, _, List.append_assoc ..,
      v.tag, _, ⟨hv.tag, List.append_assoc ..⟩, _, List.append_assoc .., ?_⟩
    rw [hpairs]
    exact ⟨rfl, rfl⟩

theorem matchSealed_text {v : Sealed} (hv : v.WellFormed) {rest : List Char}
    (hstop : hexPairs rest = ([], rest)) : matchSealed (v.text ++ rest) = some (v, rest) :=
  matchSealed_eq_some.2 ⟨hv, rfl, hstop⟩

theorem exec_text {v : Sealed} (hv : v.WellFormed) : exec v.text = some v := by
  have hmatch : matchSealed (v.text ++ []) = some (v, []) := matchSealed_text hv rfl
  rw [List.append_nil] at hmatch
  rw [exec, hmatch]

theorem text_ne_nil (v : Sealed) : v.text ≠ [] := List.cons_ne_nil 'v' v.text.tail

theorem v_not_mem_tail {v : Sealed} (hv : v.WellFormed) : 'v' ∉ v.text.tail := by
  have hdigits : ∀ {text : List Char}, text.all Hex.isLower = true → 'v' ∉ text := by
    intro text hall hmem
    exact absurd (List.all_eq_true.1 hall 'v' hmem) (by decide)
  have htail : v.text.tail = "b1:".toList ++ (v.kid ++ ([':'] ++ (v.iv ++ ([':'] ++
      (v.tag ++ ([':'] ++ v.enc)))))) := rfl
  simp only [htail, List.mem_append, not_or]
  exact ⟨by decide, hdigits hv.kid.2, by decide, hdigits hv.iv.2, by decide, hdigits hv.tag.2,
    by decide, hdigits hv.enc⟩

/-! ### Gaps and values -/

/-- A text: a gap, and then values, each with the gap behind it. -/
structure Layout where
  head : List Char
  values : List (Sealed × List Char)

namespace Layout

/-- Values with the gaps behind them. -/
def tailText (values : List (Sealed × List Char)) : List Char :=
  values.flatMap fun p => p.1.text ++ p.2

def text (layout : Layout) : List Char := layout.head ++ tailText layout.values

def gaps (layout : Layout) : List (List Char) := layout.head :: layout.values.map Prod.snd

def sealedValues (layout : Layout) : List Sealed := layout.values.map Prod.fst

end Layout

/-- No value is within a text. -/
def Free (text : List Char) : Prop := ∀ v : Sealed, v.WellFormed → ¬ v.text <:+: text

/-- A text that does not go on with a hexadecimal digit. -/
def Delimits (rest : List Char) : Prop := ∀ c, rest.head? = some c → Hex.isHex c = false

/-- The gaps hold no value, and no value is followed by a hexadecimal digit. -/
structure Layout.Delimited (layout : Layout) : Prop where
  wellFormed : ∀ p ∈ layout.values, p.1.WellFormed
  free : ∀ gap ∈ layout.gaps, Free gap
  delimits : ∀ p ∈ layout.values, Delimits p.2

theorem hexPairs_of_delimits {rest : List Char} (h : Delimits rest) :
    hexPairs rest = ([], rest) := by
  rcases rest with - | ⟨a, - | ⟨b, rest⟩⟩
  · rfl
  · rfl
  · have ha : Hex.isHex a = false := h a rfl
    have hlower : ¬ (Hex.isLower a = true ∧ Hex.isLower b = true) := fun hpair => by
      rw [Hex.isHex_of_isLower hpair.1] at ha
      cases ha
    rw [hexPairs, if_neg hlower]

theorem delimits_tailText (values : List (Sealed × List Char)) :
    Delimits (Layout.tailText values) := by
  intro c hc
  rcases values with - | ⟨p, values⟩
  · cases hc
  · cases Option.some.inj hc
    decide

theorem delimits_append {gap : List Char} (h : Delimits gap)
    (values : List (Sealed × List Char)) : Delimits (gap ++ Layout.tailText values) := by
  rcases gap with - | ⟨c, gap⟩
  · exact delimits_tailText values
  · exact h

/-- **No match begins in a gap.** -/
theorem matchSealed_gap {gap : List Char} (hgap : Free gap)
    (values : List (Sealed × List Char)) {s : List Char} (hne : s ≠ []) (hs : s <:+ gap) :
    matchSealed (s ++ Layout.tailText values) = none := by
  by_contra hsome
  obtain ⟨⟨v, rest⟩, hmatch⟩ := Option.ne_none_iff_exists'.1 hsome
  obtain ⟨hv, htext, -⟩ := matchSealed_eq_some.1 hmatch
  rcases List.append_eq_append_iff.1 htext with ⟨beyond, hover, hvalues⟩ | ⟨left, hleft, -⟩
  · -- the value ends behind the gap: then it holds the letter of the next value
    rcases beyond with - | ⟨c, beyond⟩
    · exact hgap v hv (by rw [hover, List.append_nil]; exact hs.isInfix)
    · have hmem : c ∈ v.text.tail := by
        obtain ⟨d, s, rfl⟩ := List.exists_cons_of_ne_nil hne
        rw [hover]
        simp
      rcases values with - | ⟨p, values⟩
      · cases hvalues
      · have hc : c = 'v' := (List.cons.inj hvalues).1.symm
        exact v_not_mem_tail hv (hc ▸ hmem)
  · exact hgap v hv ((List.IsInfix.trans ⟨[], left, hleft.symm⟩ hs.isInfix))

/-- The pieces of a gap, and of values with their gaps. -/
def gapPieces (gap : List Char) : List (Char ⊕ Sealed) := gap.map .inl

def valuePieces (values : List (Sealed × List Char)) : List (Char ⊕ Sealed) :=
  values.flatMap fun p => .inr p.1 :: gapPieces p.2

theorem sealedPieces_gap {gap : List Char} (hgap : Free gap)
    (values : List (Sealed × List Char)) :
    sealedPieces (gap ++ Layout.tailText values) =
      gapPieces gap ++ sealedPieces (Layout.tailText values) :=
  Replace.pieces_gap fun s hne hs => by rw [matchSealed_gap hgap values hne hs, Option.map_none]

theorem sealedPieces_values {values : List (Sealed × List Char)}
    (hv : ∀ p ∈ values, p.1.WellFormed) (hfree : ∀ p ∈ values, Free p.2)
    (hdelimits : ∀ p ∈ values, Delimits p.2) :
    sealedPieces (Layout.tailText values) = valuePieces values := by
  induction values with
  | nil => rfl
  | cons p values ih =>
    have hrest := ih (fun q hq => hv q (List.mem_cons_of_mem p hq))
      (fun q hq => hfree q (List.mem_cons_of_mem p hq))
      (fun q hq => hdelimits q (List.mem_cons_of_mem p hq))
    have hstop := hexPairs_of_delimits (delimits_append (hdelimits p List.mem_cons_self) values)
    have hmatch := matchSealed_text (hv p List.mem_cons_self) hstop
    have htext : Layout.tailText (p :: values) = p.1.text ++ (p.2 ++ Layout.tailText values) :=
      List.append_assoc ..
    rw [htext, sealedPieces, Replace.pieces_match (text_ne_nil p.1) (by rw [hmatch]; rfl)]
    show .inr p.1 :: sealedPieces (p.2 ++ Layout.tailText values) = _
    rw [sealedPieces_gap (hfree p List.mem_cons_self), hrest]
    rfl

/-- **Just the values are found.** -/
theorem sealedPieces_text {layout : Layout} (h : layout.Delimited) :
    sealedPieces layout.text = gapPieces layout.head ++ valuePieces layout.values := by
  have hfree : ∀ p ∈ layout.values, Free p.2 := fun p hp =>
    h.free p.2 (List.mem_cons_of_mem _ (List.mem_map_of_mem hp))
  rw [Layout.text, sealedPieces_gap (h.free _ List.mem_cons_self),
    sealedPieces_values h.wellFormed hfree h.delimits]

end Vigabss.Utils.Encryption
