import Vigabss.Lib.Utf8

/-!
# Vigabss.Traps.Varbinds — bounds on the varbinds of a trap

`snmpTrapReceiver`: `truncateUtf8`, the serialisation of varbinds, and the columns that `storeTrap`
writes of them.
-/

namespace Vigabss.Traps.Varbinds

open Vigabss.Lib

def MAX_VARBIND_COUNT : ℕ := 64
def MAX_VARBIND_VALUE_BYTES : ℕ := 512
def MAX_VARBINDS_JSON_BYTES : ℕ := 8 * 1024

/-! ### Values -/

/-- A value that is no buffer is given by `String(value)`. -/
inductive Value
  | undefined
  | null
  | buffer (bytes : Bytes)
  | other (text : List Char)
  deriving DecidableEq

/-- A type; a finite number is given by its text. -/
inductive TypeTag
  | none
  | finite (text : List Char)
  | other (text : List Char)
  deriving DecidableEq

/-- The fields of a varbind; a falsy `oid` is the empty text. -/
structure Varbind where
  oid : List Char
  type : TypeTag
  value : Value
  truncated : Bool
  deriving DecidableEq

/-- An entry of the list, which may also be a plain value. -/
inductive RawVarbind
  | object (vb : Varbind)
  | bare (value : Value)

/-! ### Texts -/

/-- `Buffer.byteLength(text, 'utf8')`. -/
def byteLength (text : List Char) : ℕ := (encodeChars text).length

/-- `buffer.subarray(0, end).toString('utf8')`. -/
def textOf (buffer : Bytes) (stop : ℕ) : List Char := Utf8State.idle.decode (buffer.take stop)

/-- The loop of `truncateUtf8`, from an end on. -/
def shrink (buffer : Bytes) (maxBytes : ℕ) : ℕ → List Char
  | 0 => textOf buffer 0
  | stop + 1 =>
    if maxBytes < byteLength (textOf buffer (stop + 1)) then shrink buffer maxBytes stop
    else textOf buffer (stop + 1)

/-- What `truncateUtf8` returns. -/
structure Truncation where
  value : List Char
  truncated : Bool
  deriving DecidableEq

/-- `truncateUtf8(value, maxBytes)`. -/
def truncateUtf8 (value : List Char) (maxBytes : ℕ) : Truncation :=
  let buffer := encodeChars value
  if buffer.length ≤ maxBytes then ⟨value, false⟩ else ⟨shrink buffer maxBytes maxBytes, true⟩

/-! ### Serialisation -/

/-- `buffer.toString('hex')`. -/
def hex (bytes : Bytes) : List Char :=
  bytes.flatMap fun b => [Nat.digitChar (b.toNat / 16), Nat.digitChar (b.toNat % 16)]

/-- `vb`, an object in any case. -/
def RawVarbind.fields : RawVarbind → Varbind
  | .object vb => vb
  | .bare value => ⟨[], .none, value, false⟩

/-- `value` of `serializeVarbind`, and whether it was cut. -/
def boundedValue : Value → Value × Bool
  | .buffer bytes =>
    let maxBufferBytes := MAX_VARBIND_VALUE_BYTES / 2
    (.other (hex (bytes.take maxBufferBytes)), maxBufferBytes < bytes.length)
  | .other text =>
    let bounded := truncateUtf8 text MAX_VARBIND_VALUE_BYTES
    (.other bounded.value, bounded.truncated)
  | value => (value, false)

/-- `type` of `serializeVarbind`. -/
def boundedType : TypeTag → TypeTag
  | .other text => .other (truncateUtf8 text 32).value
  | type => type

/-- `serializeVarbind(vb)`. -/
def serializeVarbind (raw : RawVarbind) : Varbind :=
  let vb := raw.fields
  let value := boundedValue vb.value
  let oid := truncateUtf8 vb.oid 255
  ⟨oid.value, boundedType vb.type, value.1, vb.truncated || value.2 || oid.truncated⟩

/-- A character in a JSON text. -/
def escape (c : Char) : List Char :=
  if c = '"' then ['\\', '"']
  else if c = '\\' then ['\\', '\\']
  else if c = '\x08' then ['\\', 'b']
  else if c = '\t' then ['\\', 't']
  else if c = '\n' then ['\\', 'n']
  else if c = '\x0c' then ['\\', 'f']
  else if c = '\r' then ['\\', 'r']
  else if c.toNat < 0x20 then
    ['\\', 'u', '0', '0', Nat.digitChar (c.toNat / 16), Nat.digitChar (c.toNat % 16)]
  else [c]

def jsonText (text : List Char) : List Char := '"' :: text.flatMap escape ++ ['"']

def TypeTag.json : TypeTag → List Char
  | .none => "null".toList
  | .finite text => text
  | .other text => jsonText text

/-- The member of a value; `undefined` has none. -/
def Value.json : Value → List Char
  | .undefined => []
  | .null => ",\"value\":null".toList
  | .buffer _ => []
  | .other text => ",\"value\":".toList ++ jsonText text

/-- `JSON.stringify(candidate)`. -/
def Varbind.json (vb : Varbind) : List Char :=
  "\x7b\"oid\":".toList ++ jsonText vb.oid ++ ",\"type\":".toList ++ vb.type.json ++
    vb.value.json ++ (if vb.truncated then ",\"truncated\":true".toList else []) ++ ['}']

/-- `JSON.stringify(varbinds)`. -/
def stringify (varbinds : List Varbind) : List Char :=
  '[' :: [','].intercalate (varbinds.map Varbind.json) ++ [']']

/-- The loop of `serializeVarbinds`. -/
def fitting (output : List Varbind) (bytes : ℕ) : List Varbind → List Varbind
  | [] => output
  | candidate :: rest =>
    let candidateBytes := byteLength candidate.json + if output = [] then 0 else 1
    if MAX_VARBINDS_JSON_BYTES < bytes + candidateBytes then output
    else fitting (output ++ [candidate]) (bytes + candidateBytes) rest

/-- `serializeVarbinds(rawVarbinds)`. -/
def serializeVarbinds (source : List RawVarbind) : List Varbind :=
  fitting [] 2 ((source.take MAX_VARBIND_COUNT).map serializeVarbind)

inductive Reason
  | count_limit
  | size_limit
  | count_and_size_limit
  | other (text : String)
  deriving DecidableEq

/-- What `boundedVarbindPayload` returns; `bytes` is the length of `json`. -/
structure Payload where
  varbinds : List Varbind
  json : List Char
  original_count : ℕ
  truncated : Bool
  truncation_reason : Option Reason

/-- `boundedVarbindPayload(rawVarbinds)`. -/
def boundedVarbindPayload (source : List RawVarbind) : Payload :=
  let varbinds := serializeVarbinds source
  let countLimited : Bool := MAX_VARBIND_COUNT < source.length
  let byteLimited : Bool := varbinds.length < min source.length MAX_VARBIND_COUNT
  { varbinds := varbinds
    json := stringify varbinds
    original_count := min 65535 source.length
    truncated := countLimited || byteLimited
    truncation_reason :=
      if countLimited && byteLimited then some .count_and_size_limit
      else if countLimited then some .count_limit
      else if byteLimited then some .size_limit
      else none }

/-- The columns of `snmp_traps` that are about varbinds. -/
structure VarbindColumns where
  varbinds : List Char
  varbinds_truncated : Bool
  varbinds_original_count : ℕ
  varbinds_truncation_reason : Option Reason
  deriving DecidableEq

/-- The columns that `storeTrap` writes, of the varbinds and of what the caller says of them. -/
def storeTrap (varbinds : List RawVarbind) (varbindsTruncated : Option Bool)
    (varbindsOriginalCount : Option ℕ) (varbindsTruncationReason : Option Reason) :
    VarbindColumns :=
  let bounded := boundedVarbindPayload varbinds
  let collectionTruncated := varbindsTruncated.getD bounded.truncated
  { varbinds := bounded.json
    varbinds_truncated := collectionTruncated
    varbinds_original_count :=
      (varbindsOriginalCount.map (min 65535)).getD bounded.original_count
    varbinds_truncation_reason :=
      if collectionTruncated then
        (varbindsTruncationReason.or bounded.truncation_reason).or (some .size_limit)
      else none }

end Vigabss.Traps.Varbinds
