import Mathlib.Data.List.GetD
import Vigabss.Lib.Except
import Vigabss.Lib.JsText
import Vigabss.Lib.Utf8

/-!
# Vigabss.RadiusServer.CoaEncoder — RADIUS packets

`decodePacket` of the server's codec, with its reads at offsets into the buffer, and
`buildRadiusPacket` of the encoder.  `decodeLoop_eq` says that the loop at offsets reads the records
of the part of the buffer that the packet's length covers.
-/

namespace Vigabss.RadiusServer

open Vigabss.Lib

/-! ### Buffers -/

/-- What `buf[i] = n` stores of a number. -/
def toUint8 (n : ℤ) : UInt8 := UInt8.ofNat (n % 256).toNat

/-- `buf[i]`, for an index in the buffer. -/
def byteAt (buf : Bytes) (i : ℕ) : UInt8 := buf.getD i 0

/-- `buf.subarray(from, to)`. -/
def subarray (buf : Bytes) (start stop : ℕ) : Bytes := (buf.drop start).take (stop - start)

/-- `buf.readUInt16BE(i)`. -/
def readUInt16BE (buf : Bytes) (i : ℕ) : ℕ :=
  (byteAt buf i).toNat * 256 + (byteAt buf (i + 1)).toNat

/-- `src.copy(dst, at)` into `room` bytes of zeros. -/
def copyInto (room : ℕ) (src : Bytes) : Bytes :=
  src.take room ++ List.replicate (room - src.length) 0

/-! ### Attributes -/

namespace ATTR

def USER_NAME : UInt8 := 1
def USER_PASSWORD : UInt8 := 2
def CHAP_PASSWORD : UInt8 := 3
def REPLY_MESSAGE : UInt8 := 18
def CHAP_CHALLENGE : UInt8 := 60
def MESSAGE_AUTHENTICATOR : UInt8 := 80

end ATTR

/-- What `decodePacket` returns. -/
structure Packet where
  code : ℕ
  identifier : ℕ
  length : ℕ
  authenticator : Bytes
  attributes : List Tlv.Attr
  raw : Bytes
  deriving DecidableEq, Repr

/-- The attribute loop of `decodePacket`; each round moves on by two bytes at least, so `length`
rounds are enough. -/
def decodeLoop (buf : Bytes) (length : ℕ) : ℕ → ℕ → List Tlv.Attr
  | 0, _ => []
  | rounds + 1, off =>
    if off + 2 ≤ length then
      let type := byteAt buf off
      let alen := (byteAt buf (off + 1)).toNat
      if alen < 2 ∨ length < off + alen then []
      else ⟨type, subarray buf (off + 2) (off + alen)⟩ :: decodeLoop buf length rounds (off + alen)
    else []

/-- `decodePacket(buf)`. -/
def decodePacket (buf : Bytes) : Except String Packet :=
  if buf.length < 20 then .error "RADIUS packet too short"
  else
    let length := readUInt16BE buf 2
    if length < 20 ∨ buf.length < length then .error "RADIUS packet length out of range"
    else .ok {
      code := (byteAt buf 0).toNat
      identifier := (byteAt buf 1).toNat
      length
      authenticator := subarray buf 4 20
      attributes := decodeLoop buf length length 20
      raw := subarray buf 0 length }

/-- `getAttr(attributes, type)`: the first value of a type. -/
def getAttr (attributes : List Tlv.Attr) (type : UInt8) : Option Bytes :=
  (attributes.find? fun a => a.type = type).map Tlv.Attr.value

/-- `buildRadiusPacket(code, identifier, authenticator, attributesBuffer)`. -/
def buildRadiusPacket (code identifier : ℤ) (authenticator attributesBuffer : Bytes) :
    Except String Bytes :=
  let totalLength := 20 + attributesBuffer.length
  if 65535 < totalLength then .error "The value of \"value\" is out of range."
  else .ok ([toUint8 code, toUint8 identifier, UInt8.ofNat (totalLength / 256),
    UInt8.ofNat (totalLength % 256)] ++ copyInto 16 authenticator ++ attributesBuffer)

/-! ### The loop reads records -/

theorem drop_eq_cons {buf : Bytes} {i : ℕ} (h : i < buf.length) :
    buf.drop i = byteAt buf i :: buf.drop (i + 1) := by
  rw [byteAt, List.getD_eq_getElem _ _ h]
  exact List.drop_eq_getElem_cons h

/-- **The loop reads the records** of what the length covers. -/
theorem decodeLoop_eq {buf : Bytes} {length : ℕ} (hlen : length ≤ buf.length) (rounds off : ℕ)
    (hrounds : length ≤ rounds + off) :
    decodeLoop buf length rounds off = Tlv.parse ((buf.take length).drop off) := by
  have hcovered : (buf.take length).length = length := by
    rw [List.length_take, min_eq_left hlen]
  induction rounds generalizing off with
  | zero =>
    rw [decodeLoop, List.drop_eq_nil_of_le (by omega), Tlv.parse_nil]
  | succ rounds ih =>
    rw [decodeLoop]
    by_cases hroom : off + 2 ≤ length
    · have hbyte : ∀ i < length, byteAt (buf.take length) i = byteAt buf i := by
        intro i hi
        rw [byteAt, byteAt, List.getD_eq_getElem _ _ (by omega), List.getD_eq_getElem _ _ (by omega),
          List.getElem_take]
      have hrest : ((buf.take length).drop (off + 2)).length = length - (off + 2) := by
        rw [List.length_drop, hcovered]
      rw [if_pos hroom, drop_eq_cons (by omega), drop_eq_cons (by omega), hbyte _ (by omega),
        hbyte _ (by omega), Tlv.parse_cons, hrest]
      dsimp only
      by_cases hbad : (byteAt buf (off + 1)).toNat < 2 ∨
          length < off + (byteAt buf (off + 1)).toNat
      · rw [if_pos hbad, if_pos (by omega)]
      · rw [if_neg hbad, if_neg (by omega), ih _ (by omega), List.drop_drop]
        have hnext : off + 2 + ((byteAt buf (off + 1)).toNat - 2) =
            off + (byteAt buf (off + 1)).toNat := by omega
        rw [hnext]
        congr 2
        rw [subarray, List.drop_take, List.take_take]
        congr 1
        omega
    · rw [if_neg hroom]
      have hshort : ((buf.take length).drop off).length < 2 := by
        rw [List.length_drop, hcovered]
        omega
      match h : (buf.take length).drop off with
      | [] => rw [Tlv.parse_nil]
      | [t] => rw [Tlv.parse]; simp
      | t :: n :: rest =>
        rw [h] at hshort
        simp only [List.length_cons] at hshort
        omega

end Vigabss.RadiusServer

/-!
## Attributes of CoA and Disconnect packets

The encoders of `radiusCoaEncoder`, and the IPv6 and text attributes of the server's codec that are
put into the same packets.  Each writes a type byte, a length byte and a value.
-/

namespace Vigabss.RadiusServer

open Vigabss.Lib

/-! ### The encoders -/

/-- The record that the encoders build: `buf[0] = type`, `buf[1] = 2 + length`, the value. -/
def encodeTlv (type : ℤ) (valueBytes : Bytes) : Bytes := Tlv.encode ⟨toUint8 type, valueBytes⟩

/-- `buf.writeUInt32BE(n)`, for a number that fits. -/
def uint32BE (n : ℕ) : Bytes :=
  [UInt8.ofNat (n / 2 ^ 24), UInt8.ofNat (n / 2 ^ 16), UInt8.ofNat (n / 2 ^ 8), UInt8.ofNat n]

/-- `encodeUserName(username)`. -/
def encodeUserName (username : String) : Bytes := encodeTlv 1 (utf8 username)

/-- `encodeFramedIPAddress(ipStr)`; a missing part is stored as 0, as `NaN` is. -/
def encodeFramedIPAddress (ipStr : String) : Bytes :=
  let parts := (JsText.split '.' ipStr.toList).map (JsText.parseInt 10)
  let part (i : ℕ) : UInt8 := toUint8 ((parts.getD i none).getD 0)
  [8, 6, part 0, part 1, part 2, part 3]

/-- `encodeVSA(vendorId, vendorType, vendorValue)`. -/
def encodeVSA (vendorId vendorType : ℤ) (vendorValue : Bytes) : Except String Bytes :=
  let valueLen := vendorValue.length
  if 247 < valueLen then .error s!"VSA value too long: {valueLen} bytes (max 247)"
  else if vendorId < 0 ∨ 2 ^ 32 ≤ vendorId then .error "The value of \"value\" is out of range."
  else .ok ([26, UInt8.ofNat (8 + valueLen)] ++ uint32BE vendorId.toNat ++
    [toUint8 vendorType, UInt8.ofNat (2 + valueLen)] ++ vendorValue)

def encodeMikrotikRateLimit (rateLimit : String) : Except String Bytes :=
  encodeVSA 14988 8 (utf8 rateLimit)

def encodeMikrotikAddressList (listName : String) : Except String Bytes :=
  encodeVSA 14988 19 (utf8 listName)

def encodeCiscoAvPair (avPairStr : String) : Except String Bytes :=
  encodeVSA 9 1 (utf8 avPairStr)

/-- `encodeAcctSessionId(sessionId)`. -/
def encodeAcctSessionId (sessionId : String) : Except String Bytes :=
  let valueBytes := utf8 sessionId
  if 253 < valueBytes.length then
    .error s!"Acct-Session-Id too long: {valueBytes.length} bytes (max 253)"
  else .ok (encodeTlv 44 valueBytes)

/-- `encodeWisprBandwidth(vendorType, bps)`. -/
def encodeWisprBandwidth (vendorType : ℤ) (bps : String) : Except String Bytes :=
  encodeVSA 14122 vendorType (uint32BE (JsText.toUint32 (JsText.number bps.toList)))

def WISPR_BANDWIDTH_MAX_UP : ℤ := 7
def WISPR_BANDWIDTH_MAX_DOWN : ℤ := 8

def encodeWisprBandwidthMaxDown (bps : String) : Except String Bytes :=
  encodeWisprBandwidth WISPR_BANDWIDTH_MAX_DOWN bps

def encodeWisprBandwidthMaxUp (bps : String) : Except String Bytes :=
  encodeWisprBandwidth WISPR_BANDWIDTH_MAX_UP bps

/-- An entry of `encodeAttributes`: a buffer, or a type with the bytes of its value. -/
inductive AttrItem where
  | buffer (bytes : Bytes)
  | pair (type : ℤ) (valueBytes : Bytes)
  deriving DecidableEq, Repr

/-- One round of the `map` in `encodeAttributes`. -/
def AttrItem.encode : AttrItem → Except String Bytes
  | .buffer bytes => .ok bytes
  | .pair type valueBytes =>
    if 253 < valueBytes.length then
      .error s!"RADIUS attribute value too long: {valueBytes.length} bytes (max 253)"
    else .ok (encodeTlv type valueBytes)

/-- `encodeAttributes(attrList)`. -/
def encodeAttributes (attrList : List AttrItem) : Except String Bytes := do
  let buffers ← attrList.mapM AttrItem.encode
  return buffers.flatten

/-! ### Named attributes -/

/-- The keys of `NAMED_ENCODERS`. -/
inductive NamedAttr where
  | userName | framedIPAddress | acctSessionId | mikrotikRateLimit | mikrotikAddressList
  | ciscoAvPair | wisprBandwidthMaxDown | wisprBandwidthMaxUp
  deriving DecidableEq, Repr

namespace NamedAttr

def all : List NamedAttr :=
  [userName, framedIPAddress, acctSessionId, mikrotikRateLimit, mikrotikAddressList, ciscoAvPair,
    wisprBandwidthMaxDown, wisprBandwidthMaxUp]

def name : NamedAttr → String
  | userName => "User-Name"
  | framedIPAddress => "Framed-IP-Address"
  | acctSessionId => "Acct-Session-Id"
  | mikrotikRateLimit => "Mikrotik-Rate-Limit"
  | mikrotikAddressList => "Mikrotik-Address-List"
  | ciscoAvPair => "Cisco-AVPair"
  | wisprBandwidthMaxDown => "WISPr-Bandwidth-Max-Down"
  | wisprBandwidthMaxUp => "WISPr-Bandwidth-Max-Up"

/-- The values of `NAMED_ENCODERS`. -/
def encoder : NamedAttr → String → Except String Bytes
  | userName => fun value => .ok (encodeUserName value)
  | framedIPAddress => fun value => .ok (encodeFramedIPAddress value)
  | acctSessionId => encodeAcctSessionId
  | mikrotikRateLimit => encodeMikrotikRateLimit
  | mikrotikAddressList => encodeMikrotikAddressList
  | ciscoAvPair => encodeCiscoAvPair
  | wisprBandwidthMaxDown => encodeWisprBandwidthMaxDown
  | wisprBandwidthMaxUp => encodeWisprBandwidthMaxUp

/-- `NAMED_ENCODERS[name]`, for an own key. -/
def ofName (name : String) : Option NamedAttr := all.find? fun a => a.name = name

end NamedAttr

/-- Names that an object has from `Object.prototype`: what stands there is found by
`NAMED_ENCODERS[name]`, and either cannot be called or gives no buffer, so that the call throws. -/
def inheritedNames : List String :=
  ["constructor", "__defineGetter__", "__defineSetter__", "hasOwnProperty", "__lookupGetter__",
    "__lookupSetter__", "isPrototypeOf", "propertyIsEnumerable", "toString", "valueOf",
    "__proto__", "toLocaleString"]

/-- One round of the loop of `encodeNamedAttributes`: an unknown name is skipped. -/
def encodeNamed (name value : String) : Except String Bytes :=
  match NamedAttr.ofName name with
  | some a => a.encoder value
  | none => if name ∈ inheritedNames then .error "TypeError" else .ok []

/-- `encodeNamedAttributes(attrDefs)`. -/
def encodeNamedAttributes (attrDefs : List (String × String)) : Except String Bytes := do
  let buffers ← attrDefs.mapM fun d => encodeNamed d.1 d.2
  return buffers.flatten

/-! ### IPv6 and text attributes of the codec -/

/-- `/^\d{1,3}(?:\.\d{1,3}){3}$/` on the whole of a text. -/
def isDottedQuad (text : List Char) : Bool :=
  let parts := JsText.split '.' text
  parts.length = 4 ∧ parts.all fun p => 1 ≤ p.length ∧ p.length ≤ 3 ∧ p.all (JsText.isDigit 10)

/-- `n.toString(16)`. -/
def toHex (n : ℕ) : List Char := Nat.toDigits 16 n

/-- The two groups of sixteen bits that a dotted tail stands for. -/
def dottedGroups (dotted : List Char) : List Char :=
  let o (i : ℕ) : ℕ := JsText.digitsValue 10 ((JsText.split '.' dotted).getD i [])
  toHex (o 0 <<< 8 ||| o 1) ++ ':' :: toHex (o 2 <<< 8 ||| o 3)

/-- `value.indexOf('::')`. -/
def indexOfDoubleColon (value : List Char) : Option ℕ :=
  (List.range value.length).find? fun i => (value.drop i).take 2 = [':', ':']

/-- `value.split('::')`, the first two parts. -/
def splitDoubleColon (value : List Char) : List Char × List Char :=
  match indexOfDoubleColon value with
  | none => (value, [])
  | some i =>
    let rest := value.drop (i + 2)
    (value.take i, rest.take ((indexOfDoubleColon rest).getD rest.length))

/-- The groups of `text.split(':')`, none for an empty text. -/
def groupsOf (text : List Char) : List (List Char) :=
  if text = [] then [] else JsText.split ':' text

/-- `buf.writeUInt16BE(parseInt(g || '0', 16))`; `NaN` is stored as 0. -/
def groupBytes (g : List Char) : Except String Bytes :=
  let n := (JsText.parseInt 16 (if g = [] then ['0'] else g)).getD 0
  if n < 0 ∨ 65535 < n then .error "The value of \"value\" is out of range."
  else .ok [UInt8.ofNat (n.toNat / 256), UInt8.ofNat n.toNat]

/-- `value` of `ipv6Bytes`: a dotted tail is replaced by its two groups. -/
def undotted (text : List Char) : List Char :=
  match text.tails.find? isDottedQuad with
  | some dotted => text.take (text.length - dotted.length) ++ dottedGroups dotted
  | none => text

/-- `groups` of `ipv6Bytes`: the groups that `::` stands for are filled in. -/
def ipv6Groups (value : List Char) : Except String (List (List Char)) :=
  let halves := splitDoubleColon value
  let head := groupsOf halves.1
  let tail := groupsOf halves.2
  if (indexOfDoubleColon value).isSome then
    if 8 < head.length + tail.length then .error "Invalid array length"
    else .ok (head ++ List.replicate (8 - head.length - tail.length) ['0'] ++ tail)
  else .ok head

variable (isIPv6 : List Char → Bool)

/-- `ipv6Bytes(address)`, where `isIPv6 text` is `net.isIP(text) === 6`. -/
def ipv6Bytes (address : String) : Except String (Option Bytes) :=
  let text := (address.toList.takeWhile (· ≠ '%')).map Char.toLower
  if isIPv6 text = false then .ok none
  else do
    let groups ← ipv6Groups (undotted text)
    if groups.length ≠ 8 then return none
    else do
      let bytes ← groups.mapM groupBytes
      return some bytes.flatten

/-- The bytes of an IPv6 prefix, host bits cleared. -/
def ipv6PrefixBody (bytes : Bytes) (len : ℕ) : Bytes :=
  let n := (len + 7) / 8
  let body := bytes.take n
  if len % 8 ≠ 0 then body.modify (n - 1) (· &&& UInt8.ofNat (0xff <<< (8 - len % 8))) else body

/-- `encodeIpv6PrefixAttr(type, prefix, prefixLength)`, with `Number(prefixLength)` given;
`JsNum.nan` stands for a number that is no integer as well. -/
def encodeIpv6PrefixAttr (type : ℤ) (address : String) (prefixLength : JsNum) :
    Except String (Option Bytes) := do
  let bytes ← ipv6Bytes isIPv6 address
  match bytes, prefixLength with
  | some bytes, .int len =>
    if len < 0 ∨ 128 < len then return none
    else
      return some ([toUint8 type, UInt8.ofNat (4 + (len.toNat + 7) / 8), 0, UInt8.ofNat len.toNat]
        ++ ipv6PrefixBody bytes len.toNat)
  | _, _ => return none

/-- `encodeIpv6AddressAttr(type, address)`. -/
def encodeIpv6AddressAttr (type : ℤ) (address : String) : Except String (Option Bytes) := do
  let bytes ← ipv6Bytes isIPv6 address
  return bytes.map fun bytes => [toUint8 type, 18] ++ bytes

/-- `encodeStringAttr(type, text)`. -/
def encodeStringAttr (type : ℤ) (text : String) : Option Bytes :=
  let value := utf8 text
  if value = [] ∨ 253 < value.length then none else some (encodeTlv type value)

end Vigabss.RadiusServer
