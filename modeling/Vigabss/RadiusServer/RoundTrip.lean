import Vigabss.RadiusServer.CoaEncoder

/-!
# Vigabss.RadiusServer.RoundTrip — what is encoded is what is decoded

`Given.denoted` says what an attribute given to the encoders stands for, and `Given.Fits` when its
encoder writes that.  `packet_round_trip_iff`: a packet is decoded to the attributes given exactly
when each of them fits.
-/

namespace Vigabss.RadiusServer

open Vigabss.Lib

/-! ### What an attribute stands for -/

/-- A type and the octets of a value, as numbers that need not fit in bytes. -/
abbrev Meaning := ℤ × List ℤ

def octets (bytes : Bytes) : List ℤ := bytes.map fun b => (b.toNat : ℤ)

/-- A decoded attribute. -/
def meaning (a : Tlv.Attr) : Meaning := (a.type.toNat, octets a.value)

/-- The octets of a dotted IPv4 address. -/
def ipv4Octets (text : String) : Option (List ℤ) :=
  match (JsText.split '.' text.toList).map JsText.decimal with
  | [some a, some b, some c, some d] =>
    if a < 256 ∧ b < 256 ∧ c < 256 ∧ d < 256 then some [(a : ℤ), b, c, d] else none
  | _ => none

/-- The bit rate that a text names, when it is a 32-bit number. -/
def bitRate (text : String) : Option ℕ :=
  match JsText.number text.toList with
  | some q => if q.isInt ∧ 0 ≤ q ∧ q < 2 ^ 32 then some q.num.toNat else none
  | none => none

/-- A vendor-specific attribute. -/
def vsaMeaning (vendorId vendorType : ℤ) (value : Bytes) : Meaning :=
  (26, octets (uint32BE vendorId.toNat) ++ [vendorType, 2 + value.length] ++ octets value)

def NamedAttr.denoted : NamedAttr → String → Option Meaning
  | .userName, value => some (1, octets (utf8 value))
  | .framedIPAddress, value => (ipv4Octets value).map fun os => (8, os)
  | .acctSessionId, value => some (44, octets (utf8 value))
  | .mikrotikRateLimit, value => some (vsaMeaning 14988 8 (utf8 value))
  | .mikrotikAddressList, value => some (vsaMeaning 14988 19 (utf8 value))
  | .ciscoAvPair, value => some (vsaMeaning 9 1 (utf8 value))
  | .wisprBandwidthMaxDown, value => (bitRate value).map fun n => vsaMeaning 14122 8 (uint32BE n)
  | .wisprBandwidthMaxUp, value => (bitRate value).map fun n => vsaMeaning 14122 7 (uint32BE n)

/-- An attribute as it is given to one of the encoders. -/
inductive Given where
  | named (name value : String)
  | pair (type : ℤ) (valueBytes : Bytes)
  | vsa (vendorId vendorType : ℤ) (vendorValue : Bytes)
  | ipv6Prefix (type : ℤ) (address : String) (prefixLength : JsNum)
  | ipv6Address (type : ℤ) (address : String)
  | stringAttr (type : ℤ) (text : String)
  deriving DecidableEq, Repr

variable (isIPv6 : List Char → Bool)

/-- The buffer that the encoder of an attribute returns; nothing where it returns `null`. -/
def Given.buffer : Given → Except String Bytes
  | .named name value => encodeNamedAttributes [(name, value)]
  | .pair type valueBytes => encodeAttributes [.pair type valueBytes]
  | .vsa vendorId vendorType vendorValue => encodeVSA vendorId vendorType vendorValue
  | .ipv6Prefix type address prefixLength => do
    let attr ← encodeIpv6PrefixAttr isIPv6 type address prefixLength
    return attr.getD []
  | .ipv6Address type address => do
    let attr ← encodeIpv6AddressAttr isIPv6 type address
    return attr.getD []
  | .stringAttr type text => .ok ((encodeStringAttr type text).getD [])

/-- The attributes of a packet, encoded one by one and put together by `encodeAttributes`. -/
def encodeGiven (attrs : List Given) : Except String Bytes := do
  let buffers ← attrs.mapM (Given.buffer isIPv6)
  encodeAttributes (buffers.map .buffer)

/-- The value of an IPv6 prefix attribute, if the text and the length are a prefix. -/
def ipv6PrefixValue (address : String) : JsNum → Option Bytes
  | .int len =>
    match ipv6Bytes isIPv6 address with
    | .ok (some bytes) =>
      if len < 0 ∨ 128 < len then none
      else some ([0, UInt8.ofNat len.toNat] ++ ipv6PrefixBody bytes len.toNat)
    | _ => none
  | .nan => none

/-- The value of an IPv6 address attribute, if the text is an address. -/
def ipv6AddressValue (address : String) : Option Bytes :=
  match ipv6Bytes isIPv6 address with
  | .ok bytes => bytes
  | .error _ => none

/-- The value of a text attribute, if the text is not empty and not too long. -/
def textValue (text : String) : Option Bytes :=
  if utf8 text = [] ∨ 253 < (utf8 text).length then none else some (utf8 text)

/-- **What an attribute stands for**: the attributes that a reader should find.  An unknown name
and a text that is no IPv6 address are skipped by the encoders, and stand for nothing. -/
def Given.denoted : Given → Option (List Meaning)
  | .named name value =>
    match NamedAttr.ofName name with
    | some a => (a.denoted value).map fun m => [m]
    | none => some []
  | .pair type valueBytes => some [(type, octets valueBytes)]
  | .vsa vendorId vendorType vendorValue => some [vsaMeaning vendorId vendorType vendorValue]
  | .ipv6Prefix type address prefixLength =>
    some ((ipv6PrefixValue isIPv6 address prefixLength).toList.map fun v => (type, octets v))
  | .ipv6Address type address =>
    some ((ipv6AddressValue isIPv6 address).toList.map fun v => (type, octets v))
  | .stringAttr type text => some ((textValue text).toList.map fun v => (type, octets v))

/-- What a list of attributes stands for. -/
def denotedList : List Given → Option (List Meaning)
  | [] => some []
  | g :: attrs => (g.denoted isIPv6).bind fun ms => (denotedList attrs).map fun rest => ms ++ rest

/-- A number that a byte holds. -/
def IsByte (n : ℤ) : Prop := 0 ≤ n ∧ n < 256

instance (n : ℤ) : Decidable (IsByte n) := inferInstanceAs (Decidable (_ ∧ _))

/-- The limits that a named attribute has to keep and that its encoder does not check. -/
def NamedAttr.Fits : NamedAttr → String → Prop
  | .userName, value => (utf8 value).length ≤ 253
  | .framedIPAddress, value => (ipv4Octets value).isSome
  | .wisprBandwidthMaxDown, value => (bitRate value).isSome
  | .wisprBandwidthMaxUp, value => (bitRate value).isSome
  | _, _ => True

/-- **The limits that an attribute has to keep** and that its encoder does not check. -/
def Given.Fits : Given → Prop
  | .named name value => ∀ a, NamedAttr.ofName name = some a → a.Fits value
  | .pair type _ => IsByte type
  | .vsa _ vendorType _ => IsByte vendorType
  | .ipv6Prefix type address prefixLength =>
    (ipv6PrefixValue isIPv6 address prefixLength).isSome → IsByte type
  | .ipv6Address type address => (ipv6AddressValue isIPv6 address).isSome → IsByte type
  | .stringAttr type text => (textValue text).isSome → IsByte type

/-- **The round trip**: what `buildRadiusPacket` returns is decoded to the code, the identifier and
the attributes given. -/
def RoundTrips (code identifier : ℤ) (authenticator : Bytes) (attrs : List Given)
    (attributesBuffer : Bytes) : Prop :=
  ∀ packet, buildRadiusPacket code identifier authenticator attributesBuffer = .ok packet →
    ∃ p, decodePacket packet = .ok p ∧ (p.code : ℤ) = code ∧ (p.identifier : ℤ) = identifier ∧
      denotedList isIPv6 attrs = some (p.attributes.map meaning)

/-! ### Bytes -/

theorem toUint8_toNat (n : ℤ) : ((toUint8 n).toNat : ℤ) = n % 256 := by
  rw [toUint8, UInt8.toNat_ofNat']
  omega

theorem IsByte.toUint8 {n : ℤ} (h : IsByte n) : ((toUint8 n).toNat : ℤ) = n := by
  rw [toUint8_toNat, Int.emod_eq_of_lt h.1 h.2]

theorem isByte_toNat (b : UInt8) : IsByte b.toNat := by
  have := b.toNat_lt
  constructor <;> omega

theorem octets_append (a b : Bytes) : octets (a ++ b) = octets a ++ octets b := List.map_append

theorem length_octets (a : Bytes) : (octets a).length = a.length := List.length_map _

theorem toNat_ofNat {n : ℕ} (h : n < 256) : (UInt8.ofNat n).toNat = n := by
  rw [UInt8.toNat_ofNat']
  omega

/-! ### The packet -/

theorem length_copyInto (room : ℕ) (src : Bytes) : (copyInto room src).length = room := by
  rw [copyInto, List.length_append, List.length_take, List.length_replicate]
  omega

/-- **What is built is decoded**, up to the reading of the attributes. -/
theorem decodePacket_build {code identifier : ℤ} {authenticator attributesBuffer packet : Bytes}
    (h : buildRadiusPacket code identifier authenticator attributesBuffer = .ok packet) :
    ∃ p, decodePacket packet = .ok p ∧ (p.code : ℤ) = code % 256 ∧
      (p.identifier : ℤ) = identifier % 256 ∧ p.attributes = Tlv.parse attributesBuffer := by
  simp only [buildRadiusPacket] at h
  split_ifs at h with hlong
  cases h
  have hauth := length_copyInto 16 authenticator
  set header := copyInto 16 authenticator with hheader
  clear_value header
  set n := attributesBuffer.length with hn
  have hlength : readUInt16BE ([toUint8 code, toUint8 identifier, UInt8.ofNat ((20 + n) / 256),
      UInt8.ofNat ((20 + n) % 256)] ++ header ++ attributesBuffer) 2 = 20 + n := by
    show (UInt8.ofNat ((20 + n) / 256)).toNat * 256 + (UInt8.ofNat ((20 + n) % 256)).toNat = 20 + n
    rw [toNat_ofNat (by omega), toNat_ofNat (by omega)]
    omega
  have htotal : ([toUint8 code, toUint8 identifier, UInt8.ofNat ((20 + n) / 256),
      UInt8.ofNat ((20 + n) % 256)] ++ header ++ attributesBuffer).length = 20 + n := by
    simp only [List.length_append, List.length_cons, List.length_nil, hauth, hn]
  rw [decodePacket, if_neg (by omega)]
  dsimp only
  rw [hlength, if_neg (by omega)]
  refine ⟨_, rfl, toUint8_toNat code, toUint8_toNat identifier, ?_⟩
  show decodeLoop _ (20 + n) (20 + n) 20 = _
  rw [decodeLoop_eq (by omega) _ _ (by omega), List.take_of_length_le (by omega)]
  congr 1
  refine List.drop_left' ?_
  rw [List.length_append, hauth]
  rfl

/-! ### What fits is written -/

/-- The bytes are the record of an attribute. -/
def Writes (b : Bytes) (m : Meaning) : Prop :=
  ∃ a : Tlv.Attr, b = Tlv.encode a ∧ a.value.length ≤ 253 ∧ meaning a = m

theorem encodeTlv_writes {type : ℤ} {value : Bytes} (htype : IsByte type)
    (hlen : value.length ≤ 253) : Writes (encodeTlv type value) (type, octets value) :=
  ⟨⟨toUint8 type, value⟩, rfl, hlen, Prod.ext htype.toUint8 rfl⟩

theorem encodeVSA_writes {vendorId vendorType : ℤ} {value b : Bytes}
    (h : encodeVSA vendorId vendorType value = .ok b) (htype : IsByte vendorType) :
    Writes b (vsaMeaning vendorId vendorType value) := by
  simp only [encodeVSA] at h
  split_ifs at h with hlong hvendor
  cases h
  refine ⟨⟨26, uint32BE vendorId.toNat ++ [toUint8 vendorType, UInt8.ofNat (2 + value.length)] ++
    value⟩, ?_, ?_, ?_⟩
  · rw [Tlv.encode]
    have hlen : 2 + (uint32BE vendorId.toNat ++ [toUint8 vendorType, UInt8.ofNat (2 + value.length)]
        ++ value).length = 8 + value.length := by
      simp only [List.length_append, List.length_cons, List.length_nil, uint32BE]
      omega
    dsimp only
    rw [hlen]
    rfl
  · simp only [List.length_append, List.length_cons, List.length_nil, uint32BE]
    omega
  · refine Prod.ext rfl ?_
    show octets _ = _
    rw [octets_append, octets_append, vsaMeaning]
    have hsub : octets [toUint8 vendorType, UInt8.ofNat (2 + value.length)] =
        [vendorType, 2 + (value.length : ℤ)] := by
      show [((toUint8 vendorType).toNat : ℤ), ((UInt8.ofNat (2 + value.length)).toNat : ℤ)] = _
      rw [htype.toUint8, toNat_ofNat (by omega)]
      push_cast
      rfl
    rw [hsub]

/-- The four parts of an address that fits are the four octets stored. -/
theorem encodeFramedIPAddress_writes {text : String} {os : List ℤ} (h : ipv4Octets text = some os) :
    Writes (encodeFramedIPAddress text) (8, os) := by
  rw [ipv4Octets] at h
  split at h
  case h_2 => cases h
  case h_1 a b c d hparts =>
  split_ifs at h with hsmall
  cases h
  obtain ⟨pa, pb, pc, pd, hsplit, ha, hb, hc, hd⟩ : ∃ pa pb pc pd,
      JsText.split '.' text.toList = [pa, pb, pc, pd] ∧ JsText.decimal pa = some a ∧
        JsText.decimal pb = some b ∧ JsText.decimal pc = some c ∧ JsText.decimal pd = some d := by
    match hs : JsText.split '.' text.toList with
    | [pa, pb, pc, pd] =>
      rw [hs] at hparts
      simp only [List.map_cons, List.map_nil, List.cons.injEq, and_true] at hparts
      exact ⟨pa, pb, pc, pd, rfl, hparts⟩
    | [] | [_] | [_, _] | [_, _, _] | _ :: _ :: _ :: _ :: _ :: _ =>
      rw [hs] at hparts
      simp at hparts
  have hread : ∀ {p : List Char} {n : ℕ}, JsText.decimal p = some n → n < 256 →
      toUint8 ((JsText.parseInt 10 p).getD 0) = UInt8.ofNat n := by
    intro p n hp hn
    rw [JsText.parseInt_decimal hp (by omega), Option.getD_some, toUint8]
    congr 1
    omega
  obtain ⟨ha', hb', hc', hd'⟩ := hsmall
  refine ⟨⟨8, [UInt8.ofNat a, UInt8.ofNat b, UInt8.ofNat c, UInt8.ofNat d]⟩, ?_, by simp, ?_⟩
  · rw [encodeFramedIPAddress, hsplit]
    show [8, 6, toUint8 ((JsText.parseInt 10 pa).getD 0), toUint8 ((JsText.parseInt 10 pb).getD 0),
      toUint8 ((JsText.parseInt 10 pc).getD 0), toUint8 ((JsText.parseInt 10 pd).getD 0)] = _
    rw [hread ha ha', hread hb hb', hread hc hc', hread hd hd']
    rfl
  · refine Prod.ext rfl ?_
    show [((UInt8.ofNat a).toNat : ℤ), ((UInt8.ofNat b).toNat : ℤ), ((UInt8.ofNat c).toNat : ℤ),
      ((UInt8.ofNat d).toNat : ℤ)] = _
    rw [toNat_ofNat ha', toNat_ofNat hb', toNat_ofNat hc', toNat_ofNat hd']

theorem bitRate_number {text : String} {n : ℕ} (h : bitRate text = some n) :
    JsText.toUint32 (JsText.number text.toList) = n := by
  rw [bitRate] at h
  split at h
  case h_2 => cases h
  case h_1 q hq =>
  split_ifs at h with hfits
  obtain ⟨hint, hpos, hlt⟩ := hfits
  cases h
  have hcast : q = (q.num.toNat : ℚ) := by
    have hnum : 0 ≤ q.num := Rat.num_nonneg.2 hpos
    have hden : q.den = 1 := by simpa [Rat.isInt] using hint
    have hz : ((q.num.toNat : ℤ) : ℚ) = (q.num : ℚ) := by rw [Int.toNat_of_nonneg hnum]
    rw [← Int.cast_natCast, hz, (Rat.den_eq_one_iff q).1 hden]
  have hsmall : q.num.toNat < 2 ^ 32 := by
    rw [hcast] at hlt
    exact_mod_cast hlt
  have hread := JsText.toUint32_natCast hsmall
  rw [← hcast] at hread
  rw [hq, hread]

theorem encodeWisprBandwidth_writes {vendorType : ℤ} {text : String} {n : ℕ} {b : Bytes}
    (h : encodeWisprBandwidth vendorType text = .ok b) (hn : bitRate text = some n)
    (htype : IsByte vendorType) : Writes b (vsaMeaning 14122 vendorType (uint32BE n)) := by
  rw [encodeWisprBandwidth, bitRate_number hn] at h
  exact encodeVSA_writes h htype

/-- **A named attribute that fits is written.** -/
theorem NamedAttr.writes {a : NamedAttr} {value : String} {b : Bytes}
    (h : a.encoder value = .ok b) (hfits : a.Fits value) :
    ∃ m, a.denoted value = some m ∧ Writes b m := by
  have hbyte : ∀ n : ℤ, 0 ≤ n → n < 256 → IsByte n := fun _ h0 h1 => ⟨h0, h1⟩
  cases a with
  | userName =>
    cases h
    exact ⟨_, rfl, encodeTlv_writes (by decide) hfits⟩
  | framedIPAddress =>
    obtain ⟨os, hos⟩ := Option.isSome_iff_exists.1 hfits
    cases h
    exact ⟨(8, os), by rw [denoted, hos]; rfl, encodeFramedIPAddress_writes hos⟩
  | acctSessionId =>
    simp only [encoder, encodeAcctSessionId] at h
    split_ifs at h with hlong
    cases h
    exact ⟨_, rfl, encodeTlv_writes (by decide) (by omega)⟩
  | mikrotikRateLimit => exact ⟨_, rfl, encodeVSA_writes h (by decide)⟩
  | mikrotikAddressList => exact ⟨_, rfl, encodeVSA_writes h (by decide)⟩
  | ciscoAvPair => exact ⟨_, rfl, encodeVSA_writes h (by decide)⟩
  | wisprBandwidthMaxDown =>
    obtain ⟨n, hn⟩ := Option.isSome_iff_exists.1 hfits
    exact ⟨_, by rw [denoted, hn]; rfl, encodeWisprBandwidth_writes h hn (by decide)⟩
  | wisprBandwidthMaxUp =>
    obtain ⟨n, hn⟩ := Option.isSome_iff_exists.1 hfits
    exact ⟨_, by rw [denoted, hn]; rfl, encodeWisprBandwidth_writes h hn (by decide)⟩

/-! ### Lists of attributes -/

/-- The bytes are the records of some attributes. -/
def WritesAll (b : Bytes) (ms : List Meaning) : Prop :=
  ∃ as : List Tlv.Attr, b = as.flatMap Tlv.encode ∧ (∀ a ∈ as, a.value.length ≤ 253) ∧
    as.map meaning = ms

theorem writesAll_nil : WritesAll [] [] := ⟨[], rfl, by simp, rfl⟩

theorem Writes.all {b : Bytes} {m : Meaning} (h : Writes b m) : WritesAll b [m] := by
  obtain ⟨a, rfl, hlen, rfl⟩ := h
  refine ⟨[a], by simp, ?_, rfl⟩
  intro a' ha'
  rw [List.mem_singleton.1 ha']
  exact hlen

theorem WritesAll.append {b c : Bytes} {ms ns : List Meaning} (hb : WritesAll b ms)
    (hc : WritesAll c ns) : WritesAll (b ++ c) (ms ++ ns) := by
  obtain ⟨as, rfl, ha, rfl⟩ := hb
  obtain ⟨as', rfl, ha', rfl⟩ := hc
  refine ⟨as ++ as', List.flatMap_append.symm, ?_, List.map_append⟩
  intro a hmem
  rcases List.mem_append.1 hmem with h | h
  · exact ha a h
  · exact ha' a h

theorem WritesAll.parse {b : Bytes} {ms : List Meaning} (h : WritesAll b ms) :
    (Tlv.parse b).map meaning = ms := by
  obtain ⟨as, rfl, hlen, rfl⟩ := h
  have hread := Tlv.parse_flatMap_encode hlen []
  rw [List.append_nil, Tlv.parse_nil, List.append_nil] at hread
  rw [hread]

theorem groupBytes_length {g : List Char} {b : Bytes} (h : groupBytes g = .ok b) :
    b.length = 2 := by
  dsimp only [groupBytes] at h
  generalize (JsText.parseInt 16 (if g = [] then ['0'] else g)).getD 0 = n at h
  split_ifs at h
  cases h
  rfl

theorem groups_length {groups : List (List Char)} {bs : List Bytes}
    (h : groups.mapM groupBytes = .ok bs) : bs.flatten.length = 2 * groups.length := by
  induction mapM_ok.1 h with
  | nil => rfl
  | cons hg _ ih =>
    rw [List.flatten_cons, List.length_append, ih (mapM_ok.2 ‹_›), groupBytes_length hg,
      List.length_cons]
    omega

theorem ipv6Bytes_length {address : String} {bytes : Bytes}
    (h : ipv6Bytes isIPv6 address = .ok (some bytes)) : bytes.length = 16 := by
  rw [ipv6Bytes] at h
  split_ifs at h with hip
  · cases h
  obtain ⟨groups, _, h⟩ := except_bind_ok.1 h
  split_ifs at h with height
  · cases h
  obtain ⟨bs, hbs, h⟩ := except_bind_ok.1 h
  cases h
  have := groups_length hbs
  omega

theorem ipv6PrefixBody_length {bytes : Bytes} {len : ℕ} (h : bytes.length = 16) (hlen : len ≤ 128) :
    (ipv6PrefixBody bytes len).length = (len + 7) / 8 := by
  rw [ipv6PrefixBody]
  split_ifs
  · rw [List.length_modify, List.length_take]
    omega
  · rw [List.length_take]
    omega

theorem encodeIpv6PrefixAttr_writes {type : ℤ} {address : String} {prefixLength : JsNum}
    {b : Option Bytes} (h : encodeIpv6PrefixAttr isIPv6 type address prefixLength = .ok b)
    (htype : (ipv6PrefixValue isIPv6 address prefixLength).isSome → IsByte type) :
    WritesAll (b.getD [])
      ((ipv6PrefixValue isIPv6 address prefixLength).toList.map fun v => (type, octets v)) := by
  rw [encodeIpv6PrefixAttr] at h
  obtain ⟨bytes, hbytes, h⟩ := except_bind_ok.1 h
  cases prefixLength with
  | nan =>
    cases bytes <;> cases h <;> exact writesAll_nil
  | int len =>
    cases bytes with
    | none =>
      cases h
      rw [ipv6PrefixValue, hbytes]
      exact writesAll_nil
    | some bytes =>
      rw [ipv6PrefixValue, hbytes] at htype ⊢
      dsimp only at h htype ⊢
      by_cases hrange : len < 0 ∨ 128 < len
      · rw [if_pos hrange] at h ⊢
        cases h
        exact writesAll_nil
      · rw [if_neg hrange] at h htype ⊢
        cases h
        have hbody := ipv6PrefixBody_length (ipv6Bytes_length isIPv6 hbytes)
          (show len.toNat ≤ 128 by omega)
        refine Writes.all ⟨⟨toUint8 type, [0, UInt8.ofNat len.toNat] ++
          ipv6PrefixBody bytes len.toNat⟩, ?_, ?_, Prod.ext (htype rfl).toUint8 rfl⟩
        · rw [Tlv.encode]
          dsimp only
          rw [List.length_append, hbody, ← Nat.add_assoc]
          rfl
        · rw [List.length_append, hbody]
          simp only [List.length_cons, List.length_nil]
          omega

theorem encodeIpv6AddressAttr_writes {type : ℤ} {address : String} {b : Option Bytes}
    (h : encodeIpv6AddressAttr isIPv6 type address = .ok b)
    (htype : (ipv6AddressValue isIPv6 address).isSome → IsByte type) :
    WritesAll (b.getD [])
      ((ipv6AddressValue isIPv6 address).toList.map fun v => (type, octets v)) := by
  rw [encodeIpv6AddressAttr] at h
  obtain ⟨bytes, hbytes, h⟩ := except_bind_ok.1 h
  cases h
  rw [ipv6AddressValue, hbytes] at htype ⊢
  cases bytes with
  | none => exact writesAll_nil
  | some bytes =>
    have hlen := ipv6Bytes_length isIPv6 hbytes
    refine Writes.all ⟨⟨toUint8 type, bytes⟩, ?_, ?_, Prod.ext (htype rfl).toUint8 rfl⟩
    · rw [Tlv.encode]
      dsimp only
      rw [hlen]
      rfl
    · dsimp only
      omega

theorem encodeStringAttr_writes {type : ℤ} {text : String}
    (htype : (textValue text).isSome → IsByte type) :
    WritesAll ((encodeStringAttr type text).getD [])
      ((textValue text).toList.map fun v => (type, octets v)) := by
  rw [encodeStringAttr, textValue] at *
  by_cases hbad : utf8 text = [] ∨ 253 < (utf8 text).length
  · rw [if_pos hbad, if_pos hbad]
    exact writesAll_nil
  · rw [if_neg hbad] at htype ⊢
    rw [if_neg hbad]
    exact (encodeTlv_writes (htype rfl) (by omega)).all

/-- **An attribute that fits is written.** -/
theorem Given.writes {g : Given} {b : Bytes} (h : g.buffer isIPv6 = .ok b)
    (hfits : g.Fits isIPv6) : ∃ ms, g.denoted isIPv6 = some ms ∧ WritesAll b ms := by
  cases g with
  | named name value =>
    obtain ⟨bs, hbs, hret⟩ := except_bind_ok.1 h
    cases hret
    rw [mapM_ok, List.forall₂_cons_left_iff] at hbs
    obtain ⟨b, _, hb, hnil, rfl⟩ := hbs
    rw [List.forall₂_nil_left_iff] at hnil
    subst hnil
    rw [List.flatten_cons, List.flatten_nil, List.append_nil]
    rw [encodeNamed] at hb
    rw [denoted]
    cases ha : NamedAttr.ofName name with
    | none =>
      rw [ha] at hb
      dsimp only at hb ⊢
      split_ifs at hb
      cases hb
      exact ⟨[], rfl, writesAll_nil⟩
    | some a =>
      rw [ha] at hb
      obtain ⟨m, hm, hw⟩ := NamedAttr.writes hb (hfits a ha)
      exact ⟨[m], congrArg (Option.map fun m => [m]) hm, hw.all⟩
  | pair type valueBytes =>
    obtain ⟨bs, hbs, hret⟩ := except_bind_ok.1 h
    cases hret
    rw [mapM_ok, List.forall₂_cons_left_iff] at hbs
    obtain ⟨b, _, hb, hnil, rfl⟩ := hbs
    rw [List.forall₂_nil_left_iff] at hnil
    subst hnil
    rw [List.flatten_cons, List.flatten_nil, List.append_nil]
    rw [AttrItem.encode] at hb
    split_ifs at hb with hlong
    cases hb
    exact ⟨_, rfl, (encodeTlv_writes hfits (by omega)).all⟩
  | vsa vendorId vendorType vendorValue => exact ⟨_, rfl, (encodeVSA_writes h hfits).all⟩
  | ipv6Prefix type address prefixLength =>
    obtain ⟨attr, hattr, hret⟩ := except_bind_ok.1 h
    cases hret
    exact ⟨_, rfl, encodeIpv6PrefixAttr_writes isIPv6 hattr hfits⟩
  | ipv6Address type address =>
    obtain ⟨attr, hattr, hret⟩ := except_bind_ok.1 h
    cases hret
    exact ⟨_, rfl, encodeIpv6AddressAttr_writes isIPv6 hattr hfits⟩
  | stringAttr type text =>
    cases h
    exact ⟨_, rfl, encodeStringAttr_writes hfits⟩

theorem denotedList_cons {g : Given} {attrs : List Given} {ms : List Meaning} :
    denotedList isIPv6 (g :: attrs) = some ms ↔
      ∃ ms₁ ms₂, g.denoted isIPv6 = some ms₁ ∧ denotedList isIPv6 attrs = some ms₂ ∧
        ms = ms₁ ++ ms₂ := by
  rw [denotedList, Option.bind_eq_some_iff]
  constructor
  · rintro ⟨ms₁, h₁, h⟩
    obtain ⟨ms₂, h₂, rfl⟩ := Option.map_eq_some_iff.1 h
    exact ⟨ms₁, ms₂, h₁, h₂, rfl⟩
  · rintro ⟨ms₁, ms₂, h₁, h₂, rfl⟩
    exact ⟨ms₁, h₁, Option.map_eq_some_iff.2 ⟨ms₂, h₂, rfl⟩⟩

theorem encodeAttributes_buffers (buffers : List Bytes) :
    encodeAttributes (buffers.map .buffer) = .ok buffers.flatten := by
  have hall : (buffers.map AttrItem.buffer).mapM AttrItem.encode = .ok buffers := by
    rw [mapM_ok, List.forall₂_map_left_iff, List.forall₂_same]
    exact fun b _ => rfl
  exact except_bind_ok.2 ⟨buffers, hall, rfl⟩

theorem encodeGiven_ok {attrs : List Given} {b : Bytes} (h : encodeGiven isIPv6 attrs = .ok b) :
    ∃ buffers, List.Forall₂ (fun g b => g.buffer isIPv6 = .ok b) attrs buffers ∧
      b = buffers.flatten := by
  obtain ⟨buffers, hall, h⟩ := except_bind_ok.1 h
  rw [encodeAttributes_buffers] at h
  cases h
  exact ⟨buffers, mapM_ok.1 hall, rfl⟩

/-- **Attributes that fit are written**, one after the other. -/
theorem encodeGiven_writes {attrs : List Given} {b : Bytes} (h : encodeGiven isIPv6 attrs = .ok b)
    (hfits : ∀ g ∈ attrs, g.Fits isIPv6) :
    ∃ ms, denotedList isIPv6 attrs = some ms ∧ WritesAll b ms := by
  obtain ⟨buffers, hall, rfl⟩ := encodeGiven_ok isIPv6 h
  clear h
  induction hall with
  | nil => exact ⟨[], rfl, writesAll_nil⟩
  | cons hg _ ih =>
    obtain ⟨ms₁, h₁, hw₁⟩ := Given.writes isIPv6 hg (hfits _ List.mem_cons_self)
    obtain ⟨ms₂, h₂, hw₂⟩ := ih fun g hmem => hfits g (List.mem_cons_of_mem _ hmem)
    rw [List.flatten_cons]
    exact ⟨_, (denotedList_cons isIPv6).2 ⟨ms₁, ms₂, h₁, h₂, rfl⟩, hw₁.append hw₂⟩

theorem encodeGiven_map {α : Type} {given : α → Given} {encode : α → Except String Bytes}
    (h : ∀ a, (given a).buffer isIPv6 = encode a) (l : List α) :
    encodeGiven isIPv6 (l.map given) = l.mapM encode >>= fun buffers => pure buffers.flatten := by
  have hmap : Given.buffer isIPv6 ∘ given = encode := funext h
  rw [encodeGiven, List.mapM_map, hmap]
  cases l.mapM encode with
  | error e => rfl
  | ok buffers => exact encodeAttributes_buffers buffers

theorem flatten_one {α : Type} (encode : α → Except String Bytes) (a : α) :
    ([a].mapM encode >>= fun buffers => pure buffers.flatten) = encode a := by
  rw [List.mapM_cons]
  cases encode a with
  | error e => rfl
  | ok b => exact congrArg Except.ok (List.append_nil b)

theorem encodeNamedAttributes_eq (attrDefs : List (String × String)) :
    encodeGiven isIPv6 (attrDefs.map fun d => .named d.1 d.2) =
      encodeNamedAttributes attrDefs := by
  refine encodeGiven_map isIPv6 (fun d => ?_) attrDefs
  exact flatten_one (fun d => encodeNamed d.1 d.2) d

theorem encodeAttributes_eq (attrList : List (ℤ × Bytes)) :
    encodeGiven isIPv6 (attrList.map fun d => .pair d.1 d.2) =
      encodeAttributes (attrList.map fun d => .pair d.1 d.2) := by
  have hone : ∀ d : ℤ × Bytes,
      Given.buffer isIPv6 (.pair d.1 d.2) = AttrItem.encode (.pair d.1 d.2) :=
    fun d => flatten_one AttrItem.encode _
  rw [encodeGiven_map isIPv6 hone, encodeAttributes, List.mapM_map]
  rfl

/-! ### What is decoded fits -/

/-- What a decoded attribute can be. -/
def Sound (m : Meaning) : Prop := IsByte m.1 ∧ (∀ o ∈ m.2, IsByte o) ∧ m.2.length ≤ 253

theorem sound_of_parse {b : Bytes} {m : Meaning} (h : m ∈ (Tlv.parse b).map meaning) : Sound m := by
  obtain ⟨a, ha, rfl⟩ := List.mem_map.1 h
  refine ⟨isByte_toNat a.type, ?_, ?_⟩
  · intro o ho
    obtain ⟨c, _, rfl⟩ := List.mem_map.1 ho
    exact isByte_toNat c
  · show (octets a.value).length ≤ 253
    rw [length_octets]
    exact Tlv.length_le_of_mem_parse ha

theorem NamedAttr.fits_of_sound {a : NamedAttr} {value : String} {m : Meaning}
    (h : a.denoted value = some m) (hm : Sound m) : a.Fits value := by
  cases a with
  | userName =>
    cases h
    have hlen := hm.2.2
    rwa [length_octets] at hlen
  | framedIPAddress =>
    obtain ⟨os, hos, _⟩ := Option.map_eq_some_iff.1 h
    exact Option.isSome_iff_exists.2 ⟨os, hos⟩
  | wisprBandwidthMaxDown =>
    obtain ⟨n, hn, _⟩ := Option.map_eq_some_iff.1 h
    exact Option.isSome_iff_exists.2 ⟨n, hn⟩
  | wisprBandwidthMaxUp =>
    obtain ⟨n, hn, _⟩ := Option.map_eq_some_iff.1 h
    exact Option.isSome_iff_exists.2 ⟨n, hn⟩
  | acctSessionId | mikrotikRateLimit | mikrotikAddressList | ciscoAvPair => trivial

theorem isByte_of_sound {type : ℤ} {v : Option Bytes}
    (h : ∀ m ∈ v.toList.map fun v => (type, octets v), Sound m) (hv : v.isSome) : IsByte type := by
  obtain ⟨v, rfl⟩ := Option.isSome_iff_exists.1 hv
  exact (h _ List.mem_cons_self).1

theorem Given.fits_of_sound {g : Given} {ms : List Meaning} (h : g.denoted isIPv6 = some ms)
    (hms : ∀ m ∈ ms, Sound m) : g.Fits isIPv6 := by
  cases g with
  | named name value =>
    intro a ha
    rw [denoted, ha] at h
    obtain ⟨m, hm, rfl⟩ := Option.map_eq_some_iff.1 h
    exact NamedAttr.fits_of_sound hm (hms m List.mem_cons_self)
  | pair type valueBytes =>
    cases h
    exact (hms _ List.mem_cons_self).1
  | vsa vendorId vendorType vendorValue =>
    cases h
    refine (hms _ List.mem_cons_self).2.1 vendorType ?_
    rw [vsaMeaning]
    simp
  | ipv6Prefix type address prefixLength =>
    cases h
    exact isByte_of_sound hms
  | ipv6Address type address =>
    cases h
    exact isByte_of_sound hms
  | stringAttr type text =>
    cases h
    exact isByte_of_sound hms

theorem fits_of_denotedList {attrs : List Given} {ms : List Meaning}
    (h : denotedList isIPv6 attrs = some ms) (hms : ∀ m ∈ ms, Sound m) :
    ∀ g ∈ attrs, g.Fits isIPv6 := by
  induction attrs generalizing ms with
  | nil =>
    intro g hg
    cases hg
  | cons g attrs ih =>
    obtain ⟨ms₁, ms₂, h₁, h₂, rfl⟩ := (denotedList_cons isIPv6).1 h
    intro g' hg'
    rcases List.mem_cons.1 hg' with rfl | hg'
    · exact Given.fits_of_sound isIPv6 h₁ fun m hm => hms m (List.mem_append_left _ hm)
    · exact ih h₂ (fun m hm => hms m (List.mem_append_right _ hm)) g' hg'

/-! ### The round trip -/

theorem emod_eq_self_iff (n : ℤ) : n % 256 = n ↔ IsByte n := by
  unfold IsByte
  omega

theorem RoundTrips.limits {code identifier : ℤ} {authenticator : Bytes} {attrs : List Given}
    {attributesBuffer : Bytes}
    (h : RoundTrips isIPv6 code identifier authenticator attrs attributesBuffer)
    (hshort : ¬ 65535 < 20 + attributesBuffer.length) :
    IsByte code ∧ IsByte identifier ∧ ∀ g ∈ attrs, g.Fits isIPv6 := by
  obtain ⟨packet, hpacket⟩ :
      ∃ packet, buildRadiusPacket code identifier authenticator attributesBuffer = .ok packet := by
    simp only [buildRadiusPacket, if_neg hshort]
    exact ⟨_, rfl⟩
  obtain ⟨p, hp, hcode, hidentifier, hattributes⟩ := decodePacket_build hpacket
  obtain ⟨p', hp', hcode', hidentifier', hlist⟩ := h packet hpacket
  rw [hp] at hp'
  cases hp'
  rw [hattributes] at hlist
  exact ⟨(emod_eq_self_iff code).1 (hcode.symm.trans hcode'),
    (emod_eq_self_iff identifier).1 (hidentifier.symm.trans hidentifier'),
    fits_of_denotedList isIPv6 hlist fun m hm => sound_of_parse hm⟩

theorem roundTrips_of_limits {code identifier : ℤ} {authenticator : Bytes} {attrs : List Given}
    {attributesBuffer : Bytes} (haccepted : encodeGiven isIPv6 attrs = .ok attributesBuffer)
    (hcode : IsByte code) (hidentifier : IsByte identifier) (hfits : ∀ g ∈ attrs, g.Fits isIPv6) :
    RoundTrips isIPv6 code identifier authenticator attrs attributesBuffer := by
  intro packet hpacket
  obtain ⟨p, hp, hpcode, hpidentifier, hattributes⟩ := decodePacket_build hpacket
  obtain ⟨ms, hms, hw⟩ := encodeGiven_writes isIPv6 haccepted hfits
  exact ⟨p, hp, hpcode.trans ((emod_eq_self_iff code).2 hcode),
    hpidentifier.trans ((emod_eq_self_iff identifier).2 hidentifier),
    by rw [hms, hattributes, hw.parse]⟩

/-- **Attributes that the encoders accept come back** from the packet exactly when the packet
cannot be built, or the code and the identifier are bytes and each attribute keeps its limits. -/
theorem packet_round_trip_iff {code identifier : ℤ} {authenticator : Bytes} {attrs : List Given}
    {attributesBuffer : Bytes} (haccepted : encodeGiven isIPv6 attrs = .ok attributesBuffer) :
    RoundTrips isIPv6 code identifier authenticator attrs attributesBuffer ↔
      65535 < 20 + attributesBuffer.length ∨
        IsByte code ∧ IsByte identifier ∧ ∀ g ∈ attrs, g.Fits isIPv6 := by
  constructor
  · intro hround
    by_cases hlong : 65535 < 20 + attributesBuffer.length
    · exact Or.inl hlong
    · exact Or.inr (hround.limits isIPv6 hlong)
  · rintro (hlong | ⟨hcode, hidentifier, hfits⟩)
    · intro packet hpacket
      simp only [buildRadiusPacket, if_pos hlong] at hpacket
      cases hpacket
    · exact roundTrips_of_limits isIPv6 haccepted hcode hidentifier hfits

theorem packet_round_trip_user_name :
    encodeGiven (fun _ => false) [.named "User-Name" "ana", .vsa 14988 8 [53, 77]] =
        .ok [1, 5, 97, 110, 97, 26, 10, 0, 0, 58, 140, 8, 4, 53, 77] ∧
      RoundTrips (fun _ => false) 43 7 (List.replicate 16 0)
        [.named "User-Name" "ana", .vsa 14988 8 [53, 77]]
        [1, 5, 97, 110, 97, 26, 10, 0, 0, 58, 140, 8, 4, 53, 77] := by
  have haccepted : encodeGiven (fun _ => false) [.named "User-Name" "ana", .vsa 14988 8 [53, 77]] =
      .ok [1, 5, 97, 110, 97, 26, 10, 0, 0, 58, 140, 8, 4, 53, 77] := by decide
  refine ⟨haccepted, (packet_round_trip_iff _ haccepted).2 (Or.inr ⟨by decide, by decide, ?_⟩)⟩
  intro g hg
  rcases List.mem_cons.1 hg with rfl | hg
  · intro a ha
    obtain rfl : NamedAttr.userName = a := Option.some.inj ((by decide :
      some NamedAttr.userName = NamedAttr.ofName "User-Name").trans ha)
    show (utf8 "ana").length ≤ 253
    decide
  · rw [List.mem_singleton.1 hg]
    show IsByte 8
    decide

theorem length_utf8_replicate (n : ℕ) :
    (utf8 (String.ofList (List.replicate n 'a'))).length = n := by
  rw [utf8, String.toList_ofList]
  induction n with
  | zero => rfl
  | succ n ih =>
    rw [List.replicate_succ, List.flatMap_cons, List.length_append, ih, Nat.add_comm]
    rfl

/-- A user name of 254 bytes. -/
def longUserName : String := String.ofList (List.replicate 254 'a')

/-- The length byte of a user name that is too long wraps, and the reader finds another attribute
or none. -/
theorem not_roundTrips_of_long {name : String} (hlong : 253 < (utf8 name).length)
    (hshort : (utf8 name).length < 65000) :
    ∃ attributesBuffer, encodeNamedAttributes [("User-Name", name)] = .ok attributesBuffer ∧
      ¬ RoundTrips (fun _ => false) 43 7 (List.replicate 16 0) [.named "User-Name" name]
        attributesBuffer := by
  have hname : NamedAttr.ofName "User-Name" = some .userName := by decide
  have haccepted : encodeNamedAttributes [("User-Name", name)] = .ok (encodeUserName name) := by
    refine except_bind_ok.2 ⟨[encodeUserName name], mapM_ok.2 (.cons ?_ .nil), ?_⟩
    · rw [encodeNamed, hname]
      rfl
    · rw [List.flatten_cons, List.flatten_nil, List.append_nil]
      rfl
  refine ⟨_, haccepted, fun hround => ?_⟩
  have hbuffer : ¬ 65535 < 20 + (encodeUserName name).length := by
    rw [encodeUserName, encodeTlv, Tlv.encode, List.length_cons, List.length_cons]
    simp only
    omega
  have hfits := (hround.limits _ hbuffer).2.2 _ List.mem_cons_self _ hname
  have : (utf8 name).length ≤ 253 := hfits
  omega

/-- The length byte of a user name of 254 bytes wraps to 0, and the reader finds no attribute. -/
theorem long_user_name_is_lost :
    ∃ attributesBuffer,
      encodeNamedAttributes [("User-Name", longUserName)] = .ok attributesBuffer ∧
        ¬ RoundTrips (fun _ => false) 43 7 (List.replicate 16 0)
          [.named "User-Name" longUserName] attributesBuffer := by
  have hlen : (utf8 longUserName).length = 254 := length_utf8_replicate 254
  exact not_roundTrips_of_long (by omega) (by omega)

end Vigabss.RadiusServer
