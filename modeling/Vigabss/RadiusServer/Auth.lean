import Vigabss.RadiusServer.CoaEncoder

/-!
# Vigabss.RadiusServer.Auth — Access-Requests

`handleAuth` of the RADIUS server: what it drops, what it rejects and what it accepts, with the
PAP, CHAP and Message-Authenticator functions of the codec over any MD5 and HMAC-MD5.
-/

namespace Vigabss.RadiusServer

open Vigabss.Lib

namespace CODE

def ACCESS_REQUEST : ℕ := 1
def ACCESS_ACCEPT : ℤ := 2
def ACCESS_REJECT : ℤ := 3

end CODE

/-! ### The codec -/

/-- The hash functions: `md5 data` and `hmacMd5 key data`. -/
structure Crypto where
  md5 : Bytes → Bytes
  hmacMd5 : Bytes → Bytes → Bytes

/-- The blocks of a decrypted password: each is the block read, xor the hash of the secret and the
block before it. -/
def papBlocks (c : Crypto) (secret : Bytes) (last : Bytes) : ℕ → Bytes → Bytes
  | 0, _ => []
  | blocks + 1, enc =>
    (enc.take 16).zipWith (· ^^^ ·) (c.md5 (secret ++ last)) ++
      papBlocks c secret (enc.take 16) blocks (enc.drop 16)

/-- The bytes up to the last one that is not 0. -/
def stripNuls (out : Bytes) : Bytes := (out.reverse.dropWhile (· = 0)).reverse

/-- `decodePapPassword(enc, secret, requestAuthenticator)`. -/
def decodePapPassword (c : Crypto) (enc : Bytes) (secret : String) (requestAuthenticator : Bytes) :
    Option String :=
  if enc.length = 0 ∨ enc.length % 16 ≠ 0 then none
  else some (utf8Decode (stripNuls
    (papBlocks c (utf8 secret) requestAuthenticator (enc.length / 16) enc)))

/-- `verifyChap(chapPassword, challenge, plaintextPassword)`. -/
def verifyChap (c : Crypto) (chapPassword challenge : Bytes) (plaintextPassword : String) : Bool :=
  if chapPassword.length < 17 then false
  else
    let chapId := byteAt chapPassword 0
    let resp := subarray chapPassword 1 17
    let expected := c.md5 ([chapId] ++ utf8 plaintextPassword ++ challenge)
    resp = expected

/-- Where a scan of the attributes meets a Message-Authenticator of 18 bytes. -/
def findMessageAuthenticator (packet : Bytes) : ℕ → ℕ → Option ℕ
  | 0, _ => none
  | rounds + 1, off =>
    if off + 2 ≤ packet.length then
      let type := byteAt packet off
      let alen := (byteAt packet (off + 1)).toNat
      if alen < 2 then none
      else if type = ATTR.MESSAGE_AUTHENTICATOR ∧ alen = 18 then some off
      else findMessageAuthenticator packet rounds (off + alen)
    else none

/-- `src.copy(packet, off)`, for a source that fits. -/
def writeAt (packet : Bytes) (off : ℕ) (src : Bytes) : Bytes :=
  packet.take off ++ src ++ packet.drop (off + src.length)

/-- `packet.fill(0, off + 2, off + 18)`. -/
def zeroValue (packet : Bytes) (off : ℕ) : Bytes := writeAt packet (off + 2) (List.replicate 16 0)

/-- `verifyMessageAuthenticator(packet, attributes, secret)`. -/
def verifyMessageAuthenticator (c : Crypto) (packet : Bytes) (attributes : List Tlv.Attr)
    (secret : String) : Bool :=
  match getAttr attributes ATTR.MESSAGE_AUTHENTICATOR with
  | none => true
  | some ma =>
    if ma.length ≠ 16 then false
    else
      match findMessageAuthenticator packet packet.length 20 with
      | none => false
      | some off => c.hmacMd5 (utf8 secret) (zeroValue packet off) = ma

/-- `signResponse(packet, requestAuthenticator, secret, withMessageAuth)`. -/
def signResponse (c : Crypto) (packet requestAuthenticator : Bytes) (secret : String)
    (withMessageAuth : Bool) : Bytes :=
  let packet := writeAt packet 4 requestAuthenticator
  let packet :=
    if withMessageAuth then
      match findMessageAuthenticator packet packet.length 20 with
      | none => packet
      | some off =>
        writeAt packet (off + 2) (c.hmacMd5 (utf8 secret) (zeroValue packet off))
    else packet
  writeAt packet 4 (c.md5 (packet ++ utf8 secret))

/-- `messageAuthenticatorPlaceholder()`. -/
def messageAuthenticatorPlaceholder : Bytes :=
  [ATTR.MESSAGE_AUTHENTICATOR, 18] ++ List.replicate 16 0

/-- `getString(attributes, type)`. -/
def getString (attributes : List Tlv.Attr) (type : UInt8) : Option String :=
  (getAttr attributes type).map utf8Decode

/-! ### The server -/

/-- A row of `nas`. -/
structure Nas where
  id : ℕ
  organization_id : Option ℕ
  secret : Option String
  require_message_authenticator : Bool
  deriving DecidableEq, Repr

inductive RadiusStatus where
  | active | inactive | suspended
  deriving DecidableEq, Repr

/-- A row of `radius`. -/
structure RadiusRow where
  id : ℕ
  organization_id : Option ℕ
  contract_id : Option ℕ
  username : String
  password : Option String
  status : RadiusStatus
  deleted : Bool
  deriving DecidableEq, Repr

inductive ContractStatus where
  | pending | active | suspended | terminated | other
  deriving DecidableEq, Repr

/-- A row of `contracts`, with the columns that authentication reads. -/
structure ContractRow where
  id : ℕ
  status : ContractStatus
  test_window_cleanup_pending : Bool
  test_window_expires_at : Option ℤ
  deriving DecidableEq, Repr

/-- What the server reads: its configuration, the lookups in the database, and the attributes that
it grants to a subscriber, which may not be encodable. -/
structure Server where
  crypto : Crypto
  globalSecret : Option String
  findNasByIp : String → Option Nas
  radius : List RadiusRow
  contracts : List ContractRow
  sameUsername : String → String → Bool
  now : ℤ
  grantedAttributes : RadiusRow → Except String Bytes

/-- A string that is not `null`, `undefined` or empty. -/
def truthy (text : Option String) : Option String := text.filter (· ≠ "")

/-- `secretFor(nas)`. -/
def secretFor (s : Server) (nas : Option Nas) : Option String :=
  nas.bind fun nas => (truthy nas.secret).or (truthy s.globalSecret)

/-- The conditions of `findSubscriber` on the contract of a row, which need not exist. -/
def contractAdmits (s : Server) (row : RadiusRow) : Bool :=
  match s.contracts.find? fun c => row.contract_id = some c.id with
  | none => true
  | some c => c.status = .active ∨ c.status = .pending ∧ c.test_window_cleanup_pending = false ∧
      (c.test_window_expires_at.any fun expires => s.now < expires)

/-- `findSubscriber(username, organizationId)`. -/
def findSubscriber (s : Server) (username : String) (organizationId : Option ℕ) :
    Option RadiusRow :=
  s.radius.find? fun row => s.sameUsername row.username username ∧
    row.organization_id = organizationId ∧ row.deleted = false ∧ row.status = .active ∧
    contractAdmits s row

/-- `AUTH_REASON`, less `ACCEPTED`. -/
inductive AuthReason where
  | missingUsername | unknownOrInactiveUser | passwordNotConfigured | unsupportedAuthMethod
  | badPassword
  deriving DecidableEq, Repr

/-- What is decided about a request. -/
inductive Verdict where
  | accept (subscriber : RadiusRow)
  | reject (reason : AuthReason)
  deriving DecidableEq, Repr

/-- The two ways to check a password: PAP first, CHAP where there is no User-Password. -/
def checkPassword (s : Server) (pkt : Packet) (secret : String) (subscriber : RadiusRow)
    (password : String) : Verdict :=
  match getAttr pkt.attributes ATTR.USER_PASSWORD with
  | some userPw =>
    match decodePapPassword s.crypto userPw secret pkt.authenticator with
    | some plain =>
      if utf8 plain = utf8 password then .accept subscriber else .reject .badPassword
    | none => .reject .badPassword
  | none =>
    match getAttr pkt.attributes ATTR.CHAP_PASSWORD with
    | some chapPw =>
      let challenge := (getAttr pkt.attributes ATTR.CHAP_CHALLENGE).getD pkt.authenticator
      if verifyChap s.crypto chapPw challenge password then .accept subscriber
      else .reject .badPassword
    | none => .reject .unsupportedAuthMethod

/-- The part of `handleAuth` that decides about a request whose NAS is known. -/
def authenticate (s : Server) (pkt : Packet) (secret : String) (nas : Nas) : Verdict :=
  match truthy (getString pkt.attributes ATTR.USER_NAME) with
  | none => .reject .missingUsername
  | some username =>
    match findSubscriber s username nas.organization_id with
    | none => .reject .unknownOrInactiveUser
    | some subscriber =>
      match truthy subscriber.password with
      | none => .reject .passwordNotConfigured
      | some password => checkPassword s pkt secret subscriber password

/-- The response to a request. -/
def respond (s : Server) (pkt : Packet) (secret : String) (code : ℤ) (attrsBuf : Bytes) :
    Except String (Option Bytes) := do
  let packet ← buildRadiusPacket code pkt.identifier (List.replicate 16 0) attrsBuf
  return some (signResponse s.crypto packet pkt.authenticator secret true)

/-- The end of `handleAuth`: the attributes of the response. -/
def answer (s : Server) (pkt : Packet) (secret : String) :
    Verdict → Except String (Option Bytes)
  | .accept subscriber => do
    let granted ← s.grantedAttributes subscriber
    respond s pkt secret CODE.ACCESS_ACCEPT (messageAuthenticatorPlaceholder ++ granted)
  | .reject _ => do
    let reply ← encodeAttributes [.pair ATTR.REPLY_MESSAGE.toNat (utf8 "Access denied")]
    respond s pkt secret CODE.ACCESS_REJECT (messageAuthenticatorPlaceholder ++ reply)

/-- `handleAuth(msg, rinfo, respond)`: `none` where the request is dropped. -/
def handleAuth (s : Server) (msg : Bytes) (address : String) : Except String (Option Bytes) :=
  match decodePacket msg with
  | .error _ => .ok none
  | .ok pkt =>
    if pkt.code ≠ CODE.ACCESS_REQUEST then .ok none
    else
      match s.findNasByIp address with
      | none => .ok none
      | some nas =>
        match secretFor s (some nas) with
        | none => .ok none
        | some secret =>
          if verifyMessageAuthenticator s.crypto pkt.raw pkt.attributes secret = false then
            .ok none
          else if nas.require_message_authenticator = true ∧
              getAttr pkt.attributes ATTR.MESSAGE_AUTHENTICATOR = none then .ok none
          else answer s pkt secret (authenticate s pkt secret nas)

end Vigabss.RadiusServer

/-!
## A password is encrypted and decrypted block by block

Each block of the encrypted password is chained to the one before it.  The receiver has the same
bytes before every block as the sender had, so the same hash comes off again, and the NULs that
filled the last block are stripped.
-/

namespace Vigabss.RadiusServer

open Vigabss.Lib

/-! ### The encryption -/

/-- The blocks of an encrypted password: each is the block to write, xor the hash of the secret and
the block written before it. -/
def papEncrypt (c : Crypto) (secret : Bytes) (last : Bytes) : ℕ → Bytes → Bytes
  | 0, _ => []
  | blocks + 1, padded =>
    let out := (padded.take 16).zipWith (· ^^^ ·) (c.md5 (secret ++ last))
    out ++ papEncrypt c secret out blocks (padded.drop 16)

/-- `encodePapPassword(plaintext, secret, requestAuthenticator)`. -/
def encodePapPassword (c : Crypto) (plaintext secret : String) (requestAuthenticator : Bytes) :
    Bytes :=
  let src := utf8 plaintext
  let padLen := max 16 ((src.length + 15) / 16 * 16)
  let padded := src ++ List.replicate (padLen - src.length) 0
  papEncrypt c (utf8 secret) requestAuthenticator (padLen / 16) padded

/-! ### Blocks -/

theorem zipWith_xor_cancel {a b : Bytes} (h : a.length = b.length) :
    (a.zipWith (· ^^^ ·) b).zipWith (· ^^^ ·) b = a := by
  induction a generalizing b with
  | nil => rfl
  | cons x a ih =>
    cases b with
    | nil => simp at h
    | cons y b =>
      have hxor : x ^^^ y ^^^ y = x := by rw [UInt8.xor_assoc, UInt8.xor_self, UInt8.xor_zero]
      rw [List.zipWith_cons_cons, List.zipWith_cons_cons, hxor, ih (Nat.succ.inj h)]

section Blocks

variable {c : Crypto} (hmd5 : ∀ data, (c.md5 data).length = 16) (secret : Bytes)

include hmd5

theorem length_papEncrypt (blocks : ℕ) (last padded : Bytes) (h : padded.length = 16 * blocks) :
    (papEncrypt c secret last blocks padded).length = 16 * blocks := by
  induction blocks generalizing last padded with
  | zero => rfl
  | succ blocks ih =>
    have hrest : (padded.drop 16).length = 16 * blocks := by
      rw [List.length_drop]
      omega
    simp only [papEncrypt, List.length_append, List.length_zipWith, List.length_take, hmd5,
      ih _ _ hrest]
    omega

theorem papBlocks_papEncrypt (blocks : ℕ) (last padded : Bytes)
    (h : padded.length = 16 * blocks) :
    papBlocks c secret last blocks (papEncrypt c secret last blocks padded) = padded := by
  induction blocks generalizing last padded with
  | zero => rw [List.length_eq_zero_iff.1 h, papBlocks]
  | succ blocks ih =>
    have hblock : (padded.take 16).length = 16 := by
      rw [List.length_take]
      omega
    have hrest : (padded.drop 16).length = 16 * blocks := by
      rw [List.length_drop]
      omega
    simp only [papEncrypt, papBlocks]
    generalize hout : (padded.take 16).zipWith (· ^^^ ·) (c.md5 (secret ++ last)) = out
    have hlength : out.length = 16 := by
      rw [← hout, List.length_zipWith, hblock, hmd5, Nat.min_self]
    have htake : ∀ rest : Bytes, (out ++ rest).take 16 = out := fun rest =>
      List.take_left' hlength
    have hdrop : ∀ rest : Bytes, (out ++ rest).drop 16 = rest := fun rest =>
      List.drop_left' hlength
    rw [htake, hdrop, ih out _ hrest, ← hout, zipWith_xor_cancel (hblock.trans (hmd5 _).symm),
      List.take_append_drop]

end Blocks

/-! ### NULs at the end -/

theorem stripNuls_append_replicate {src : Bytes} (h : src.getLast? ≠ some 0) (n : ℕ) :
    stripNuls (src ++ List.replicate n 0) = src := by
  have hhead : src.reverse.dropWhile (· = 0) = src.reverse := by
    cases hsrc : src.reverse with
    | nil => rfl
    | cons b rest =>
      have hb : b ≠ 0 := by
        rintro rfl
        rw [← List.head?_reverse, hsrc] at h
        exact h rfl
      rw [List.dropWhile_cons_of_neg (by simpa using hb)]
  rw [stripNuls, List.reverse_append, List.reverse_replicate,
    List.dropWhile_append_of_pos (by simp), hhead, List.reverse_reverse]

theorem getLast?_utf8EncodeChar {ch : Char} (h : ch ≠ '\x00') :
    (String.utf8EncodeChar ch).getLast? ≠ some 0 := by
  have hval : ch.val.toNat ≠ 0 := fun hzero => h (Char.toNat_inj.1 hzero)
  have hbyte : ∀ n, n % 256 ≠ 0 → UInt8.ofNat n ≠ 0 := by
    intro n hn hzero
    exact hn (congrArg UInt8.toNat hzero)
  unfold String.utf8EncodeChar
  generalize ch.val.toNat = v at hval
  simp only
  split_ifs with h1 h2 h3
  · simpa using hbyte v (by omega)
  · simpa using hbyte (v % 64 + 128) (by omega)
  · simpa using hbyte (v % 64 + 128) (by omega)
  · simpa using hbyte (v % 64 + 128) (by omega)

theorem getLast?_utf8 {text : String} (h : text.toList.getLast? ≠ some '\x00') :
    (utf8 text).getLast? ≠ some 0 := by
  rw [utf8]
  generalize text.toList = cs at h
  rcases List.eq_nil_or_concat cs with rfl | ⟨front, ch, rfl⟩
  · simp
  · rw [List.concat_eq_append] at h ⊢
    have hch : ch ≠ '\x00' := by
      rintro rfl
      exact h List.getLast?_concat
    rw [List.flatMap_append, List.flatMap_singleton,
      List.getLast?_append_of_ne_nil _ String.utf8EncodeChar_ne_nil]
    exact getLast?_utf8EncodeChar hch

/-! ### The round trip -/

/-- **The round trip of a password**: whatever the secret and the authenticator, a password that
does not end in a NUL is decrypted from what it was encrypted to. -/
theorem decodePapPassword_encodePapPassword (c : Crypto)
    (hmd5 : ∀ data, (c.md5 data).length = 16) (plaintext secret : String)
    (requestAuthenticator : Bytes) (hnul : plaintext.toList.getLast? ≠ some '\x00') :
    decodePapPassword c (encodePapPassword c plaintext secret requestAuthenticator) secret
      requestAuthenticator = some plaintext := by
  simp only [encodePapPassword]
  generalize hpad : max 16 (((utf8 plaintext).length + 15) / 16 * 16) = padLen
  have hblocks : 16 * (padLen / 16) = padLen := by omega
  have hlength : (utf8 plaintext ++
      List.replicate (padLen - (utf8 plaintext).length) 0).length = 16 * (padLen / 16) := by
    rw [List.length_append, List.length_replicate]
    omega
  have henc := length_papEncrypt hmd5 (utf8 secret) (padLen / 16) requestAuthenticator _ hlength
  rw [decodePapPassword, henc, if_neg (by omega), Nat.mul_div_cancel_left _ (by omega),
    papBlocks_papEncrypt hmd5 _ _ _ _ hlength, stripNuls_append_replicate (getLast?_utf8 hnul),
    utf8Decode_utf8]

/-! ### Two blocks -/

/-- The authenticator of a request. -/
def authenticator : Bytes := [1, 2, 3, 4, 5, 6, 7, 8, 9, 10, 11, 12, 13, 14, 15, 16]

/-- The first block of `"correct horse battery"`, encrypted with the secret `"s3cr3t"`. -/
def firstBlock : Bytes :=
  [121, 204, 244, 31, 71, 155, 58, 109, 60, 233, 93, 97, 84, 87, 208, 82]

/-- The MD5 of the two texts that are hashed for it, the block before each behind the secret. -/
def md5OfBlocks : Crypto where
  md5 data :=
    if data = utf8 "s3cr3t" ++ authenticator then
      [26, 163, 134, 109, 34, 248, 78, 77, 84, 134, 47, 18, 49, 119, 178, 51]
    else if data = utf8 "s3cr3t" ++ firstBlock then
      [173, 161, 43, 161, 157, 41, 49, 170, 35, 41, 40, 128, 145, 66, 28, 216]
    else List.replicate 16 0
  hmacMd5 _ _ := []

theorem decodePapPassword_two_blocks :
    decodePapPassword md5OfBlocks
      (encodePapPassword md5OfBlocks "correct horse battery" "s3cr3t" authenticator) "s3cr3t"
      authenticator = some "correct horse battery" := by
  refine decodePapPassword_encodePapPassword md5OfBlocks (fun data => ?_) _ _ _ ?_
  · simp only [md5OfBlocks]
    split_ifs <;> rfl
  · rw [String.toList_ofList]
    decide

end Vigabss.RadiusServer
