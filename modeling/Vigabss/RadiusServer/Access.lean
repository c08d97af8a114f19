import Vigabss.RadiusServer.Auth

/-!
# Vigabss.RadiusServer.Access — who is let in

`handleAuth_accept_iff` says exactly when `handleAuth` answers with an Access-Accept, and that every
other request is rejected or dropped.
-/

namespace Vigabss.RadiusServer

open Vigabss.Lib

/-! ### The Message-Authenticator -/

/-- The Message-Authenticator of a packet, where there is one, has 16 bytes and is the HMAC of the
packet in which these are 0. -/
def MessageAuthenticated (c : Crypto) (secret : String) (pkt : Packet) : Prop :=
  ∀ ma, getAttr pkt.attributes ATTR.MESSAGE_AUTHENTICATOR = some ma →
    ma.length = 16 ∧ ∃ (before : List Tlv.Attr) (rest : Bytes),
      (∀ a ∈ before, a.type ≠ ATTR.MESSAGE_AUTHENTICATOR ∧ a.value.length ≤ 253) ∧
      pkt.raw = pkt.raw.take 20 ++ before.flatMap Tlv.encode ++
        Tlv.encode ⟨ATTR.MESSAGE_AUTHENTICATOR, ma⟩ ++ rest ∧
      c.hmacMd5 (utf8 secret) (pkt.raw.take 20 ++ before.flatMap Tlv.encode ++
        Tlv.encode ⟨ATTR.MESSAGE_AUTHENTICATOR, List.replicate 16 0⟩ ++ rest) = ma

theorem byteAt_append_right (pre buf : Bytes) (i : ℕ) :
    byteAt (pre ++ buf) (pre.length + i) = byteAt buf i := by
  rw [byteAt, byteAt, List.getD_append_right _ _ _ _ (by omega), Nat.add_sub_cancel_left]

/-- The scan passes the records before the Message-Authenticator. -/
theorem findMessageAuthenticator_eq {ma : Bytes} (hma : ma.length = 16) (rest : Bytes)
    {before : List Tlv.Attr}
    (hbefore : ∀ a ∈ before, a.type ≠ ATTR.MESSAGE_AUTHENTICATOR ∧ a.value.length ≤ 253)
    (pre : Bytes) (rounds : ℕ) (hrounds : before.length < rounds) :
    findMessageAuthenticator (pre ++ before.flatMap Tlv.encode ++
      Tlv.encode ⟨ATTR.MESSAGE_AUTHENTICATOR, ma⟩ ++ rest) rounds pre.length =
        some (pre ++ before.flatMap Tlv.encode).length := by
  induction before generalizing pre rounds with
  | nil =>
    obtain ⟨rounds, rfl⟩ := Nat.exists_eq_succ_of_ne_zero (Nat.ne_of_gt hrounds)
    have hlen : (Tlv.encode ⟨ATTR.MESSAGE_AUTHENTICATOR, ma⟩).length = 18 := by
      rw [Tlv.encode, List.length_cons, List.length_cons, hma]
    have htype : byteAt (pre ++ (Tlv.encode ⟨ATTR.MESSAGE_AUTHENTICATOR, ma⟩ ++ rest)) pre.length =
        ATTR.MESSAGE_AUTHENTICATOR := byteAt_append_right _ _ 0
    have halen : (byteAt (pre ++ (Tlv.encode ⟨ATTR.MESSAGE_AUTHENTICATOR, ma⟩ ++ rest))
        (pre.length + 1)).toNat = 18 := by
      rw [byteAt_append_right]
      show (UInt8.ofNat (2 + ma.length)).toNat = 18
      rw [hma]
      decide
    rw [List.flatMap_nil, List.append_nil, List.append_assoc, findMessageAuthenticator, if_pos]
    · dsimp only
      rw [htype, halen, if_neg (by decide), if_pos ⟨rfl, rfl⟩]
    · rw [List.length_append, List.length_append, hlen]
      omega
  | cons a before ih =>
    obtain ⟨rounds, rfl⟩ := Nat.exists_eq_succ_of_ne_zero (Nat.ne_of_gt (Nat.zero_lt_of_lt hrounds))
    obtain ⟨htype, hshort⟩ := hbefore a List.mem_cons_self
    have hsplit : pre ++ (a :: before).flatMap Tlv.encode ++
        Tlv.encode ⟨ATTR.MESSAGE_AUTHENTICATOR, ma⟩ ++ rest =
        pre ++ Tlv.encode a ++ before.flatMap Tlv.encode ++
          Tlv.encode ⟨ATTR.MESSAGE_AUTHENTICATOR, ma⟩ ++ rest := by
      simp only [List.flatMap_cons, List.append_assoc]
    have hnext := ih (fun b hb => hbefore b (List.mem_cons_of_mem _ hb)) (pre ++ Tlv.encode a)
      rounds (by rw [List.length_cons] at hrounds; omega)
    have hlen : (Tlv.encode a).length = 2 + a.value.length := by
      rw [Tlv.encode, List.length_cons, List.length_cons]
      omega
    have hat : ∀ i, byteAt (pre ++ Tlv.encode a ++ before.flatMap Tlv.encode ++
        Tlv.encode ⟨ATTR.MESSAGE_AUTHENTICATOR, ma⟩ ++ rest) (pre.length + i) =
        byteAt (Tlv.encode a ++ (before.flatMap Tlv.encode ++
          (Tlv.encode ⟨ATTR.MESSAGE_AUTHENTICATOR, ma⟩ ++ rest))) i := by
      intro i
      have hright := byteAt_append_right pre (Tlv.encode a ++ (before.flatMap Tlv.encode ++
        (Tlv.encode ⟨ATTR.MESSAGE_AUTHENTICATOR, ma⟩ ++ rest))) i
      simpa only [List.append_assoc] using hright
    have h0 := hat 0
    rw [Nat.add_zero] at h0
    have halen : (byteAt (Tlv.encode a ++ (before.flatMap Tlv.encode ++
        (Tlv.encode ⟨ATTR.MESSAGE_AUTHENTICATOR, ma⟩ ++ rest))) 1).toNat = 2 + a.value.length :=
      Tlv.toNat_length hshort
    rw [hsplit, findMessageAuthenticator, if_pos]
    · dsimp only
      rw [h0, hat 1, halen, if_neg (by omega), if_neg, ← hlen, ← List.length_append, hnext]
      · simp only [List.flatMap_cons, List.append_assoc]
      · rintro ⟨habs, _⟩
        exact htype habs
    · simp only [List.length_append, hlen]
      omega

theorem zeroValue_eq {ma : Bytes} (hma : ma.length = 16) (pre rest : Bytes) :
    zeroValue (pre ++ Tlv.encode ⟨ATTR.MESSAGE_AUTHENTICATOR, ma⟩ ++ rest) pre.length =
      pre ++ Tlv.encode ⟨ATTR.MESSAGE_AUTHENTICATOR, List.replicate 16 0⟩ ++ rest := by
  have hhead : pre ++ Tlv.encode ⟨ATTR.MESSAGE_AUTHENTICATOR, ma⟩ ++ rest =
      (pre ++ [ATTR.MESSAGE_AUTHENTICATOR, 18]) ++ (ma ++ rest) := by
    rw [Tlv.encode, hma]
    simp only [List.append_assoc, List.cons_append, List.nil_append]
    rfl
  have hlen : (pre ++ [ATTR.MESSAGE_AUTHENTICATOR, 18]).length = pre.length + 2 := by
    rw [List.length_append]
    rfl
  rw [zeroValue, writeAt, hhead, ← hlen, List.take_left, List.length_replicate,
    ← List.drop_drop, List.drop_left, ← hma, List.drop_left, Tlv.encode]
  simp only [List.append_assoc, List.cons_append, List.nil_append, List.length_replicate, hma]
  rfl

/-- `verifyMessageAuthenticator` compares the Message-Authenticator with the HMAC. -/
theorem verifyMessageAuthenticator_split {c : Crypto} {secret : String} {pkt : Packet} {ma : Bytes}
    (hma : getAttr pkt.attributes ATTR.MESSAGE_AUTHENTICATOR = some ma) (hlen : ma.length = 16)
    {before : List Tlv.Attr} {rest : Bytes} (hheader : 20 ≤ pkt.raw.length)
    (hbefore : ∀ a ∈ before, a.type ≠ ATTR.MESSAGE_AUTHENTICATOR ∧ a.value.length ≤ 253)
    (hraw : pkt.raw = pkt.raw.take 20 ++ before.flatMap Tlv.encode ++
      Tlv.encode ⟨ATTR.MESSAGE_AUTHENTICATOR, ma⟩ ++ rest) :
    verifyMessageAuthenticator c pkt.raw pkt.attributes secret = true ↔
      c.hmacMd5 (utf8 secret) (pkt.raw.take 20 ++ before.flatMap Tlv.encode ++
        Tlv.encode ⟨ATTR.MESSAGE_AUTHENTICATOR, List.replicate 16 0⟩ ++ rest) = ma := by
  have hcount : before.length ≤ (before.flatMap Tlv.encode).length := by
    clear hbefore hraw
    induction before with
    | nil => exact le_rfl
    | cons a before ih =>
      rw [List.flatMap_cons, List.length_append, List.length_cons, Tlv.encode, List.length_cons]
      omega
  have htake : (pkt.raw.take 20).length = 20 := by
    rw [List.length_take]
    omega
  have hrounds : before.length < pkt.raw.length := by
    have := congrArg List.length hraw
    simp only [List.length_append, htake] at this
    omega
  have hfind := findMessageAuthenticator_eq hlen rest hbefore (pkt.raw.take 20) _ hrounds
  rw [← hraw, htake] at hfind
  have hzero := zeroValue_eq hlen (pkt.raw.take 20 ++ before.flatMap Tlv.encode) rest
  rw [← hraw] at hzero
  rw [verifyMessageAuthenticator, hma]
  dsimp only
  rw [if_neg (not_not.2 hlen), hfind]
  dsimp only
  rw [hzero, decide_eq_true_iff]

theorem decodePacket_ok {msg : Bytes} {pkt : Packet} (h : decodePacket msg = .ok pkt) :
    20 ≤ pkt.raw.length ∧ pkt.attributes = Tlv.parse (pkt.raw.drop 20) := by
  rw [decodePacket] at h
  dsimp only at h
  split_ifs at h with hshort hrange
  cases h
  have hraw : subarray msg 0 (readUInt16BE msg 2) = msg.take (readUInt16BE msg 2) := by
    rw [subarray, List.drop_zero, Nat.sub_zero]
  refine ⟨?_, ?_⟩
  · show 20 ≤ (subarray msg 0 (readUInt16BE msg 2)).length
    rw [hraw, List.length_take]
    omega
  · show decodeLoop _ _ _ 20 = Tlv.parse ((subarray msg 0 (readUInt16BE msg 2)).drop 20)
    rw [hraw]
    exact decodeLoop_eq (by omega) _ _ (by omega)

/-- **`verifyMessageAuthenticator` verifies**, where there is something to verify. -/
theorem verifyMessageAuthenticator_iff {c : Crypto} {secret : String} {msg : Bytes} {pkt : Packet}
    (h : decodePacket msg = .ok pkt) :
    verifyMessageAuthenticator c pkt.raw pkt.attributes secret = true ↔
      MessageAuthenticated c secret pkt := by
  obtain ⟨hheader, hattributes⟩ := decodePacket_ok h
  cases hma : getAttr pkt.attributes ATTR.MESSAGE_AUTHENTICATOR with
  | none =>
    refine iff_of_true ?_ ?_
    · rw [verifyMessageAuthenticator, hma]
    · intro ma habs
      rw [hma] at habs
      cases habs
  | some ma =>
    constructor
    · intro hverify ma' hma'
      rw [hma] at hma'
      cases hma'
      have hlen : ma.length = 16 := by
        by_contra hne
        rw [verifyMessageAuthenticator, hma] at hverify
        dsimp only at hverify
        rw [if_pos hne] at hverify
        cases hverify
      obtain ⟨⟨type, value⟩, hfind, rfl⟩ := Option.map_eq_some_iff.1 hma
      obtain ⟨htype, before, after, hlist, hbefore⟩ := List.find?_eq_some_iff_append.1 hfind
      obtain rfl : type = ATTR.MESSAGE_AUTHENTICATOR := of_decide_eq_true htype
      obtain ⟨tail, htail⟩ := Tlv.flatMap_encode_parse (pkt.raw.drop 20)
      have hclean : ∀ a ∈ before,
          a.type ≠ ATTR.MESSAGE_AUTHENTICATOR ∧ a.value.length ≤ 253 := by
        intro a ha
        have hmem : a ∈ Tlv.parse (pkt.raw.drop 20) := by
          rw [← hattributes, hlist]
          exact List.mem_append_left _ ha
        exact ⟨by simpa using hbefore a ha, Tlv.length_le_of_mem_parse hmem⟩
      have hraw : pkt.raw = pkt.raw.take 20 ++ before.flatMap Tlv.encode ++
          Tlv.encode ⟨ATTR.MESSAGE_AUTHENTICATOR, value⟩ ++
            (after.flatMap Tlv.encode ++ tail) := by
        conv_lhs => rw [← List.take_append_drop 20 pkt.raw, htail, ← hattributes, hlist]
        simp only [List.flatMap_append, List.flatMap_cons, List.append_assoc]
      exact ⟨hlen, before, _, hclean, hraw,
        (verifyMessageAuthenticator_split hma hlen hheader hclean hraw).1 hverify⟩
    · intro hauth
      obtain ⟨hlen, before, rest, hbefore, hraw, hmac⟩ := hauth ma hma
      exact (verifyMessageAuthenticator_split hma hlen hheader hbefore hraw).2 hmac

/-! ### The credentials -/

/-- The first User-Password decrypts to the password. -/
def PapProves (c : Crypto) (pkt : Packet) (secret password : String) : Prop :=
  ∃ enc, getAttr pkt.attributes ATTR.USER_PASSWORD = some enc ∧ enc.length ≠ 0 ∧
    enc.length % 16 = 0 ∧
    utf8Decode (stripNuls (papBlocks c (utf8 secret) pkt.authenticator (enc.length / 16) enc)) =
      password

/-- There is no User-Password, and the response of the first CHAP-Password is the hash of its
identifier, the password and the challenge. -/
def ChapProves (c : Crypto) (pkt : Packet) (password : String) : Prop :=
  getAttr pkt.attributes ATTR.USER_PASSWORD = none ∧
    ∃ chap, getAttr pkt.attributes ATTR.CHAP_PASSWORD = some chap ∧ 17 ≤ chap.length ∧
      (chap.drop 1).take 16 = c.md5 ([byteAt chap 0] ++ utf8 password ++
        (getAttr pkt.attributes ATTR.CHAP_CHALLENGE).getD pkt.authenticator)

theorem checkPassword_accept_iff {s : Server} {pkt : Packet} {secret password : String}
    {subscriber found : RadiusRow} :
    checkPassword s pkt secret subscriber password = .accept found ↔
      found = subscriber ∧
        (PapProves s.crypto pkt secret password ∨ ChapProves s.crypto pkt password) := by
  rw [checkPassword]
  cases hpap : getAttr pkt.attributes ATTR.USER_PASSWORD with
  | some enc =>
    have hchap : ¬ ChapProves s.crypto pkt password := by
      rintro ⟨habs, _⟩
      rw [hpap] at habs
      cases habs
    have hproves : PapProves s.crypto pkt secret password ↔
        decodePapPassword s.crypto enc secret pkt.authenticator = some password := by
      rw [decodePapPassword]
      constructor
      · rintro ⟨enc', henc', hne, hmod, hplain⟩
        rw [hpap] at henc'
        cases henc'
        rw [if_neg (by omega), hplain]
      · intro hplain
        split_ifs at hplain with hbad
        exact ⟨enc, hpap, by omega, by omega, Option.some.inj hplain⟩
    rw [or_iff_left hchap, hproves]
    dsimp only
    cases decodePapPassword s.crypto enc secret pkt.authenticator with
    | none => simp
    | some plain =>
      dsimp only
      by_cases hsame : utf8 plain = utf8 password
      · rw [if_pos hsame, utf8_injective hsame]
        simp [eq_comm]
      · rw [if_neg hsame]
        refine iff_of_false (by simp) ?_
        rintro ⟨_, hplain⟩
        exact hsame (congrArg utf8 (Option.some.inj hplain))
  | none =>
    have hpap' : ¬ PapProves s.crypto pkt secret password := by
      rintro ⟨enc, habs, _⟩
      rw [hpap] at habs
      cases habs
    rw [or_iff_right hpap', ChapProves, hpap]
    dsimp only
    cases hchap : getAttr pkt.attributes ATTR.CHAP_PASSWORD with
    | none => simp
    | some chap =>
      dsimp only
      have hverify : verifyChap s.crypto chap
          ((getAttr pkt.attributes ATTR.CHAP_CHALLENGE).getD pkt.authenticator) password = true ↔
          17 ≤ chap.length ∧ (chap.drop 1).take 16 = s.crypto.md5 ([byteAt chap 0] ++
            utf8 password ++
              (getAttr pkt.attributes ATTR.CHAP_CHALLENGE).getD pkt.authenticator) := by
        rw [verifyChap]
        by_cases hshort : chap.length < 17
        · rw [if_pos hshort]
          simp only [Bool.false_eq_true, false_iff, not_and]
          omega
        · rw [if_neg hshort]
          dsimp only
          rw [decide_eq_true_iff, subarray, and_iff_right (by omega)]
      split_ifs with hok
      · rw [hverify] at hok
        constructor
        · intro h
          cases h
          exact ⟨rfl, rfl, chap, rfl, hok⟩
        · rintro ⟨rfl, _⟩
          rfl
      · rw [hverify] at hok
        refine iff_of_false (by simp) ?_
        rintro ⟨_, _, chap', hsome, hproves⟩
        cases hsome
        exact hok hproves

/-- What `authenticate` accepts. -/
theorem authenticate_accept_iff {s : Server} {pkt : Packet} {secret : String} {nas : Nas}
    {subscriber : RadiusRow} :
    authenticate s pkt secret nas = .accept subscriber ↔
      ∃ username password,
        truthy (getString pkt.attributes ATTR.USER_NAME) = some username ∧
        findSubscriber s username nas.organization_id = some subscriber ∧
        truthy subscriber.password = some password ∧
        (PapProves s.crypto pkt secret password ∨ ChapProves s.crypto pkt password) := by
  rw [authenticate]
  cases husername : truthy (getString pkt.attributes ATTR.USER_NAME) with
  | none => simp
  | some username =>
    dsimp only
    cases hfound : findSubscriber s username nas.organization_id with
    | none => simp [hfound]
    | some row =>
      dsimp only
      cases hpassword : truthy row.password with
      | none =>
        refine iff_of_false (by simp) ?_
        rintro ⟨_, password, hname, hrow, habs, _⟩
        cases hname
        rw [hfound] at hrow
        cases hrow
        rw [hpassword] at habs
        cases habs
      | some password =>
        dsimp only
        rw [checkPassword_accept_iff]
        constructor
        · rintro ⟨rfl, hproves⟩
          exact ⟨username, password, rfl, hfound, hpassword, hproves⟩
        · rintro ⟨_, password', hname, hrow, hpassword', hproves⟩
          cases hname
          rw [hfound] at hrow
          cases hrow
          rw [hpassword] at hpassword'
          cases hpassword'
          exact ⟨rfl, hproves⟩

/-! ### The answer -/

/-- A request that `handleAuth` does not drop. -/
structure Heard (s : Server) (msg : Bytes) (address : String) (pkt : Packet) (nas : Nas)
    (secret : String) : Prop where
  decoded : decodePacket msg = .ok pkt
  request : pkt.code = CODE.ACCESS_REQUEST
  known : s.findNasByIp address = some nas
  shared : secretFor s (some nas) = some secret
  authenticated : MessageAuthenticated s.crypto secret pkt
  required : nas.require_message_authenticator = true →
    getAttr pkt.attributes ATTR.MESSAGE_AUTHENTICATOR ≠ none

/-- The subscriber that a request is for, and the proof that it knows the password. -/
structure Grants (s : Server) (pkt : Packet) (nas : Nas) (secret : String)
    (subscriber : RadiusRow) (username password : String) : Prop where
  named : getString pkt.attributes ATTR.USER_NAME = some username
  called : username ≠ ""
  found : findSubscriber s username nas.organization_id = some subscriber
  stored : subscriber.password = some password
  nonempty : password ≠ ""
  proved : PapProves s.crypto pkt secret password ∨ ChapProves s.crypto pkt password

/-- A request is dropped, or it is heard and answered. -/
theorem handleAuth_cases (s : Server) (msg : Bytes) (address : String) :
    handleAuth s msg address = .ok none ∧ (∀ pkt nas secret, ¬ Heard s msg address pkt nas secret) ∨
      ∃ pkt nas secret, Heard s msg address pkt nas secret ∧
        handleAuth s msg address = answer s pkt secret (authenticate s pkt secret nas) := by
  rw [handleAuth]
  cases hdecoded : decodePacket msg with
  | error e =>
    refine Or.inl ⟨rfl, ?_⟩
    intro pkt nas secret h
    have := h.decoded
    rw [hdecoded] at this
    cases this
  | ok pkt =>
    have hsame : ∀ {pkt' nas secret}, Heard s msg address pkt' nas secret → pkt' = pkt := by
      intro pkt' nas secret h
      have := h.decoded
      rw [hdecoded] at this
      exact (Except.ok.inj this).symm
    dsimp only
    by_cases hcode : pkt.code ≠ CODE.ACCESS_REQUEST
    · rw [if_pos hcode]
      refine Or.inl ⟨rfl, ?_⟩
      intro pkt' nas secret h
      obtain rfl := hsame h
      exact hcode h.request
    rw [if_neg hcode]
    cases hnas : s.findNasByIp address with
    | none =>
      refine Or.inl ⟨rfl, ?_⟩
      intro pkt' nas secret h
      have := h.known
      rw [hnas] at this
      cases this
    | some nas =>
      dsimp only
      cases hsecret : secretFor s (some nas) with
      | none =>
        refine Or.inl ⟨rfl, ?_⟩
        intro pkt' nas' secret h
        have hknown := h.known
        rw [hnas] at hknown
        cases hknown
        have := h.shared
        rw [hsecret] at this
        cases this
      | some secret =>
        have hkeep : ∀ {pkt' nas' secret'}, Heard s msg address pkt' nas' secret' →
            pkt' = pkt ∧ nas' = nas ∧ secret' = secret := by
          intro pkt' nas' secret' h
          have hknown := h.known
          rw [hnas] at hknown
          cases hknown
          have hshared := h.shared
          rw [hsecret] at hshared
          exact ⟨hsame h, rfl, (Option.some.inj hshared).symm⟩
        dsimp only
        by_cases hverify :
            verifyMessageAuthenticator s.crypto pkt.raw pkt.attributes secret = false
        · rw [if_pos hverify]
          refine Or.inl ⟨rfl, ?_⟩
          intro pkt' nas' secret' h
          obtain ⟨rfl, rfl, rfl⟩ := hkeep h
          have := (verifyMessageAuthenticator_iff hdecoded).2 h.authenticated
          rw [hverify] at this
          cases this
        rw [if_neg hverify]
        by_cases hrequired : nas.require_message_authenticator = true ∧
            getAttr pkt.attributes ATTR.MESSAGE_AUTHENTICATOR = none
        · rw [if_pos hrequired]
          refine Or.inl ⟨rfl, ?_⟩
          intro pkt' nas' secret' h
          obtain ⟨rfl, rfl, rfl⟩ := hkeep h
          exact h.required hrequired.1 hrequired.2
        rw [if_neg hrequired]
        refine Or.inr ⟨pkt, nas, secret, ⟨hdecoded, not_not.1 hcode, hnas, hsecret, ?_, ?_⟩, rfl⟩
        · exact (verifyMessageAuthenticator_iff hdecoded).1 (Bool.eq_true_of_not_eq_false hverify)
        · exact fun hreq habs => hrequired ⟨hreq, habs⟩

theorem head_writeAt (b : UInt8) (packet : Bytes) (off : ℕ) (src : Bytes) :
    (writeAt (b :: packet) (off + 1) src).head? = some b := rfl

theorem head_signResponse (c : Crypto) (b : UInt8) (packet authenticator : Bytes) (secret : String)
    (withMessageAuth : Bool) :
    (signResponse c (b :: packet) authenticator secret withMessageAuth).head? = some b := by
  have hcons : ∀ (packet : Bytes) (off : ℕ) (src : Bytes),
      ∃ rest, writeAt (b :: packet) (off + 1) src = b :: rest := fun _ _ _ => ⟨_, rfl⟩
  obtain ⟨first, hfirst⟩ := hcons packet 3 authenticator
  rw [signResponse, hfirst]
  split_ifs
  · split
    · exact head_writeAt b _ 3 _
    · rename_i off _
      obtain ⟨second, hsecond⟩ := hcons first (off + 1)
        (c.hmacMd5 (utf8 secret) (zeroValue (b :: first) off))
      rw [hsecond]
      exact head_writeAt b _ 3 _
  · exact head_writeAt b _ 3 _

theorem respond_head {s : Server} {pkt : Packet} {secret : String} {code : ℤ} {attrsBuf : Bytes}
    {response : Option Bytes} (h : respond s pkt secret code attrsBuf = .ok response) :
    ∃ bytes, response = some bytes ∧ bytes.head? = some (toUint8 code) := by
  obtain ⟨packet, hpacket, hret⟩ := except_bind_ok.1 h
  cases hret
  simp only [buildRadiusPacket] at hpacket
  split_ifs at hpacket
  cases hpacket
  exact ⟨_, rfl, head_signResponse _ _ _ _ _ _⟩

theorem respond_ok (s : Server) (pkt : Packet) (secret : String) (code : ℤ) {attrsBuf : Bytes}
    (h : attrsBuf.length ≤ 65515) :
    ∃ response, respond s pkt secret code attrsBuf = .ok response := by
  rw [respond, buildRadiusPacket, if_neg (by omega)]
  exact ⟨_, rfl⟩

/-- The request is dropped, or answered with an Access-Reject. -/
def Refused (s : Server) (msg : Bytes) (address : String) : Prop :=
  handleAuth s msg address = .ok none ∨
    ∃ response, handleAuth s msg address = .ok (some response) ∧ response.head? = some 3

/-- The request is answered with an Access-Accept. -/
def Accepted (s : Server) (msg : Bytes) (address : String) : Prop :=
  ∃ response, handleAuth s msg address = .ok (some response) ∧ response.head? = some 2

/-- The request is heard, and proves that it knows the password of its subscriber. -/
def Proved (s : Server) (msg : Bytes) (address : String) (subscriber : RadiusRow) : Prop :=
  ∃ pkt nas secret username password, Heard s msg address pkt nas secret ∧
    Grants s pkt nas secret subscriber username password

/-- A request without a user name or without a credential, or whose first credential has no length
that a credential can have. -/
def Malformed (pkt : Packet) : Prop :=
  truthy (getString pkt.attributes ATTR.USER_NAME) = none ∨
    match getAttr pkt.attributes ATTR.USER_PASSWORD, getAttr pkt.attributes ATTR.CHAP_PASSWORD with
    | some enc, _ => enc.length = 0 ∨ enc.length % 16 ≠ 0
    | none, some chap => chap.length < 17
    | none, none => True

theorem truthy_eq_some_iff {text : Option String} {t : String} :
    truthy text = some t ↔ text = some t ∧ t ≠ "" := by
  rw [truthy, Option.filter_eq_some_iff, decide_eq_true_iff]

theorem authenticate_accept_iff_grants {s : Server} {pkt : Packet} {secret : String} {nas : Nas}
    {subscriber : RadiusRow} :
    authenticate s pkt secret nas = .accept subscriber ↔
      ∃ username password, Grants s pkt nas secret subscriber username password := by
  rw [authenticate_accept_iff]
  constructor
  · rintro ⟨username, password, hname, hfound, hpassword, hproved⟩
    obtain ⟨hnamed, hcalled⟩ := truthy_eq_some_iff.1 hname
    obtain ⟨hstored, hne⟩ := truthy_eq_some_iff.1 hpassword
    exact ⟨username, password, hnamed, hcalled, hfound, hstored, hne, hproved⟩
  · rintro ⟨username, password, h⟩
    exact ⟨username, password, truthy_eq_some_iff.2 ⟨h.named, h.called⟩, h.found,
      truthy_eq_some_iff.2 ⟨h.stored, h.nonempty⟩, h.proved⟩

theorem answer_reject (s : Server) (pkt : Packet) (secret : String) (reason : AuthReason) :
    ∃ response, answer s pkt secret (.reject reason) = .ok (some response) ∧
      response.head? = some 3 := by
  obtain ⟨reply, hreply, hlen⟩ : ∃ reply,
      encodeAttributes [.pair ATTR.REPLY_MESSAGE.toNat (utf8 "Access denied")] = .ok reply ∧
        reply.length = 15 := ⟨_, rfl, by decide⟩
  have hshort : (messageAuthenticatorPlaceholder ++ reply).length ≤ 65515 := by
    rw [List.length_append, hlen]
    decide
  obtain ⟨response, hresponse⟩ :=
    respond_ok s pkt secret CODE.ACCESS_REJECT hshort
  obtain ⟨bytes, rfl, hhead⟩ := respond_head hresponse
  exact ⟨bytes, except_bind_ok.2 ⟨reply, hreply, hresponse⟩, hhead⟩

theorem answer_accept_iff {s : Server} {pkt : Packet} {secret : String} {subscriber : RadiusRow} :
    (∃ response, answer s pkt secret (.accept subscriber) = .ok (some response) ∧
      response.head? = some 2) ↔
      ∃ granted, s.grantedAttributes subscriber = .ok granted ∧ granted.length ≤ 65497 := by
  have hplaceholder : messageAuthenticatorPlaceholder.length = 18 := by decide
  constructor
  · rintro ⟨response, h, _⟩
    obtain ⟨granted, hgranted, h⟩ := except_bind_ok.1 h
    refine ⟨granted, hgranted, ?_⟩
    obtain ⟨packet, hpacket, _⟩ := except_bind_ok.1 h
    simp only [buildRadiusPacket, List.length_append, hplaceholder] at hpacket
    split_ifs at hpacket
    omega
  · rintro ⟨granted, hgranted, hlen⟩
    have hshort : (messageAuthenticatorPlaceholder ++ granted).length ≤ 65515 := by
      rw [List.length_append, hplaceholder]
      omega
    obtain ⟨response, hresponse⟩ :=
      respond_ok s pkt secret CODE.ACCESS_ACCEPT hshort
    obtain ⟨bytes, rfl, hhead⟩ := respond_head hresponse
    exact ⟨bytes, except_bind_ok.2 ⟨granted, hgranted, hresponse⟩, hhead⟩

theorem accept_of_head {s : Server} {pkt : Packet} {secret : String} {verdict : Verdict}
    {response : Bytes} (h : answer s pkt secret verdict = .ok (some response))
    (hhead : response.head? = some 2) : ∃ subscriber, verdict = .accept subscriber := by
  cases verdict with
  | accept subscriber => exact ⟨subscriber, rfl⟩
  | reject reason =>
    obtain ⟨bytes, hbytes, h3⟩ := answer_reject s pkt secret reason
    rw [hbytes] at h
    cases h
    rw [h3] at hhead
    exact absurd hhead (by decide)

theorem Malformed.not_grants {pkt : Packet} (h : Malformed pkt) {s : Server} {nas : Nas}
    {secret : String} {subscriber : RadiusRow} {username password : String} :
    ¬ Grants s pkt nas secret subscriber username password := by
  intro g
  rcases h with hname | hcredential
  · have := truthy_eq_some_iff.2 ⟨g.named, g.called⟩
    rw [hname] at this
    cases this
  · rcases g.proved with ⟨enc, henc, hne, hmod, _⟩ | ⟨hnone, chap, hchap, hlen, _⟩
    · rw [henc] at hcredential
      dsimp only at hcredential
      omega
    · rw [hnone, hchap] at hcredential
      dsimp only at hcredential
      omega

theorem not_proved_refused {s : Server} {msg : Bytes} {address : String}
    (h : ∀ subscriber, ¬ Proved s msg address subscriber) : Refused s msg address := by
  rcases handleAuth_cases s msg address with ⟨hdrop, _⟩ | ⟨pkt, nas, secret, hheard, heq⟩
  · exact Or.inl hdrop
  · cases hverdict : authenticate s pkt secret nas with
    | accept subscriber =>
      obtain ⟨username, password, hgrants⟩ := authenticate_accept_iff_grants.1 hverdict
      exact absurd ⟨pkt, nas, secret, username, password, hheard, hgrants⟩ (h subscriber)
    | reject reason =>
      obtain ⟨response, hresponse, hhead⟩ := answer_reject s pkt secret reason
      rw [hverdict, hresponse] at heq
      exact Or.inr ⟨response, heq, hhead⟩

theorem Heard.unique {s : Server} {msg : Bytes} {address : String} {pkt pkt' : Packet}
    {nas nas' : Nas} {secret secret' : String} (h : Heard s msg address pkt nas secret)
    (h' : Heard s msg address pkt' nas' secret') : pkt' = pkt ∧ nas' = nas ∧ secret' = secret := by
  have hpkt := h'.decoded.symm.trans h.decoded
  have hnas := h'.known.symm.trans h.known
  cases hpkt
  cases hnas
  exact ⟨rfl, rfl, Option.some.inj (h'.shared.symm.trans h.shared)⟩

/-- **Who is let in**: an Access-Accept is the answer exactly to a request that is heard, that
proves to know the non-empty password stored for its subscriber, and whose granted attributes can
be encoded; a request that proves nothing, such as a malformed one, is rejected or dropped. -/
theorem handleAuth_accept_iff (s : Server) (msg : Bytes) (address : String) :
    (Accepted s msg address ↔ ∃ subscriber granted, Proved s msg address subscriber ∧
      s.grantedAttributes subscriber = .ok granted ∧ granted.length ≤ 65497) ∧
    ((∃ subscriber, Proved s msg address subscriber) ∨ Refused s msg address) ∧
    ∀ pkt, decodePacket msg = .ok pkt → Malformed pkt → Refused s msg address := by
  refine ⟨⟨?_, ?_⟩, ?_, ?_⟩
  · rintro ⟨response, hresponse, hhead⟩
    rcases handleAuth_cases s msg address with ⟨hdrop, _⟩ | ⟨pkt, nas, secret, hheard, heq⟩
    · rw [hdrop] at hresponse
      cases hresponse
    · rw [heq] at hresponse
      obtain ⟨subscriber, hverdict⟩ := accept_of_head hresponse hhead
      rw [hverdict] at hresponse
      obtain ⟨granted, hgranted, hlen⟩ := answer_accept_iff.1 ⟨response, hresponse, hhead⟩
      obtain ⟨username, password, hgrants⟩ := authenticate_accept_iff_grants.1 hverdict
      exact ⟨subscriber, granted, ⟨pkt, nas, secret, username, password, hheard, hgrants⟩,
        hgranted, hlen⟩
  · rintro ⟨subscriber, granted, ⟨pkt, nas, secret, username, password, hheard, hgrants⟩,
      hgranted, hlen⟩
    rcases handleAuth_cases s msg address with ⟨_, hnot⟩ | ⟨pkt', nas', secret', hheard', heq⟩
    · exact absurd hheard (hnot pkt nas secret)
    · obtain ⟨rfl, rfl, rfl⟩ := hheard.unique hheard'
      rw [authenticate_accept_iff_grants.2 ⟨username, password, hgrants⟩] at heq
      obtain ⟨response, hresponse, hhead⟩ := answer_accept_iff.2 ⟨granted, hgranted, hlen⟩
      exact ⟨response, heq.trans hresponse, hhead⟩
  · by_cases h : ∃ subscriber, Proved s msg address subscriber
    · exact Or.inl h
    · exact Or.inr (not_proved_refused fun subscriber hs => h ⟨subscriber, hs⟩)
  · intro pkt hdecoded hmalformed
    refine not_proved_refused ?_
    rintro subscriber ⟨pkt', nas, secret, username, password, hheard, hgrants⟩
    have hsame := hheard.decoded.symm.trans hdecoded
    cases hsame
    exact hmalformed.not_grants hgrants

/-! ### Requests -/

/-- A server with one subscriber, and the digests of MD5 and HMAC-MD5 for `repeatedPassword` and
the answer to it. -/
def exampleServer : Server where
  crypto := {
    md5 := fun data =>
      if data = [115, 0, 0, 0, 0, 0, 0, 0, 0, 0, 0, 0, 0, 0, 0, 0, 0] then
        [106, 0, 45, 219, 147, 252, 188, 13, 211, 235, 208, 147, 0, 151, 15, 200]
      else [160, 254, 81, 131, 181, 38, 182, 192, 162, 79, 221, 113, 230, 131, 64, 242]
    hmacMd5 := fun _ _ => [90, 18, 227, 47, 37, 86, 41, 185, 43, 101, 69, 56, 20, 176, 132, 80] }
  globalSecret := none
  findNasByIp := fun _ => some ⟨1, some 1, some "s", false⟩
  radius := [⟨1, some 1, none, "u", some "ana", .active, false⟩]
  contracts := []
  sameUsername := fun a b => a = b
  now := 0
  grantedAttributes := fun _ => .ok [6, 6, 0, 0, 0, 2, 7, 6, 0, 0, 0, 1]

/-- A request without attributes is refused. -/
theorem handleAuth_accept_iff_empty :
    Refused exampleServer ([1, 7, 0, 20] ++ List.replicate 16 0) "10.0.0.1" :=
  (handleAuth_accept_iff exampleServer ([1, 7, 0, 20] ++ List.replicate 16 0) "10.0.0.1").2.2
    ⟨1, 7, 20, List.replicate 16 0, [], [1, 7, 0, 20] ++ List.replicate 16 0⟩
    (by decide) (Or.inl (by decide))

/-- An Access-Request of user `u` with the password `ana`, and a second User-Password of zeros. -/
def repeatedPassword : Bytes :=
  [1, 7, 0, 59, 0, 0, 0, 0, 0, 0, 0, 0, 0, 0, 0, 0, 0, 0, 0, 0, 1, 3, 117,
    2, 18, 11, 110, 76, 219, 147, 252, 188, 13, 211, 235, 208, 147, 0, 151, 15, 200,
    2, 18, 0, 0, 0, 0, 0, 0, 0, 0, 0, 0, 0, 0, 0, 0, 0, 0]

/-- A request with two User-Password attributes is accepted on the first. -/
theorem repeated_password_accepted :
    (∃ pkt, decodePacket repeatedPassword = .ok pkt ∧
      (pkt.attributes.map Tlv.Attr.type).count ATTR.USER_PASSWORD = 2) ∧
      Accepted exampleServer repeatedPassword "10.0.0.1" := by
  constructor
  · refine ⟨{
      code := 1
      identifier := 7
      length := 59
      authenticator := List.replicate 16 0
      attributes := [⟨1, [117]⟩,
        ⟨2, [11, 110, 76, 219, 147, 252, 188, 13, 211, 235, 208, 147, 0, 151, 15, 200]⟩,
        ⟨2, List.replicate 16 0⟩]
      raw := repeatedPassword }, ?_, ?_⟩
    · decide +kernel
    · decide
  · refine ⟨[2, 7, 0, 50, 160, 254, 81, 131, 181, 38, 182, 192, 162, 79, 221, 113, 230, 131, 64,
      242, 80, 18, 90, 18, 227, 47, 37, 86, 41, 185, 43, 101, 69, 56, 20, 176, 132, 80, 6, 6, 0, 0,
      0, 2, 7, 6, 0, 0, 0, 1], ?_, ?_⟩
    · decide
    · decide

end Vigabss.RadiusServer
