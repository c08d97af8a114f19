import Vigabss.Utils.Encryption

/-!
# Vigabss.Utils.Resealing — a rotation of the key loses no secret

`resealWithCurrentKey` keeps every gap of a text and puts in the place of a value one that the
current key alone opens to the same plaintext; what no key of the ring opens stays as it is and is
counted.
-/

namespace Vigabss.Utils.Encryption

open Vigabss.Lib

/-! ### The ring -/

/-- The environment that is left when the previous keys are dropped. -/
def Env.currentOnly (env : Env) : Env := { env with ENCRYPTION_KEYS_PREVIOUS := none }

section Ring

variable {C : Crypto} {env : Env} {current : RingKey} {previous : List RingKey}

theorem parseKey_ok {hex : List Char} {name : String} {key : Bytes}
    (h : parseKey hex name = .ok key) : key.length = 32 := by
  unfold parseKey at h
  split_ifs at h with hhex
  obtain ⟨hlength, hall⟩ := of_decide_eq_true hhex
  cases h
  rw [Hex.length_toBytes (List.all_eq_true.1 hall), hlength]

theorem getKey_ok {key : Bytes} (h : getKey env = .ok (some key)) : key.length = 32 := by
  unfold getKey at h
  split at h
  · cases h
  · cases hparse : parseKey (env.ENCRYPTION_KEY.getD []) "ENCRYPTION_KEY" with
    | error e =>
      rw [hparse] at h
      cases h
    | ok key' =>
      rw [hparse] at h
      cases h
      exact parseKey_ok hparse

/-- The first entry of the ring is the current key, and it is all that is left without the
previous ones. -/
theorem keyRing_ok (h : keyRing C env = .ok (current :: previous)) :
    getKey env = .ok (some current.key) ∧ current.id = keyIdOf C current.key ∧
      keyRing C env.currentOnly = .ok [current] := by
  obtain ⟨key, hkey, hrest⟩ := except_bind_ok.1 h
  rcases key with - | key
  · cases hrest
  · obtain ⟨keys, -, hring⟩ := except_bind_ok.1 hrest
    rw [List.map_cons] at hring
    obtain ⟨rfl, -⟩ := List.cons.inj (Except.ok.inj hring)
    refine ⟨hkey, rfl, ?_⟩
    have honly : getKey env.currentOnly = .ok (some key) := hkey
    have hnone : ((JsText.split ',' []).map JsText.trim).filter (· ≠ ([] : List Char)) = [] := by
      decide
    refine except_bind_ok.2 ⟨some key, honly, except_bind_ok.2 ⟨[], ?_, rfl⟩⟩
    show (((JsText.split ',' []).map JsText.trim).filter (· ≠ ([] : List Char))).mapM _ = _
    rw [hnone]
    rfl

theorem decryptStrict_eq (hring : keyRing C env = .ok (current :: previous)) {v : Sealed}
    (hv : v.WellFormed) :
    decryptStrict C env (some v.text) =
      match openSealed C v (current :: previous) with
      | .ok plaintext => .ok (some plaintext)
      | .error err =>
        if err.code = some "ENCRYPTION_KEY_UNKNOWN" then .error err
        else .error invalidCiphertextError := by
  simp only [decryptStrict, hring, exec_text hv]
  rfl

theorem decryptStrict_text (hring : keyRing C env = .ok (current :: previous)) {v : Sealed}
    (hv : v.WellFormed) {plaintext : List Char} :
    decryptStrict C env (some v.text) = .ok (some plaintext) ↔
      openSealed C v (current :: previous) = .ok plaintext := by
  rw [decryptStrict_eq hring hv]
  rcases openSealed C v (current :: previous) with err | p
  · simp only [reduceCtorEq, iff_false]
    split_ifs <;> exact fun h => by cases h
  · simp

theorem decryptStrict_isNone (hring : keyRing C env = .ok (current :: previous)) {v : Sealed}
    (hv : v.WellFormed) :
    (decryptStrict C env (some v.text)).toOption.isNone =
      (openSealed C v (current :: previous)).toOption.isNone := by
  rw [decryptStrict_eq hring hv]
  rcases openSealed C v (current :: previous) with err | p
  · show (if err.code = some "ENCRYPTION_KEY_UNKNOWN" then Except.error err
      else Except.error invalidCiphertextError : Except Failure _).toOption.isNone = true
    split_ifs <;> rfl
  · rfl

theorem openSealed_of_unknown {ring : List RingKey} {v : Sealed}
    (h : v.kid ∉ ring.map RingKey.id) : ∃ err, openSealed C v ring = .error err := by
  have hfind : (ring.find? fun k => k.id = v.kid) = none := by
    rw [List.find?_eq_none]
    rintro k hk hid
    exact h (of_decide_eq_true hid ▸ List.mem_map_of_mem hk)
  rw [openSealed, hfind]
  exact ⟨_, rfl⟩

theorem wellFormed_sealedWith (hC : C.Lawful) (key : Bytes) (iv : Iv) (plaintext : List Char) :
    (sealedWith C key iv plaintext).WellFormed := by
  have hlower : ∀ bytes : Bytes, (Hex.ofBytes bytes).all Hex.isLower = true := fun bytes =>
    List.all_eq_true.2 fun _ => Hex.isLower_of_mem
  refine ⟨⟨?_, ?_⟩, ⟨?_, hlower _⟩, ⟨?_, hlower _⟩, ?_, hlower _⟩
  · show ((Hex.ofBytes (C.sha256 key)).take 8).length = 8
    rw [List.length_take, Hex.length_ofBytes, hC.digest]
    rfl
  · exact List.all_eq_true.2 fun c hc => Hex.isLower_of_mem (List.mem_of_mem_take hc)
  · show (Hex.ofBytes iv.1).length = 24
    rw [Hex.length_ofBytes, iv.2]
    rfl
  · show (Hex.ofBytes (C.encrypt key iv (encodeChars plaintext)).2).length = 32
    rw [Hex.length_ofBytes, hC.tag]
    rfl
  · show (Hex.ofBytes (C.encrypt key iv (encodeChars plaintext)).1).length % 2 = 0
    rw [Hex.length_ofBytes]
    omega

/-- **A key opens what it sealed**, wherever the ring finds it. -/
theorem openSealed_sealedWith (hC : C.Lawful) {ring : List RingKey} {entry : RingKey}
    (hfind : (ring.find? fun k => k.id = keyIdOf C entry.key) = some entry)
    (hkey : entry.key.length = 32) (iv : Iv) (plaintext : List Char) :
    openSealed C (sealedWith C entry.key iv plaintext) ring = .ok plaintext := by
  have hdecode := Utf8State.decode_encodeChars plaintext []
  rw [List.append_nil] at hdecode
  have hopens := hC.opens entry.key iv (encodeChars plaintext) hkey iv.2
  have hfound : (ring.find? fun k => k.id = (sealedWith C entry.key iv plaintext).kid) =
      some entry := hfind
  have hdecrypt : C.decrypt entry.key (Hex.toBytes (sealedWith C entry.key iv plaintext).iv)
      (Hex.toBytes (sealedWith C entry.key iv plaintext).tag)
      (Hex.toBytes (sealedWith C entry.key iv plaintext).enc) =
        some (encodeChars plaintext) := by
    simpa only [sealedWith, Hex.toBytes_ofBytes] using hopens
  rw [openSealed, hfound]
  simp only [hdecrypt, hdecode]
  exact congrArg Except.ok (List.append_nil plaintext)

end Ring

/-! ### One run -/

section Run

variable {C : Crypto} {ring : List RingKey} {current : RingKey} {ivs : ℕ → Iv}

/-- A value that is not the current key's and that the ring opens. -/
def Moves (C : Crypto) (ring : List RingKey) (current : RingKey) (v : Sealed) : Bool :=
  v.kid ≠ current.id ∧ (openSealed C v ring).toOption.isSome

/-- A value that is not the current key's and that the ring does not open. -/
def Unopened (C : Crypto) (ring : List RingKey) (current : RingKey) (v : Sealed) : Bool :=
  v.kid ≠ current.id ∧ (openSealed C v ring).toOption.isNone

/-- What stands in the place of a value afterwards. -/
def Becomes (C : Crypto) (ring : List RingKey) (current : RingKey) (v v' : Sealed) : Prop :=
  (Moves C ring current v = false ∧ v' = v) ∨
    (Moves C ring current v = true ∧ ∃ plaintext iv, openSealed C v ring = .ok plaintext ∧
      v' = sealedWith C current.key iv plaintext)

theorem foldl_gap (gap : List Char) (out : Resealed) :
    (gapPieces gap).foldl (resealPiece C ring current ivs) out =
      { out with text := out.text ++ gap } := by
  induction gap generalizing out with
  | nil => simp [gapPieces]
  | cons c gap ih =>
    show (gapPieces gap).foldl _ { out with text := out.text ++ [c] } = _
    rw [ih]
    simp

/-- **One value** of the text. -/
theorem resealPiece_value (out : Resealed) (v : Sealed) : ∃ v',
    Becomes C ring current v v' ∧
      resealPiece C ring current ivs out (.inr v) =
        ⟨out.text ++ v'.text, out.resealed + (if Moves C ring current v then 1 else 0),
          out.unknown + (if Unopened C ring current v then 1 else 0)⟩ := by
  by_cases hcurrent : v.kid = current.id
  · have hmoves : Moves C ring current v = false := by simp [Moves, hcurrent]
    have hopened : Unopened C ring current v = false := by simp [Unopened, hcurrent]
    refine ⟨v, .inl ⟨hmoves, rfl⟩, ?_⟩
    rw [hmoves, hopened]
    exact if_pos hcurrent
  · cases hopen : openSealed C v ring with
    | error err =>
      have hmoves : Moves C ring current v = false := by simp [Moves, hopen, Except.toOption]
      have hopened : Unopened C ring current v = true := by
        simp [Unopened, hopen, hcurrent, Except.toOption]
      refine ⟨v, .inl ⟨hmoves, rfl⟩, ?_⟩
      rw [hmoves, hopened, resealPiece, if_neg hcurrent, hopen]
      rfl
    | ok plaintext =>
      have hmoves : Moves C ring current v = true := by
        simp [Moves, hopen, hcurrent, Except.toOption]
      have hopened : Unopened C ring current v = false := by
        simp [Unopened, hopen, Except.toOption]
      refine ⟨sealedWith C current.key (ivs out.resealed) plaintext,
        .inr ⟨hmoves, plaintext, _, hopen, rfl⟩, ?_⟩
      rw [hmoves, hopened, resealPiece, if_neg hcurrent, hopen]
      rfl

/-- **All values** of the text. -/
theorem foldl_values (values : List (Sealed × List Char)) (out : Resealed) : ∃ values',
    List.Forall₂ (fun p q => Becomes C ring current p.1 q.1 ∧ q.2 = p.2) values values' ∧
      (valuePieces values).foldl (resealPiece C ring current ivs) out =
        ⟨out.text ++ Layout.tailText values',
          out.resealed + (values.map Prod.fst).countP (Moves C ring current),
          out.unknown + (values.map Prod.fst).countP (Unopened C ring current)⟩ := by
  induction values generalizing out with
  | nil =>
    refine ⟨[], .nil, ?_⟩
    show out = ⟨out.text ++ [], _, _⟩
    rw [List.append_nil]
    rfl
  | cons p values ih =>
    obtain ⟨v', hbecomes, hpiece⟩ : ∃ v', Becomes C ring current p.1 v' ∧
        resealPiece C ring current ivs out (.inr p.1) = ⟨out.text ++ v'.text,
          out.resealed + (if Moves C ring current p.1 then 1 else 0),
          out.unknown + (if Unopened C ring current p.1 then 1 else 0)⟩ := resealPiece_value out p.1
    obtain ⟨values', hall, hrest⟩ := ih
      ⟨out.text ++ v'.text ++ p.2, out.resealed + (if Moves C ring current p.1 then 1 else 0),
        out.unknown + (if Unopened C ring current p.1 then 1 else 0)⟩
    refine ⟨(v', p.2) :: values', .cons ⟨hbecomes, rfl⟩ hall, ?_⟩
    show (gapPieces p.2 ++ valuePieces values).foldl (resealPiece C ring current ivs)
      (resealPiece C ring current ivs out (.inr p.1)) = _
    rw [hpiece, List.foldl_append, foldl_gap, hrest, List.map_cons, List.countP_cons,
      List.countP_cons]
    simp only [Resealed.mk.injEq]
    refine ⟨?_, by omega, by omega⟩
    show out.text ++ v'.text ++ p.2 ++ Layout.tailText values' =
      out.text ++ (v'.text ++ p.2 ++ Layout.tailText values')
    simp only [List.append_assoc]

end Run

/-! ### The text -/

/-- What the values of a layout become. -/
structure Layout.Becomes (C : Crypto) (ring : List RingKey) (current : RingKey)
    (layout out : Layout) : Prop where
  head : out.head = layout.head
  values : List.Forall₂ (fun p q => Encryption.Becomes C ring current p.1 q.1 ∧ q.2 = p.2)
    layout.values out.values

section Texts

variable {C : Crypto} {env : Env} {current : RingKey} {previous : List RingKey}
  {layout out : Layout}

/-- **What `resealWithCurrentKey` returns.** -/
theorem reseal_text (hring : keyRing C env = .ok (current :: previous))
    (hlayout : layout.Delimited) (ivs : ℕ → Iv) : ∃ out : Layout,
      layout.Becomes C (current :: previous) current out ∧
      resealWithCurrentKey C env ivs layout.text = .ok ⟨out.text,
        layout.sealedValues.countP (Moves C (current :: previous) current),
        layout.sealedValues.countP (Unopened C (current :: previous) current)⟩ := by
  obtain ⟨values', hall, hfold⟩ : ∃ values', List.Forall₂
        (fun p q => Becomes C (current :: previous) current p.1 q.1 ∧ q.2 = p.2)
        layout.values values' ∧
      (valuePieces layout.values).foldl (resealPiece C (current :: previous) current ivs)
        ⟨layout.head, 0, 0⟩ = ⟨layout.head ++ Layout.tailText values',
          0 + (layout.values.map Prod.fst).countP (Moves C (current :: previous) current),
          0 + (layout.values.map Prod.fst).countP (Unopened C (current :: previous) current)⟩ :=
    foldl_values layout.values ⟨layout.head, 0, 0⟩
  refine ⟨⟨layout.head, values'⟩, ⟨rfl, hall⟩, ?_⟩
  refine except_bind_ok.2 ⟨_, hring, ?_⟩
  show Except.ok ((sealedPieces layout.text).foldl
    (resealPiece C (current :: previous) current ivs) ⟨[], 0, 0⟩) = _
  rw [sealedPieces_text hlayout, List.foldl_append, foldl_gap, List.nil_append, hfold,
    Nat.zero_add, Nat.zero_add]
  rfl

theorem Becomes.wellFormed (hC : C.Lawful) {ring : List RingKey} {v v' : Sealed}
    (h : Becomes C ring current v v') (hv : v.WellFormed) : v'.WellFormed := by
  rcases h with ⟨-, rfl⟩ | ⟨-, plaintext, iv, -, rfl⟩
  · exact hv
  · exact wellFormed_sealedWith hC _ _ _

/-- **The text is laid out as before**, with the same gaps. -/
theorem Layout.Becomes.delimited (hC : C.Lawful) {ring : List RingKey}
    (h : layout.Becomes C ring current out) (hlayout : layout.Delimited) :
    out.gaps = layout.gaps ∧ out.Delimited := by
  have hgaps : ∀ {values values' : List (Sealed × List Char)},
      List.Forall₂ (fun p q => Encryption.Becomes C ring current p.1 q.1 ∧ q.2 = p.2)
        values values' → (∀ p ∈ values, p.1.WellFormed) → (∀ p ∈ values, Delimits p.2) →
      values'.map Prod.snd = values.map Prod.snd ∧ (∀ q ∈ values', q.1.WellFormed) ∧
        ∀ q ∈ values', Delimits q.2 := by
    intro values values' hall hv hdelimits
    induction hall with
    | nil => exact ⟨rfl, hv, hdelimits⟩
    | @cons p q values values' hpq hrest ih =>
      obtain ⟨hmap, hwell, hdel⟩ := ih (fun r hr => hv r (List.mem_cons_of_mem p hr))
        (fun r hr => hdelimits r (List.mem_cons_of_mem p hr))
      refine ⟨by rw [List.map_cons, List.map_cons, hmap, hpq.2], ?_, ?_⟩
      · exact List.forall_mem_cons.2 ⟨hpq.1.wellFormed hC (hv p List.mem_cons_self), hwell⟩
      · exact List.forall_mem_cons.2 ⟨hpq.2 ▸ hdelimits p List.mem_cons_self, hdel⟩
  obtain ⟨hmap, hwell, hdel⟩ := hgaps h.values hlayout.wellFormed hlayout.delimits
  have hsame : out.gaps = layout.gaps := by rw [Layout.gaps, Layout.gaps, h.head, hmap]
  exact ⟨hsame, hwell, hsame ▸ hlayout.free, hdel⟩

theorem Layout.Becomes.forall₂ {ring : List RingKey} (h : layout.Becomes C ring current out)
    (hlayout : layout.Delimited) {P : Sealed → Sealed → Prop}
    (hP : ∀ v v', v.WellFormed → Encryption.Becomes C ring current v v' → P v v') :
    List.Forall₂ P layout.sealedValues out.sealedValues := by
  obtain ⟨hlength, hpairs⟩ := List.forall₂_iff_zip.1 h.values
  rw [Layout.sealedValues, Layout.sealedValues, List.forall₂_map_left_iff,
    List.forall₂_map_right_iff]
  refine List.forall₂_iff_zip.2 ⟨hlength, fun {p q} hpq => ?_⟩
  exact hP p.1 q.1 (hlayout.wellFormed p (List.of_mem_zip hpq).1) (hpairs hpq).1

theorem Becomes.opens (hC : C.Lawful) (hring : keyRing C env = .ok (current :: previous))
    {v v' : Sealed} (h : Becomes C (current :: previous) current v v') {plaintext : List Char}
    (hopen : openSealed C v (current :: previous) = .ok plaintext) :
    openSealed C v' [current] = .ok plaintext := by
  obtain ⟨hkey, hid, -⟩ := keyRing_ok hring
  rcases h with ⟨hstays, rfl⟩ | ⟨-, p, iv, hp, rfl⟩
  · have hkid : current.id = v'.kid := by
      by_contra hne
      have hmoves : Moves C (current :: previous) current v' = true := by
        simp [Moves, Ne.symm hne, hopen, Except.toOption]
      rw [hstays] at hmoves
      cases hmoves
    have hfind : ∀ ring : List RingKey, ((current :: ring).find? fun k => k.id = v'.kid) =
        some current := fun ring => List.find?_cons_of_pos (decide_eq_true hkid)
    rw [openSealed, hfind] at hopen ⊢
    exact hopen
  · have heq : p = plaintext := Except.ok.inj (hp.symm.trans hopen)
    subst heq
    refine openSealed_sealedWith hC ?_ (getKey_ok hkey) iv p
    rw [← hid]
    exact List.find?_cons_of_pos (decide_eq_true rfl)

theorem Becomes.decryptStrict (hC : C.Lawful) (hring : keyRing C env = .ok (current :: previous))
    {v v' : Sealed} (hv : v.WellFormed) (h : Becomes C (current :: previous) current v v')
    {plaintext : List Char}
    (hread : decryptStrict C env (some v.text) = .ok (some plaintext)) :
    decryptStrict C env.currentOnly (some v'.text) = .ok (some plaintext) :=
  (decryptStrict_text (keyRing_ok hring).2.2 (h.wellFormed hC hv)).2
    (h.opens hC hring ((decryptStrict_text hring hv).1 hread))

theorem Becomes.again (hid : current.id = keyIdOf C current.key) {ring : List RingKey}
    {v v' : Sealed} (h : Becomes C ring current v v') :
    Moves C ring current v' = false ∧ Unopened C ring current v' = Unopened C ring current v := by
  rcases h with ⟨hstays, rfl⟩ | ⟨hmoves, p, iv, hp, rfl⟩
  · exact ⟨hstays, rfl⟩
  · have hkid : (sealedWith C current.key iv p).kid = current.id := hid.symm
    have hopened : Unopened C ring current v = false := by
      simp [Unopened, hp, Except.toOption]
    rw [hopened]
    exact ⟨by simp [Moves, hkid], by simp [Unopened, hkid]⟩

/-- A second run finds nothing to do. -/
theorem Layout.Becomes.again (hid : current.id = keyIdOf C current.key) {ring : List RingKey}
    (h : layout.Becomes C ring current out) :
    out.sealedValues.countP (Moves C ring current) = 0 ∧
      out.sealedValues.countP (Unopened C ring current) =
        layout.sealedValues.countP (Unopened C ring current) ∧
      ∀ {third : Layout}, out.Becomes C ring current third → third = out := by
  have hvalues : ∀ {values values' : List (Sealed × List Char)},
      List.Forall₂ (fun p q => Encryption.Becomes C ring current p.1 q.1 ∧ q.2 = p.2)
        values values' →
      (values'.map Prod.fst).countP (Moves C ring current) = 0 ∧
        (values'.map Prod.fst).countP (Unopened C ring current) =
          (values.map Prod.fst).countP (Unopened C ring current) ∧
        ∀ third, List.Forall₂ (fun p q => Encryption.Becomes C ring current p.1 q.1 ∧ q.2 = p.2)
          values' third → third = values' := by
    intro values values' hall
    induction hall with
    | nil => exact ⟨rfl, rfl, fun third hthird => List.forall₂_nil_left_iff.1 hthird⟩
    | @cons p q values values' hpq hrest ih =>
      obtain ⟨hmoves, hunopened⟩ := hpq.1.again hid
      obtain ⟨hcount, hsame, hthird⟩ := ih
      refine ⟨?_, ?_, ?_⟩
      · rw [List.map_cons, List.countP_cons, hmoves, hcount]
        rfl
      · rw [List.map_cons, List.map_cons, List.countP_cons, List.countP_cons, hunopened, hsame]
      · intro third hq
        obtain ⟨r, rest, ⟨hr, hgap⟩, hrest', rfl⟩ := List.forall₂_cons_left_iff.1 hq
        rw [hthird rest hrest']
        rcases hr with ⟨-, hsame'⟩ | ⟨hmoved, -⟩
        · exact congrArg (· :: values') (Prod.ext hsame' hgap)
        · rw [hmoves] at hmoved
          cases hmoved
  obtain ⟨hmoves, hunopened, hthird⟩ := hvalues h.values
  refine ⟨hmoves, hunopened, fun {third} hbecomes => ?_⟩
  obtain ⟨head, values⟩ := third
  have hhead : head = out.head := hbecomes.head
  have hsame : values = out.values := hthird values hbecomes.values
  subst hhead hsame
  rfl

end Texts

/-- **A rotation of the key loses no secret.**  The gaps stay; what `decryptStrict` opened is opened
by the current key alone, to the same plaintext; a value of an unknown key stays and is counted,
with the other values that cannot be opened; and a second run changes nothing. -/
theorem reseal_keeps {C : Crypto} (hC : C.Lawful) {env : Env} {current : RingKey}
    {previous : List RingKey} (hring : keyRing C env = .ok (current :: previous))
    {layout : Layout} (hlayout : layout.Delimited) (ivs : ℕ → Iv) :
    ∃ (out : Layout) (resealed unknown : ℕ),
      resealWithCurrentKey C env ivs layout.text = .ok ⟨out.text, resealed, unknown⟩ ∧
      out.gaps = layout.gaps ∧
      List.Forall₂ (fun v v' =>
        (∀ plaintext, decryptStrict C env (some v.text) = .ok (some plaintext) →
          decryptStrict C env.currentOnly (some v'.text) = .ok (some plaintext)) ∧
        (v.kid ∉ (current :: previous).map RingKey.id → v' = v))
        layout.sealedValues out.sealedValues ∧
      unknown = layout.sealedValues.countP (fun v => v.kid ≠ current.id ∧
        (decryptStrict C env (some v.text)).toOption.isNone) ∧
      (∀ v ∈ layout.sealedValues, v.kid ∉ (current :: previous).map RingKey.id →
        v.kid ≠ current.id ∧ (decryptStrict C env (some v.text)).toOption.isNone) ∧
      ∀ ivs', resealWithCurrentKey C env ivs' out.text = .ok ⟨out.text, 0, unknown⟩ := by
  obtain ⟨hkey, hid, honly⟩ := keyRing_ok hring
  obtain ⟨out, hbecomes, hrun⟩ := reseal_text hring hlayout ivs
  obtain ⟨hgaps, hout⟩ := hbecomes.delimited hC hlayout
  obtain ⟨hmoves, hsame, hfixed⟩ := hbecomes.again hid
  refine ⟨out, _, _, hrun, hgaps, ?_, ?_, ?_, ?_⟩
  · refine hbecomes.forall₂ hlayout fun v v' hv hbecome => ⟨fun plaintext hread => ?_, ?_⟩
    · exact hbecome.decryptStrict hC hring hv hread
    · intro hunknown
      obtain ⟨err, herr⟩ := openSealed_of_unknown (C := C) hunknown
      rcases hbecome with ⟨-, hsame⟩ | ⟨-, p, iv, hopen, -⟩
      · exact hsame
      · rw [herr] at hopen
        cases hopen
  · refine List.countP_congr fun v hv => ?_
    obtain ⟨p, hp, rfl⟩ := List.mem_map.1 hv
    rw [decryptStrict_isNone hring (hlayout.wellFormed p hp)]
    rfl
  · intro v hv hunknown
    obtain ⟨p, hp, rfl⟩ := List.mem_map.1 hv
    obtain ⟨err, herr⟩ := openSealed_of_unknown (C := C) hunknown
    rw [decryptStrict_isNone hring (hlayout.wellFormed p hp), herr]
    refine ⟨fun hkid => hunknown ?_, rfl⟩
    rw [hkid]
    exact List.mem_map_of_mem List.mem_cons_self
  · intro ivs'
    obtain ⟨third, hthird, hagain⟩ := reseal_text hring hout ivs'
    rw [hagain, hfixed hthird, hmoves, hsame]

/-! ### One rotation -/

section Example

/-- Two keys of 32 equal bytes, and two `iv`s. -/
def newKey : Bytes := List.replicate 32 0
def oldKey : Bytes := List.replicate 32 1
def oldIv : Bytes := List.replicate 12 0
def newIv : Iv := ⟨List.replicate 12 2, by decide⟩

def bytesOf (hex : String) : Bytes := Hex.toBytes hex.toList

/-- What node computes for these keys and the plaintext `pw`; elsewhere the plaintext with an empty
tag. -/
def sampleCrypto : Crypto where
  sha256 bytes :=
    if bytes = newKey then
      bytesOf "66687aadf862bd776c8fc18b8e9f8e20089714856ee233b3902a591d0d5f2925"
    else if bytes = oldKey then
      bytesOf "72cd6e8422c407fb6d098690f1130b7ded7ec2f7f5e1d30bd9d521f015363793"
    else List.replicate 32 0
  encrypt key iv plaintext :=
    if key = oldKey ∧ iv = oldIv ∧ plaintext = [0x70, 0x77] then
      (bytesOf "cf42", bytesOf "290be743d3d92f8b08e759afcadd68ab")
    else if key = newKey ∧ iv = newIv.1 ∧ plaintext = [0x70, 0x77] then
      (bytesOf "348f", bytesOf "459dc6e344fd3698d1003a5a7462bf43")
    else (plaintext, List.replicate 16 0)
  decrypt key iv tag ciphertext :=
    if key = oldKey ∧ iv = oldIv ∧ tag = bytesOf "290be743d3d92f8b08e759afcadd68ab" ∧
        ciphertext = bytesOf "cf42" then
      some [0x70, 0x77]
    else if key = newKey ∧ iv = newIv.1 ∧ tag = bytesOf "459dc6e344fd3698d1003a5a7462bf43" ∧
        ciphertext = bytesOf "348f" then
      some [0x70, 0x77]
    else if tag = List.replicate 16 0 then some ciphertext
    else none

theorem sampleCrypto_lawful : sampleCrypto.Lawful := by
  have htag : bytesOf "290be743d3d92f8b08e759afcadd68ab" ≠ List.replicate 16 0 ∧
      bytesOf "459dc6e344fd3698d1003a5a7462bf43" ≠ List.replicate 16 0 := by decide
  have hkeys : newKey ≠ oldKey := by decide
  refine ⟨fun bytes => ?_, fun key iv plaintext => ?_, fun key iv plaintext _ _ => ?_⟩
  · simp only [sampleCrypto]
    split_ifs <;> decide
  · simp only [sampleCrypto]
    split_ifs
    · decide
    · decide
    · exact List.length_replicate
  · simp only [sampleCrypto]
    by_cases hold : key = oldKey ∧ iv = oldIv ∧ plaintext = [0x70, 0x77]
    · rw [if_pos hold, if_pos ⟨hold.1, hold.2.1, rfl, rfl⟩, hold.2.2]
    · rw [if_neg hold]
      by_cases hnew : key = newKey ∧ iv = newIv.1 ∧ plaintext = [0x70, 0x77]
      · rw [if_pos hnew, if_neg fun h => hkeys (hnew.1.symm.trans h.1),
          if_pos ⟨hnew.1, hnew.2.1, rfl, rfl⟩, hnew.2.2]
      · rw [if_neg hnew, if_neg fun h => htag.1 h.2.2.1.symm,
          if_neg fun h => htag.2 h.2.2.1.symm, if_pos rfl]

/-- The environment of a rotation. -/
def sampleEnv : Env where
  ENCRYPTION_KEY := some (List.replicate 64 '0')
  ENCRYPTION_KEYS_PREVIOUS :=
    some "0101010101010101010101010101010101010101010101010101010101010101".toList

/-- A document with one value under the old key. -/
def sampleLayout : Layout where
  head := "\x7b\"pw\":\"".toList
  values := [(⟨"72cd6e84".toList, "000000000000000000000000".toList,
    "290be743d3d92f8b08e759afcadd68ab".toList, "cf42".toList⟩, "\"\x7d".toList)]

theorem sampleLayout_delimited : sampleLayout.Delimited := by
  have hfree : ∀ gap : List Char, gap.length < 71 → Free gap := fun gap hlength v hv hin => by
    have hle := hin.length_le
    simp only [Sealed.text, List.length_append, List.length_singleton, hv.kid.1, hv.iv.1,
      hv.tag.1] at hle
    have hfour : "vb1:".toList.length = 4 := rfl
    omega
  refine ⟨?_, ?_, ?_⟩
  · exact List.forall_mem_singleton.2
      ⟨⟨by decide, by decide⟩, ⟨by decide, by decide⟩, ⟨by decide, by decide⟩, by decide, by decide⟩
  · exact List.forall_mem_cons.2 ⟨hfree _ (by decide),
      List.forall_mem_singleton.2 (hfree _ (by decide))⟩
  · refine List.forall_mem_singleton.2 fun c hc => ?_
    cases Option.some.inj hc
    decide

theorem sampleRing : keyRing sampleCrypto sampleEnv =
    .ok [⟨"66687aad".toList, newKey⟩, ⟨"72cd6e84".toList, oldKey⟩] := by
  decide

/-- The document is sealed again with the new key. -/
theorem reseal_keeps_sample : ∃ (out : Layout) (resealed unknown : ℕ),
    resealWithCurrentKey sampleCrypto sampleEnv (fun _ => newIv) sampleLayout.text =
      .ok ⟨out.text, resealed, unknown⟩ ∧ out.gaps = sampleLayout.gaps := by
  obtain ⟨out, resealed, unknown, hrun, hgaps, -⟩ :=
    reseal_keeps sampleCrypto_lawful sampleRing sampleLayout_delimited fun _ => newIv
  exact ⟨out, resealed, unknown, hrun, hgaps⟩

end Example

/-! ### Rotations -/

/-- Runs of `resealWithCurrentKey`, one behind the other. -/
def rotations (C : Crypto) : List (Env × (ℕ → Iv)) → List Char → Except Failure (List Char)
  | [], text => .ok text
  | (env, ivs) :: steps, text => do
    let out ← resealWithCurrentKey C env ivs text
    rotations C steps out.text

/-- A rotation: the current key of the environment before is still in the ring. -/
def Rotates (C : Crypto) (env next : Env) : Prop :=
  ∃ current previous first rest, keyRing C env = .ok (current :: previous) ∧
    keyRing C next = .ok (first :: rest) ∧
    (first :: rest).find? (fun k => k.id = current.id) = some current

theorem Rotates.decryptStrict {C : Crypto} {env next : Env} (h : Rotates C env next) {v : Sealed}
    (hv : v.WellFormed) {plaintext : List Char}
    (hread : decryptStrict C env.currentOnly (some v.text) = .ok (some plaintext)) :
    decryptStrict C next (some v.text) = .ok (some plaintext) := by
  obtain ⟨current, previous, first, rest, hring, hnext, hfind⟩ := h
  obtain ⟨-, -, honly⟩ := keyRing_ok hring
  have hopen := (decryptStrict_text honly hv).1 hread
  refine (decryptStrict_text hnext hv).2 ?_
  have hid : current.id = v.kid := by
    by_contra hne
    have hnone : ([current].find? fun k => k.id = v.kid) = none := by simp [hne]
    rw [openSealed, hnone] at hopen
    cases hopen
  have hone : ([current].find? fun k => k.id = v.kid) = some current :=
    List.find?_cons_of_pos (decide_eq_true hid)
  rw [openSealed, hone] at hopen
  rw [openSealed, ← hid, hfind]
  exact hopen

/-- The next environment: a third key, and the second still in the ring. -/
def nextEnv : Env where
  ENCRYPTION_KEY := some (List.replicate 64 '2')
  ENCRYPTION_KEYS_PREVIOUS := some (List.replicate 64 '0')

theorem rotates_sample : Rotates sampleCrypto sampleEnv nextEnv :=
  ⟨_, _, ⟨"00000000".toList, List.replicate 32 34⟩, [⟨"66687aad".toList, newKey⟩], sampleRing,
    by decide, rfl⟩

end Vigabss.Utils.Encryption
