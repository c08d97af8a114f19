import Vigabss.Traps.Varbinds

/-!
# Vigabss.Traps.VarbindBounds — what is stored of the varbinds of a trap

**Result** (`bounded_iff`): the bounds on a trap's varbinds hold, and hold again when they are
applied again, unless a text is cut behind the third of a character's four bytes.
-/

namespace Vigabss.Traps.Varbinds

open Vigabss.Lib
open Vigabss.Lib.Utf8State (replacement)

/-! ### What must hold -/

/-- The texts of an entry that are cut, each with its limit. -/
def RawVarbind.texts (raw : RawVarbind) : List (List Char × ℕ) :=
  (raw.fields.oid, 255) ::
    (match raw.fields.type with
      | .other text => [(text, 32)]
      | _ => []) ++
    match raw.fields.value with
    | .other text => [(text, MAX_VARBIND_VALUE_BYTES)]
    | _ => []

/-- A text is cut to its first characters, within the limit. -/
def Cut (text : List Char) (maxBytes : ℕ) : Prop :=
  (truncateUtf8 text maxBytes).value <+: text ∧
    byteLength (truncateUtf8 text maxBytes).value ≤ maxBytes

/-- The bounds on a list of varbinds. -/
structure Bounded (source : List RawVarbind) : Prop where
  bytes : byteLength (boundedVarbindPayload source).json ≤ MAX_VARBINDS_JSON_BYTES
  count : (boundedVarbindPayload source).varbinds.length ≤ MAX_VARBIND_COUNT
  isPrefix : (boundedVarbindPayload source).varbinds <+: source.map serializeVarbind
  cut : ∀ raw ∈ source.take MAX_VARBIND_COUNT, ∀ call ∈ raw.texts, Cut call.1 call.2
  again : let first := boundedVarbindPayload source
    (boundedVarbindPayload (first.varbinds.map .object)).varbinds = first.varbinds ∧
      storeTrap (first.varbinds.map .object) (some first.truncated) (some first.original_count)
        first.truncation_reason =
        ⟨first.json, first.truncated, first.original_count, first.truncation_reason⟩

/-- The limit lies behind three bytes of a character of four. -/
def CutsThree (text : List Char) (maxBytes : ℕ) : Prop :=
  ∃ as c bs, text = as ++ c :: bs ∧ byteLength as + 3 = maxBytes ∧
    (String.utf8EncodeChar c).length = 4

/-! ### Cutting a text -/

theorem byteLength_append (as bs : List Char) :
    byteLength (as ++ bs) = byteLength as + byteLength bs := by
  rw [byteLength, encodeChars_append, List.length_append, byteLength, byteLength]

theorem byteLength_cons (c : Char) (cs : List Char) :
    byteLength (c :: cs) = (String.utf8EncodeChar c).length + byteLength cs := by
  rw [byteLength, encodeChars, List.flatMap_cons, List.length_append]
  rfl

theorem byteLength_replacement : byteLength [replacement] = 3 := by decide

theorem shrink_of_le {buffer : Bytes} {maxBytes stop : ℕ}
    (h : byteLength (textOf buffer stop) ≤ maxBytes) :
    shrink buffer maxBytes stop = textOf buffer stop := by
  cases stop with
  | zero => rfl
  | succ stop => rw [shrink, if_neg (by omega)]

theorem shrink_of_lt {buffer : Bytes} {maxBytes stop : ℕ}
    (h : maxBytes < byteLength (textOf buffer (stop + 1))) :
    shrink buffer maxBytes (stop + 1) = shrink buffer maxBytes stop := by
  rw [shrink, if_pos h]

/-- What the loop makes of a cut. -/
theorem shrink_cut (as bs : List Char) {c : Char} {k : ℕ}
    (hk : k < (String.utf8EncodeChar c).length) :
    shrink (encodeChars (as ++ c :: bs)) (byteLength as + k) (byteLength as + k) =
      as ++ if k = 3 then [replacement] else [] := by
  have hfour := (length_utf8EncodeChar c).2
  have htext : ∀ j, j ≤ k → textOf (encodeChars (as ++ c :: bs)) (byteLength as + j) =
      as ++ if j = 0 then [] else [replacement] := fun j hj => decode_cut (by omega)
  have hlength : ∀ j, j ≤ k →
      byteLength (textOf (encodeChars (as ++ c :: bs)) (byteLength as + j)) =
        byteLength as + if j = 0 then 0 else 3 := by
    intro j hj
    rw [htext j hj, byteLength_append]
    split_ifs
    · rfl
    · rw [byteLength_replacement]
  have hwhole : shrink (encodeChars (as ++ c :: bs)) (byteLength as + k) (byteLength as) = as := by
    have hzero := hlength 0 (Nat.zero_le k)
    rw [if_pos rfl, Nat.add_zero] at hzero
    rw [shrink_of_le (by omega)]
    simpa using htext 0 (Nat.zero_le k)
  have hcases : k = 0 ∨ k = 1 ∨ k = 2 ∨ k = 3 := by omega
  rcases hcases with rfl | rfl | rfl | rfl
  · rw [if_neg (by omega), List.append_nil]
    exact hwhole
  · have hone := hlength 1 le_rfl
    rw [if_neg (by omega)] at hone
    rw [shrink_of_lt (by omega), if_neg (by omega), List.append_nil]
    exact hwhole
  · have hone := hlength 1 (by omega)
    have htwo := hlength 2 le_rfl
    rw [if_neg (by omega)] at hone htwo
    have hlast : byteLength as + 2 < byteLength
        (textOf (encodeChars (as ++ c :: bs)) (byteLength as + 1)) := by omega
    have hover : byteLength as + 2 < byteLength
        (textOf (encodeChars (as ++ c :: bs)) (byteLength as + 1 + 1)) := by
      show _ < byteLength (textOf _ (byteLength as + 2))
      omega
    rw [if_neg (by omega), List.append_nil]
    exact (shrink_of_lt hover).trans ((shrink_of_lt hlast).trans hwhole)
  · have hthree := hlength 3 le_rfl
    rw [if_neg (by omega)] at hthree
    rw [shrink_of_le (by omega), htext 3 le_rfl]
    simp

/-- **What `truncateUtf8` returns.** -/
theorem truncateUtf8_cases (text : List Char) (maxBytes : ℕ) :
    (byteLength text ≤ maxBytes ∧ truncateUtf8 text maxBytes = ⟨text, false⟩) ∨
      ∃ as c bs k, text = as ++ c :: bs ∧ byteLength as + k = maxBytes ∧
        k < (String.utf8EncodeChar c).length ∧
        truncateUtf8 text maxBytes = ⟨as ++ if k = 3 then [replacement] else [], true⟩ := by
  by_cases hfits : byteLength text ≤ maxBytes
  · exact .inl ⟨hfits, if_pos hfits⟩
  · obtain ⟨as, c, bs, rfl, hlow, hhigh⟩ := exists_cut (not_le.1 hfits)
    refine .inr ⟨as, c, bs, maxBytes - byteLength as, rfl, ?_, ?_, ?_⟩
    · rw [byteLength]
      omega
    · rw [byteLength]
      omega
    · have hsum : byteLength as + (maxBytes - byteLength as) = maxBytes := by
        rw [byteLength]
        omega
      have hcut := shrink_cut as bs (c := c) (k := maxBytes - byteLength as)
        (by rw [byteLength]; omega)
      rw [hsum] at hcut
      rw [truncateUtf8, if_neg (by rwa [byteLength] at hfits), hcut]

theorem byteLength_truncateUtf8_le (text : List Char) (maxBytes : ℕ) :
    byteLength (truncateUtf8 text maxBytes).value ≤ maxBytes := by
  rcases truncateUtf8_cases text maxBytes with ⟨hfits, heq⟩ | ⟨as, c, bs, k, rfl, hsum, hk, heq⟩
  · rw [heq]
    exact hfits
  · rw [heq, byteLength_append]
    split_ifs with hthree
    · rw [byteLength_replacement]
      omega
    · show byteLength as + 0 ≤ maxBytes
      omega

/-- **A text is cut between characters** unless the limit lies behind three bytes of one. -/
theorem cut_iff (text : List Char) (maxBytes : ℕ) :
    Cut text maxBytes ↔ ¬ CutsThree text maxBytes := by
  have hlimit := byteLength_truncateUtf8_le text maxBytes
  rcases truncateUtf8_cases text maxBytes with ⟨hfits, heq⟩ | ⟨as, c, bs, k, rfl, hsum, hk, heq⟩
  · refine iff_of_true ⟨by simp only [heq, List.prefix_rfl], hlimit⟩ ?_
    rintro ⟨as, c, bs, rfl, hsum, hfour⟩
    rw [byteLength_append, byteLength_cons] at hfits
    omega
  · by_cases hthree : k = 3
    · have hfour := (length_utf8EncodeChar c).2
      refine iff_of_false ?_ (not_not.2 ⟨as, c, bs, rfl, by omega, by omega⟩)
      rintro ⟨hstart, -⟩
      rw [heq, if_pos hthree, List.prefix_append_right_inj,
        List.singleton_prefix_cons_iff] at hstart
      subst hstart
      have hreplacement : (String.utf8EncodeChar replacement).length = 3 := by decide
      omega
    · refine iff_of_true ⟨?_, hlimit⟩ ?_
      · rw [heq, if_neg hthree, List.append_nil]
        exact List.prefix_append as _
      · rintro ⟨as', c', bs', htext, hsum', hfour⟩
        -- two cuts at one place: neither can lie behind the other's character
        rcases List.append_eq_append_iff.1 htext with ⟨l, rfl, hl⟩ | ⟨l, rfl, hl⟩
        · rw [byteLength_append] at hsum'
          rcases l with _ | ⟨d, l⟩
          · obtain ⟨rfl, -⟩ := List.cons.inj hl
            have hnil : byteLength [] = 0 := rfl
            omega
          · obtain ⟨rfl, -⟩ := List.cons.inj hl
            rw [byteLength_cons] at hsum'
            omega
        · rw [byteLength_append] at hsum
          rcases l with _ | ⟨d, l⟩
          · have hnil : byteLength [] = 0 := rfl
            omega
          · obtain ⟨rfl, -⟩ := List.cons.inj hl
            rw [byteLength_cons] at hsum
            omega

/-! ### Serialising again -/

theorem truncateUtf8_of_le {text : List Char} {maxBytes : ℕ} (h : byteLength text ≤ maxBytes) :
    truncateUtf8 text maxBytes = ⟨text, false⟩ := if_pos h

theorem truncateUtf8_truncateUtf8 (text : List Char) (maxBytes : ℕ) :
    truncateUtf8 (truncateUtf8 text maxBytes).value maxBytes =
      ⟨(truncateUtf8 text maxBytes).value, false⟩ :=
  truncateUtf8_of_le (byteLength_truncateUtf8_le text maxBytes)

theorem byteLength_hex (bytes : Bytes) : byteLength (hex bytes) = 2 * bytes.length := by
  have hdigit : ∀ d < 16, (String.utf8EncodeChar (Nat.digitChar d)).length = 1 := by decide
  induction bytes with
  | nil => rfl
  | cons b bytes ih =>
    have hb : b.toNat < 256 := b.toNat_lt
    have hcons : hex (b :: bytes) =
        Nat.digitChar (b.toNat / 16) :: Nat.digitChar (b.toNat % 16) :: hex bytes := rfl
    rw [hcons, byteLength_cons, byteLength_cons, hdigit _ (by omega), hdigit _ (by omega), ih,
      List.length_cons]
    omega

theorem boundedValue_boundedValue (value : Value) :
    boundedValue (boundedValue value).1 = ((boundedValue value).1, false) := by
  cases value with
  | undefined => rfl
  | null => rfl
  | buffer bytes =>
    have hlength : byteLength (hex (bytes.take (MAX_VARBIND_VALUE_BYTES / 2))) ≤
        MAX_VARBIND_VALUE_BYTES := by
      rw [byteLength_hex, List.length_take, MAX_VARBIND_VALUE_BYTES]
      omega
    show (Value.other (truncateUtf8 _ _).value, (truncateUtf8 _ _).truncated) = _
    rw [truncateUtf8_of_le hlength]
    rfl
  | other text =>
    show (Value.other (truncateUtf8 _ _).value, (truncateUtf8 _ _).truncated) = _
    rw [truncateUtf8_truncateUtf8]
    rfl

theorem boundedType_boundedType (type : TypeTag) :
    boundedType (boundedType type) = boundedType type := by
  cases type with
  | none => rfl
  | finite text => rfl
  | other text =>
    show TypeTag.other (truncateUtf8 _ 32).value = _
    rw [truncateUtf8_truncateUtf8]
    rfl

/-- **A varbind that was serialised is not changed again.** -/
theorem serializeVarbind_serializeVarbind (raw : RawVarbind) :
    serializeVarbind (.object (serializeVarbind raw)) = serializeVarbind raw := by
  rw [serializeVarbind, RawVarbind.fields]
  unfold serializeVarbind
  dsimp only
  rw [boundedValue_boundedValue, boundedType_boundedType, truncateUtf8_truncateUtf8]
  simp

/-! ### The loop -/

theorem byteLength_intercalate (texts : List (List Char)) :
    byteLength ([','].intercalate texts) = (texts.map byteLength).sum + (texts.length - 1) := by
  induction texts with
  | nil => rfl
  | cons text texts ih =>
    rcases texts with _ | ⟨next, texts⟩
    · rw [List.intercalate_singleton]
      simp
    · have hcomma : byteLength [','] = 1 := by decide
      rw [List.intercalate_cons_cons, byteLength_append, byteLength_append, ih, hcomma]
      simp only [List.map_cons, List.sum_cons, List.length_cons]
      omega

theorem byteLength_stringify (varbinds : List Varbind) :
    byteLength (stringify varbinds) =
      2 + (varbinds.map fun vb => byteLength vb.json).sum + (varbinds.length - 1) := by
  have hopen : (String.utf8EncodeChar '[').length = 1 := by decide
  have hclose : byteLength [']'] = 1 := by decide
  rw [stringify, List.cons_append, byteLength_cons, byteLength_append, byteLength_intercalate,
    hopen, hclose, List.map_map, List.length_map]
  show 1 + (_ + _ + 1) = _
  simp only [Function.comp_def]
  omega

theorem byteLength_stringify_append (output : List Varbind) (vb : Varbind) :
    byteLength (stringify (output ++ [vb])) =
      byteLength (stringify output) + (byteLength vb.json + if output = [] then 0 else 1) := by
  rw [byteLength_stringify, byteLength_stringify, List.map_append, List.sum_append,
    List.length_append, List.length_singleton]
  split_ifs with hnil
  · subst hnil
    simp
  · have hpos := List.length_pos_iff.2 hnil
    simp only [List.map_cons, List.map_nil, List.sum_cons, List.sum_nil]
    omega

/-- **The loop** takes the first varbinds that fit, and all of those when it is run on them. -/
theorem fitting_spec (candidates output : List Varbind)
    (hfits : byteLength (stringify output) ≤ MAX_VARBINDS_JSON_BYTES) :
    ∃ taken, taken <+: candidates ∧
      fitting output (byteLength (stringify output)) candidates = output ++ taken ∧
      byteLength (stringify (output ++ taken)) ≤ MAX_VARBINDS_JSON_BYTES ∧
      fitting output (byteLength (stringify output)) taken = output ++ taken := by
  have hstop : output ++ [] = output := List.append_nil output
  induction candidates generalizing output with
  | nil => exact ⟨[], List.prefix_rfl, hstop.symm, by rwa [hstop], hstop.symm⟩
  | cons candidate rest ih =>
    by_cases hover : MAX_VARBINDS_JSON_BYTES < byteLength (stringify output) +
        (byteLength candidate.json + if output = [] then 0 else 1)
    · refine ⟨[], List.nil_prefix, ?_, by rwa [hstop], hstop.symm⟩
      rw [fitting, if_pos hover, hstop]
    · rw [← byteLength_stringify_append] at hover
      obtain ⟨taken, hstart, hrun, hbytes, hagain⟩ :=
        ih (output ++ [candidate]) (not_lt.1 hover) (List.append_nil _)
      have happend : output ++ [candidate] ++ taken = output ++ candidate :: taken := by simp
      rw [happend] at hrun hbytes hagain
      rw [byteLength_stringify_append] at hover hrun hagain
      refine ⟨candidate :: taken, (List.prefix_cons_inj candidate).2 hstart, ?_, hbytes, ?_⟩
      · rw [fitting, if_neg hover, hrun]
      · rw [fitting, if_neg hover, hagain]

/-- **What is kept** of a list. -/
theorem serializeVarbinds_spec (source : List RawVarbind) :
    serializeVarbinds source <+: (source.take MAX_VARBIND_COUNT).map serializeVarbind ∧
      byteLength (stringify (serializeVarbinds source)) ≤ MAX_VARBINDS_JSON_BYTES ∧
      serializeVarbinds ((serializeVarbinds source).map .object) = serializeVarbinds source := by
  have hempty : byteLength (stringify []) = 2 := by decide
  obtain ⟨taken, hstart, hrun, hbytes, hagain⟩ :=
    fitting_spec ((source.take MAX_VARBIND_COUNT).map serializeVarbind) [] (by rw [hempty]; decide)
  rw [hempty, List.nil_append] at hrun hagain
  rw [List.nil_append] at hbytes
  have hkept : serializeVarbinds source = taken := hrun
  rw [hkept]
  refine ⟨hstart, hbytes, ?_⟩
  have hcount : (taken.map RawVarbind.object).length ≤ MAX_VARBIND_COUNT := by
    have hle := hstart.length_le
    rw [List.length_map, List.length_take] at hle
    rw [List.length_map]
    omega
  have hsame : (taken.map RawVarbind.object).map serializeVarbind = taken := by
    rw [List.map_map]
    refine (List.map_congr_left fun vb hvb => ?_).trans (List.map_id _)
    obtain ⟨raw, -, rfl⟩ := List.mem_map.1 (hstart.subset hvb)
    exact serializeVarbind_serializeVarbind raw
  rw [serializeVarbinds, List.take_of_length_le hcount, hsame]
  exact hagain

theorem reason_kept (source : List RawVarbind) (reason : Option Reason) :
    (if (boundedVarbindPayload source).truncated then
      ((boundedVarbindPayload source).truncation_reason.or reason).or (some .size_limit)
    else none) = (boundedVarbindPayload source).truncation_reason := by
  unfold boundedVarbindPayload
  dsimp only
  by_cases hcount : MAX_VARBIND_COUNT < source.length <;>
    by_cases hbyte : (serializeVarbinds source).length < min source.length MAX_VARBIND_COUNT <;>
      simp [hcount, hbyte]

/-- **The bounds hold** of every list whose texts are not cut behind three bytes of a character. -/
theorem bounded_iff (source : List RawVarbind) :
    Bounded source ↔ ∀ raw ∈ source.take MAX_VARBIND_COUNT, ∀ call ∈ raw.texts,
      ¬ CutsThree call.1 call.2 := by
  obtain ⟨hstart, hbytes, hagain⟩ := serializeVarbinds_spec source
  constructor
  · intro h raw hraw call hcall
    exact (cut_iff call.1 call.2).1 (h.cut raw hraw call hcall)
  · intro h
    refine ⟨hbytes, ?_, ?_, fun raw hraw call hcall => (cut_iff _ _).2 (h raw hraw call hcall),
      hagain, ?_⟩
    · have hle := hstart.length_le
      rw [List.length_map, List.length_take] at hle
      exact hle.trans (min_le_left _ _)
    · refine hstart.trans ?_
      rw [List.map_take]
      exact List.take_prefix _ _
    · unfold storeTrap
      dsimp only
      have hjson : (boundedVarbindPayload
          ((boundedVarbindPayload source).varbinds.map .object)).json =
          (boundedVarbindPayload source).json := congrArg stringify hagain
      have hcount : min 65535 (boundedVarbindPayload source).original_count =
          (boundedVarbindPayload source).original_count := min_eq_right (min_le_left _ _)
      rw [hjson]
      simp only [Option.getD_some, Option.map_some, hcount, VarbindColumns.mk.injEq, true_and]
      exact reason_kept source _

theorem byteLength_replicate (n : ℕ) (c : Char) :
    byteLength (List.replicate n c) = n * (String.utf8EncodeChar c).length := by
  induction n with
  | zero => rw [Nat.zero_mul]; rfl
  | succ n ih => rw [List.replicate_succ, byteLength_cons, ih, Nat.add_one_mul, Nat.add_comm]

/-- A value of 509 letters and a character of four bytes. -/
def lockedValue : Varbind where
  oid := "1.3.6.1.4.1.9999.10".toList
  type := .finite ['4']
  value := .other (List.replicate 509 'x' ++ [Char.ofNat 0x1F512])
  truncated := false

/-- The character at the limit is replaced. -/
theorem lock_split : ¬ Bounded [.object lockedValue] := by
  intro h
  have hmem : (List.replicate 509 'x' ++ [Char.ofNat 0x1F512], MAX_VARBIND_VALUE_BYTES) ∈
      (RawVarbind.object lockedValue).texts := List.mem_cons_of_mem _ List.mem_cons_self
  refine (cut_iff _ _).1 (h.cut _ List.mem_cons_self _ hmem) ?_
  exact ⟨_, _, [], rfl, by rw [byteLength_replicate]; rfl, by decide⟩

end Vigabss.Traps.Varbinds
