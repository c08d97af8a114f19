import Vigabss.Lib.Except
import Vigabss.Lib.JsText
import Vigabss.Lib.Search

/-!
# Vigabss.Legal.Placeholders — the text of a legal document

`render` of `legalDocumentService`: a scanner over the template decides whether its placeholders
are well formed and supported, and an expression then replaces them by the values of the context.
The two see the same placeholders (`render_layout`).
-/

namespace Vigabss.Legal

open Vigabss.Lib

/-! ### Values -/

/-- A value of the context; a scalar is given by its `String(value)`. -/
inductive Value where
  | undefined
  | null
  | scalar (text : List Char)
  | object (fields : List (List Char × Value))

/-- An own property of a value. -/
def Value.own : Value → List Char → Option Value
  | .object fields, key => fields.lookup key
  | _, _ => none

/-- `resolvePlaceholder`; `none` is a value that is not found. -/
def resolvePlaceholder (context : Value) (path : List Char) : Option Value :=
  (JsText.split '.' path).foldlM Value.own context

/-- What stands for a value in the document. -/
def Value.shown : Value → List Char
  | .undefined | .null | .scalar [] => ['—']
  | .scalar text => text
  | .object _ => "[object Object]".toList

/-! ### The scanner -/

def SUPPORTED_PLACEHOLDERS : List (List Char) :=
  ["date", "client.name", "client.email", "client.phone", "client.address", "client.rfc",
    "client.curp", "client.razon_social", "contract.id", "contract.start_date",
    "contract.connection_type", "contract.contract_template_mx_id",
    "contract.mx_contract_environment", "plan.name", "plan.download", "plan.upload", "plan.price",
    "order.number", "order.address", "org.name", "org.legal_name", "org.phone", "org.email",
    "org.rfc", "org.razon_social", "org.profeco_registro", "org.carta_derechos_url"].map
    String.toList

/-- A name of a path: a letter or `_`, then characters of `\w`. -/
def isName : List Char → Bool
  | [] => false
  | c :: name => (c.isAlpha || c == '_') && name.all fun c => c.isAlphanum || c == '_'

/-- `PLACEHOLDER_PATH_PATTERN`: names with points between them. -/
def isPath (path : List Char) : Bool := (JsText.split '.' path).all isName

/-- The marks of a placeholder. -/
def opening : List Char := ['{', '{']
def closing : List Char := ['}', '}']

/-- The message of an error of `unresolvedPlaceholderError`. -/
def unresolvedPlaceholderError (placeholder : List Char) : String :=
  "Unsupported or unresolved legal document placeholder \"" ++ String.ofList placeholder ++
    "\". Update the source template before generating or signing this document"

/-- The loop of `assertSupportedPlaceholders`. -/
def scan (source : List Char) (cursor : ℕ) : Except String Unit :=
  if cursor < source.length then
    let strayClose := indexOf closing source cursor
    match hopen : indexOf opening source cursor with
    | none => if strayClose.isSome then .error (unresolvedPlaceholderError closing) else .ok ()
    | some start =>
      if strayClose.any (· < start) then .error (unresolvedPlaceholderError closing)
      else
        match hclose : indexOf closing source (start + 2) with
        | none => .error (unresolvedPlaceholderError (source.drop start))
        | some close =>
          let path := JsText.trim (slice source (start + 2) close)
          if (0 < start ∧ source[start - 1]? = some '{') ∨ source[close + 2]? = some '}' ∨
              isPath path = false then
            .error (unresolvedPlaceholderError (slice source start (close + 2)))
          else if path ∉ SUPPORTED_PLACEHOLDERS then
            .error (unresolvedPlaceholderError (opening ++ path ++ closing))
          else
            have _ : cursor ≤ start := le_of_indexOf hopen
            have _ : start + 2 ≤ close := le_of_indexOf hclose
            scan source (close + 2)
  else .ok ()
termination_by source.length - cursor

def assertSupportedPlaceholders (body : List Char) : Except String Unit := scan body 0

/-! ### The replacement -/

/-- A match of `\{\{([^{}]*)\}\}` at the beginning of a text: what stands between the marks. -/
def matchPlaceholder : List Char → Option (List Char)
  | '{' :: '{' :: text =>
    if closing <+: text.dropWhile (fun c => c != '{' && c != '}') then
      some (text.takeWhile fun c => c != '{' && c != '}')
    else none
  | _ => none

/-- The characters of a match. -/
def matchChars (rawPath : List Char) : List Char := opening ++ rawPath ++ closing

/-- What a character or a match becomes. -/
def replacement (context : Value) : Char ⊕ List Char → Except String (List Char)
  | .inl c => .ok [c]
  | .inr rawPath =>
    match resolvePlaceholder context (JsText.trim rawPath) with
    | none => .error (unresolvedPlaceholderError (matchChars rawPath))
    | some value => .ok value.shown

/-- `{{...}}`. -/
def anyPlaceholder : List Char := opening ++ "...".toList ++ closing

def assertNoUnresolvedPlaceholders (body : List Char) : Except String Unit :=
  if includes opening body ∨ includes closing body then
    .error (unresolvedPlaceholderError anyPlaceholder)
  else .ok ()

def render (body : List Char) (context : Value) : Except String (List Char) := do
  assertSupportedPlaceholders body
  let parts ← (Replace.pieces matchPlaceholder matchChars 0 body).mapM (replacement context)
  assertNoUnresolvedPlaceholders parts.flatten
  return parts.flatten

/-! ### Templates -/

/-- A placeholder of a supported path, with white space around the path. -/
structure Placeholder where
  left : List Char
  path : List Char
  right : List Char
  supported : path ∈ SUPPORTED_PLACEHOLDERS
  left_blank : ∀ c ∈ left, JsText.isSpace c = true
  right_blank : ∀ c ∈ right, JsText.isSpace c = true

/-- What stands between the marks. -/
def Placeholder.raw (p : Placeholder) : List Char := p.left ++ p.path ++ p.right

def Placeholder.text (p : Placeholder) : List Char := matchChars p.raw

/-- Text in which no two equal braces stand together. -/
def Plain (text : List Char) : Prop := ¬ opening <:+: text ∧ ¬ closing <:+: text

/-- A template: text, and placeholders with the text behind each. -/
structure Layout where
  head : List Char
  places : List (Placeholder × List Char)

/-- The text of the placeholders. -/
def placesText : List (Placeholder × List Char) → List Char
  | [] => []
  | (p, behind) :: places => p.text ++ (behind ++ placesText places)

def Layout.text (t : Layout) : List Char := t.head ++ placesText t.places

/-- The text between placeholders is plain; no `{` stands right before one, no `}` right behind. -/
def Spaced (before : List Char) : List (Placeholder × List Char) → Prop
  | [] => Plain before
  | (_, behind) :: places =>
    Plain before ∧ before.getLast? ≠ some '{' ∧ behind.head? ≠ some '}' ∧ Spaced behind places

def Layout.WellFormed (t : Layout) : Prop := Spaced t.head t.places

/-- The values in the places of the placeholders. -/
def placesFilled (context : Value) : List (Placeholder × List Char) → List Char
  | [] => []
  | (p, behind) :: places =>
    ((resolvePlaceholder context p.path).getD .undefined).shown ++
      (behind ++ placesFilled context places)

/-- The document of a template. -/
def Layout.filled (context : Value) (t : Layout) : List Char :=
  t.head ++ placesFilled context t.places

/-- A context that has all supported paths. -/
def Defines (context : Value) : Prop :=
  ∀ path ∈ SUPPORTED_PLACEHOLDERS, (resolvePlaceholder context path).isSome = true

/-! ### Supported paths -/

theorem supported_isPath {path : List Char} (h : path ∈ SUPPORTED_PLACEHOLDERS) :
    isPath path = true := by
  have hall : SUPPORTED_PLACEHOLDERS.all isPath = true := by decide
  exact List.all_eq_true.1 hall path h

theorem supported_chars {path : List Char} (h : path ∈ SUPPORTED_PLACEHOLDERS) :
    path ≠ [] ∧ ∀ c ∈ path, c ≠ '{' ∧ c ≠ '}' ∧ JsText.isSpace c = false := by
  have hall : (SUPPORTED_PLACEHOLDERS.all fun path => !path.isEmpty &&
      path.all fun c => c != '{' && c != '}' && !JsText.isSpace c) = true := by decide
  have hpath := List.all_eq_true.1 hall path h
  rw [Bool.and_eq_true, List.all_eq_true] at hpath
  refine ⟨by simpa using hpath.1, fun c hc => ?_⟩
  simpa [and_assoc] using hpath.2 c hc

/-! ### One pass of the scanner -/

section Pass

variable {done rest seg tail raw behind : List Char}

theorem splitFirst_opening : splitFirst opening rest = some (seg, tail) ↔
    rest = seg ++ (opening ++ tail) ∧ ¬ opening <:+: seg ++ ['{'] :=
  splitFirst_eq_some (List.cons_ne_nil _ _)

theorem splitFirst_closing : splitFirst closing rest = some (seg, tail) ↔
    rest = seg ++ (closing ++ tail) ∧ ¬ closing <:+: seg ++ ['}'] :=
  splitFirst_eq_some (List.cons_ne_nil _ _)

/-- Two closing braces before the first opening ones. -/
theorem stray_iff (hrest : rest = seg ++ (opening ++ tail)) :
    ((indexOf closing (done ++ rest) done.length).any (· < done.length + seg.length)) = true ↔
      closing <:+: seg := by
  rw [indexOf_append]
  constructor
  · intro h
    cases hsplit : splitFirst closing rest with
    | none =>
      rw [hsplit] at h
      cases h
    | some p =>
      rw [hsplit] at h
      have hlt : p.1.length < seg.length := by simpa using h
      obtain ⟨hclose, -⟩ := splitFirst_closing.1 hsplit
      refine ⟨p.1, ?_⟩
      rw [hrest] at hclose
      rcases List.append_eq_append_iff.1 hclose with ⟨a, ha, -⟩ | ⟨a, ha, htail⟩
      · have hlength := congrArg List.length ha
        rw [List.length_append] at hlength
        omega
      · rcases a with - | ⟨c, a⟩
        · rw [ha, List.append_nil] at hlt
          exact absurd hlt (lt_irrefl _)
        · rcases a with - | ⟨d, a⟩
          · cases htail
          · obtain ⟨rfl, hbehind⟩ := List.cons.inj htail
            obtain ⟨rfl, -⟩ := List.cons.inj hbehind
            exact ⟨a, by rw [ha, List.append_assoc]; rfl⟩
  · rintro ⟨a, b, hab⟩
    have hplace : rest = a ++ (closing ++ (b ++ (opening ++ tail))) := by
      rw [hrest, ← hab, List.append_assoc, List.append_assoc]
    cases hsplit : splitFirst closing rest with
    | none => exact absurd ⟨a, _, by rw [hplace, List.append_assoc]⟩ (splitFirst_eq_none.1 hsplit)
    | some p =>
      have hle := splitFirst_le (List.cons_ne_nil _ _) hsplit hplace
      have hlength := congrArg List.length hab
      simp only [List.length_append] at hlength
      have htwo : closing.length = 2 := rfl
      simp only [Option.map_some, Option.any_some, decide_eq_true_eq]
      omega

theorem not_adjacent (hdone : done.getLast? ≠ some '{') (hseg : ¬ opening <:+: seg ++ ['{'])
    (rest : List Char) :
    ¬ (0 < done.length + seg.length ∧
      (done ++ (seg ++ rest))[done.length + seg.length - 1]? = some '{') := by
  rintro ⟨hpos, hget⟩
  have hlast : (done ++ seg).getLast? = some '{' := by
    rw [List.getLast?_eq_getElem?, List.length_append, ← hget, ← List.append_assoc]
    refine (List.getElem?_append_left ?_).symm
    rw [List.length_append]
    omega
  rcases List.eq_nil_or_concat seg with rfl | ⟨seg, c, rfl⟩
  · rw [List.append_nil] at hlast
    exact hdone hlast
  · rw [List.concat_eq_append, ← List.append_assoc, List.getLast?_concat] at hlast
    cases hlast
    refine hseg ⟨seg, [], ?_⟩
    simp [opening]

/-- **One pass**: the rest of the text is plain, or it goes on with plain text and a supported
placeholder, and the scanner accepts what stands behind it. -/
theorem scan_ok_iff (hdone : done.getLast? ≠ some '{') :
    scan (done ++ rest) done.length = .ok () ↔ Plain rest ∨ ∃ seg raw behind,
      rest = seg ++ (matchChars raw ++ behind) ∧ ¬ opening <:+: seg ++ ['{'] ∧
      ¬ closing <:+: seg ∧ ¬ closing <:+: raw ++ ['}'] ∧ behind.head? ≠ some '}' ∧
      JsText.trim raw ∈ SUPPORTED_PLACEHOLDERS ∧
      scan ((done ++ seg ++ matchChars raw) ++ behind) (done ++ seg ++ matchChars raw).length =
        .ok () := by
  rw [scan]
  by_cases hlt : done.length < (done ++ rest).length
  swap
  · rw [if_neg hlt]
    have hnil : rest = [] := by
      rw [List.length_append] at hlt
      exact List.length_eq_zero_iff.1 (by omega)
    rw [hnil]
    exact ⟨fun _ => .inl ⟨by simp [opening], by simp [closing]⟩, fun _ => rfl⟩
  rw [if_pos hlt]
  dsimp only
  split
  · next hopen =>
    rw [indexOf_append, Option.map_eq_none_iff, splitFirst_eq_none] at hopen
    have hstray : (indexOf closing (done ++ rest) done.length).isSome = true ↔
        closing <:+: rest := by
      rw [indexOf_append, Option.isSome_map]
      exact includes_iff
    split_ifs with hclosing
    · rw [hstray] at hclosing
      refine ⟨fun h => (nomatch h), ?_⟩
      rintro (hplain | ⟨seg, raw, behind, hrest, -⟩)
      · exact absurd hclosing hplain.2
      · exact absurd ⟨seg, raw ++ closing ++ behind, by simp [hrest, matchChars]⟩ hopen
    · rw [hstray] at hclosing
      exact ⟨fun _ => .inl ⟨hopen, hclosing⟩, fun _ => rfl⟩
  · next start hopen =>
    rw [indexOf_append] at hopen
    obtain ⟨⟨seg, tail⟩, hsplit, rfl⟩ := Option.map_eq_some_iff.1 hopen
    obtain ⟨hrest, hseg⟩ := splitFirst_opening.1 hsplit
    have hplain : ¬ Plain rest := fun h => h.1 ⟨seg, tail, by rw [hrest, List.append_assoc]⟩
    rw [or_iff_right hplain]
    -- the text before the first opening braces is the one that the pass reads
    have hsame : ∀ seg' raw behind, rest = seg' ++ (matchChars raw ++ behind) →
        ¬ opening <:+: seg' ++ ['{'] → seg' = seg ∧ tail = raw ++ (closing ++ behind) := by
      intro seg' raw behind hrest' hseg'
      have hsplit' : splitFirst opening rest = some (seg', raw ++ (closing ++ behind)) :=
        splitFirst_opening.2 ⟨by rw [hrest']; simp [matchChars], hseg'⟩
      rw [hsplit] at hsplit'
      cases hsplit'
      exact ⟨rfl, rfl⟩
    by_cases hstray : closing <:+: seg
    · rw [if_pos ((stray_iff hrest).2 hstray)]
      refine ⟨fun h => (nomatch h), ?_⟩
      rintro ⟨seg', raw, behind, hrest', hseg', hclean, -⟩
      exact absurd ((hsame seg' raw behind hrest' hseg').1 ▸ hstray) hclean
    rw [if_neg (fun h => hstray ((stray_iff hrest).1 h))]
    have hsource : done ++ rest = (done ++ seg ++ opening) ++ tail := by simp [hrest]
    have hstart : done.length + seg.length + 2 = (done ++ seg ++ opening).length := by
      simp [opening]
      omega
    split
    · next hclose =>
      rw [hsource, hstart, indexOf_append, Option.map_eq_none_iff, splitFirst_eq_none] at hclose
      refine ⟨fun h => (nomatch h), ?_⟩
      rintro ⟨seg', raw, behind, hrest', hseg', -⟩
      refine absurd ⟨raw, behind, ?_⟩ hclose
      rw [(hsame seg' raw behind hrest' hseg').2, List.append_assoc]
    · next close hclose =>
      rw [hsource, hstart, indexOf_append] at hclose
      obtain ⟨⟨raw, behind⟩, hclosing, rfl⟩ := Option.map_eq_some_iff.1 hclose
      obtain ⟨htail, hraw⟩ := splitFirst_closing.1 hclosing
      have hslice : slice (done ++ rest) (done.length + seg.length + 2)
          ((done ++ seg ++ opening).length + raw.length) = raw := by
        rw [hsource, hstart, htail, slice_append]
      have hread : done ++ rest = (done ++ seg ++ matchChars raw) ++ behind := by
        rw [hsource, htail]
        simp [matchChars]
      have hend : (done ++ seg ++ opening).length + raw.length + 2 =
          (done ++ seg ++ matchChars raw).length := by
        simp [matchChars, opening, closing]
        omega
      have hnext : (done ++ rest)[(done ++ seg ++ opening).length + raw.length + 2]? =
          behind.head? := by
        rw [hend, hread, List.getElem?_append_right le_rfl, Nat.sub_self, List.head?_eq_getElem?]
      have hleft : ¬ (0 < done.length + seg.length ∧
          (done ++ rest)[done.length + seg.length - 1]? = some '{') := by
        rw [hrest]
        exact not_adjacent hdone hseg _
      rw [hslice, hnext]
      constructor
      · intro h
        split_ifs at h with hbad hunsupported
        obtain ⟨-, hbehind, hpath⟩ := not_or.1 hbad |>.imp_right not_or.1
        refine ⟨seg, raw, behind, by rw [hrest, htail]; simp [matchChars], hseg, hstray, hraw,
          hbehind, hunsupported, ?_⟩
        rw [← hread, ← hend]
        exact h
      · rintro ⟨seg', raw', behind', hrest', hseg', -, hraw', hbehind, hsupported, hscan⟩
        obtain ⟨rfl, htail'⟩ := hsame seg' raw' behind' hrest' hseg'
        have hclosing' := splitFirst_closing.2 ⟨htail', hraw'⟩
        rw [hclosing] at hclosing'
        cases hclosing'
        have hpath : isPath (JsText.trim raw) ≠ false := by
          rw [supported_isPath hsupported]
          simp
        rw [if_neg (not_or.2 ⟨hleft, not_or.2 ⟨hbehind, hpath⟩⟩), if_neg (not_not.2 hsupported),
          hread, hend]
        exact hscan

end Pass

/-! ### Layouts -/

theorem opening_concat {seg : List Char} :
    ¬ opening <:+: seg ++ ['{'] ↔ ¬ opening <:+: seg ∧ seg.getLast? ≠ some '{' := by
  rw [List.infix_concat_iff, not_or, and_comm, and_congr_right_iff]
  intro _
  refine not_congr ⟨fun h => ?_, fun h => ?_⟩
  · rcases List.suffix_concat_iff.1 h with hnil | ⟨t, ht, hsuffix⟩
    · cases hnil
    · have hone : t = ['{'] := by
        have happend : ['{'] ++ ['{'] = t ++ ['{'] := ht
        exact (List.append_cancel_right happend).symm
      obtain ⟨s, rfl⟩ := hone ▸ hsuffix
      exact List.getLast?_concat
  · obtain ⟨s, rfl⟩ := List.getLast?_eq_some_iff.1 h
    exact ⟨s, by simp [opening]⟩

theorem Placeholder.trim_raw (p : Placeholder) : JsText.trim p.raw = p.path := by
  obtain ⟨hne, hchars⟩ := supported_chars p.supported
  rw [raw, JsText.trim_append_blank p.right_blank, JsText.trim_blank_append p.left_blank]
  refine JsText.trim_of_ends (fun c hc => ?_) fun c hc => ?_
  · exact (hchars c (List.mem_of_mem_head? hc)).2.2
  · exact (hchars c (List.mem_of_mem_getLast? hc)).2.2

theorem Placeholder.raw_chars (p : Placeholder) : ∀ c ∈ p.raw, c ≠ '{' ∧ c ≠ '}' := by
  have hblank : ∀ c, JsText.isSpace c = true → c ≠ '{' ∧ c ≠ '}' := by
    rintro c hc
    constructor <;> rintro rfl <;> revert hc <;> decide
  intro c hc
  rw [raw, List.mem_append, List.mem_append] at hc
  rcases hc with (hc | hc) | hc
  · exact hblank c (p.left_blank c hc)
  · exact ⟨((supported_chars p.supported).2 c hc).1, ((supported_chars p.supported).2 c hc).2.1⟩
  · exact hblank c (p.right_blank c hc)

theorem Placeholder.raw_closing (p : Placeholder) : ¬ closing <:+: p.raw ++ ['}'] := by
  intro h
  have hcount := h.sublist.count_le '}'
  rw [List.count_append, List.count_eq_zero_of_not_mem fun hmem => (p.raw_chars _ hmem).2 rfl]
    at hcount
  revert hcount
  decide

theorem exists_placeholder {raw : List Char} (h : JsText.trim raw ∈ SUPPORTED_PLACEHOLDERS) :
    ∃ p : Placeholder, p.raw = raw := by
  obtain ⟨left, right, hraw, hleft, hright⟩ := JsText.exists_trim raw
  exact ⟨⟨left, JsText.trim raw, right, h, hleft, hright⟩, hraw.symm⟩

theorem placesText_head (places : List (Placeholder × List Char)) :
    (placesText places).head? ≠ some '}' := by
  cases places with
  | nil => simp [placesText]
  | cons q places => simp [placesText, Placeholder.text, matchChars, opening]

theorem head?_append_ne {behind rest : List Char} (h : rest.head? ≠ some '}') :
    (behind ++ rest).head? ≠ some '}' ↔ behind.head? ≠ some '}' := by
  cases behind with
  | nil => simpa using h
  | cons c behind => rfl

theorem getLast?_matchChars (done raw : List Char) :
    (done ++ matchChars raw).getLast? ≠ some '{' := by
  simp [matchChars, closing]

theorem scan_spaced {seg : List Char} {places : List (Placeholder × List Char)}
    (h : Spaced seg places) {done : List Char} (hdone : done.getLast? ≠ some '{') :
    scan (done ++ (seg ++ placesText places)) done.length = .ok () := by
  induction places generalizing seg done with
  | nil =>
    rw [placesText, List.append_nil, scan_ok_iff hdone]
    exact .inl h
  | cons q places ih =>
    obtain ⟨p, behind⟩ := q
    obtain ⟨hplain, hlast, hhead, hspaced⟩ := h
    refine (scan_ok_iff hdone).2 (.inr ⟨seg, p.raw, behind ++ placesText places, rfl,
      opening_concat.2 ⟨hplain.1, hlast⟩, hplain.2, p.raw_closing,
      (head?_append_ne (placesText_head places)).2 hhead, ?_, ?_⟩)
    · rw [p.trim_raw]
      exact p.supported
    · exact ih hspaced (getLast?_matchChars _ _)

theorem exists_spaced {done rest : List Char} (hdone : done.getLast? ≠ some '{')
    (h : scan (done ++ rest) done.length = .ok ()) :
    ∃ seg places, Spaced seg places ∧ rest = seg ++ placesText places := by
  induction hn : rest.length using Nat.strong_induction_on generalizing done rest with
  | _ n ih =>
    rcases (scan_ok_iff hdone).1 h with hplain |
      ⟨seg, raw, behind, rfl, hseg, hclean, -, hhead, hsupported, hscan⟩
    · exact ⟨rest, [], hplain, (List.append_nil rest).symm⟩
    · obtain ⟨p, rfl⟩ := exists_placeholder hsupported
      have hshorter : behind.length < n := by
        rw [← hn, List.length_append, List.length_append]
        have htwo : 2 ≤ (matchChars p.raw).length := by simp [matchChars, opening]
        omega
      obtain ⟨seg', places, hspaced, rfl⟩ := ih _ hshorter (getLast?_matchChars _ _) hscan rfl
      obtain ⟨hopen, hlast⟩ := opening_concat.1 hseg
      refine ⟨seg, (p, seg') :: places, ⟨⟨hopen, hclean⟩, hlast, ?_, hspaced⟩, rfl⟩
      exact (head?_append_ne (placesText_head places)).1 hhead

/-- **What the scanner accepts.** -/
theorem accepted_iff (source : List Char) :
    assertSupportedPlaceholders source = .ok () ↔ ∃ t : Layout, t.WellFormed ∧ t.text = source := by
  have hempty : ([] : List Char).getLast? ≠ some '{' := by simp
  constructor
  · intro h
    obtain ⟨seg, places, hspaced, htext⟩ := @exists_spaced [] source hempty h
    exact ⟨⟨seg, places⟩, hspaced, htext.symm⟩
  · rintro ⟨t, ht, rfl⟩
    exact @scan_spaced t.head t.places ht [] hempty

/-! ### Replacing the placeholders -/

/-- The pieces of the placeholders. -/
def placePieces : List (Placeholder × List Char) → List (Char ⊕ List Char)
  | [] => []
  | (p, behind) :: places => .inr p.raw :: (behind.map .inl ++ placePieces places)

theorem matchPlaceholder_raw (p : Placeholder) (rest : List Char) :
    matchPlaceholder (matchChars p.raw ++ rest) = some p.raw := by
  have hall : ∀ c ∈ p.raw, (c != '{' && c != '}') = true := by
    intro c hc
    simpa using p.raw_chars c hc
  show matchPlaceholder ('{' :: '{' :: (p.raw ++ closing ++ rest)) = some p.raw
  rw [matchPlaceholder, List.append_assoc, List.dropWhile_append_of_pos hall,
    List.takeWhile_append_of_pos hall]
  simp [closing]

theorem matchPlaceholder_gap {seg rest : List Char} (hseg : ¬ opening <:+: seg)
    (hrest : rest = [] ∨ seg.getLast? ≠ some '{') {s : List Char} (hne : s ≠ [])
    (hs : s <:+ seg) : matchPlaceholder (s ++ rest) = none := by
  obtain ⟨c, s, rfl⟩ := List.exists_cons_of_ne_nil hne
  by_cases hc : c = '{'
  swap
  · rw [List.cons_append, matchPlaceholder]
    rintro text heq
    exact absurd (List.cons.inj heq).1 hc
  subst hc
  cases s with
  | nil =>
    rcases hrest with rfl | hlast
    · rfl
    · obtain ⟨t, rfl⟩ := hs
      exact absurd List.getLast?_concat hlast
  | cons d s =>
    have hd : d ≠ '{' := by
      rintro rfl
      obtain ⟨t, rfl⟩ := hs
      exact hseg ⟨t, s, by simp [opening]⟩
    show matchPlaceholder ('{' :: d :: (s ++ rest)) = none
    rw [matchPlaceholder]
    simpa using hd

theorem pieces_spaced {seg : List Char} {places : List (Placeholder × List Char)}
    (h : Spaced seg places) :
    Replace.pieces matchPlaceholder matchChars 0 (seg ++ placesText places) =
      seg.map .inl ++ placePieces places := by
  induction places generalizing seg with
  | nil =>
    refine Replace.pieces_gap fun s hne hs => ?_
    exact matchPlaceholder_gap h.1 (.inl rfl) hne hs
  | cons q places ih =>
    obtain ⟨p, behind⟩ := q
    obtain ⟨hplain, hlast, -, hspaced⟩ := h
    rw [Replace.pieces_gap fun s hne hs => matchPlaceholder_gap hplain.1 (.inr hlast) hne hs]
    rw [placesText, Placeholder.text,
      Replace.pieces_match (by simp [matchChars, opening]) (matchPlaceholder_raw p _), ih hspaced]
    rfl

/-- What a piece becomes where its path is found. -/
def shownPiece (context : Value) : Char ⊕ List Char → List Char
  | .inl c => [c]
  | .inr rawPath =>
    ((resolvePlaceholder context (JsText.trim rawPath)).getD .undefined).shown

theorem replacement_placePieces {context : Value} (h : Defines context)
    (places : List (Placeholder × List Char)) :
    ∀ x ∈ placePieces places, replacement context x = .ok (shownPiece context x) := by
  induction places with
  | nil => simp [placePieces]
  | cons q places ih =>
    obtain ⟨p, behind⟩ := q
    intro x hx
    rw [placePieces, List.mem_cons, List.mem_append] at hx
    rcases hx with rfl | hx | hx
    · obtain ⟨value, hvalue⟩ := Option.isSome_iff_exists.1 (h p.path p.supported)
      rw [replacement, shownPiece, p.trim_raw, hvalue]
      rfl
    · obtain ⟨c, _, rfl⟩ := List.mem_map.1 hx
      rfl
    · exact ih x hx

theorem flatten_shown_inl (context : Value) (text : List Char) :
    ((text.map Sum.inl).map (shownPiece context)).flatten = text := by
  induction text with
  | nil => rfl
  | cons c text ih => simpa [shownPiece] using ih

theorem flatten_shown (context : Value) (places : List (Placeholder × List Char)) :
    ((placePieces places).map (shownPiece context)).flatten = placesFilled context places := by
  induction places with
  | nil => rfl
  | cons q places ih =>
    obtain ⟨p, behind⟩ := q
    rw [placePieces, placesFilled, List.map_cons, List.map_append, List.flatten_cons,
      List.flatten_append, flatten_shown_inl, ih, shownPiece, p.trim_raw]

theorem mapM_replacement {context : Value} (h : Defines context) (t : Layout) :
    (t.head.map Sum.inl ++ placePieces t.places).mapM (replacement context) =
      .ok ((t.head.map Sum.inl ++ placePieces t.places).map (shownPiece context)) := by
  rw [mapM_ok, List.forall₂_map_right_iff, List.forall₂_same]
  intro x hx
  rcases List.mem_append.1 hx with hx | hx
  · obtain ⟨c, _, rfl⟩ := List.mem_map.1 hx
    rfl
  · exact replacement_placePieces h t.places x hx

instance (text : List Char) : Decidable (Plain text) := inferInstanceAs (Decidable (_ ∧ _))

theorem assertNoUnresolved_eq (body : List Char) : assertNoUnresolvedPlaceholders body =
    if Plain body then .ok () else .error (unresolvedPlaceholderError anyPlaceholder) := by
  have hplain : (includes opening body = true ∨ includes closing body = true) ↔ ¬ Plain body := by
    rw [includes_iff, includes_iff, Plain, not_and_or, not_not, not_not]
  rw [assertNoUnresolvedPlaceholders]
  by_cases h : Plain body
  · rw [if_pos h, if_neg fun hpair => hplain.1 hpair h]
  · rw [if_neg h, if_pos (hplain.2 h)]

/-- **A template is rendered** with the values in the places of its placeholders, and refused where
that shows a pair of braces. -/
theorem render_layout {t : Layout} (ht : t.WellFormed) {context : Value} (h : Defines context) :
    render t.text context = if Plain (t.filled context) then .ok (t.filled context)
      else .error (unresolvedPlaceholderError anyPlaceholder) := by
  have hfilled : ((t.head.map Sum.inl ++ placePieces t.places).map (shownPiece context)).flatten =
      t.filled context := by
    rw [List.map_append, List.flatten_append, flatten_shown_inl, flatten_shown]
    rfl
  rw [render, (accepted_iff t.text).2 ⟨t, ht, rfl⟩, Layout.text, pieces_spaced ht,
    mapM_replacement h]
  show (assertNoUnresolvedPlaceholders _ >>= fun _ => Except.ok _) = _
  rw [hfilled, assertNoUnresolved_eq]
  split_ifs <;> rfl

/-- **Scanner and expression agree**: the accepted texts are the templates, and each is rendered
with exactly its placeholders replaced. -/
theorem render_accepted (source : List Char) :
    (assertSupportedPlaceholders source = .ok () ↔
      ∃ t : Layout, t.WellFormed ∧ t.text = source) ∧
    ∀ t : Layout, t.WellFormed → t.text = source → ∀ context, Defines context →
      render source context = if Plain (t.filled context) then .ok (t.filled context)
        else .error (unresolvedPlaceholderError anyPlaceholder) := by
  refine ⟨accepted_iff source, ?_⟩
  rintro t ht rfl context h
  exact render_layout ht h

/-- A template with one placeholder. -/
def greeting : Layout where
  head := "Cliente: ".toList
  places := [(⟨[' '], "client.name".toList, [], List.mem_of_elem_eq_true (by decide),
    fun c hc => by rw [List.mem_singleton.1 hc]; rfl, fun c hc => absurd hc List.not_mem_nil⟩,
    ".".toList)]

/-- The groups of a context, with the fields of each. -/
def contextOf (groups : List (String × List String)) : Value :=
  .object (("date".toList, .scalar "2026-07-01".toList) :: groups.map fun g =>
    (g.1.toList, .object (g.2.map fun field => (field.toList, .scalar "$& \x7b".toList))))

def fullContext : Value :=
  contextOf [("client", ["name", "email", "phone", "address", "rfc", "curp", "razon_social"]),
    ("contract", ["id", "start_date", "connection_type", "contract_template_mx_id",
      "mx_contract_environment"]),
    ("plan", ["name", "download", "upload", "price"]), ("order", ["number", "address"]),
    ("org", ["name", "legal_name", "phone", "email", "rfc", "razon_social", "profeco_registro",
      "carta_derechos_url"])]

theorem render_accepted_greeting : greeting.WellFormed ∧ Defines fullContext ∧
    render greeting.text fullContext = .ok "Cliente: $& \x7b.".toList := by
  have hformed : greeting.WellFormed := ⟨by decide, by decide, by decide, by unfold Spaced; decide⟩
  have hdefines : Defines fullContext := by
    unfold Defines
    decide
  refine ⟨hformed, hdefines, ?_⟩
  rw [(render_accepted greeting.text).2 greeting hformed rfl fullContext hdefines]
  decide

end Vigabss.Legal
