import Vigabss.Lib.Json
import Vigabss.Utils.Csv

/-!
# Vigabss.Legal.Evidence — the evidence of a signature

`evidenceDigest` and `verifyEvidence` of `legalDocumentService`: the SHA-256 of one canonical object
over a document and its signature.  Where SHA-256 does not collide, a changed row verifies just when
it has the same canonical object: `verifyEvidence_changed`.
-/

namespace Vigabss.Legal

open Vigabss.Lib
open Vigabss.Utils.Csv (JsDate pad isoYear)

abbrev Text := List Char

/-! ### Rows -/

inductive TemplateType where
  | installation_authorization | activation_contract | service_acknowledgment
  | equipment_comodato | custom
  deriving DecidableEq, Repr

def TemplateType.text : TemplateType → Text
  | installation_authorization => "installation_authorization".toList
  | activation_contract => "activation_contract".toList
  | service_acknowledgment => "service_acknowledgment".toList
  | equipment_comodato => "equipment_comodato".toList
  | custom => "custom".toList

inductive Environment where
  | sandbox | production
  deriving DecidableEq, Repr

def Environment.text : Environment → Text
  | sandbox => "sandbox".toList
  | production => "production".toList

inductive DocumentStatus where
  | pending | signed | declined | cancelled
  deriving DecidableEq, Repr

/-- `YYYY-MM-DD`, as a `DATE` column is read. -/
structure DateText where
  text : Text
  length : text.length = 10
  deriving DecidableEq

/-- `communication_choices`, decoded. -/
structure CommunicationChoices where
  email : Bool
  sms : Bool
  whatsapp : Bool
  confirmed : Bool
  privacy_notice_version : Option Text
  privacy_notice_hash : Option Text
  privacy_notice_version_id : Option ℕ
  deriving DecidableEq

/-- A row of `signed_documents`. -/
structure SignedDocument where
  id : ℕ
  organization_id : Option ℕ
  client_id : ℕ
  contract_id : Option ℕ
  service_order_id : Option ℕ
  work_order_id : Option ℕ
  template_id : Option ℕ
  template_type : TemplateType
  title : Text
  rendered_body : Text
  content_sha256 : Text
  status : DocumentStatus
  signer_name : Option Text
  signature_image : Option Text
  signed_at : Option JsDate
  signed_ip : Option Text
  captured_by : Option ℕ
  communication_choices : Option CommunicationChoices
  evidence_sha256 : Option Text
  evidence_format_version : ℕ
  contract_template_mx_id : Option ℕ
  mx_contract_environment : Option Environment
  mx_registration_number : Option Text
  mx_registered_at : Option DateText
  mx_template_version : Option Text
  mx_source_sha256 : Option Text

/-- The second argument of `evidenceDigest`. -/
structure Signature where
  signerName : Option Text
  signatureImage : Option Text
  signedAt : Option JsDate
  signedIp : Option Text
  capturedBy : Option ℕ
  communicationChoices : Option CommunicationChoices

/-- Its defaults: what the row has. -/
def SignedDocument.signature (d : SignedDocument) : Signature :=
  ⟨d.signer_name, d.signature_image, d.signed_at, d.signed_ip, d.captured_by,
    d.communication_choices⟩

/-! ### The canonical object -/

/-- `value || null`. -/
def orNull (value : Option Text) : Json :=
  if value.getD [] = [] then .null else .text (value.getD [])

/-- `String(id)`, or `null`. -/
def idText : Option ℕ → Json
  | none => .null
  | some id => .text (Nat.toDigits 10 id)

def canonicalDateTime : Option JsDate → Json
  | none => .null
  | some date => .text date.toISOString

def dateOnly : Option DateText → Json
  | none => .null
  | some date => .text (date.text.take 10)

/-- `normalizedCommunicationEvidence`; the text that `sign` passes is the one of these choices. -/
def normalizedCommunicationEvidence : Option CommunicationChoices → Json
  | none => .null
  | some c => .object [
      ("email".toList, .bool c.email), ("sms".toList, .bool c.sms),
      ("whatsapp".toList, .bool c.whatsapp), ("confirmed".toList, .bool c.confirmed),
      ("privacy_notice_version".toList, orNull c.privacy_notice_version),
      ("privacy_notice_hash".toList, orNull c.privacy_notice_hash)]

def SignedDocument.formatVersion (d : SignedDocument) : ℕ :=
  if 3 ≤ d.evidence_format_version then 3 else 2

section Digest

variable (sha256 : Text → Text)

/-- The members that both versions have. -/
def commonMembers (d : SignedDocument) (s : Signature) : List (Text × Json) :=
  [("version".toList, .number d.formatVersion),
    ("signing_method".toList, .text "assisted_canvas".toList),
    ("document_id".toList, idText (some d.id)),
    ("organization_id".toList, idText d.organization_id),
    ("client_id".toList, idText (some d.client_id)),
    ("contract_id".toList, idText d.contract_id),
    ("service_order_id".toList, idText d.service_order_id),
    ("work_order_id".toList, idText d.work_order_id),
    ("template_type".toList, orNull (some d.template_type.text)),
    ("title".toList, orNull (some d.title)),
    ("document_content_sha256".toList, .text d.content_sha256),
    ("rendered_body_sha256".toList, .text (sha256 d.rendered_body)),
    ("contract_template_mx_id".toList, idText d.contract_template_mx_id),
    ("mx_registration_number".toList, orNull d.mx_registration_number),
    ("mx_registered_at".toList, dateOnly d.mx_registered_at),
    ("mx_template_version".toList, orNull d.mx_template_version),
    ("mx_source_sha256".toList, orNull d.mx_source_sha256),
    ("signer_name".toList, .text (JsText.trim (s.signerName.getD []))),
    ("signature_image_sha256".toList, .text (sha256 (s.signatureImage.getD []))),
    ("signed_at".toList, canonicalDateTime s.signedAt),
    ("signed_ip".toList, orNull s.signedIp),
    ("captured_by".toList, idText s.capturedBy),
    ("communication_choices".toList, normalizedCommunicationEvidence s.communicationChoices)]

/-- The member that version 3 adds. -/
def environmentMember (d : SignedDocument) : List (Text × Json) :=
  [("mx_contract_environment".toList, orNull (d.mx_contract_environment.map Environment.text))]

def canonical (d : SignedDocument) (s : Signature) : Json :=
  .object (commonMembers sha256 d s ++
    if 3 ≤ d.formatVersion then environmentMember d else [])

def evidenceDigest (d : SignedDocument) (s : Signature) : Text :=
  sha256 (canonical sha256 d s).stringify

/-- `!value`. -/
def absent (value : Option Text) : Bool := value.getD [] = []

def verifyEvidence (d : SignedDocument) : Option Bool :=
  if absent d.evidence_sha256 ∨ absent d.signature_image then none
  else if sha256 d.rendered_body ≠ d.content_sha256 then some false
  else some (evidenceDigest sha256 d d.signature = d.evidence_sha256.getD [])

end Digest

/-! ### Dates -/

theorem digitsValue_pad (length n : ℕ) : JsText.digitsValue 10 (pad length n) = n := by
  rw [pad, JsText.padStart, IpText.digitsValue_replicate,
    IpText.digitsValue_toDigits (by omega) (by omega)]

theorem pad_injective (length : ℕ) : Function.Injective (pad length) := by
  intro m n h
  rw [← digitsValue_pad length m, h, digitsValue_pad]

theorem notMem_pad {c : Char} (hc : JsText.isDigit 10 c = false) (length n : ℕ) :
    c ∉ pad length n := by
  intro hmem
  have hall := List.all_eq_true.1 (Utils.Csv.all_isDigit_pad length n) c hmem
  rw [hc] at hall
  exact Bool.false_ne_true hall

theorem pad_cons_inj {c : Char} (hc : JsText.isDigit 10 c = false) {length m n : ℕ} {x y : Text}
    (h : pad length m ++ c :: x = pad length n ++ c :: y) : m = n ∧ x = y := by
  obtain ⟨hpad, hrest⟩ := append_cons_inj (notMem_pad hc length m) (notMem_pad hc length n) h
  exact ⟨pad_injective length hpad, hrest⟩

/-- A year ends where its text says. -/
theorem isoYear_ends {y z : ℤ} {x w : Text} (h : isoYear y ++ '-' :: x = isoYear z ++ '-' :: w) :
    y = z ∧ x = w := by
  have hplain : ∀ (m n : ℕ) (sign : Char) (x w : Text), sign = '-' ∨ sign = '+' →
      pad 4 m ++ x ≠ sign :: w := by
    intro m n sign x w hsign heq
    obtain ⟨c, digits, hpad⟩ := List.exists_cons_of_ne_nil (Utils.Csv.pad_ne_nil 4 m)
    rw [hpad, List.cons_append] at heq
    have hmem : sign ∈ pad 4 m := by
      rw [hpad, ← (List.cons.inj heq).1]
      exact List.mem_cons_self
    rcases hsign with rfl | rfl
    · exact notMem_pad (by decide) 4 m hmem
    · exact notMem_pad (by decide) 4 m hmem
  have hsign : ∀ y : ℤ, (if y < 0 then '-' else '+') = '-' ∨
      (if y < 0 then '-' else '+') = '+' := by
    intro y
    split_ifs
    · exact .inl rfl
    · exact .inr rfl
  unfold isoYear at h
  by_cases hy : 0 ≤ y ∧ y ≤ 9999 <;> by_cases hz : 0 ≤ z ∧ z ≤ 9999
  · rw [if_pos hy, if_pos hz] at h
    obtain ⟨hnat, hrest⟩ := pad_cons_inj (by decide) h
    exact ⟨by omega, hrest⟩
  · rw [if_pos hy, if_neg hz] at h
    exact absurd h (hplain _ 0 _ _ _ (hsign z))
  · rw [if_neg hy, if_pos hz] at h
    exact absurd h.symm (hplain _ 0 _ _ _ (hsign y))
  · rw [if_neg hy, if_neg hz] at h
    obtain ⟨hsame, hpad⟩ := List.cons.inj h
    obtain ⟨hnat, hrest⟩ := pad_cons_inj (by decide) hpad
    refine ⟨?_, hrest⟩
    split_ifs at hsame with hneg hneg' hneg'
    · omega
    · exact absurd hsame (by decide)
    · exact absurd hsame (by decide)
    · omega

theorem civil_pos (n : ℤ) : 0 < (civil n).month ∧ 0 < (civil n).day := by
  obtain ⟨h0, h1, h2, h3⟩ := yearOfEra_bounds (Int.emod_nonneg (n + 719468) (by decide))
    (Int.emod_lt_of_pos (n + 719468) (by decide : (0 : ℤ) < 146097))
  simp only [civil]
  split_ifs <;> omega

/-- **No two dates have one text.** -/
theorem toISOString_injective {d e : JsDate} (h : d.toISOString = e.toISOString) : d = e := by
  simp only [JsDate.toISOString, List.append_assoc, List.cons_append] at h
  obtain ⟨hyear, h⟩ := isoYear_ends h
  obtain ⟨hmonth, h⟩ := pad_cons_inj (by decide) h
  obtain ⟨hday, h⟩ := pad_cons_inj (by decide) h
  obtain ⟨hhour, h⟩ := pad_cons_inj (by decide) h
  obtain ⟨hminute, h⟩ := pad_cons_inj (by decide) h
  obtain ⟨hsecond, h⟩ := pad_cons_inj (by decide) h
  obtain ⟨hms, -⟩ := pad_cons_inj (by decide) h
  have hposd := civil_pos (utcDay d.ms)
  have hpose := civil_pos (utcDay e.ms)
  have hcivil : civil (utcDay d.ms) = civil (utcDay e.ms) := by
    generalize civil (utcDay d.ms) = a at hyear hmonth hday hposd
    generalize civil (utcDay e.ms) = b at hyear hmonth hday hpose
    obtain ⟨year, month, day⟩ := a
    obtain ⟨year', month', day'⟩ := b
    dsimp only at hyear hmonth hday hposd hpose
    rw [Civil.mk.injEq]
    exact ⟨hyear, by omega, by omega⟩
  have hdays := civil_injective hcivil
  obtain ⟨ms, hlow, hhigh⟩ := d
  obtain ⟨ms', hlow', hhigh'⟩ := e
  simp only [utcDay, msPerDay] at hdays hhour hminute hsecond hms
  have hsame : ms = ms' := by omega
  subst hsame
  rfl

/-! ### What the object keeps of a row -/

theorem orNull_inj {a b : Option Text} : orNull a = orNull b ↔ a.getD [] = b.getD [] := by
  unfold orNull
  split_ifs with ha hb hb
  · exact iff_of_true rfl (ha.trans hb.symm)
  · exact iff_of_false (fun h => by cases h) fun h => hb (h ▸ ha)
  · exact iff_of_false (fun h => by cases h) fun h => ha (h.trans hb)
  · rw [Json.text.injEq]

theorem idText_inj {a b : Option ℕ} : idText a = idText b ↔ a = b := by
  have hdigits : ∀ m n : ℕ, Nat.toDigits 10 m = Nat.toDigits 10 n → m = n := by
    intro m n h
    have hvalue := congrArg (JsText.digitsValue 10) h
    rwa [IpText.digitsValue_toDigits (by omega) (by omega),
      IpText.digitsValue_toDigits (by omega) (by omega)] at hvalue
  cases a with
  | none =>
    cases b with
    | none => exact iff_of_true rfl rfl
    | some n => exact iff_of_false (fun h => by cases h) fun h => by cases h
  | some m =>
    cases b with
    | none => exact iff_of_false (fun h => by cases h) fun h => by cases h
    | some n =>
      rw [idText, idText, Json.text.injEq, Option.some.injEq]
      exact ⟨hdigits m n, fun h => by rw [h]⟩

theorem canonicalDateTime_inj {a b : Option JsDate} :
    canonicalDateTime a = canonicalDateTime b ↔ a = b := by
  cases a with
  | none =>
    cases b with
    | none => exact iff_of_true rfl rfl
    | some e => exact iff_of_false (fun h => by cases h) fun h => by cases h
  | some d =>
    cases b with
    | none => exact iff_of_false (fun h => by cases h) fun h => by cases h
    | some e =>
      rw [canonicalDateTime, canonicalDateTime, Json.text.injEq, Option.some.injEq]
      exact ⟨toISOString_injective, fun h => by rw [h]⟩

theorem dateOnly_inj {a b : Option DateText} : dateOnly a = dateOnly b ↔ a = b := by
  have htake : ∀ d : DateText, d.text.take 10 = d.text := fun d => by
    rw [← d.length, List.take_length]
  cases a with
  | none =>
    cases b with
    | none => exact iff_of_true rfl rfl
    | some e => exact iff_of_false (fun h => by cases h) fun h => by cases h
  | some d =>
    cases b with
    | none => exact iff_of_false (fun h => by cases h) fun h => by cases h
    | some e =>
      rw [dateOnly, dateOnly, Json.text.injEq, htake, htake, Option.some.injEq, DateText.mk.injEq]

/-- The choices that are evidence: the channels, the confirmation, and the notice. -/
def CommunicationChoices.evidence (c : CommunicationChoices) :
    (Bool × Bool × Bool × Bool) × Text × Text :=
  ((c.email, c.sms, c.whatsapp, c.confirmed), c.privacy_notice_version.getD [],
    c.privacy_notice_hash.getD [])

theorem normalizedCommunicationEvidence_inj {a b : Option CommunicationChoices} :
    normalizedCommunicationEvidence a = normalizedCommunicationEvidence b ↔
      a.map CommunicationChoices.evidence = b.map CommunicationChoices.evidence := by
  cases a with
  | none =>
    cases b with
    | none => exact iff_of_true rfl rfl
    | some c => exact iff_of_false (fun h => by cases h) fun h => by cases h
  | some c =>
    cases b with
    | none => exact iff_of_false (fun h => by cases h) fun h => by cases h
    | some c' =>
      simp [normalizedCommunicationEvidence, CommunicationChoices.evidence, orNull_inj, and_assoc]

theorem text_inj {a b : TemplateType} : a.text = b.text ↔ a = b := by
  cases a <;> cases b <;> decide

theorem environment_inj {a b : Option Environment} :
    orNull (a.map Environment.text) = orNull (b.map Environment.text) ↔ a = b := by
  rw [orNull_inj]
  rcases a with _ | a <;> rcases b with _ | b
  · decide
  · cases b <;> decide
  · cases a <;> decide
  · cases a <;> cases b <;> decide

/-- What two signed documents share when they have one canonical object. -/
structure SameEvidence (d : SignedDocument) (s : Signature) (d' : SignedDocument)
    (s' : Signature) : Prop where
  version : d.formatVersion = d'.formatVersion
  id : d.id = d'.id
  organization_id : d.organization_id = d'.organization_id
  client_id : d.client_id = d'.client_id
  contract_id : d.contract_id = d'.contract_id
  service_order_id : d.service_order_id = d'.service_order_id
  work_order_id : d.work_order_id = d'.work_order_id
  template_type : d.template_type = d'.template_type
  title : d.title = d'.title
  content_sha256 : d.content_sha256 = d'.content_sha256
  rendered_body : d.rendered_body = d'.rendered_body
  contract_template_mx_id : d.contract_template_mx_id = d'.contract_template_mx_id
  mx_registration_number : d.mx_registration_number.getD [] = d'.mx_registration_number.getD []
  mx_registered_at : d.mx_registered_at = d'.mx_registered_at
  mx_template_version : d.mx_template_version.getD [] = d'.mx_template_version.getD []
  mx_source_sha256 : d.mx_source_sha256.getD [] = d'.mx_source_sha256.getD []
  signerName : JsText.trim (s.signerName.getD []) = JsText.trim (s'.signerName.getD [])
  signatureImage : s.signatureImage.getD [] = s'.signatureImage.getD []
  signedAt : s.signedAt = s'.signedAt
  signedIp : s.signedIp.getD [] = s'.signedIp.getD []
  capturedBy : s.capturedBy = s'.capturedBy
  communicationChoices : s.communicationChoices.map CommunicationChoices.evidence =
    s'.communicationChoices.map CommunicationChoices.evidence
  environment : d.formatVersion = 3 → d.mx_contract_environment = d'.mx_contract_environment

section Digest

variable {sha256 : Text → Text} {d d' : SignedDocument} {s s' : Signature}

theorem formatVersion_cases (d : SignedDocument) : d.formatVersion = 3 ∨ d.formatVersion = 2 := by
  unfold SignedDocument.formatVersion
  split_ifs
  · exact .inl rfl
  · exact .inr rfl

/-- **The canonical object** determines what it is made of, where texts do not collide. -/
theorem canonical_inj (hsha : Function.Injective sha256) :
    canonical sha256 d s = canonical sha256 d' s' ↔ SameEvidence d s d' s' := by
  have hcommon : commonMembers sha256 d s = commonMembers sha256 d' s' ↔
      d.formatVersion = d'.formatVersion ∧ d.id = d'.id ∧
      d.organization_id = d'.organization_id ∧ d.client_id = d'.client_id ∧
      d.contract_id = d'.contract_id ∧ d.service_order_id = d'.service_order_id ∧
      d.work_order_id = d'.work_order_id ∧ d.template_type = d'.template_type ∧
      d.title = d'.title ∧ d.content_sha256 = d'.content_sha256 ∧
      d.rendered_body = d'.rendered_body ∧
      d.contract_template_mx_id = d'.contract_template_mx_id ∧
      d.mx_registration_number.getD [] = d'.mx_registration_number.getD [] ∧
      d.mx_registered_at = d'.mx_registered_at ∧
      d.mx_template_version.getD [] = d'.mx_template_version.getD [] ∧
      d.mx_source_sha256.getD [] = d'.mx_source_sha256.getD [] ∧
      JsText.trim (s.signerName.getD []) = JsText.trim (s'.signerName.getD []) ∧
      s.signatureImage.getD [] = s'.signatureImage.getD [] ∧ s.signedAt = s'.signedAt ∧
      s.signedIp.getD [] = s'.signedIp.getD [] ∧ s.capturedBy = s'.capturedBy ∧
      s.communicationChoices.map CommunicationChoices.evidence =
        s'.communicationChoices.map CommunicationChoices.evidence := by
    simp only [commonMembers, List.cons.injEq, Prod.mk.injEq, true_and, and_true,
      Json.text.injEq, Json.number.injEq, orNull_inj, idText_inj, canonicalDateTime_inj,
      dateOnly_inj, normalizedCommunicationEvidence_inj, Option.getD_some, Option.some.injEq,
      text_inj, hsha.eq_iff]
  rw [canonical, canonical, Json.object.injEq]
  constructor
  · intro h
    obtain ⟨hmembers, henvironment⟩ := List.append_inj h rfl
    obtain ⟨h1, h2, h3, h4, h5, h6, h7, h8, h9, h10, h11, h12, h13, h14, h15, h16, h17, h18, h19,
      h20, h21, h22⟩ := hcommon.1 hmembers
    refine ⟨h1, h2, h3, h4, h5, h6, h7, h8, h9, h10, h11, h12, h13, h14, h15, h16, h17, h18, h19,
      h20, h21, h22, fun hthree => ?_⟩
    rw [← h1, hthree] at henvironment
    have hmember := (List.cons.inj henvironment).1
    exact environment_inj.1 (Prod.mk.inj hmember).2
  · intro h
    have hmembers := hcommon.2 ⟨h.version, h.id, h.organization_id, h.client_id, h.contract_id,
      h.service_order_id, h.work_order_id, h.template_type, h.title, h.content_sha256,
      h.rendered_body, h.contract_template_mx_id, h.mx_registration_number, h.mx_registered_at,
      h.mx_template_version, h.mx_source_sha256, h.signerName, h.signatureImage, h.signedAt,
      h.signedIp, h.capturedBy, h.communicationChoices⟩
    rw [hmembers, ← h.version]
    rcases formatVersion_cases d with hthree | htwo
    · rw [environmentMember, environmentMember, h.environment hthree]
    · rw [htwo]
      rfl

theorem evidenceDigest_inj (hsha : Function.Injective sha256) :
    evidenceDigest sha256 d s = evidenceDigest sha256 d' s' ↔ SameEvidence d s d' s' := by
  rw [evidenceDigest, evidenceDigest, hsha.eq_iff, Json.stringify_injective.eq_iff,
    canonical_inj hsha]

/-- **A changed row** that keeps the digest and has an image verifies just when it has the same
evidence. -/
theorem verifyEvidence_changed (hsha : Function.Injective sha256)
    (hsigned : verifyEvidence sha256 d = some true)
    (hdigest : d'.evidence_sha256 = d.evidence_sha256)
    (himage : absent d'.signature_image = false) :
    verifyEvidence sha256 d' = some false ↔ ¬ SameEvidence d d.signature d' d'.signature := by
  unfold verifyEvidence at hsigned ⊢
  split_ifs at hsigned with habsent hbody
  · simp at hsigned
  have hpresent : ¬ (absent d'.evidence_sha256 = true ∨ absent d'.signature_image = true) := by
    rw [hdigest, himage]
    exact fun h => habsent (.inl (h.resolve_right Bool.false_ne_true))
  have hown : evidenceDigest sha256 d d.signature = d.evidence_sha256.getD [] := by
    simpa using hsigned
  rw [if_neg hpresent, hdigest, ← hown]
  split_ifs with hbody'
  · refine iff_of_true rfl fun h => hbody' ?_
    rw [← h.rendered_body, ← h.content_sha256]
    exact not_not.1 hbody
  · rw [Option.some.injEq, decide_eq_false_iff_not, eq_comm, evidenceDigest_inj hsha]

theorem verifyEvidence_same (hsha : Function.Injective sha256)
    (hsigned : verifyEvidence sha256 d = some true)
    (hdigest : d'.evidence_sha256 = d.evidence_sha256)
    (himage : absent d'.signature_image = false)
    (hsame : SameEvidence d d.signature d' d'.signature) :
    verifyEvidence sha256 d' = some true := by
  have hnot : verifyEvidence sha256 d' ≠ some false := fun h =>
    (verifyEvidence_changed hsha hsigned hdigest himage).1 h hsame
  have hsome : verifyEvidence sha256 d' ≠ none := by
    unfold verifyEvidence at hsigned ⊢
    have hpresent : ¬ (absent d'.evidence_sha256 = true ∨ absent d'.signature_image = true) := by
      rw [hdigest, himage]
      rintro (habsent | habsent)
      · rw [if_pos (Or.inl habsent)] at hsigned
        cases hsigned
      · exact Bool.false_ne_true habsent
    rw [if_neg hpresent]
    split_ifs
    · exact Option.some_ne_none _
    · exact Option.some_ne_none _
  generalize verifyEvidence sha256 d' = result at hnot hsome
  match result with
  | some true => rfl
  | some false => exact absurd rfl hnot
  | none => exact absurd rfl hsome

end Digest

end Vigabss.Legal
