import Vigabss.Legal.Evidence
import Vigabss.Legal.Placeholders

/-!
# Vigabss.Legal.Signing — the signature of a pending document

`sign` of `legalDocumentService`.  What it stores verifies when it is read back, and a stored row
that is changed afterwards does not (`signature_evidence`), as far as the canonical object goes.
-/

namespace Vigabss.Legal

open Vigabss.Lib
open Vigabss.Utils.Csv (JsDate)

/-! ### What a signature comes with -/

/-- The second argument of `sign`; the three choices are given once `validateChoices` took them. -/
structure SignInput where
  signerName : Option Text
  signatureImage : Option Text
  signedIp : Option Text
  performedBy : Option ℕ
  communicationChoicesConfirmed : Bool
  privacyNoticeVersion : Option Text
  privacyNoticeHash : Option Text

/-- The locked service order with its contract. -/
structure LockedOrder where
  order_type : Text
  status : Text
  client_id : ℕ
  contract_id : Option ℕ
  contract_status : Option Text
  contract_template_mx_id : Option ℕ
  mx_contract_environment : Option Environment

/-- `registrationSnapshot` of a ready source. -/
structure RegistrationSnapshot where
  contractTemplateMxId : ℕ
  contractEnvironment : Environment
  registrationNumber : Option Text
  registeredAt : Option DateText
  version : Text
  sourceSha256 : Text

structure PrivacyNotice where
  version : Text
  hash : Text
  versionId : Option ℕ

/-- What the transaction of `sign` finds: the locked visit and order, the template, the linked
source with the outcome of `assertReadyRecord`, the notice, the recorded choices, and the clock. -/
structure Scene where
  workOrderStatus : Option Text
  order : Option LockedOrder
  template : Option (TemplateType × Text)
  sourceBody : Option Text
  snapshot : Except String RegistrationSnapshot
  priorChoices : Bool
  notice : PrivacyNotice
  recordedChoices : Except String (Bool × Bool × Bool)
  now : JsDate

/-! ### The image -/

/-- The value of a character of base64. -/
def base64Value (c : Char) : Option ℕ :=
  if 'A' ≤ c ∧ c ≤ 'Z' then some (c.toNat - 'A'.toNat)
  else if 'a' ≤ c ∧ c ≤ 'z' then some (c.toNat - 'a'.toNat + 26)
  else if '0' ≤ c ∧ c ≤ '9' then some (c.toNat - '0'.toNat + 52)
  else if c = '+' then some 62
  else if c = '/' then some 63
  else none

/-- The bytes of base64 digits; what is left of a byte is dropped. -/
def base64Bytes : List ℕ → List ℕ
  | a :: b :: c :: d :: rest =>
    (a * 4 + b / 16) :: (b % 16 * 16 + c / 4) :: (c % 4 * 64 + d) :: base64Bytes rest
  | [a, b, c] => [a * 4 + b / 16, b % 16 * 16 + c / 4]
  | [a, b] => [a * 4 + b / 16]
  | _ => []

/-- The payload of a data URL of an image, behind `data:image/png;base64,`. -/
def imagePayload (kind dataUrl : Text) : Option Text :=
  let mark := "data:image/".toList ++ kind ++ ";base64,".toList
  if mark.isPrefixOf dataUrl then
    let payload := dataUrl.drop mark.length
    let digits := payload.takeWhile fun c => (base64Value c).isSome
    let padding := payload.dropWhile fun c => (base64Value c).isSome
    if digits ≠ [] ∧ padding.length ≤ 2 ∧ padding.all (· = '=') = true then some digits else none
  else none

/-- `signatureImageBytes`. -/
def signatureImageBytes (dataUrl : Text) : Option (List ℕ) :=
  let bytesOf := fun payload : Text => base64Bytes (payload.filterMap base64Value)
  match imagePayload "png".toList dataUrl, imagePayload "jpeg".toList dataUrl with
  | some payload, _ =>
    if 8 ≤ (bytesOf payload).length ∧
        (bytesOf payload).take 8 = [0x89, 0x50, 0x4e, 0x47, 0x0d, 0x0a, 0x1a, 0x0a] then
      some (bytesOf payload)
    else none
  | none, some payload =>
    if 8 ≤ (bytesOf payload).length ∧ (bytesOf payload).take 3 = [0xff, 0xd8, 0xff] then
      some (bytesOf payload)
    else none
  | none, none => none

/-! ### Checks -/

def checkInput (input : SignInput) : Except String Unit := do
  if JsText.trim (input.signerName.getD []) = [] then
    throw "signer_name is required"
  if 500000 < (input.signatureImage.getD []).length then
    throw "signature_image is too large (max ~500 KB)"
  if signatureImageBytes (input.signatureImage.getD []) = none then
    throw "signature_image must contain valid PNG/JPEG bytes"

/-- The locks on the visit and on the order. -/
def checkScope (doc : SignedDocument) (scene : Scene) : Except String Unit := do
  if doc.work_order_id.isSome ∧ scene.workOrderStatus.isNone then
    throw "The document installation work order no longer matches this customer and contract"
  if doc.service_order_id.isSome ∧ scene.order.isNone then
    throw "The document service order no longer matches this customer and contract"

/-- The locked order, where the document has one. -/
def lockedOrder (doc : SignedDocument) (scene : Scene) : Option LockedOrder :=
  if doc.service_order_id.isSome then scene.order else none

def lockedWorkOrder (doc : SignedDocument) (scene : Scene) : Option Text :=
  if doc.work_order_id.isSome then scene.workOrderStatus else none

/-- The original template. -/
def checkTemplate (doc : SignedDocument) (scene : Scene) : Except String Unit := do
  if doc.template_type ≠ .service_acknowledgment then
    if doc.template_id.getD 0 = 0 then
      throw "The original legal document template is missing from this pending document"
    match scene.template with
    | none => throw "The original legal document template no longer matches this pending document"
    | some (type, body) =>
      if type ≠ doc.template_type then
        throw "The original legal document template no longer matches this pending document"
      assertSupportedPlaceholders body

/-- `contractEnvironment` of a pending document. -/
def contractEnvironment (doc : SignedDocument) : Option Environment :=
  match doc.mx_contract_environment with
  | some environment => some environment
  | none =>
    if absent doc.mx_registration_number = false ∨ doc.mx_registered_at.isSome then
      some .production
    else none

/-- `snapshotMatchesRegisteredSource`. -/
def snapshotMatchesRegisteredSource (doc : SignedDocument) (snapshot : RegistrationSnapshot) :
    Bool :=
  doc.contract_template_mx_id.getD 0 = snapshot.contractTemplateMxId ∧
    contractEnvironment doc = some snapshot.contractEnvironment ∧
    doc.mx_registration_number.getD [] = snapshot.registrationNumber.getD [] ∧
    doc.mx_registered_at = snapshot.registeredAt ∧
    doc.mx_template_version.getD [] = snapshot.version ∧
    doc.mx_source_sha256 = some snapshot.sourceSha256

/-- The frozen chain of an MX contract source. -/
def checkSource (doc : SignedDocument) (scene : Scene) : Except String Unit := do
  match contractEnvironment doc with
  | none => pure ()
  | some environment =>
    if (lockedOrder doc scene).bind LockedOrder.mx_contract_environment ≠ some environment then
      throw "The document contract environment does not match its frozen installation contract"
    if doc.template_type = .activation_contract then
      if ((lockedOrder doc scene).bind LockedOrder.contract_template_mx_id).getD 0 ≠
          doc.contract_template_mx_id.getD 0 then
        throw "The document contract source does not match its frozen installation contract"
      assertSupportedPlaceholders (scene.sourceBody.getD [])
      let snapshot ← scene.snapshot
      if snapshotMatchesRegisteredSource doc snapshot = false then
        throw "The document no longer matches its frozen MX contract-source evidence"

def checkDocument (sha256 : Text → Text) (doc : SignedDocument) (scene : Scene) :
    Except String Unit := do
  if doc.status ≠ .pending then
    throw "Document is not pending"
  if (lockedOrder doc scene).any fun order =>
      order.order_type ≠ "new_install".toList ∨ order.status ≠ "in_process".toList then
    throw "Signing documents can only be signed while their linked new installation is active"
  if sha256 doc.rendered_body ≠ doc.content_sha256 then
    throw "Document integrity check failed — the stored body does not match its generation hash"
  assertNoUnresolvedPlaceholders doc.rendered_body
  checkTemplate doc scene
  checkSource doc scene

/-- The choices of a handoff, recorded with its signature. -/
def handoffChoices (doc : SignedDocument) (input : SignInput) (scene : Scene) :
    Except String (Option CommunicationChoices) := do
  if doc.template_type ≠ .activation_contract ∧ doc.template_type ≠ .service_acknowledgment then
    return none
  if !(lockedOrder doc scene).any fun order => order.client_id = doc.client_id ∧
      order.contract_id = doc.contract_id ∧ order.contract_status = some "pending".toList then
    throw ("The customer handoff can only be signed while its linked new installation and " ++
      "pending contract are active")
  if !(lockedWorkOrder doc scene).any fun status =>
      status = "in_progress".toList ∨ status = "completed".toList then
    throw ("The installation visit must be in progress before the customer signs the handoff " ++
      "document")
  if scene.priorChoices then
    return none
  if input.communicationChoicesConfirmed = false then
    throw "Confirm that the customer reviewed all optional communication choices"
  if absent input.privacyNoticeVersion ∨ absent input.privacyNoticeHash then
    throw "The reviewed privacy notice version and hash are required"
  if input.privacyNoticeVersion ≠ some scene.notice.version ∨
      input.privacyNoticeHash ≠ some scene.notice.hash then
    throw "The privacy notice changed while signing; reload and review the current notice"
  let (email, sms, whatsapp) ← scene.recordedChoices
  return some ⟨email, sms, whatsapp, true, some scene.notice.version, some scene.notice.hash,
    scene.notice.versionId⟩

/-! ### The signature -/

/-- A `Date` of whole seconds; a `DATETIME` column keeps no more. -/
def atSecond (d : JsDate) : JsDate where
  ms := d.ms / 1000 * 1000
  range := by
    have hlow := d.range.1
    have hhigh := d.range.2
    omega

/-- `value || null`. -/
def presence (value : Option Text) : Option Text := value.filter (· ≠ [])

/-- The signature that `sign` makes of its input. -/
def signatureOf (input : SignInput) (now : JsDate) (choices : Option CommunicationChoices) :
    Signature where
  signerName := some (JsText.trim (input.signerName.getD []))
  signatureImage := input.signatureImage
  signedAt := some (atSecond now)
  signedIp := presence input.signedIp
  capturedBy := input.performedBy.filter (· ≠ 0)
  communicationChoices := choices

/-- The row as the `UPDATE` leaves it, read back. -/
def signedRow (sha256 : Text → Text) (doc : SignedDocument) (s : Signature) : SignedDocument :=
  { doc with
    status := .signed
    signer_name := s.signerName
    signature_image := s.signatureImage
    signed_at := s.signedAt.map atSecond
    signed_ip := s.signedIp
    captured_by := s.capturedBy
    communication_choices := s.communicationChoices
    evidence_sha256 := some (evidenceDigest sha256 { doc with evidence_format_version := 3 } s)
    evidence_format_version := 3 }

def sign (sha256 : Text → Text) (doc : SignedDocument) (input : SignInput) (scene : Scene) :
    Except String SignedDocument := do
  checkInput input
  checkScope doc scene
  checkDocument sha256 doc scene
  let choices ← handoffChoices doc input scene
  return signedRow sha256 doc (signatureOf input scene.now choices)

/-! ### What is stored verifies -/

theorem atSecond_atSecond (d : JsDate) : atSecond (atSecond d) = atSecond d := by
  unfold atSecond
  rw [JsDate.mk.injEq, Int.mul_ediv_cancel _ (by decide)]

theorem checkInput_image {input : SignInput} (h : checkInput input = .ok ()) :
    absent input.signatureImage = false := by
  unfold checkInput at h
  obtain ⟨-, h⟩ := check_ok h
  obtain ⟨-, h⟩ := check_ok h
  obtain ⟨hbytes, -⟩ := check_ok h
  rw [absent, decide_eq_false_iff_not]
  intro hempty
  rw [hempty] at hbytes
  exact hbytes (by decide)

theorem checkDocument_body {sha256 : Text → Text} {doc : SignedDocument} {scene : Scene}
    (h : checkDocument sha256 doc scene = .ok ()) :
    sha256 doc.rendered_body = doc.content_sha256 := by
  unfold checkDocument at h
  obtain ⟨-, h⟩ := check_ok h
  obtain ⟨-, h⟩ := check_ok h
  exact not_not.1 (check_ok h).1

theorem sign_ok {sha256 : Text → Text} {doc row : SignedDocument} {input : SignInput}
    {scene : Scene} (h : sign sha256 doc input scene = .ok row) :
    absent input.signatureImage = false ∧ sha256 doc.rendered_body = doc.content_sha256 ∧
      ∃ choices, row = signedRow sha256 doc (signatureOf input scene.now choices) := by
  obtain ⟨_, hinput, h⟩ := except_bind_ok.1 h
  obtain ⟨_, _, h⟩ := except_bind_ok.1 h
  obtain ⟨_, hdoc, h⟩ := except_bind_ok.1 h
  obtain ⟨choices, _, h⟩ := except_bind_ok.1 h
  exact ⟨checkInput_image hinput, checkDocument_body hdoc, choices, (Except.ok.inj h).symm⟩

/-- **What `sign` stores verifies.** -/
theorem sign_verifies {sha256 : Text → Text} (hdigest : ∀ text, sha256 text ≠ [])
    {doc row : SignedDocument} {input : SignInput} {scene : Scene}
    (h : sign sha256 doc input scene = .ok row) : verifyEvidence sha256 row = some true := by
  obtain ⟨himage, hbody, choices, rfl⟩ := sign_ok h
  set s := signatureOf input scene.now choices with hs
  have hread : (signedRow sha256 doc s).signature = s := by
    show (⟨s.signerName, s.signatureImage, s.signedAt.map atSecond, s.signedIp, s.capturedBy,
      s.communicationChoices⟩ : Signature) = s
    rw [hs, signatureOf, Option.map_some, atSecond_atSecond]
  have hpresent : ¬ (absent (signedRow sha256 doc s).evidence_sha256 = true ∨
      absent (signedRow sha256 doc s).signature_image = true) := by
    rintro (habsent | habsent)
    · exact hdigest _ (of_decide_eq_true habsent)
    · rw [show (signedRow sha256 doc s).signature_image = input.signatureImage from rfl,
        himage] at habsent
      exact Bool.false_ne_true habsent
  have hkept : ¬ sha256 (signedRow sha256 doc s).rendered_body ≠
      (signedRow sha256 doc s).content_sha256 := not_not.2 hbody
  rw [verifyEvidence, if_neg hpresent, if_neg hkept, hread]
  exact congrArg some (decide_eq_true rfl)

/-! ### Changed rows -/

/-- A row with the evidence of what it has. -/
def evidenced (sha256 : Text → Text) (d : SignedDocument) : SignedDocument :=
  { d with evidence_sha256 := some (evidenceDigest sha256 d d.signature) }

theorem evidenced_verifies {sha256 : Text → Text} (hdigest : ∀ text, sha256 text ≠ [])
    {d : SignedDocument} (himage : absent d.signature_image = false)
    (hbody : sha256 d.rendered_body = d.content_sha256) :
    verifyEvidence sha256 (evidenced sha256 d) = some true := by
  have hpresent : ¬ (absent (evidenced sha256 d).evidence_sha256 = true ∨
      absent (evidenced sha256 d).signature_image = true) := by
    rintro (habsent | habsent)
    · exact hdigest _ (of_decide_eq_true habsent)
    · rw [show (evidenced sha256 d).signature_image = d.signature_image from rfl, himage] at habsent
      exact Bool.false_ne_true habsent
  have hkept : ¬ sha256 (evidenced sha256 d).rendered_body ≠
      (evidenced sha256 d).content_sha256 := not_not.2 hbody
  rw [verifyEvidence, if_neg hpresent, if_neg hkept]
  exact congrArg some (decide_eq_true rfl)

/-- Digests that keep their text. -/
def plainSha (text : Text) : Text := '#' :: text

theorem plainSha_injective : Function.Injective plainSha := fun _ _ h => (List.cons.inj h).2

/-- An acknowledgment that waits for its signature. -/
def acknowledgment : SignedDocument where
  id := 4
  organization_id := some 1
  client_id := 2
  contract_id := some 3
  service_order_id := some 5
  work_order_id := some 6
  template_id := none
  template_type := .service_acknowledgment
  title := "Acknowledgment".toList
  rendered_body := "Installed.".toList
  content_sha256 := plainSha "Installed.".toList
  status := .pending
  signer_name := none
  signature_image := none
  signed_at := none
  signed_ip := none
  captured_by := none
  communication_choices := none
  evidence_sha256 := none
  evidence_format_version := 2
  contract_template_mx_id := none
  mx_contract_environment := none
  mx_registration_number := none
  mx_registered_at := none
  mx_template_version := none
  mx_source_sha256 := none

/-- The eight bytes that a PNG begins with. -/
def signInput : SignInput where
  signerName := some "Ana".toList
  signatureImage := some "data:image/png;base64,iVBORw0KGgo=".toList
  signedIp := none
  performedBy := some 9
  communicationChoicesConfirmed := true
  privacyNoticeVersion := none
  privacyNoticeHash := none

def visit : Scene where
  workOrderStatus := some "in_progress".toList
  order := some ⟨"new_install".toList, "in_process".toList, 2, some 3, some "pending".toList, none,
    none⟩
  template := none
  sourceBody := none
  snapshot := .error "no source"
  priorChoices := true
  notice := ⟨[], [], none⟩
  recordedChoices := .error "no choices"
  now := ⟨1767225600500, by decide⟩

/-- A row that was signed before contracts had environments. -/
def signedBefore : SignedDocument :=
  evidenced plainSha { acknowledgment with
    status := .signed
    signer_name := signInput.signerName
    signature_image := signInput.signatureImage
    signed_at := some (atSecond visit.now) }

end Vigabss.Legal
