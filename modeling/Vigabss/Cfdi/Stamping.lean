import Mathlib.Data.List.Sort
import Vigabss.Billing.Store
import Vigabss.Lib.Calendar
import Vigabss.Lib.Run

/-!
# Vigabss.Cfdi.Stamping — the draft CFDI of an invoice and its stamp attempts

`stampInvoice`, `generateXml`, `stamp`, `discardDraft` and `rebuildDraft` on one invoice, and the
PACs as the calls meet them: an identical XML is answered with its earlier stamp, and a request
that got no answer may have been registered or not.
-/

namespace Vigabss.Cfdi

open Vigabss.Lib Vigabss.Billing

/-! ### Errors and rows -/

/-- `new AppError(message, status, code)`. -/
structure AppError where
  message : String
  status : ℕ
  code : String
  deriving DecidableEq, Repr

inductive SatStatus where
  | draft | vigente | cancelado | cancel_pending
  deriving DecidableEq, Repr

def SatStatus.name : SatStatus → String
  | draft => "draft"
  | vigente => "vigente"
  | cancelado => "cancelado"
  | cancel_pending => "cancel_pending"

/-- What an attempt submits, and to which PAC. -/
structure Attempt where
  pacId : ℕ
  xml : String
  deriving DecidableEq, Repr

/-- The folio fiscal a PAC gives: the number of its registration. -/
abbrev Uuid := ℕ

/-- The row of `cfdi_documents`. -/
structure CfdiDocument where
  xml_content : Option String
  sat_status : SatStatus
  uuid : Option Uuid
  signed_xml : Option String
  pac_provider : Option String
  stamp_ambiguous : Bool
  deriving DecidableEq

inductive ProviderName where
  | finkok | sw_sapien | simulator | other (name : String)
  deriving DecidableEq

def ProviderName.name : ProviderName → String
  | finkok => "finkok"
  | sw_sapien => "sw_sapien"
  | simulator => "simulator"
  | other name => name

inductive SealMode where
  | csd | pac
  deriving DecidableEq

inductive Environment where
  | sandbox | production
  deriving DecidableEq

def Environment.name : Environment → String
  | sandbox => "sandbox"
  | production => "production"

/-- A row of `pac_providers`; the seal mode `csd` is the source's `local`. -/
structure Pac where
  id : ℕ
  provider_name : ProviderName
  seal_mode : SealMode
  environment : Environment
  active : Bool
  priority : ℤ
  deleted : Bool
  deriving DecidableEq

/-- The active row of `csd_certificates`. -/
structure Csd where
  certificate_number : String
  valid_to : ℤ
  is_test_certificate : Bool

/-! ### The circuit breaker -/

structure Breaker where
  failures : ℕ
  lastFailure : ℕ
  deriving DecidableEq

namespace Breaker

def threshold : ℕ := 5

def resetMs : ℕ := 60000

def isOpen (b : Breaker) (now : ℕ) : Bool :=
  if b.failures < threshold then false
  else if resetMs < now - b.lastFailure then false
  else true

def recordSuccess (b : Breaker) : Breaker := { b with failures := 0 }

def recordFailure (b : Breaker) (now : ℕ) : Breaker := ⟨b.failures + 1, now⟩

end Breaker

/-! ### The PACs -/

/-- What a request meets: the PAC stamps, refuses, cannot be reached, or the answer is lost after
the request left (`took`: the document was registered). -/
inductive Outcome where
  | stamped | refused | unreachable | lost (took : Bool)
  deriving DecidableEq

/-- The error that an attempt ends with. -/
inductive StampError where
  | circuitOpen | unreachable | refused | noAnswer
  deriving DecidableEq

/-- A request that reached a PAC, with the attempts whose outcome was not known then. -/
structure Submission where
  attempt : Attempt
  unsettled : List Attempt

/-- The PACs: what they registered, and what the caller was told of it. -/
structure Pacs where
  registered : List Attempt
  unsettled : List Attempt
  submissions : List Submission

namespace Pacs

/-- A PAC registers an XML once. -/
def register (w : Pacs) (a : Attempt) : Pacs :=
  if a ∈ w.registered then w else { w with registered := w.registered ++ [a] }

def log (w : Pacs) (a : Attempt) : Pacs :=
  { w with submissions := ⟨a, w.unsettled⟩ :: w.submissions }

/-- The attempt has a definite answer. -/
def settle (w : Pacs) (a : Attempt) : Pacs :=
  { w with unsettled := w.unsettled.filter (· ≠ a) }

/-- The attempt's outcome is not known. -/
def await (w : Pacs) (a : Attempt) : Pacs :=
  { w with unsettled := a :: w.unsettled.filter (· ≠ a) }

def uuidOf (w : Pacs) (a : Attempt) : Uuid := w.registered.idxOf a

end Pacs

/-- `callPacStamp(pac, xml)`: the answer of the PAC. -/
def callPacStamp (w : Pacs) (a : Attempt) : Outcome → Pacs × Except StampError Uuid
  | .unreachable => (w, .error .unreachable)
  | .lost took =>
    ((if took then (w.log a).register a else w.log a).await a, .error .noAnswer)
  | .stamped => (((w.log a).register a).settle a, .ok ((w.register a).uuidOf a))
  | .refused =>
    if a ∈ w.registered then ((w.log a).settle a, .ok (w.uuidOf a))
    else ((w.log a).settle a, .error .refused)

def StampError.isUnreachable : StampError → Bool
  | circuitOpen => true
  | unreachable => true
  | refused => false
  | noAnswer => false

def StampError.isDefiniteRefusal (err : StampError) : Bool := err = .refused ∨ err.isUnreachable

def StampError.isPacTransportFailure (err : StampError) : Bool := err ≠ .refused

/-! ### Sealing -/

/-- `toISOString().slice(0, 10)`. -/
def isoDay (t : ℤ) : String :=
  let c := civil (utcDay t)
  let two (n : ℤ) : String := (if n < 10 then "0" else "") ++ toString n
  toString c.year ++ "-" ++ two c.month ++ "-" ++ two c.day

/-- `activeOrgCsdRow(orgId)`. -/
def activeOrgCsdRow (csd : Option Csd) (now : ℕ) : Except AppError Csd :=
  match csd with
  | none => .error ⟨"No active CSD certificate — upload the organization's .cer/.key under " ++
      "Facturación → Certificados CSD and activate it.", 422, "CSD_MISSING"⟩
  | some row =>
    if row.valid_to ≤ now then
      .error ⟨"The active CSD expired on " ++ isoDay row.valid_to ++
        " — upload and activate its replacement (CertiSAT).", 422, "CSD_EXPIRED"⟩
    else .ok row

variable (sealXml : Csd → String → Except AppError String)

/-- `sealXmlForProvider(pac, doc)`. -/
def sealXmlForProvider (csd : Option Csd) (now : ℕ) (pac : Pac) (xml : String) :
    Except AppError String :=
  if pac.seal_mode ≠ .csd ∧ pac.provider_name ≠ .finkok then .ok xml
  else if pac.provider_name ≠ .sw_sapien ∧ pac.provider_name ≠ .finkok then
    .error ⟨"seal_mode='local' is supported for sw_sapien/finkok only (this row is '" ++
      pac.provider_name.name ++ "').", 422, "SEAL_MODE_UNSUPPORTED"⟩
  else
    match activeOrgCsdRow csd now with
    | .error err => .error err
    | .ok row =>
      if pac.environment = .production ∧ row.is_test_certificate = true then
        .error ⟨"The active CSD (" ++ row.certificate_number ++ ") is a SAT TEST certificate — " ++
          "it cannot stamp against a production PAC. Upload the organization's real CSD.", 422,
          "CSD_TEST_IN_PRODUCTION"⟩
      else sealXml row xml

/-! ### The stamp attempt -/

/-- What one call of `stamp` meets: the rows it reads, the clock while each PAC is tried, the
outcome of each of a PAC's attempts, and whether the last `UPDATE` goes through. -/
structure Setting where
  invoiceStatus : InvoiceStatus
  pac_environment : Environment
  pac_providers : List Pac
  csd : Option Csd
  now : ℕ → ℕ
  outcome : ℕ → ℕ → Outcome
  saved : Bool

/-- `ORDER BY priority ASC, id DESC`. -/
def failoverOrder (p q : Pac) : Prop :=
  p.priority < q.priority ∨ p.priority = q.priority ∧ q.id ≤ p.id

instance (p q : Pac) : Decidable (failoverOrder p q) :=
  inferInstanceAs (Decidable (p.priority < q.priority ∨ p.priority = q.priority ∧ q.id ≤ p.id))

/-- The active PACs of a fiscal environment, in failover order. -/
def activePacs (environment : Environment) (rows : List Pac) : List Pac :=
  (rows.filter fun p =>
    p.active = true ∧ p.environment = environment ∧ p.deleted = false).insertionSort failoverOrder

def Setting.pacs (cfg : Setting) : List Pac := activePacs cfg.pac_environment cfg.pac_providers

/-- What the loop over the PACs changes. -/
structure Tried where
  breakers : ℕ → Breaker
  pacs : Pacs

def Tried.setBreaker (t : Tried) (pacId : ℕ) (b : Breaker) : Tried :=
  { t with breakers := Function.update t.breakers pacId b }

/-- How the loop over the PACs ends. -/
inductive Ending where
  | stamped (pac : Pac) (uuid : Uuid) (xml : String)
  | failed (lastErr : Option StampError)
  | thrown (err : AppError)

/-- The attempts against one PAC: only an unreachable one is tried again. -/
def tryProvider (a : Attempt) (outcome : ℕ → Outcome) :
    List ℕ → Pacs → Pacs × Except StampError Uuid
  | [], w => (w, .error .unreachable)
  | n :: ns, w =>
    match callPacStamp w a (outcome n) with
    | (w', .error .unreachable) => tryProvider a outcome ns w'
    | r => r

/-- `MAX_RETRIES` attempts. -/
def attemptNumbers : List ℕ := [1, 2, 3]

/-- The loop over the PACs. -/
def tryPacs (cfg : Setting) (xml : String) : Option StampError → List Pac → Tried → Tried × Ending
  | lastErr, [], t => (t, .failed lastErr)
  | _, pac :: rest, t =>
    if (t.breakers pac.id).isOpen (cfg.now pac.id) then
      tryPacs cfg xml (some .circuitOpen) rest t
    else
      match sealXmlForProvider sealXml cfg.csd (cfg.now pac.id) pac xml with
      | .error err => (t, .thrown err)
      | .ok xmlToStamp =>
        match tryProvider ⟨pac.id, xmlToStamp⟩ (cfg.outcome pac.id) attemptNumbers t.pacs with
        | (w, .ok uuid) =>
          ({ t with pacs := w }.setBreaker pac.id (t.breakers pac.id).recordSuccess,
            .stamped pac uuid xmlToStamp)
        | (w, .error err) =>
          let t' := if err.isPacTransportFailure then
              { t with pacs := w }.setBreaker pac.id
                ((t.breakers pac.id).recordFailure (cfg.now pac.id))
            else { t with pacs := w }
          -- Only an unreachable PAC hands the document to the next one.
          if err.isUnreachable then tryPacs cfg xml (some err) rest t'
          else (t', .failed (some err))

/-- The checks of `stamp` before it marks the draft; the XML and the PACs when they pass. -/
def stampChecks (cfg : Setting) (doc : Option CfdiDocument) :
    Except AppError (String × List Pac) :=
  match doc with
  | none => .error ⟨"CFDI document not found", 404, "CFDI_NOT_FOUND"⟩
  | some doc =>
    match doc.xml_content with
    | none => .error ⟨"XML not generated yet — call generateXml first", 422,
        "CFDI_XML_NOT_GENERATED"⟩
    | some xml =>
      if doc.sat_status ≠ .draft ∨ doc.uuid ≠ none then
        let what := match doc.uuid with
          | some uuid => "already stamped (UUID " ++ toString uuid ++ ")"
          | none => doc.sat_status.name
        .error ⟨"This CFDI is " ++ what ++ " — only an unstamped draft can be stamped.", 409,
          "CFDI_NOT_DRAFT"⟩
      else if cfg.invoiceStatus = .void ∨ cfg.invoiceStatus = .cancelled then
        .error ⟨"The linked invoice is " ++ cfg.invoiceStatus.name ++ " — a terminal invoice " ++
          "must not be stamped. Discard this draft CFDI instead.", 422, "INVOICE_TERMINAL"⟩
      else if cfg.pacs = [] then
        .error ⟨"No active PAC provider configured for this organization in " ++
          cfg.pac_environment.name ++ " mode — add or activate a " ++ cfg.pac_environment.name ++
          " PAC, or change the fiscal environment under Organization → Fiscal (SAT).", 422,
          "CFDI_NO_ACTIVE_PAC"⟩
      else .ok (xml, cfg.pacs)

/-! ### The system -/

/-- One invoice's CFDI, the breakers of the process and the PACs. -/
structure State where
  doc : Option CfdiDocument
  breakers : ℕ → Breaker
  pacs : Pacs

/-- `UPDATE cfdi_documents SET stamp_error …, stamp_ambiguous = ? … AND sat_status = 'draft'`. -/
def recordFailedAttempt (ambiguous : Bool) (doc : CfdiDocument) : CfdiDocument :=
  if doc.sat_status = .draft then { doc with stamp_ambiguous := ambiguous } else doc

/-- The `UPDATE` that saves the stamp, on an unstamped draft only. -/
def saveStamp (pac : Pac) (uuid : Uuid) (xml : String) (doc : CfdiDocument) : CfdiDocument :=
  if doc.sat_status = .draft ∧ doc.uuid = none then
    { doc with
      uuid := some uuid
      sat_status := .vigente
      signed_xml := some xml
      pac_provider := some pac.provider_name.name
      stamp_ambiguous := false }
  else doc

/-- What `stamp` writes after the loop. -/
def finish (cfg : Setting) (doc : CfdiDocument) (t : Tried) : Ending → State
  | .thrown _ => ⟨some doc, t.breakers, t.pacs⟩
  | .failed lastErr =>
    let ambiguous := !(lastErr.any StampError.isDefiniteRefusal)
    ⟨some (if cfg.saved then recordFailedAttempt ambiguous doc else doc), t.breakers, t.pacs⟩
  | .stamped pac uuid xml =>
    if cfg.saved then ⟨some (saveStamp pac uuid xml doc), t.breakers, t.pacs⟩
    -- The folio fiscal is in the log only: to the row the attempt's outcome is not known.
    else ⟨some doc, t.breakers, t.pacs.await ⟨pac.id, xml⟩⟩

/-- `stamp(cfdiDocumentId)`. -/
def stamp (cfg : Setting) (s : State) : State :=
  match s.doc, stampChecks cfg s.doc with
  | some doc, .ok (xml, pacs) =>
    let r := tryPacs sealXml cfg xml none pacs ⟨s.breakers, s.pacs⟩
    finish cfg { doc with stamp_ambiguous := true } r.1 r.2
  | _, _ => s

/-- `generateXml(cfdiDocumentId)`: `built` is what the builder makes of the document's rows. -/
def generateXml (built : Except AppError String) (s : State) : State :=
  match s.doc, built with
  | some doc, .ok xml =>
    if doc.sat_status ≠ .draft then s
    else { s with doc := some { doc with xml_content := some xml, sat_status := .draft } }
  | _, _ => s

/-- The checks of `discardDraft`. -/
def discardRefusal (doc : Option CfdiDocument) : Option AppError :=
  match doc with
  | none => some ⟨"CFDI document not found", 404, "CFDI_NOT_FOUND"⟩
  | some doc =>
    if doc.sat_status ≠ .draft ∨ doc.uuid ≠ none then
      some ⟨"Only an unstamped draft can be discarded — a stamped CFDI must be cancelled at SAT.",
        409, "CFDI_NOT_DRAFT"⟩
    else if doc.stamp_ambiguous = true then
      some ⟨"The last stamp attempt got no definite answer from the PAC, so this CFDI may " ++
        "already be stamped. Retry the stamp first: the PAC returns the existing CFDI if it " ++
        "was stamped, or refuses it again.", 409, "CFDI_STAMP_UNCONFIRMED"⟩
    else none

/-- `discardDraft(cfdiDocumentId)`. -/
def discardDraft (s : State) : Except AppError State :=
  match discardRefusal s.doc with
  | some err => .error err
  | none => .ok { s with doc := none }

/-- The draft that `stampInvoice` inserts. -/
def newDraft : CfdiDocument := ⟨none, .draft, none, none, none, false⟩

/-- `stampInvoice(invoiceId)`: refused while the invoice has a live CFDI. -/
def stampInvoice (built : Except AppError String) (cfg : Setting) (s : State) : State :=
  match s.doc with
  | some _ => s
  | none =>
    let s' := generateXml built { s with doc := some newDraft }
    match built with
    | .error _ => s'
    | .ok _ => stamp sealXml cfg s'

/-- `rebuildDraft(cfdiDocumentId)`. -/
def rebuildDraft (built : Except AppError String) (cfg : Setting) (s : State) : State :=
  match discardDraft s with
  | .error _ => s
  | .ok s' => stampInvoice sealXml built cfg s'

/-- The calls on the invoice's CFDI; `circuits` is what stamping other documents does to the
breakers. -/
inductive Event where
  | stampInvoice (built : Except AppError String) (cfg : Setting)
  | generateXml (built : Except AppError String)
  | stamp (cfg : Setting)
  | discardDraft
  | rebuildDraft (built : Except AppError String) (cfg : Setting)
  | circuits (breakers : ℕ → Breaker)

def step (s : State) : Event → State
  | .stampInvoice built cfg => stampInvoice sealXml built cfg s
  | .generateXml built => generateXml built s
  | .stamp cfg => stamp sealXml cfg s
  | .discardDraft => match discardDraft s with
    | .ok s' => s'
    | .error _ => s
  | .rebuildDraft built cfg => rebuildDraft sealXml built cfg s
  | .circuits breakers => { s with breakers := breakers }

/-- An invoice without a CFDI. -/
def State.start (breakers : ℕ → Breaker) : State := ⟨none, breakers, ⟨[], [], []⟩⟩

end Vigabss.Cfdi
