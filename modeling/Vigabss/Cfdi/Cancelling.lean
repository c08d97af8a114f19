import Vigabss.Cfdi.Stamping
import Vigabss.Lib.JsText

/-!
# Vigabss.Cfdi.Cancelling — cancelling a stamped CFDI at SAT

`cancel`, `getCancellationStatus` and `pollPendingCancellations` on one stamped CFDI, with the
reading of SAT's answers (`classifyCancellation`, `parseCancellationStatus`).  Each call is one
step.
-/

namespace Vigabss.Cfdi

open Vigabss.Lib Vigabss.Lib.JsText

/-! ### Reading an answer -/

inductive CancelStatus where
  | pending | accepted | rejected
  deriving DecidableEq, Repr

/-- What `classifyCancellation` returns. -/
structure Classified where
  status : CancelStatus
  registered : Bool
  error : Option String
  deriving DecidableEq

/-- `SAT_CANCEL_REJECTIONS`. -/
def satCancelRejections : ℤ → Option String
  | 203 => some "El folio fiscal no corresponde al emisor"
  | 204 => some "El folio fiscal no es aplicable a cancelación"
  | 205 => some "El folio fiscal no existe en el SAT"
  | 206 => some "El UUID no corresponde a un CFDI del sector primario"
  | 207 => some "No se especificó el motivo de cancelación o no es válido"
  | 208 => some "El folio de sustitución no es válido"
  | 209 => some "El folio de sustitución no es requerido para este motivo"
  | 210 => some "La fecha de solicitud es mayor a la fecha de declaración"
  | 211 => some "La fecha de solicitud excede el límite para la factura global"
  | 212 => some "La relación no es válida o no existe"
  | _ => none

/-- `/word/.test(text)`, for a word without special characters. -/
def mentions (word : String) (text : List Char) : Bool :=
  text.tails.any fun t => word.toList.isPrefixOf t

/-- `text || ''`, in lower case. -/
def lower (text : Option String) : List Char := (text.getD "").toList.map Char.toLower

def trimmed (text : String) : String := String.ofList (trim text.toList)

/-- `classifyCancellation({ code, cancellationStatus, estado })`. -/
def classifyCancellation (code cancellationStatus estado : Option String) : Classified :=
  let text := lower cancellationStatus ++ ' ' :: lower estado
  if mentions "cancelad" text || mentions "plazo vencido" text then ⟨.accepted, false, none⟩
  else if mentions "rechaz" text || mentions "no cancelable" text || mentions "denegad" text ||
      mentions "no encontrado" text then
    ⟨.rejected, false,
      some (trimmed ((cancellationStatus.filter (· ≠ "")).getD "Solicitud rechazada"))⟩
  else if mentions "en proceso" text then ⟨.pending, false, none⟩
  else
    match parseInt 10 (trim (code.getD "").toList) with
    | none => ⟨.pending, false, none⟩
    | some n =>
      if n = 201 ∨ n = 202 then ⟨.pending, true, none⟩
      else if 203 ≤ n ∧ n ≤ 212 ∨ 300 ≤ n ∧ n ≤ 399 then
        ⟨.rejected, false, some ("SAT " ++ toString n ++ ": " ++
          (satCancelRejections n).getD "el SAT rechazó la solicitud de cancelación")⟩
      else ⟨.pending, true, none⟩

/-- `parseCancellationStatus(rawStatus)`. -/
def parseCancellationStatus (rawStatus : Option String) : CancelStatus :=
  match rawStatus.filter (· ≠ "") with
  | none => .pending
  | some raw =>
    let s := String.ofList (trim (raw.toList.map Char.toLower))
    if s = "accepted" ∨ s = "cancelled" then .accepted
    else if s = "rejected" ∨ s = "not_found" then .rejected
    else if s = "pending" ∨ s = "in_progress" then .pending
    else if s ≠ "" ∧ s.toList.all (isDigit 10) = true then
      (classifyCancellation (some s) none none).status
    else (classifyCancellation none (some s) none).status

/-! ### Answers of the PACs -/

/-- A PAC's answer to a cancellation request. -/
inductive CancelAnswer where
  | finkok (estatusUuid : String) (estatusCancelacion : Option String)
  | swSapien (estatusUuid : Option String)
  | simulated

/-- What `callPacCancel` makes of the answer. -/
def CancelAnswer.classified : CancelAnswer → Classified
  | finkok code status => classifyCancellation (some code) status none
  | swSapien code => classifyCancellation code none none
  | simulated => ⟨.accepted, false, none⟩

/-- What a cancellation request to one PAC meets: a configuration error before anything is sent, a
failure after which nothing can have been registered, no answer, or an answer. -/
inductive CancelOutcome where
  | configError (err : AppError)
  | notSent (message : String)
  | lost (message : String)
  | answered (a : CancelAnswer)

/-- What a status query meets. -/
inductive StatusOutcome where
  | failed
  | finkok (estatusCancelacion estado : Option String)
  | swSapien (estatus : Option String)
  | simulated

/-- What `callPacCancelStatus` returns, when it does: the status and its error text. -/
def StatusOutcome.answer : StatusOutcome → Option (CancelStatus × Option String)
  | failed => none
  | finkok status estado =>
    let c := classifyCancellation none status estado
    some (c.status, c.error)
  | swSapien estatus => some (parseCancellationStatus estatus, none)
  | simulated => some (.accepted, none)

/-! ### Rows -/

/-- The row of `cfdi_documents`, with the columns a cancellation reads and writes. -/
structure StampedCfdi where
  sat_status : SatStatus
  uuid : Option String
  cancellation_reason : Option String
  cancellation_uuid : Option String

/-- A row of `cfdi_cancellations`. -/
structure Cancellation where
  id : ℕ
  motivo : String
  folio_sustitucion : Option String
  cancellation_status : CancelStatus
  pac_provider_id : Option ℕ
  error_message : Option String

instance : Keyed Cancellation := ⟨Cancellation.id⟩

/-- What the PACs have told of SAT: an acceptance, and whether a request may be registered there
that SAT has not refused. -/
structure Told where
  accepted : Bool
  open_ : Bool
  deriving DecidableEq

/-- One stamped CFDI and its cancellations. -/
structure Cancellable where
  doc : StampedCfdi
  cancellations : Table Cancellation
  told : Told

/-! ### `cancel` -/

/-- What one call of `cancel` meets. -/
structure CancelSetting where
  pac_providers : List Pac
  pac_environment : Environment
  liveRep : Option String
  outcome : ℕ → CancelOutcome
  consulta : StatusOutcome

def CancelSetting.pacs (cfg : CancelSetting) : List Pac :=
  activePacs cfg.pac_environment cfg.pac_providers

def VALID_MOTIVOS : List String := ["01", "02", "03", "04"]

/-- The checks of `cancel`; the PACs to try when they pass. -/
def cancelChecks (cfg : CancelSetting) (reason : String) (replacementUuid : Option String)
    (doc : StampedCfdi) : Except AppError (List Pac) :=
  if reason ∉ VALID_MOTIVOS then
    .error ⟨"Invalid cancellation reason \"" ++ reason ++ "\" — must be one of: 01, 02, 03, 04",
      422, "CFDI_INVALID_MOTIVO"⟩
  else if doc.sat_status ≠ .vigente ∧ doc.sat_status ≠ .cancel_pending then
    .error ⟨"Can only cancel vigente documents — this one is " ++ doc.sat_status.name ++ ".", 409,
      "CFDI_NOT_VIGENTE"⟩
  else if doc.uuid = none then
    .error ⟨"CFDI document has no UUID — it must be stamped before cancellation", 422,
      "CFDI_NOT_STAMPED"⟩
  else if reason = "01" ∧ replacementUuid = none then
    .error ⟨"Motivo 01 requires a replacement UUID (folio_sustitucion)", 422,
      "CFDI_SUSTITUCION_REQUIRED"⟩
  else
    match cfg.liveRep with
    | some rep => .error ⟨"This CFDI has a payment complement (REP " ++ rep ++ ") that is still " ++
        "valid at SAT — cancel the REP first, then cancel this CFDI.", 422, "CFDI_HAS_LIVE_REP"⟩
    | none =>
      match cfg.pacs with
      | [] => .error ⟨"No active PAC provider in " ++ cfg.pac_environment.name ++ ", the " ++
          "environment that stamped this CFDI — activate a " ++ cfg.pac_environment.name ++
          " PAC under PAC Providers to cancel it.", 422, "CFDI_NO_ACTIVE_PAC"⟩
      | pac :: pacs => .ok (pac :: pacs)

/-- How the loop over the PACs ends: nobody answered, a configuration error, or an answer. -/
inductive CancelEnding where
  | failed (message : String)
  | thrown (err : AppError)
  | answered (pac : Pac) (c : Classified)

/-- The loop over the PACs. -/
def tryCancel (outcome : ℕ → CancelOutcome) (lastErr : String) : List Pac → CancelEnding
  | [] => .failed lastErr
  | pac :: rest =>
    match outcome pac.id with
    | .configError err => .thrown err
    | .notSent message => tryCancel outcome message rest
    | .lost message => tryCancel outcome message rest
    | .answered a => .answered pac a.classified

/-- The consulta after a request that was only registered. -/
def afterConsulta (consulta : StatusOutcome) (c : Classified) : Classified :=
  if c.registered = true then
    match consulta.answer with
    | some (status, error) =>
      if status ≠ .pending then { c with status := status, error := error.or c.error } else c
    | none => c
  else c

/-- `errorMessage`. -/
def rejectionText (c : Classified) : Option String :=
  if c.status = .rejected then some (c.error.getD "SAT rejected the cancellation request") else none

/-- How the document moves by the outcome. -/
def moveDoc (status : CancelStatus) (reason : String) (replacementUuid : Option String)
    (doc : StampedCfdi) : StampedCfdi :=
  match status with
  | .accepted =>
    if doc.sat_status = .vigente ∨ doc.sat_status = .cancel_pending then
      { doc with
        sat_status := .cancelado
        cancellation_reason := some reason
        cancellation_uuid := replacementUuid }
    else doc
  | .pending =>
    if doc.sat_status = .vigente then
      { doc with
        sat_status := .cancel_pending
        cancellation_reason := some reason
        cancellation_uuid := replacementUuid }
    else doc
  | .rejected => doc

def newCancellation (reason : String) (replacementUuid : Option String) (pacId id : ℕ) :
    Cancellation := ⟨id, reason, replacementUuid, .pending, some pacId, none⟩

theorem key_newCancellation (reason : String) (replacementUuid : Option String) (pacId id : ℕ) :
    Keyed.key (newCancellation reason replacementUuid pacId id) = id := rfl

def Cancellation.noteError (message : String) (c : Cancellation) : Cancellation :=
  { c with error_message := some message }

theorem Cancellation.key_noteError (message : String) (c : Cancellation) :
    Keyed.key (c.noteError message) = Keyed.key c := rfl

/-- The provider that handled the request, and its answer. -/
def Cancellation.respond (pacId : ℕ) (r : Classified) (c : Cancellation) : Cancellation :=
  { c with
    pac_provider_id := some pacId
    cancellation_status := r.status
    error_message := rejectionText r }

theorem Cancellation.key_respond (pacId : ℕ) (r : Classified) (c : Cancellation) :
    Keyed.key (c.respond pacId r) = Keyed.key c := rfl

/-! ### What the calls hear of SAT -/

namespace Told

/-- A request was sent and is not known to be refused. -/
def sent (t : Told) : Told := { t with open_ := true }

/-- SAT reports on the document. -/
def report (t : Told) : CancelStatus → Told
  | .accepted => ⟨true, t.open_⟩
  | .pending => t
  | .rejected => { t with open_ := false }

end Told

/-- What an answer says of the document in SAT's own words, its code left aside. -/
def CancelAnswer.words : CancelAnswer → CancelStatus
  | finkok _ status => (classifyCancellation none status none).status
  | swSapien _ => .pending
  | simulated => .accepted

/-- A request that its answer refuses is not registered; what SAT's words say holds for every
request. -/
def CancelAnswer.heard (a : CancelAnswer) (t : Told) : Told :=
  (if a.classified.status = .rejected then t else t.sent).report a.words

/-- What the requests to the PACs say of SAT, up to the first answer. -/
def heardFrom (outcome : ℕ → CancelOutcome) : List Pac → Told → Told
  | [], t => t
  | pac :: rest, t =>
    match outcome pac.id with
    | .configError _ => t
    | .notSent _ => heardFrom outcome rest t
    | .lost _ => heardFrom outcome rest t.sent
    | .answered a => a.heard t

/-- What the consulta says of SAT. -/
def heardConsulta (consulta : StatusOutcome) (c : Classified) (t : Told) : Told :=
  if c.registered = true then
    match consulta.answer with
    | some (status, _) => t.report status
    | none => t
  else t

/-! ### The system -/

/-- `cancel(cfdiDocumentId, reason, replacementUuid)`. -/
def cancel (cfg : CancelSetting) (reason : String) (replacementUuid : Option String)
    (s : Cancellable) : Cancellable :=
  match cancelChecks cfg reason replacementUuid s.doc with
  | .error _ => s
  | .ok pacs =>
    let id := s.cancellations.nextId
    let inserted := s.cancellations.insert
      (newCancellation reason replacementUuid ((pacs.head?.map Pac.id).getD 0))
      (key_newCancellation reason replacementUuid _)
    let told := heardFrom cfg.outcome pacs s.told
    match tryCancel cfg.outcome "" pacs with
    | .failed message =>
      ⟨s.doc, inserted.modify id (Cancellation.noteError message)
        (Cancellation.key_noteError message), told⟩
    | .thrown err =>
      ⟨s.doc, inserted.modify id (Cancellation.noteError err.message)
        (Cancellation.key_noteError err.message), told⟩
    | .answered pac c =>
      let r := afterConsulta cfg.consulta c
      ⟨moveDoc r.status reason replacementUuid s.doc,
        inserted.modify id (Cancellation.respond pac.id r) (Cancellation.key_respond pac.id r),
        heardConsulta cfg.consulta c told⟩

/-- `UPDATE cfdi_cancellations … WHERE id = ? AND cancellation_status = 'pending'`. -/
def Cancellation.resolve (status : CancelStatus) (error : Option String) (c : Cancellation) :
    Cancellation :=
  if c.cancellation_status = .pending then
    { c with
      cancellation_status := status
      error_message := if status = .rejected then
        some (error.getD "SAT rejected the cancellation request") else none }
  else c

theorem Cancellation.key_resolve (status : CancelStatus) (error : Option String)
    (c : Cancellation) : Keyed.key (c.resolve status error) = Keyed.key c := by
  unfold Cancellation.resolve
  split_ifs <;> rfl

/-- How a status check moves the document. -/
def settleDoc (status : CancelStatus) (doc : StampedCfdi) : StampedCfdi :=
  match status with
  | .accepted =>
    if doc.sat_status = .vigente ∨ doc.sat_status = .cancel_pending then
      { doc with sat_status := .cancelado }
    else doc
  | .rejected =>
    if doc.sat_status = .cancel_pending then { doc with sat_status := .vigente } else doc
  | .pending => doc

/-- `getCancellationStatus(cancellationId)`; without its PAC the record stays pending. -/
def getCancellationStatus (id : ℕ) (outcome : StatusOutcome) (s : Cancellable) : Cancellable :=
  match s.cancellations.find? id with
  | none => s
  | some c =>
    if c.cancellation_status ≠ .pending ∨ c.pac_provider_id = none then s
    else
      match outcome.answer with
      | none => s
      | some (.pending, _) => s
      | some (status, error) =>
        ⟨settleDoc status s.doc, s.cancellations.modify id (Cancellation.resolve status error)
          (Cancellation.key_resolve status error), s.told.report status⟩

/-- The cancellations of the document that the poll task selects. -/
def polled (s : Cancellable) : List ℕ :=
  if s.doc.sat_status = .cancel_pending then
    (s.cancellations.rows.filter fun c => c.cancellation_status = .pending).map Cancellation.id
  else []

/-- `pollPendingCancellations`. -/
def pollPendingCancellations (outcome : ℕ → StatusOutcome) (s : Cancellable) : Cancellable :=
  (polled s).foldl (fun s id => getCancellationStatus id (outcome id) s) s

inductive CancelEvent where
  | cancel (cfg : CancelSetting) (reason : String) (replacementUuid : Option String)
  | status (id : ℕ) (outcome : StatusOutcome)
  | poll (outcome : ℕ → StatusOutcome)

def cancelStep (s : Cancellable) : CancelEvent → Cancellable
  | .cancel cfg reason replacementUuid => cancel cfg reason replacementUuid s
  | .status id outcome => getCancellationStatus id outcome s
  | .poll outcome => pollPendingCancellations outcome s

/-- A stamped CFDI that nobody has cancelled. -/
def Cancellable.start (uuid : String) : Cancellable :=
  ⟨⟨.vigente, some uuid, none, none⟩, .empty, ⟨false, false⟩⟩

end Vigabss.Cfdi
