import Vigabss.Billing.Vouchers

/-!
# Vigabss.Cash.Collection — the cash that a reseller holds

A reseller collects cash for the ISP and holds it until it hands it in.  Its ledger is append-only,
per collecting reseller: the entries about a payment are rows of the billing tables, the others
(`deposit`, `adjustment`) are here.  What it holds is their sum, and what it may hold is its own
limit or the organization's.  Amounts are whole cents.
-/

namespace Vigabss.Cash

open Vigabss.Lib

inductive ResellerStatus where
  | active | suspended | inactive
  deriving DecidableEq, Repr

/-- A row of `resellers`. -/
structure Reseller where
  id : ℕ
  organizationId : ℕ
  parentId : Option ℕ
  status : ResellerStatus
  creditLimit : Option ℤ
  deleted : Bool
  deriving DecidableEq

/-- A row of `clients`. -/
structure Client where
  id : ℕ
  organizationId : ℕ
  deleted : Bool
  deriving DecidableEq

/-- A row of `cash_reconciliation_sessions`. -/
structure CashSession where
  id : ℕ
  organizationId : ℕ
  agentUserId : ℕ
  isOpen : Bool
  deleted : Bool
  deriving DecidableEq

instance : Keyed Reseller := ⟨Reseller.id⟩
instance : Keyed Client := ⟨Client.id⟩
instance : Keyed CashSession := ⟨CashSession.id⟩

inductive EntryType where
  | deposit | adjustment
  deriving DecidableEq, Repr

/-- A row of `reseller_ledger_entries` about no payment. -/
structure CashEntry where
  organizationId : ℕ
  resellerId : ℕ
  entryType : EntryType
  amount : ℤ
  currency : String
  note : Option String
  createdBy : ℕ
  deriving DecidableEq

/-- The columns of a collected payment and of its ledger entry that only the reseller app reads. -/
structure Taking where
  paymentId : ℕ
  recordedBy : ℕ
  createdAt : ℤ
  cashSessionId : ℕ
  deriving DecidableEq

/-- What a collection answers. -/
structure Receipt where
  paymentId : ℕ
  amount : ℤ
  allocated : List (ℕ × ℤ)
  clientNumber : ℕ
  deriving DecidableEq

/-- A row of `idempotency_keys`. -/
structure StoredAnswer where
  organizationId : ℕ
  idempotencyKey : String
  body : Receipt
  expiresAt : ℤ
  deriving DecidableEq

/-- The tables.  `limits` is the setting `reseller_default_credit_limit` of an organization, and
`currencies` its currency. -/
structure Db where
  billing : Billing.Db
  resellers : Table Reseller
  clients : Table Client
  sessions : Table CashSession
  cashEntries : List CashEntry
  takings : List Taking
  answers : List StoredAnswer
  limits : ℕ → Option String
  currencies : ℕ → String

/-! ### The limit -/

/-- The number that a string of digits is. -/
def digitsValue (digits : List Char) : ℕ :=
  digits.foldl (fun n c => 10 * n + (c.toNat - '0'.toNat)) 0

/-- Between `low` and `high` digits. -/
def areDigits (low high : ℕ) (cs : List Char) : Bool :=
  cs.all Char.isDigit && decide (low ≤ cs.length ∧ cs.length ≤ high)

/-- The cents of a setting that is an amount, `/^\d{1,10}(\.\d{1,2})?$/`. -/
def parseLimit (text : String) : Option ℤ :=
  let whole := text.toList.takeWhile (· ≠ '.')
  if areDigits 1 10 whole then
    match text.toList.dropWhile (· ≠ '.') with
    | [] => some (digitsValue whole * 100)
    | _ :: fraction =>
      if areDigits 1 2 fraction then
        some (digitsValue whole * 100 +
          digitsValue fraction * if fraction.length = 1 then 10 else 1)
      else none
  else none

namespace Db

variable (db : Db) (orgId : ℕ)

/-- The organization's limit: its setting, or the catalog default of `2000.00`. -/
def defaultCreditLimit : ℤ := ((db.limits orgId).bind parseLimit).getD 200000

/-- The reseller's own limit, or the organization's. -/
def effectiveCreditLimit (reseller : Reseller) : ℤ :=
  reseller.creditLimit.getD (db.defaultCreditLimit orgId)

/-- A live reseller of the organization. -/
def findReseller (resellerId : ℕ) : Option Reseller :=
  (db.resellers.find? resellerId).filter fun r => r.organizationId = orgId ∧ r.deleted = false

/-- The reseller itself, or its parent when it is a sub-reseller. -/
def topLevelResellerId (resellerId : ℕ) : ℕ :=
  match (db.findReseller orgId resellerId).bind Reseller.parentId with
  | none => resellerId
  | some parentId => ((db.findReseller orgId parentId).map Reseller.id).getD resellerId

/-- `SUM(amount)` of the entries about payments. -/
def collectedBalance (resellerId : ℕ) : ℤ :=
  ((db.billing.resellerEntries.filter fun e =>
    e.organizationId = orgId ∧ e.resellerId = resellerId).map (·.amount)).sum

/-- `SUM(amount)` of a reseller's entries: what it owes the ISP. -/
def ledgerBalance (resellerId : ℕ) : ℤ :=
  db.collectedBalance orgId resellerId +
    ((db.cashEntries.filter fun e =>
      e.organizationId = orgId ∧ e.resellerId = resellerId).map (·.amount)).sum

end Db

/-- What the app shows of a reseller's cash. -/
structure Summary where
  balance : ℤ
  cashOnHand : ℤ
  creditLimit : ℤ
  availableToCollect : ℤ
  deriving DecidableEq

/-- The figures derived from a balance and a limit. -/
def summarize (balance creditLimit : ℤ) : Summary where
  balance := balance
  cashOnHand := balance
  creditLimit := creditLimit
  availableToCollect := max 0 (creditLimit - balance)

/-- The summary of one reseller. -/
def Db.summaryFor (db : Db) (orgId : ℕ) (reseller : Reseller) : Summary :=
  summarize (db.ledgerBalance orgId reseller.id) (db.effectiveCreditLimit orgId reseller)

/-- How a request fails. -/
inductive Failure where
  | app (failure : Billing.Failure)
  /-- The answer 409 `CREDIT_LIMIT`, with what it tells besides its message. -/
  | creditLimit (message : String) (summary : Summary) (amount : ℤ)
  deriving DecidableEq

def notFound (resource : String) : Failure := .app (Billing.notFound resource)

def validation (message : String) : Failure := .app (.app 422 "VALIDATION_ERROR" message)

def conflict (message code : String) : Failure := .app (.app 409 code message)

def creditLimitRefusal (summary : Summary) (amount : ℤ) : Failure :=
  .creditLimit ("This collection would exceed your cash limit. You can still collect " ++
    Billing.toFixed summary.availableToCollect ++ "; hand in the cash you hold to keep collecting.")
    summary amount

end Vigabss.Cash

/-!
## Collecting and voiding

A request of the reseller app, or of the staff on a reseller's ledger, first reads outside of any
transaction and then waits for the lock of the reseller row.  Behind the lock runs its transaction,
alone among those of the reseller.  `Server.step` runs the two parts one by one, with whatever
other requests come between them.
-/

namespace Vigabss.Cash

open Vigabss.Lib
open Billing (PaymentStatus InvoiceStatus)

/-- The user of a request, and the reseller that it is bound to. -/
structure Caller where
  organizationId : ℕ
  userId : ℕ
  boundId : ℕ
  deriving DecidableEq

/-- The payload of a collect token that the server has signed. -/
structure CollectToken where
  organizationId : ℕ
  clientId : ℕ
  resellerId : ℕ
  expiresAt : ℤ
  deriving DecidableEq

/-- The body of a collection.  `collectToken` is `none` when it is not signed by the server, and
`amount`, in cents, when it is no number with at most two decimals. -/
structure CollectBody where
  collectToken : Option CollectToken
  amount : Option ℤ
  invoiceIds : Option (List ℤ)
  deriving DecidableEq

/-- `payments.amount` is `DECIMAL(10, 2)`. -/
def maxAmount : ℤ := 9999999999

/-- `IDEMPOTENCY_TTL_MS`. -/
def idempotencyTtlMs : ℤ := 24 * 60 * 60 * 1000

/-- `IDEMPOTENCY_KEY_RE`. -/
def isIdempotencyKey (key : String) : Bool :=
  key.toList.all (fun c => c.isAlphanum || "_.:-".toList.contains c) &&
    decide (8 ≤ key.length ∧ key.length ≤ 128)

/-- The stored idempotency key: per user, so two users never share one. -/
def idempotencyKeyFor (userId : ℕ) (key : String) : String :=
  "reseller-collect:" ++ toString userId ++ ":" ++ key

namespace Db

variable (db : Db) (orgId : ℕ)

/-- The stored answer of an idempotency key. -/
def storedAnswer (storedKey : String) (now : ℤ) : Option Receipt :=
  (db.answers.find? fun a => a.organizationId = orgId ∧ a.idempotencyKey = storedKey ∧
    now < a.expiresAt).map (·.body)

/-- The rows that are left when the expired ones of a key are deleted. -/
def withoutExpired (storedKey : String) (now : ℤ) : Db :=
  { db with answers := db.answers.filter fun a => ¬ (a.organizationId = orgId ∧
      a.idempotencyKey = storedKey ∧ a.expiresAt ≤ now) }

/-- `INSERT INTO idempotency_keys`, one row a key (`uq_idempotency_keys_org_key`). -/
def storeAnswer (storedKey : String) (body : Receipt) (now : ℤ) : Except Failure Db :=
  if db.answers.any fun a => a.organizationId = orgId ∧ a.idempotencyKey = storedKey then
    .error (.app (.sql .duplicateEntry))
  else .ok { db with
    answers := db.answers ++ [⟨orgId, storedKey, body, now + idempotencyTtlMs⟩] }

/-- The collecting user's open cash session, opened if none. -/
def openCashSession (userId : ℕ) : Db × ℕ :=
  match (db.sessions.rows.filter fun s => s.organizationId = orgId ∧ s.agentUserId = userId ∧
    s.isOpen = true ∧ s.deleted = false).getLast? with
  | some session => (db, session.id)
  | none =>
    ({ db with
        sessions := db.sessions.insert (fun id => ⟨id, orgId, userId, true, false⟩) fun _ => rfl },
      db.sessions.nextId)

end Db

/-! ### A collection -/

/-- A collection that waits for the lock. -/
structure Prepared where
  caller : Caller
  collectorId : ℕ
  clientId : ℕ
  amount : ℤ
  invoiceIds : Option (List ℕ)
  storedKey : Option String
  currency : String
  deriving DecidableEq

def verifyCollectToken (caller : Caller) (now : ℤ) :
    Option CollectToken → Except Failure CollectToken
  | none => .error (.app (.app 422 "COLLECT_TOKEN_INVALID"
      "This collection is not valid; look the customer up again."))
  | some token =>
    if token.organizationId ≠ caller.organizationId ∨ token.resellerId ≠ caller.boundId then
      .error (.app (.app 422 "COLLECT_TOKEN_INVALID"
        "This collection is not valid; look the customer up again."))
    else if token.expiresAt * 1000 ≤ now then
      .error (.app (.app 422 "COLLECT_TOKEN_EXPIRED"
        "This collection expired; look the customer up again."))
    else .ok token

def checkAmount (amount : Option ℤ) : Except Failure ℤ :=
  match amount.filter fun a => 0 < a ∧ a ≤ maxAmount with
  | some amount => .ok amount
  | none => .error (validation "amount must be more than 0 with at most 2 decimals")

def checkInvoiceIds : Option (List ℤ) → Except Failure (Option (List ℕ))
  | none => .ok none
  | some ids =>
    if ids = [] ∨ ids.any (· < 1) ∨ 50 < ids.length then
      .error (validation "invoice_ids must be a non-empty array of invoice ids")
    else .ok (some (ids.map Int.toNat).eraseDups)

/-- The key under which the answer is stored; an empty key is none. -/
def checkKey (caller : Caller) (key : Option String) : Except Failure (Option String) :=
  match key.filter (· ≠ "") with
  | none => .ok none
  | some key =>
    if isIdempotencyKey key then .ok (some (idempotencyKeyFor caller.userId key))
    else .error (validation ("Idempotency-Key must be 8 to 128 letters, digits, dots, colons, " ++
      "dashes or underscores"))

/-- `collect` up to its transaction: the stored answer of its key, or what it will post. -/
def prepare (db : Db) (caller : Caller) (body : CollectBody) (key : Option String) (now : ℤ) :
    Except Failure (Receipt ⊕ Prepared) := do
  let storedKey ← checkKey caller key
  match storedKey.bind fun k => db.storedAnswer caller.organizationId k now with
  | some receipt => return .inl receipt
  | none =>
    let token ← verifyCollectToken caller now body.collectToken
    let amount ← checkAmount body.amount
    let invoiceIds ← checkInvoiceIds body.invoiceIds
    return .inr {
      caller, amount, invoiceIds, storedKey
      collectorId := db.topLevelResellerId caller.organizationId caller.boundId
      clientId := token.clientId
      currency := db.currencies caller.organizationId }

/-- Lock the reseller row. -/
def lockReseller (db : Db) (orgId resellerId : ℕ) : Except Failure Reseller :=
  match db.findReseller orgId resellerId with
  | some reseller => .ok reseller
  | none => .error (notFound "Reseller")

def notActive : Failure :=
  .app (.app 403 "FORBIDDEN" "Your reseller account is not active; contact the ISP")

/-- Both resellers are active, the amount fits the limit, and the client is there. -/
def checkCollection (db : Db) (p : Prepared) (reseller : Reseller) : Except Failure Unit := do
  let orgId := p.caller.organizationId
  if reseller.status ≠ .active then .error notActive
  if p.caller.boundId ≠ p.collectorId ∧
      ¬ (db.findReseller orgId p.caller.boundId).any fun r => r.status = .active then
    .error notActive
  let summary := db.summaryFor orgId reseller
  if summary.creditLimit < summary.cashOnHand + p.amount then
    .error (creditLimitRefusal summary p.amount)
  if ¬ (db.clients.find? p.clientId).any fun c => c.organizationId = orgId ∧ c.deleted = false then
    .error (notFound "Client")

/-- The payment, its allocations, the ledger entry, and the cash session. -/
def postPayment (db : Db) (p : Prepared) (now : ℤ) : Except Failure (Receipt × Db) := do
  let paymentId := db.billing.payments.nextId
  let billing ← (Billing.collect db.billing p.caller.organizationId p.collectorId p.clientId
    p.amount p.currency p.invoiceIds none).mapError .app
  let (db, cashSessionId) := db.openCashSession p.caller.organizationId p.caller.userId
  let receipt : Receipt := {
    paymentId, amount := p.amount, clientNumber := p.clientId
    allocated := (billing.allocations.rows.filter (Billing.ofPayment paymentId)).map
      fun a => (a.invoiceId, a.amount) }
  return (receipt, { db with
    billing
    takings := db.takings ++ [⟨paymentId, p.caller.userId, now, cashSessionId⟩] })

/-- What the transaction of a collection has done. -/
inductive Collected where
  | replayed (receipt : Receipt)
  | posted (receipt : Receipt) (db : Db)

/-- `collect` behind the lock. -/
def collect (db : Db) (p : Prepared) (now : ℤ) : Except Failure Collected := do
  let orgId := p.caller.organizationId
  let reseller ← lockReseller db orgId p.collectorId
  match p.storedKey with
  | none =>
    checkCollection db p reseller
    let (receipt, db) ← postPayment db p now
    return .posted receipt db
  | some storedKey =>
    match db.storedAnswer orgId storedKey now with
    | some receipt => return .replayed receipt
    | none =>
      let db := db.withoutExpired orgId storedKey now
      checkCollection db p reseller
      let (receipt, db) ← postPayment db p now
      let db ← db.storeAnswer orgId storedKey receipt now
      return .posted receipt db

/-! ### A void -/

/-- The user who holds the cash of a collection is the caller, and its cash box is open. -/
def checkCashBox (db : Db) (orgId userId : ℕ) (taking : Taking) : Except Failure Unit := do
  let session := (db.sessions.find? taking.cashSessionId).filter fun s =>
    s.organizationId = orgId ∧ s.deleted = false
  let sessionOwner := (session.map (·.agentUserId)).getD taking.recordedBy
  if sessionOwner ≠ userId then
    .error (conflict "Only the person who took this cash can void it." "NOT_YOUR_COLLECTION")
  if ¬ session.any (·.isOpen) then
    .error (conflict ("The cash box of this collection is already closed; ask the ISP to " ++
      "correct it.") "CASH_SESSION_CLOSED")

/-- `assertNoBindingRep`, as the reseller app answers it. -/
def checkBindingRep (bindingRep : Option String) : Except Failure Unit :=
  if bindingRep = none then .ok ()
  else .error (conflict ("This collection is already reported to SAT with a payment complement; " ++
    "ask the ISP to cancel it.") "PAYMENT_HAS_REP")

/-- `voidCollection` behind the lock; `businessDate` is the calendar day of an instant. -/
def voidCollection (businessDate : ℤ → ℤ) (db : Db) (orgId userId collectorId paymentId : ℕ)
    (bindingRep : Option String) (now : ℤ) : Except Failure Db := do
  let _ ← lockReseller db orgId collectorId
  match (db.billing.payments.find? paymentId).filter fun p =>
      p.organizationId = orgId ∧ p.resellerId = some collectorId,
    db.takings.find? fun t => t.paymentId = paymentId with
  | some payment, some taking =>
    if payment.deleted ∨ payment.status ≠ .completed then
      .error (conflict "This collection is already voided." "ALREADY_VOIDED")
    if businessDate taking.createdAt ≠ businessDate now then
      .error (conflict ("A collection can only be voided on the day it was taken; ask the ISP " ++
        "to correct it.") "VOID_WINDOW_CLOSED")
    if ¬ db.billing.resellerEntries.any fun e => e.organizationId = orgId ∧
        e.resellerId = collectorId ∧ e.paymentId = paymentId ∧ e.entryType = .collection then
      .error (notFound "Payment")
    checkCashBox db orgId userId taking
    checkBindingRep bindingRep
    let billing ← (Billing.voidCollection db.billing orgId collectorId paymentId none).mapError .app
    return { db with billing }
  | _, _ => .error (notFound "Payment")

/-! ### Deposits and adjustments -/

/-- The body of a ledger entry; `amount` as in a collection, the note without surrounding blanks
and not empty. -/
structure EntryBody where
  entryType : EntryType
  amount : Option ℤ
  note : Option String
  deriving DecidableEq

/-- An entry that waits for the lock. -/
structure PreparedEntry where
  organizationId : ℕ
  userId : ℕ
  resellerId : ℕ
  entryType : EntryType
  amount : ℤ
  note : Option String
  currency : String
  deriving DecidableEq

/-- `POST /resellers/:id/ledger` up to its transaction. -/
def prepareEntry (db : Db) (orgId userId resellerId : ℕ) (body : EntryBody) :
    Except Failure PreparedEntry := do
  let found ← lockReseller db orgId resellerId
  if found.parentId ≠ none then
    .error (validation ("Cash is booked on the top-level reseller; record this on its parent " ++
      "reseller"))
  match body.amount with
  | none => .error (validation "amount must have at most 2 decimals")
  | some amount =>
    if body.entryType = .deposit ∧ ¬ 0 < amount then
      .error (validation "A deposit amount must be more than 0")
    if body.entryType = .adjustment ∧ amount = 0 then
      .error (validation "An adjustment amount must not be 0")
    if body.entryType = .adjustment ∧ body.note = none then
      .error (validation "An adjustment needs a note explaining it")
    return ⟨orgId, userId, found.id, body.entryType, amount, body.note, db.currencies orgId⟩

/-- The entry behind the lock. -/
def recordEntry (db : Db) (p : PreparedEntry) : Except Failure Db := do
  let reseller ← lockReseller db p.organizationId p.resellerId
  let balance := db.ledgerBalance p.organizationId reseller.id
  if p.entryType = .deposit ∧ balance < p.amount then
    .error (.app (.app 422 "DEPOSIT_EXCEEDS_BALANCE" ("The reseller holds " ++
      Billing.toFixed balance ++ "; a deposit cannot be more than that")))
  let signed := if p.entryType = .deposit then -p.amount else p.amount
  return { db with
    cashEntries := db.cashEntries ++
      [⟨p.organizationId, reseller.id, p.entryType, signed, p.currency, p.note, p.userId⟩] }

/-! ### The server -/

/-- What waits for a lock. -/
inductive Task where
  | collect (prepared : Prepared)
  | voidCollection (caller : Caller) (collectorId paymentId : ℕ)
  | entry (prepared : PreparedEntry)

structure Waiting where
  id : ℕ
  task : Task

instance : Keyed Waiting := ⟨Waiting.id⟩

/-- The database and the requests that wait for a lock. -/
structure Server where
  db : Db
  waiting : Table Waiting

inductive Act where
  /-- The three requests, up to their transactions. -/
  | collect (now : ℤ) (caller : Caller) (body : CollectBody) (key : Option String)
  | voidCollection (caller : Caller) (paymentId : ℕ)
  | enter (orgId userId resellerId : ℕ) (body : EntryBody)
  /-- A waiting request gets its lock; `bindingRep` is the payment complement that stands in the
  way of a void. -/
  | proceed (now : ℤ) (request : ℕ) (bindingRep : Option String)
  /-- A waiting request is cut off. -/
  | drop (request : ℕ)
  | staff (event : {e : Billing.Event // e.ofStaff = true})
  | editPayment (orgId paymentId : ℕ) (amount : Option ℚ) (status : Option PaymentStatus)
      (currency : Option String) (bindingRep : Option String)
  | closeSession (session : ℕ)
  /-- Resellers, clients and settings are managed. -/
  | manage (resellers : Table Reseller) (clients : Table Client) (limits : ℕ → Option String)

/-- What a request is answered. -/
inductive Answer where
  | collected (receipt : Receipt)
  | replayed (receipt : Receipt)
  | voided (paymentId : ℕ)
  | entered
  deriving DecidableEq

/-- What a task does behind its lock. -/
def Task.run (businessDate : ℤ → ℤ) (db : Db) (now : ℤ) (bindingRep : Option String) :
    Task → Except Failure (Answer × Db)
  | .collect p => do
    match ← Cash.collect db p now with
    | .replayed receipt => return (.replayed receipt, db)
    | .posted receipt db => return (.collected receipt, db)
  | .voidCollection caller collectorId paymentId => do
    let db ← Cash.voidCollection businessDate db caller.organizationId caller.userId collectorId
      paymentId bindingRep now
    return (.voided paymentId, db)
  | .entry p => do
    let db ← recordEntry db p
    return (.entered, db)

namespace Server

variable (businessDate : ℤ → ℤ) (s : Server)

def wait (task : Task) : Server :=
  { s with waiting := s.waiting.insert (fun id => ⟨id, task⟩) fun _ => rfl }

def remove (request : ℕ) : Server := { s with waiting := s.waiting.remove request }

/-- What an act answers, when it answers a request. -/
def answer : Act → Option (Except Failure Answer)
  | .collect now caller body key =>
    match prepare s.db caller body key now with
    | .error failure => some (.error failure)
    | .ok (.inl receipt) => some (.ok (.replayed receipt))
    | .ok (.inr _) => none
  | .enter orgId userId resellerId body =>
    match prepareEntry s.db orgId userId resellerId body with
    | .error failure => some (.error failure)
    | .ok _ => none
  | .proceed now request bindingRep =>
    (s.waiting.find? request).map fun w =>
      (w.task.run businessDate s.db now bindingRep).map Prod.fst
  | _ => none

/-- One act.  A request that fails is rolled back. -/
def step : Act → Server
  | .collect now caller body key =>
    match prepare s.db caller body key now with
    | .ok (.inr prepared) => s.wait (.collect prepared)
    | _ => s
  | .voidCollection caller paymentId =>
    s.wait (.voidCollection caller
      (s.db.topLevelResellerId caller.organizationId caller.boundId) paymentId)
  | .enter orgId userId resellerId body =>
    match prepareEntry s.db orgId userId resellerId body with
    | .ok prepared => s.wait (.entry prepared)
    | .error _ => s
  | .proceed now request bindingRep =>
    match s.waiting.find? request with
    | none => s
    | some w =>
      match w.task.run businessDate s.db now bindingRep with
      | .ok (_, db) => { s.remove request with db }
      | .error _ => s.remove request
  | .drop request => s.remove request
  | .staff event => { s with db := { s.db with billing := s.db.billing.after event } }
  | .editPayment orgId paymentId amount status currency bindingRep =>
    { s with db := { s.db with
        billing := Billing.commit s.db.billing (Billing.editPayment s.db.billing orgId paymentId
          amount status currency bindingRep) } }
  | .closeSession session =>
    { s with db := { s.db with
        sessions := s.db.sessions.modify session (fun c => { c with isOpen := false })
          fun _ => rfl } }
  | .manage resellers clients limits => { s with db := { s.db with resellers, clients, limits } }

end Server

end Vigabss.Cash
