import Vigabss.Billing.Requests
import Vigabss.Lib.Threads

/-!
# Vigabss.Suspension.Contracts — a contract between suspension and service

The writers of `suspensionService` on one contract that has been activated: its row, its RADIUS
accounts and its `suspension_logs`.  A suspension commits its status first and writes its log row
after the CoA, in a statement of its own; a reconnect closes the open rows in its transaction.
-/

namespace Vigabss.Suspension

open Vigabss.Lib

/-! ### The rows -/

inductive ContractStatus where
  | pending | active | suspended | expired | cancelled | terminated
  deriving DecidableEq, Repr

inductive RadiusStatus where
  | active | inactive | suspended
  deriving DecidableEq, Repr

/-- The columns of a contract whose `first_activated_at` is set. -/
structure Contract where
  organization_id : Option ℕ
  status : ContractStatus
  soft_suspend_download_kbps : Option ℕ
  soft_suspend_upload_kbps : Option ℕ
  deleted : Bool
  deriving DecidableEq, Repr

inductive SuspensionAction where
  | suspended | unsuspended
  deriving DecidableEq, Repr

inductive TriggeredBy where
  | system | manual
  deriving DecidableEq, Repr

/-- A row of `suspension_logs`; `restored` is `restored_at IS NOT NULL`. -/
structure SuspensionLog where
  action : SuspensionAction
  reason : Option String
  suspension_rule_id : Option ℕ
  triggered_by : TriggeredBy
  performed_by_user_id : Option ℕ
  radius_coa_sent : Bool
  related_invoice_id : Option ℕ
  restored : Bool
  deriving DecidableEq, Repr

/-- The contract, the status of its live RADIUS accounts, and its log. -/
structure SuspensionDb where
  contract : Contract
  accounts : List RadiusStatus
  logs : List SuspensionLog
  deriving DecidableEq, Repr

/-! ### Reasons -/

def WALLED_GARDEN_REASON_PREFIX : String := "walled_garden:"

def SOFT_SUSPEND_REASON_PREFIX : String := "soft_suspend:"

/-- `reason LIKE 'walled\_garden:%'`. -/
def walledGarden (reason : String) : Bool :=
  WALLED_GARDEN_REASON_PREFIX.toList.isPrefixOf (reason.toList.map Char.toLower)

def triggeredBy (userId : Option ℕ) : TriggeredBy :=
  if userId.isSome then .manual else .system

def TriggeredBy.name : TriggeredBy → String
  | system => "system"
  | manual => "manual"

/-- `describeTrigger(what, ruleId, userId, invoiceId)`. -/
def describeTrigger (what : String) (ruleId userId invoiceId : Option ℕ) : String :=
  let trigger := match ruleId with
    | some rule => what ++ " by rule #" ++ toString rule
    | none => (triggeredBy userId).name ++ " " ++ what
  trigger ++ userId.elim "" (fun user => " — user #" ++ toString user) ++
    invoiceId.elim "" fun invoice => " — invoice #" ++ toString invoice

/-! ### The transactions -/

/-- `hasThrottle(row)`. -/
def Contract.hasThrottle (c : Contract) : Bool :=
  c.soft_suspend_download_kbps.any (0 < ·) && c.soft_suspend_upload_kbps.any (0 < ·)

/-- An open row that is not the walled garden's. -/
def SuspensionLog.isOpen (l : SuspensionLog) : Bool :=
  l.action = .suspended ∧ l.restored = false ∧ ¬ l.reason.any walledGarden = true

/-- What the environment answers a statement: whether the client is exempt, whether an overdue
invoice is still owed, whether the transaction throws, and whether the CoA was sent. -/
structure Answer where
  exempt : Bool
  owed : Bool
  throws : Bool
  coaSent : Bool
  deriving DecidableEq, Repr

/-- The transaction of `suspendContract`; `none` is a rollback. -/
def suspendTransaction (db : SuspensionDb) (ruleId : Option ℕ) (a : Answer) :
    Option SuspensionDb :=
  if db.contract.deleted ∨ db.contract.status ≠ .active then none
  else if ruleId.isSome ∧ a.owed = false then none
  else if a.throws then none
  else some { db with
    contract := { db.contract with status := .suspended }
    accounts := db.accounts.map fun r => if r = .active then .suspended else r }

/-- The transaction of `softSuspendContract`. -/
def softSuspendTransaction (db : SuspensionDb) (dl ul : ℕ) (a : Answer) : Option SuspensionDb :=
  if db.contract.deleted ∨ db.contract.status ≠ .active then none
  else if db.contract.soft_suspend_download_kbps = some dl ∧
      db.contract.soft_suspend_upload_kbps = some ul then none
  else if a.throws then none
  else some { db with
    contract := { db.contract with
      soft_suspend_download_kbps := some dl, soft_suspend_upload_kbps := some ul } }

/-- `closeOpenSuspensionAndGetStart`: the open rows but the walled garden's are restored. -/
def closeOpenSuspension (logs : List SuspensionLog) : List SuspensionLog :=
  logs.map fun l => if l.isOpen then { l with restored := true } else l

/-- The row of a reconnect. -/
def unsuspendedLog (userId invoiceId : Option ℕ) (coaSent : Bool) : SuspensionLog where
  action := .unsuspended
  reason := some (describeTrigger "reconnect" none userId invoiceId)
  suspension_rule_id := none
  triggered_by := triggeredBy userId
  performed_by_user_id := userId
  radius_coa_sent := coaSent
  related_invoice_id := invoiceId
  restored := true

/-- A suspended contract is active again, with its suspended accounts. -/
def SuspensionDb.reactivate (db : SuspensionDb) : SuspensionDb :=
  if db.contract.status = .suspended then { db with
    contract := { db.contract with status := .active }
    accounts := db.accounts.map fun r => if r = .suspended then .active else r }
  else db

/-- A soft suspension's throttle is lifted. -/
def SuspensionDb.liftThrottle (db : SuspensionDb) : SuspensionDb :=
  if db.contract.hasThrottle then { db with
    contract := { db.contract with
      soft_suspend_download_kbps := none, soft_suspend_upload_kbps := none } }
  else db

/-- The transaction of `reconnectContract` on an activated contract: a suspended one is active
again, an active one may be soft-suspended or in the walled garden. -/
def reconnectTransaction (db : SuspensionDb) (userId invoiceId orgId : Option ℕ) (a : Answer) :
    Option SuspensionDb :=
  if db.contract.deleted ∨ (∃ org ∈ orgId, db.contract.organization_id ≠ some org) then none
  else if db.contract.status ≠ .suspended ∧ db.contract.status ≠ .active then none
  else if a.throws then none
  else some { db.reactivate.liftThrottle with
    logs := closeOpenSuspension db.logs ++ [unsuspendedLog userId invoiceId a.coaSent] }

/-- `logSuspensionEvent` of a suspension. -/
def logSuspended (db : SuspensionDb) (reason : String) (ruleId userId invoiceId : Option ℕ)
    (coaSent : Bool) : SuspensionDb :=
  { db with
    logs := db.logs ++ [⟨.suspended, some reason, ruleId, triggeredBy userId, userId, coaSent,
      invoiceId, false⟩] }

/-- `walledGardenReconnect`: the open rows of the walled garden are restored. -/
def walledGardenReconnect (db : SuspensionDb) : SuspensionDb :=
  { db with
    logs := db.logs.map fun l =>
      if l.action = .suspended ∧ l.restored = false ∧ l.reason.any walledGarden = true then
        { l with restored := true }
      else l }

/-! ### The calls -/

inductive SuspensionCall where
  | suspendContract (ruleId userId invoiceId : Option ℕ)
  | softSuspendContract (ruleId userId invoiceId : Option ℕ) (downloadKbps uploadKbps : Option ℚ)
  | reconnectContract (userId invoiceId orgId : Option ℕ)

/-- The statement a call stands before. -/
inductive SuspensionTask where
  | checking (call : SuspensionCall)
  | suspending (ruleId userId invoiceId : Option ℕ)
  | softSuspending (ruleId userId invoiceId : Option ℕ) (dl ul : ℕ)
  | logging (reason : Bool → String) (ruleId userId invoiceId : Option ℕ)
  | reconnecting (userId invoiceId orgId : Option ℕ)
  | lifting
  | done

def SuspensionCall.start : SuspensionCall → SuspensionTask
  | reconnectContract userId invoiceId orgId => .reconnecting userId invoiceId orgId
  | call => .checking call

/-- `Math.round(Number(kbps))`; `none` is no number. -/
def rounded (kbps : Option ℚ) : ℕ := kbps.elim 0 fun q => (mathRound q).toNat

/-- The reason of a soft suspension, by whether the CoA was sent. -/
def softReason (ruleId userId invoiceId : Option ℕ) (dl ul : ℕ) (coaSent : Bool) : String :=
  SOFT_SUSPEND_REASON_PREFIX ++ " " ++ describeTrigger "soft suspension" ruleId userId invoiceId ++
    " (throttled to " ++ toString dl ++ "/" ++ toString ul ++ " kbps" ++
    (if coaSent then "" else "; the live session changes when it reconnects") ++ ")"

/-- What follows the exemption check. -/
def SuspensionCall.proceed : SuspensionCall → SuspensionTask
  | suspendContract ruleId userId invoiceId => .suspending ruleId userId invoiceId
  | softSuspendContract ruleId userId invoiceId downloadKbps uploadKbps =>
    if 0 < rounded downloadKbps ∧ 0 < rounded uploadKbps then
      .softSuspending ruleId userId invoiceId (rounded downloadKbps) (rounded uploadKbps)
    else .done
  | reconnectContract .. => .done

/-- One statement of a call. -/
def next (db : SuspensionDb) : SuspensionTask → Answer → SuspensionDb × SuspensionTask
  | .checking call, a => (db, if a.exempt then .done else call.proceed)
  | .suspending ruleId userId invoiceId, a =>
    match suspendTransaction db ruleId a with
    | none => (db, .done)
    | some db => (db, .logging (fun _ => describeTrigger "suspension" ruleId userId invoiceId)
        ruleId userId invoiceId)
  | .softSuspending ruleId userId invoiceId dl ul, a =>
    match softSuspendTransaction db dl ul a with
    | none => (db, .done)
    | some db => (db, .logging (softReason ruleId userId invoiceId dl ul) ruleId userId invoiceId)
  | .logging reason ruleId userId invoiceId, a =>
    (logSuspended db (reason a.coaSent) ruleId userId invoiceId a.coaSent, .done)
  | .reconnecting userId invoiceId orgId, a =>
    match reconnectTransaction db userId invoiceId orgId a with
    | none => (db, .done)
    | some db => (db, .lifting)
  | .lifting, _ => (walledGardenReconnect db, .done)
  | .done, _ => (db, .done)

end Vigabss.Suspension

/-!
## A rule suspends, a payment reconnects

A rule's `suspendContract` beside payments that are allocated and then call `reconnectIfSuspended`,
on one contract and the books of its invoices.  The suspension holds the lock of the contract from
its `SELECT … FOR UPDATE` to its commit and reads the debt in between; a payment looks at the
contract with a plain read, which sees what is committed.
-/

namespace Vigabss.Suspension

open Vigabss.Lib Vigabss.Billing

/-! ### The rows -/

/-- The contract; `activated` is `first_activated_at IS NOT NULL`. -/
structure ServiceContract where
  id : ℕ
  organization_id : ℕ
  client_id : ℕ
  status : ContractStatus
  activated : Bool
  deleted : Bool
  deriving DecidableEq, Repr

/-- The columns of an invoice that its books do not hold: its contract, its due day, and whether an
installment of an active plan is about it. -/
structure InvoiceTerms where
  contract_id : Option ℕ
  due_date : ℕ
  underActivePlan : Bool
  deriving DecidableEq, Repr

/-- The contract with its row lock and the status its holder has not committed yet, the books, and
the business day. -/
structure DebtDb where
  contract : ServiceContract
  locked : Bool
  uncommitted : Option ContractStatus
  books : Billing.Db
  terms : ℕ → InvoiceTerms
  today : ℕ

/-- A row of the rule's `owed` query: an invoice of the contract, past due, with an open balance and
under no active plan. -/
def DebtDb.overdue (db : DebtDb) (i : Invoice) : Bool :=
  (db.terms i.id).contract_id = some db.contract.id ∧ i.deleted = false ∧
    i.status.payable = true ∧ (db.terms i.id).due_date < db.today ∧
    0 < i.total - db.books.coveredOf i.id ∧ (db.terms i.id).underActivePlan = false

/-- Whether the query finds one. -/
def DebtDb.owed (db : DebtDb) : Bool := db.books.invoices.rows.any db.overdue

/-! ### Payments -/

/-- A request that allocates a payment. -/
inductive PaymentCall where
  | allocate (orgId paymentId invoiceId : ℕ) (amount : ℚ)
  | allocateAuto (orgId paymentId : ℕ) (invoiceIds : Option (List ℕ))
  deriving DecidableEq, Repr

def PaymentCall.orgId : PaymentCall → ℕ
  | allocate orgId .. | allocateAuto orgId .. => orgId

/-- `justPaidInvoices`: the invoices the transaction marked paid. -/
def justPaid (books books' : Billing.Db) : List Invoice :=
  books.invoices.rows.filter fun i =>
    i.status ≠ .paid ∧ (books'.invoices.find? i.id).any (·.status = .paid)

/-- The transaction of the request.  It holds the locks of its payment and its invoices from its
first read to its commit, so that it is one step. -/
def PaymentCall.transaction (books : Billing.Db) : PaymentCall → Except Failure Billing.Db
  | allocate orgId paymentId invoiceId amount =>
    Billing.allocate books orgId paymentId invoiceId amount
  | allocateAuto orgId paymentId invoiceIds =>
    Billing.allocateAuto books orgId paymentId invoiceIds

/-! ### The contract -/

/-- What the environment answers: whether the client is exempt, and whether the transaction is
refused or throws. -/
structure DebtAnswer where
  exempt : Bool
  throws : Bool
  deriving DecidableEq, Repr

/-- The row `reconnectIfSuspended` selects for an invoice. -/
def DebtDb.findsSuspended (db : DebtDb) (orgId : ℕ) (invoice : Invoice) : Bool :=
  (db.terms invoice.id).contract_id = some db.contract.id ∧
    db.contract.organization_id = orgId ∧ db.contract.client_id = invoice.clientId ∧
    db.contract.status = .suspended ∧ db.contract.deleted = false

/-- `UPDATE contracts SET status = …`. -/
def DebtDb.setStatus (db : DebtDb) (status : ContractStatus) : DebtDb :=
  { db with contract := { db.contract with status } }

/-- The transaction of `reconnectContract`: a suspended contract is active again, or pending where
it was never activated; an active one stays.  `none` is a rollback. -/
def DebtDb.reconnectContract (db : DebtDb) (orgId : ℕ) (a : DebtAnswer) : Option DebtDb :=
  if db.contract.deleted = true ∨ db.contract.organization_id ≠ orgId ∨ a.throws = true then none
  else if db.contract.status = .suspended then
    some (db.setStatus (if db.contract.activated then .active else .pending))
  else if db.contract.status = .active ∧ db.contract.activated = true then some db
  else none

/-! ### The calls -/

inductive DebtCall where
  | suspendContract
  | pay (call : PaymentCall)
  | midnight

/-- The statement a call stands before. -/
inductive DebtTask where
  | checking
  | locking
  | suspending
  | committing
  | paying (call : PaymentCall)
  | looking (orgId : ℕ) (invoices : List Invoice)
  | reconnecting (orgId : ℕ) (rest : List Invoice)
  | midnight
  | done
  deriving DecidableEq

def DebtCall.start : DebtCall → DebtTask
  | suspendContract => .checking
  | pay call => .paying call
  | midnight => .midnight

/-- One statement of a call.  Whoever finds the contract locked waits. -/
def nextDebt (db : DebtDb) : DebtTask → DebtAnswer → DebtDb × DebtTask
  | .checking, a => (db, if a.exempt then .done else .locking)
  | .locking, _ =>
    if db.locked then (db, .locking)
    else if db.contract.deleted = true ∨ db.contract.status ≠ .active then (db, .done)
    else ({ db with locked := true }, .suspending)
  | .suspending, _ =>
    -- the debt is a plain read, the update stays invisible until the commit
    if db.owed then ({ db with uncommitted := some .suspended }, .committing)
    else ({ db with locked := false }, .done)
  | .committing, a =>
    if a.throws then ({ db with locked := false, uncommitted := none }, .done)
    else ({ db.setStatus .suspended with locked := false, uncommitted := none }, .done)
  | .paying call, _ =>
    match call.transaction db.books with
    | .error _ => (db, .done)
    | .ok books => ({ db with books }, .looking call.orgId (justPaid db.books books))
  | .looking _ [], _ => (db, .done)
  | .looking orgId (invoice :: rest), _ =>
    (db, if db.findsSuspended orgId invoice then .reconnecting orgId rest else .looking orgId rest)
  | .reconnecting orgId rest, a =>
    if db.locked then (db, .reconnecting orgId rest)
    else
      match db.reconnectContract orgId a with
      | none => (db, .done)
      | some db => (db, .looking orgId rest)
  | .midnight, _ => ({ db with today := db.today + 1 }, .done)
  | .done, _ => (db, .done)

end Vigabss.Suspension
