import Vigabss.Billing.CreditLedger

/-!
# Vigabss.Billing.GroupPayments — the primary of a shared group pays for its members

`payGroup` on the billing tables: one payment of the primary, spread over the open invoices of all
members, oldest first, and after the commit the ledger credits of `writeGroupLedgerCredits`.
Amounts are JavaScript numbers, as the service computes them; the columns hold cents.
-/

namespace Vigabss.Billing

open Vigabss.Lib

/-! ### The group -/

/-- A row of `client_groups` with its members. -/
structure ClientGroup where
  shared : Bool
  primary_client_id : Option ℕ
  members : List ℕ
  nodup : members.Nodup

structure GroupOpts where
  amount : Option ℚ
  invoice_ids : Option (List ℕ)
  currency : Option String

def validationError (message : String) : Failure := .app 422 "VALIDATION_ERROR" message

/-- `loadSharedGroup(orgId, groupId)`: the members and the primary. -/
def loadSharedGroup (group : Option ClientGroup) : Except Failure (List ℕ × ℕ) :=
  match group with
  | none => .error (notFound "Client group")
  | some g =>
    if g.shared = false then
      .error (validationError ("This group is not a shared-billing group. Set its billing mode to " ++
        "\"shared\" and designate a primary member first."))
    else
      match g.primary_client_id with
      | none => .error (validationError ("This shared group has no primary member designated. Set " ++
          "a primary member before billing the group."))
      | some primary =>
        if primary ∈ g.members then .ok (g.members, primary)
        else .error (validationError
          "The designated primary member does not belong to this group.")

/-! ### The invoices -/

/-- `Math.round(Number(x.balance_due) * 100) / 100`. -/
def OpenInvoice.due (x : OpenInvoice) : ℚ := round2 (number x.balanceDue)

/-- The open invoices of the members, oldest first. -/
def groupInvoices (db : Db) (orgId : ℕ) (members : List ℕ) : List OpenInvoice :=
  (members.flatMap fun m => getInvoicesWithBalance db orgId m none).insertionSort olderFirst

/-- The invoices asked for by id. -/
def requestedInvoices (rows : List OpenInvoice) (invoice_ids : Option (List ℕ)) :
    Except Failure (List OpenInvoice) :=
  match invoice_ids with
  | none => .ok rows
  | some ids =>
    if ids = [] ∨ 0 ∈ ids then
      .error (validationError "invoice_ids must be a non-empty array of positive integers.")
    else
      let missing := ids.filter fun id => ¬ rows.any fun x => x.invoice.id = id
      if missing ≠ [] then
        .error (validationError ("Invoice id(s) " ++ ", ".intercalate (missing.map toString) ++
          " are not open invoices for this group."))
      else .ok (rows.filter fun x => x.invoice.id ∈ ids)

def upper (s : String) : List Char := s.toList.map Char.toUpper

/-- The invoices in the currency asked for. -/
def invoicesIn (rows : List OpenInvoice) (currency : Option String) :
    Except Failure (List OpenInvoice) :=
  match currency with
  | none => .ok rows
  | some wanted =>
    let kept := rows.filter fun x => upper x.invoice.currency = upper wanted
    if kept.any fun x => decide (0 < x.due) then .ok kept
    else .error (validationError ("This group has no open " ++ String.ofList (upper wanted) ++
      " balance to pay."))

/-- The currency of what is to be paid; the organization's where there is nothing. -/
def paidCurrency (rows : List OpenInvoice) (orgCurrency : String) : Except Failure String :=
  let currencies := ((rows.filter fun x => 0 < x.due).map fun x => x.invoice.currency).dedup
  if 1 < currencies.length then
    .error (validationError ("This group has open invoices in " ++
      " and ".intercalate (currencies.insertionSort fun a b => a ≤ b) ++
      ". A payment settles one currency: choose which one to pay (currency)."))
  else .ok (currencies.head?.getD orgCurrency)

/-- `payableTotal`. -/
def payableTotal (rows : List OpenInvoice) : ℚ :=
  round2 (rows.foldl (fun s x => fl (s + max 0 x.due)) 0)

/-! ### Spreading the payment -/

/-- What was applied to an invoice of a member. -/
structure SettledShare where
  invoice_id : ℕ
  client_id : ℕ
  amount : ℚ

structure Spread where
  db : Db
  settled : List SettledShare
  justPaid : List ℕ

/-- How `payGroup` answers an allocation that fails. -/
def allocationError (err : Failure) : Failure :=
  if err = insertFailure (.signal "") then
    validationError "Allocation would exceed an invoice or the payment total."
  else err

/-- The loop over the invoices, oldest first, until the amount is used up. -/
def spread (payment : Payment) : Db → ℚ → List OpenInvoice → Except Failure Spread
  | db, _, [] => .ok ⟨db, [], []⟩
  | db, remainder, x :: rest =>
    if remainder ≤ fl (5 / 1000) then .ok ⟨db, [], []⟩
    else
      let balanceDue := max 0 x.due
      if balanceDue ≤ 0 then spread payment db remainder rest
      else
        let applyAmount := round2 (min remainder balanceDue)
        if applyAmount ≤ 0 then spread payment db remainder rest
        else
          match applyAllocation db payment x.invoice (toDecimal applyAmount) true true with
          | .error err =>
            if err = insertFailure .duplicateEntry then spread payment db remainder rest
            else .error (allocationError err)
          | .ok (db, _, becamePaid) => do
            let later ← spread payment db (round2 (fl (remainder - applyAmount))) rest
            return { later with
              settled := ⟨x.invoice.id, x.invoice.clientId, applyAmount⟩ :: later.settled
              justPaid := if becamePaid then x.invoice.id :: later.justPaid else later.justPaid }

/-! ### The ledger -/

/-- `byClient.set(c, round((byClient.get(c) || 0) + amount))`, in the order of the map. -/
def addFor (c : ℕ) (amount : ℚ) : List (ℕ × ℚ) → List (ℕ × ℚ)
  | [] => [(c, round2 (fl (0 + amount)))]
  | (d, x) :: rest =>
    if d = c then (d, round2 (fl (x + amount))) :: rest else (d, x) :: addFor c amount rest

/-- `Math.round(settled.reduce((s, a) => s + a.amount, 0) * 100) / 100`. -/
def allocatedTotal (amounts : List ℚ) : ℚ := round2 (amounts.foldl (fun s a => fl (s + a)) 0)

/-- The amounts that `writeGroupLedgerCredits` credits to each client. -/
def groupCredits (settled : List SettledShare) (primaryId : ℕ) (totalAmount : ℚ) : List (ℕ × ℚ) :=
  let byClient := settled.foldl (fun m a => addFor a.client_id a.amount m) []
  let remainder := round2 (fl (totalAmount - allocatedTotal (settled.map SettledShare.amount)))
  let byClient := if fl (5 / 1000) < remainder then addFor primaryId remainder byClient else byClient
  byClient.filter fun credit => fl (5 / 1000) < credit.2

/-- `writeGroupLedgerCredits`. -/
def writeGroupLedgerCredits (db : Db) (orgId paymentId : ℕ) (currency : String)
    (credits : List (ℕ × ℚ)) : Db :=
  { db with ledger := db.ledger ++ credits.map fun (clientId, amount) =>
      ⟨clientId, orgId, .credit, toDecimal amount, currency, .payment, paymentId⟩ }

/-! ### `payGroup` -/

structure GroupPaid where
  db : Db
  payment : Payment
  settled : List SettledShare
  justPaid : List ℕ

/-- The payment of the primary, under an id. -/
def groupPayment (orgId primaryId : ℕ) (amount : ℚ) (currency : String) (id : ℕ) : Payment :=
  ⟨id, orgId, primaryId, toDecimal amount, currency, .completed, none, false⟩

theorem key_groupPayment (orgId primaryId : ℕ) (amount : ℚ) (currency : String) (id : ℕ) :
    Keyed.key (groupPayment orgId primaryId amount currency id) = id := rfl

/-- The amount to pay: the one asked for, or all there is to pay. -/
def groupAmount (rows : List OpenInvoice) (amount : Option ℚ) : Except Failure ℚ :=
  let paid := amount.elim (payableTotal rows) round2
  if 0 < paid then .ok paid
  else if payableTotal rows ≤ 0 then
    .error (validationError "This group has no open balance to pay.")
  else .error (validationError "Payment amount must be greater than zero.")

/-- The transaction of `payGroup` and the credits that follow it. -/
def settleGroup (db : Db) (orgId primaryId : ℕ) (currency : String) (amount : ℚ)
    (rows : List OpenInvoice) : Except Failure GroupPaid := do
  let payment := groupPayment orgId primaryId amount currency db.payments.nextId
  if decimalMax < payment.amount then .error (.sql (outOfRange "amount"))
  let paid := { db with
    payments := db.payments.insert (groupPayment orgId primaryId amount currency)
      (key_groupPayment orgId primaryId amount currency) }
  let done ← spread payment paid amount rows
  return {
    db := writeGroupLedgerCredits done.db orgId payment.id currency
      (groupCredits done.settled primaryId amount)
    payment := payment, settled := done.settled, justPaid := done.justPaid }

/-- What a request comes to: the payer, the invoices, the currency and the amount. -/
structure GroupRequest where
  primaryId : ℕ
  rows : List OpenInvoice
  currency : String
  amount : ℚ

/-- The checks of `payGroup`, up to the payment. -/
def groupRequest (db : Db) (group : Option ClientGroup) (orgId : ℕ) (orgCurrency : String)
    (opts : GroupOpts) : Except Failure GroupRequest := do
  let (members, primaryId) ← loadSharedGroup group
  let rows ← requestedInvoices (groupInvoices db orgId members) opts.invoice_ids
  let rows ← invoicesIn rows opts.currency
  let currency ← paidCurrency rows orgCurrency
  let amount ← groupAmount rows opts.amount
  return ⟨primaryId, rows, currency, amount⟩

/-- `payGroup(orgId, groupId, opts)`. -/
def payGroup (db : Db) (group : Option ClientGroup) (orgId : ℕ) (orgCurrency : String)
    (opts : GroupOpts) : Except Failure GroupPaid := do
  let r ← groupRequest db group orgId orgCurrency opts
  settleGroup db orgId r.primaryId r.currency r.amount r.rows

end Vigabss.Billing
