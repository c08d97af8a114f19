import Vigabss.Billing.Requests

/-!
# Vigabss.Billing.PaymentPlans — plans and their installments

`createPlan` and `checkInstallmentsDue`, and the runs in which they take turns with
`payInstallment` and with whatever else writes the billing tables.  Each payment settles one
installment at most and each installment is settled once (`installments_settled_once`).
-/

namespace Vigabss.Billing

open Vigabss.Lib

/-! ### The code -/

/-- `splitAmounts(total, count)`: equal parts rounded down to cents, the last with the rest. -/
def splitAmounts (total : ℚ) (count : ℕ) : List ℚ :=
  let unit := number ⌊fl (fl (total / count) * 100)⌋
  let sumOfOthers := fl (unit * (count - 1))
  List.replicate (count - 1) unit ++ [number (mathRound (fl (fl (total - sumOfOthers) * 100)))]

/-- The row of `payment_plan_installments` that `createPlan` inserts. -/
def newInstallment (planId : ℕ) (invoiceId : Option ℕ) (sequence : ℕ) (amount : ℚ) (id : ℕ) :
    Installment :=
  ⟨id, planId, sequence, invoiceId, toDecimal amount, .pending, none⟩

theorem key_newInstallment (planId : ℕ) (invoiceId : Option ℕ) (sequence : ℕ) (amount : ℚ)
    (id : ℕ) : Keyed.key (newInstallment planId invoiceId sequence amount id) = id := rfl

/-- The loop over the amounts, from a sequence number on. -/
def insertInstallments (planId : ℕ) (invoiceId : Option ℕ) :
    List ℚ → ℕ → Table Installment → Table Installment
  | [], _, t => t
  | amount :: amounts, sequence, t =>
    insertInstallments planId invoiceId amounts (sequence + 1)
      (t.insert (newInstallment planId invoiceId sequence amount)
        (key_newInstallment planId invoiceId sequence amount))

/-- `resolvedTotal`: what the invoice still owes, or the amount asked for. -/
def planTotal (db : Db) (orgId clientId : ℕ) (invoiceId : Option ℕ) (totalAmount : ℚ) :
    Except Failure ℚ :=
  match invoiceId with
  | none => .ok totalAmount
  | some id =>
    match findInvoice db id orgId with
    | none => .error (notFound "invoices")
    | some invoice =>
      if invoice.clientId ≠ clientId then
        .error (.app 422 "VALIDATION_ERROR" "invoice_id does not belong to client_id")
      else if invoice.status.payable = false then
        .error (.app 422 "VALIDATION_ERROR" ("Only an unpaid invoice can be split into a " ++
          "payment plan (this one is " ++ invoice.status.name ++ ")."))
      else .ok (number (mathRound (fl (number (invoice.total - db.coveredOf id) * 100))))

/-- The row of `payment_plans` that `createPlan` inserts. -/
def newPlan (orgId clientId id : ℕ) : PaymentPlan := ⟨id, orgId, clientId, .active, false⟩

theorem key_newPlan (orgId clientId id : ℕ) : Keyed.key (newPlan orgId clientId id) = id := rfl

/-- The inserts of `createPlan`. -/
def insertPlan (db : Db) (orgId clientId : ℕ) (invoiceId : Option ℕ) (amounts : List ℚ) : Db :=
  { db with
    plans := db.plans.insert (newPlan orgId clientId) (key_newPlan orgId clientId)
    installments := insertInstallments db.plans.nextId invoiceId amounts 1 db.installments }

/-- `createPlan`, on what it writes of a plan. -/
def createPlan (db : Db) (orgId clientId : ℕ) (invoiceId : Option ℕ) (totalAmount : ℚ)
    (installmentCount : ℕ) : Except Failure Db := do
  let resolvedTotal ← planTotal db orgId clientId invoiceId totalAmount
  if resolvedTotal ≤ 0 then
    .error (.app 422 "VALIDATION_ERROR" "total_amount must be greater than zero")
  if installmentCount < 1 ∨ 60 < installmentCount then
    .error (.app 422 "VALIDATION_ERROR" "installment_count must be between 1 and 60")
  return insertPlan db orgId clientId invoiceId (splitAmounts resolvedTotal installmentCount)

/-- `checkInstallmentsDue()`, on a row and whether its due date has passed. -/
def markOverdue (pastDue : ℕ → Bool) (i : Installment) : Installment :=
  if i.status = .pending ∧ pastDue i.id then { i with status := .overdue } else i

theorem markOverdue_id (pastDue : ℕ → Bool) (i : Installment) : (markOverdue pastDue i).id = i.id := by
  rw [markOverdue]
  split_ifs <;> rfl

theorem markOverdue_key (pastDue : ℕ → Bool) : Keyed.key ∘ markOverdue pastDue = Keyed.key :=
  funext (markOverdue_id pastDue)

/-- `checkInstallmentsDue()`. -/
def checkInstallmentsDue (db : Db) (pastDue : ℕ → Bool) : Db :=
  { db with
    installments := ⟨db.installments.rows.map (markOverdue pastDue), by
      rw [List.map_map, markOverdue_key]
      exact db.installments.nodup⟩ }

/-- What happens to the plans: calls of the payment plan service, and `elsewhere` all that writes
the other tables, as recording a payment, applying one or issuing a credit note. -/
inductive PlanEvent where
  | payInstallment (orgId planId sequence paymentId : ℕ)
  | createPlan (orgId clientId : ℕ) (invoiceId : Option ℕ) (totalAmount : ℚ)
      (installmentCount : ℕ)
  | checkInstallmentsDue (pastDue : ℕ → Bool)
  | elsewhere (others : Db)

def planStep (db : Db) : PlanEvent → Db
  | .payInstallment orgId planId sequence paymentId =>
    commit db (payInstallment db orgId planId sequence paymentId)
  | .createPlan orgId clientId invoiceId totalAmount installmentCount =>
    commit db (createPlan db orgId clientId invoiceId totalAmount installmentCount)
  | .checkInstallmentsDue pastDue => checkInstallmentsDue db pastDue
  | .elsewhere others => { others with plans := db.plans, installments := db.installments }

/-- A payment settled an installment. -/
structure Settlement where
  installmentId : ℕ
  paymentId : ℕ

/-- The installment of a plan with a sequence number. -/
def findInstallment (db : Db) (planId sequence : ℕ) : Option Installment :=
  db.installments.rows.find? fun i => i.planId = planId ∧ i.sequence = sequence

/-- The settlement that an event makes. -/
def settlement (db : Db) : PlanEvent → Option Settlement
  | .payInstallment orgId planId sequence paymentId =>
    match payInstallment db orgId planId sequence paymentId with
    | .ok _ => (findInstallment db planId sequence).map fun i => ⟨i.id, paymentId⟩
    | .error _ => none
  | _ => none

/-- The settlements of a run. -/
def settlements (db : Db) : List PlanEvent → List Settlement
  | [] => []
  | event :: events =>
    (settlement db event).toList ++ settlements (planStep db event) events

/-! ### What a settlement writes -/

theorem allocateInstallment_plans {db db' : Db} {orgId clientId : ℕ} {installment : Installment}
    {payment : Payment} (h : allocateInstallment db orgId clientId installment payment = .ok db') :
    db'.plans = db.plans ∧ db'.installments = db.installments := by
  rcases allocateInstallment_ok h with rfl | ⟨_, x, amount, id, paid, _, _, _, happly⟩
  · exact ⟨rfl, rfl⟩
  · obtain ⟨_, db₁, hins, rfl⟩ := applyAllocation_ok happly
    obtain ⟨-, -, rfl⟩ := Db.insertAllocation_ok hins
    simp only [if_true, finalizeIfFullyPaid]
    split_ifs <;> exact ⟨rfl, rfl⟩

/-- **The allocation that `payInstallment` creates** is at most what its invoice still owes. -/
def AllocatesWithinBalance (db db' : Db) (paymentId : ℕ) : Prop :=
  db'.allocations = db.allocations ∨
    ∃ invoice amount db₁ id, db.invoices.find? invoice.id = some invoice ∧ 0 < amount ∧
      amount ≤ invoice.total - db.coveredOf invoice.id ∧
      db.insertAllocation paymentId invoice.id amount = .ok (db₁, id) ∧
      db'.allocations = db₁.allocations

theorem markInstallmentPaid_allocations (db : Db) (planId installmentId paymentId : ℕ) :
    (markInstallmentPaid db planId installmentId paymentId).allocations = db.allocations := by
  rw [markInstallmentPaid]
  dsimp only
  split_ifs <;> rfl

theorem payInstallment_within {db db' : Db} {orgId planId sequence paymentId : ℕ}
    (h : payInstallment db orgId planId sequence paymentId = .ok db') :
    AllocatesWithinBalance db db' paymentId := by
  obtain ⟨payment, clientId, installment, db₁, hpay, halloc, rfl⟩ := payInstallment_marks h
  rw [AllocatesWithinBalance, markInstallmentPaid_allocations]
  rcases allocateInstallment_ok halloc with rfl | ⟨ids, x, amount, id, paid, hx, hpos, hle, happly⟩
  · exact Or.inl rfl
  · right
    obtain ⟨_, db₂, hins, rfl⟩ := applyAllocation_ok happly
    obtain ⟨hfind, _, hbalance⟩ := mem_getInvoicesWithBalance hx
    have hid : payment.id = paymentId :=
      (Table.find?_eq_some.1 (Option.filter_eq_some_iff.1 hpay).1).2
    refine ⟨x.invoice, amount, db₂, id, hfind, hpos, hbalance ▸ hle, hid ▸ hins, ?_⟩
    simp only [if_true, finalizeIfFullyPaid]
    split_ifs <;> rfl

end Vigabss.Billing

/-!
## Installments are settled once

Beside the history of the settlements, the rows say who settled what (`PlansSound`); a settlement
finds its installment unpaid and its payment unused, so no history names either twice.
-/

namespace Vigabss.Billing

open Vigabss.Lib

/-- All installments of a plan are paid. -/
def AllPaid (db : Db) (planId : ℕ) : Prop :=
  ∀ i ∈ db.installments.rows, i.planId = planId → i.status = .paid

/-- A row is paid just when a payment is recorded in it. -/
def Installment.Recorded (i : Installment) : Prop := i.status = .paid ↔ i.paidPaymentId.isSome

/-- **The invariant**: the rows agree with the settlements made so far. -/
structure PlansSound (db : Db) (done : List Settlement) : Prop where
  linked : ∀ i ∈ db.installments.rows, i.planId < db.plans.nextId
  recorded : ∀ i ∈ db.installments.rows, i.Recorded
  settled : ∀ s ∈ done, ∃ i, db.installments.find? s.installmentId = some i ∧
    i.paidPaymentId = some s.paymentId
  completed : ∀ plan ∈ db.plans.rows, plan.status = .completed ↔ AllPaid db plan.id
  payments : (done.map Settlement.paymentId).Nodup
  installments : (done.map Settlement.installmentId).Nodup

variable {db : Db} {done : List Settlement}

/-! ### A settlement -/

/-- The row that a settlement writes. -/
def settledBy (paymentId : ℕ) (i : Installment) : Installment :=
  { i with status := .paid, paidPaymentId := some paymentId }

theorem key_settledBy (paymentId : ℕ) (i : Installment) :
    Keyed.key (settledBy paymentId i) = Keyed.key i := rfl

theorem markInstallmentPaid_installments (db : Db) (planId installmentId paymentId : ℕ) :
    (markInstallmentPaid db planId installmentId paymentId).installments =
      db.installments.modify installmentId (settledBy paymentId) (key_settledBy paymentId) := by
  rw [markInstallmentPaid]
  dsimp only
  split_ifs <;> rfl

theorem markInstallmentPaid_plans (db : Db) (planId installmentId paymentId : ℕ) :
    let after := markInstallmentPaid db planId installmentId paymentId
    (¬ AllPaid after planId ∧ after.plans = db.plans) ∨
      (AllPaid after planId ∧ after.plans =
        db.plans.modify planId (fun p => { p with status := .completed }) fun _ => rfl) := by
  dsimp only
  have hrows := markInstallmentPaid_installments db planId installmentId paymentId
  rw [AllPaid, hrows, markInstallmentPaid]
  dsimp only
  split_ifs with h
  · left
    obtain ⟨i, hi, hunpaid⟩ := List.any_eq_true.1 h
    simp only [decide_eq_true_eq] at hunpaid
    exact ⟨fun hall => hunpaid.2 (hall i hi hunpaid.1), rfl⟩
  · right
    refine ⟨fun i hi hplan => ?_, rfl⟩
    by_contra hunpaid
    exact h (List.any_eq_true.2 ⟨i, hi, by simpa using ⟨hplan, hunpaid⟩⟩)

theorem mem_settled {t : Table Installment} {id paymentId : ℕ} {target i : Installment}
    (htarget : t.find? id = some target) :
    i ∈ (t.modify id (settledBy paymentId) (key_settledBy paymentId)).rows ↔
      (i ∈ t.rows ∧ i.id ≠ id) ∨ i = settledBy paymentId target := by
  rw [Table.mem_modify, htarget]
  constructor
  · rintro (h | ⟨b, hb, rfl⟩)
    · exact Or.inl h
    · cases hb
      exact Or.inr rfl
  · rintro (h | rfl)
    · exact Or.inl h
    · exact Or.inr ⟨target, rfl, rfl⟩

theorem PlansSound.congr (h : PlansSound db done) {db' : Db} (hplans : db'.plans = db.plans)
    (hinstallments : db'.installments = db.installments) : PlansSound db' done where
  linked := by
    rw [hinstallments, hplans]
    exact h.linked
  recorded := by
    rw [hinstallments]
    exact h.recorded
  settled := by
    rw [hinstallments]
    exact h.settled
  completed := by
    rw [hplans]
    simp only [AllPaid, hinstallments]
    exact h.completed
  payments := h.payments
  installments := h.installments

/-- **A settlement keeps the invariant**, and is not in the history yet. -/
theorem PlansSound.markInstallmentPaid (h : PlansSound db done) {plan : PaymentPlan}
    {target : Installment} {planId paymentId : ℕ} (hplan : db.plans.find? planId = some plan)
    (hactive : plan.status = .active) (htarget : target ∈ db.installments.rows)
    (hof : target.planId = planId) (hunpaid : target.status ≠ .paid)
    (hunused : ∀ i ∈ db.installments.rows, i.paidPaymentId ≠ some paymentId) :
    PlansSound (markInstallmentPaid db planId target.id paymentId)
      (done ++ [⟨target.id, paymentId⟩]) := by
  have hfind : db.installments.find? target.id = some target := Table.find?_key htarget
  have hrows := markInstallmentPaid_installments db planId target.id paymentId
  have hmem : ∀ i, i ∈ (Billing.markInstallmentPaid db planId target.id paymentId).installments.rows
      ↔ (i ∈ db.installments.rows ∧ i.id ≠ target.id) ∨ i = settledBy paymentId target := by
    intro i
    rw [hrows]
    exact mem_settled hfind
  have hplans := markInstallmentPaid_plans db planId target.id paymentId
  dsimp only at hplans
  have hnext : (Billing.markInstallmentPaid db planId target.id paymentId).plans.nextId =
      db.plans.nextId := by
    rcases hplans with ⟨_, heq⟩ | ⟨_, heq⟩
    · rw [heq]
    · rw [heq, Table.nextId_modify]
  -- no settlement of the history is about this installment or this payment
  have hfresh : ∀ s ∈ done, s.installmentId ≠ target.id ∧ s.paymentId ≠ paymentId := by
    intro s hs
    obtain ⟨i, hi, hpaid⟩ := h.settled s hs
    obtain ⟨hi, hid⟩ := Table.find?_eq_some.1 hi
    constructor
    · intro heq
      obtain rfl : i = target := Table.eq_of_key_eq hi htarget (hid.trans heq)
      exact hunpaid ((h.recorded i hi).2 (by rw [hpaid]; rfl))
    · rintro rfl
      exact hunused i hi hpaid
  refine ⟨?_, ?_, ?_, ?_, ?_, ?_⟩
  · intro i hi
    rw [hnext]
    rcases (hmem i).1 hi with ⟨hi, -⟩ | rfl
    · exact h.linked i hi
    · exact h.linked target htarget
  · intro i hi
    rcases (hmem i).1 hi with ⟨hi, -⟩ | rfl
    · exact h.recorded i hi
    · exact ⟨fun _ => rfl, fun _ => rfl⟩
  · intro s hs
    rw [hrows, Table.find?_modify]
    rcases List.mem_append.1 hs with hs | hs
    · rw [if_neg (hfresh s hs).1]
      exact h.settled s hs
    · rw [List.mem_singleton.1 hs, if_pos rfl, hfind]
      exact ⟨_, rfl, rfl⟩
  · -- the plan of the installment was active; the others keep their installments
    have hother : ∀ p ∈ db.plans.rows, p.id ≠ planId → (p.status = .completed ↔
        AllPaid (Billing.markInstallmentPaid db planId target.id paymentId) p.id) := by
      intro p hp hne
      rw [h.completed p hp]
      constructor
      · intro hall i hi hof'
        rcases (hmem i).1 hi with ⟨hi, -⟩ | rfl
        · exact hall i hi hof'
        · rfl
      · intro hall i hi hof'
        refine hall i ((hmem i).2 (Or.inl ⟨hi, fun heq => ?_⟩)) hof'
        obtain rfl : i = target := Table.eq_of_key_eq hi htarget heq
        exact hne (hof'.symm.trans hof)
    obtain ⟨hplanmem, hplanid⟩ := Table.find?_eq_some.1 hplan
    intro p hp
    rcases hplans with ⟨hnot, heq⟩ | ⟨hall, heq⟩
    · rw [heq] at hp
      by_cases hid : p.id = planId
      · obtain rfl : p = plan := Table.eq_of_key_eq hp hplanmem (hid.trans hplanid.symm)
        rw [hid, hactive]
        constructor
        · intro hcompleted
          cases hcompleted
        · exact fun hall => absurd hall hnot
      · exact hother p hp hid
    · rw [heq] at hp
      rcases Table.mem_modify.1 hp with ⟨hp, hid⟩ | ⟨b, hb, rfl⟩
      · exact hother p hp hid
      · have hid : b.id = planId := (Table.find?_eq_some.1 hb).2
        exact ⟨fun _ => hid ▸ hall, fun _ => rfl⟩
  · rw [List.map_append, List.nodup_append]
    refine ⟨h.payments, List.nodup_singleton _, fun a ha b hb => ?_⟩
    obtain ⟨s, hs, rfl⟩ := List.mem_map.1 ha
    rw [List.map_singleton, List.mem_singleton] at hb
    exact hb ▸ (hfresh s hs).2
  · rw [List.map_append, List.nodup_append]
    refine ⟨h.installments, List.nodup_singleton _, fun a ha b hb => ?_⟩
    obtain ⟨s, hs, rfl⟩ := List.mem_map.1 ha
    rw [List.map_singleton, List.mem_singleton] at hb
    exact hb ▸ (hfresh s hs).1

theorem findInstallment_some {planId sequence : ℕ} {i : Installment}
    (h : findInstallment db planId sequence = some i) :
    i ∈ db.installments.rows ∧ i.planId = planId := by
  refine ⟨List.mem_of_find?_eq_some h, ?_⟩
  have := List.find?_some h
  simp only [decide_eq_true_eq] at this
  exact this.1

theorem PlansSound.payInstallment (h : PlansSound db done) {db' : Db}
    {orgId planId sequence paymentId : ℕ}
    (hok : payInstallment db orgId planId sequence paymentId = .ok db') :
    PlansSound db' (done ++ (settlement db
      (.payInstallment orgId planId sequence paymentId)).toList) := by
  obtain ⟨plan, target, payment, db₁, hplan, hactive, htarget, hunpaid, _, hunused, halloc, rfl⟩ :=
    payInstallment_settles hok
  obtain ⟨hplans, hinstallments⟩ := allocateInstallment_plans halloc
  obtain ⟨hmem, hof⟩ := findInstallment_some htarget
  have hsettlement : settlement db (.payInstallment orgId planId sequence paymentId) =
      some ⟨target.id, paymentId⟩ := by
    simp only [settlement, hok, findInstallment, htarget, Option.map_some]
  rw [hsettlement]
  refine (h.congr hplans hinstallments).markInstallmentPaid (hplans ▸ hplan) hactive
    (hinstallments ▸ hmem) hof hunpaid ?_
  rw [hinstallments]
  exact hunused

/-! ### The other events -/

theorem insertInstallments_rows (planId : ℕ) (invoiceId : Option ℕ) (amounts : List ℚ)
    (sequence : ℕ) (t : Table Installment) :
    ∃ new : List Installment, (insertInstallments planId invoiceId amounts sequence t).rows =
      t.rows ++ new ∧ new.length = amounts.length ∧
      ∀ i ∈ new, i.planId = planId ∧ i.status = .pending ∧ i.paidPaymentId = none := by
  induction amounts generalizing sequence t with
  | nil => exact ⟨[], (List.append_nil _).symm, rfl, fun _ h => absurd h List.not_mem_nil⟩
  | cons amount amounts ih =>
    rw [insertInstallments]
    obtain ⟨new, hrows, hlength, hnew⟩ := ih (sequence + 1)
      (t.insert (newInstallment planId invoiceId sequence amount)
        (key_newInstallment planId invoiceId sequence amount))
    refine ⟨newInstallment planId invoiceId sequence amount t.nextId :: new, ?_, ?_, ?_⟩
    · rw [hrows]
      exact List.append_assoc _ _ _
    · rw [List.length_cons, List.length_cons, hlength]
    · intro i hi
      rcases List.mem_cons.1 hi with rfl | hi
      · exact ⟨rfl, rfl, rfl⟩
      · exact hnew i hi

theorem splitAmounts_length (total : ℚ) {count : ℕ} (h : 1 ≤ count) :
    (splitAmounts total count).length = count := by
  rw [splitAmounts]
  simp only [List.length_append, List.length_replicate, List.length_singleton]
  omega

theorem createPlan_ok {db db' : Db} {orgId clientId : ℕ} {invoiceId : Option ℕ} {totalAmount : ℚ}
    {installmentCount : ℕ}
    (h : createPlan db orgId clientId invoiceId totalAmount installmentCount = .ok db') :
    ∃ amounts : List ℚ, amounts ≠ [] ∧ db' = insertPlan db orgId clientId invoiceId amounts := by
  unfold createPlan at h
  obtain ⟨total, _, h⟩ := except_bind_ok.1 h
  obtain ⟨-, h⟩ := check_ok h
  obtain ⟨hcount, h⟩ := check_ok h
  cases h
  refine ⟨_, ?_, rfl⟩
  rw [← List.length_pos_iff, splitAmounts_length total (by omega)]
  omega

theorem PlansSound.createPlan (h : PlansSound db done) {db' : Db} {orgId clientId : ℕ}
    {invoiceId : Option ℕ} {totalAmount : ℚ} {installmentCount : ℕ}
    (hok : createPlan db orgId clientId invoiceId totalAmount installmentCount = .ok db') :
    PlansSound db' done := by
  obtain ⟨amounts, hne, rfl⟩ := createPlan_ok hok
  obtain ⟨new, hrows, hlength, hnew⟩ :=
    insertInstallments_rows db.plans.nextId invoiceId amounts 1 db.installments
  have hmem : ∀ i, i ∈ (insertPlan db orgId clientId invoiceId amounts).installments.rows ↔
      i ∈ db.installments.rows ∨ i ∈ new := by
    intro i
    rw [insertPlan, hrows, List.mem_append]
  refine ⟨?_, ?_, ?_, ?_, h.payments, h.installments⟩
  · intro i hi
    have hnext : (insertPlan db orgId clientId invoiceId amounts).plans.nextId =
        db.plans.nextId + 1 := Table.nextId_insert _ _ (key_newPlan orgId clientId)
    rw [hnext]
    rcases (hmem i).1 hi with hi | hi
    · have := h.linked i hi
      omega
    · have := (hnew i hi).1
      omega
  · intro i hi
    rcases (hmem i).1 hi with hi | hi
    · exact h.recorded i hi
    · rw [Installment.Recorded, (hnew i hi).2.1, (hnew i hi).2.2]
      simp
  · intro s hs
    obtain ⟨i, hi, hpaid⟩ := h.settled s hs
    obtain ⟨hi, hid⟩ := Table.find?_eq_some.1 hi
    exact ⟨i, Table.find?_eq_some.2 ⟨(hmem i).2 (Or.inl hi), hid⟩, hpaid⟩
  · intro p hp
    have hp : p ∈ (db.plans.insert (newPlan orgId clientId) (key_newPlan orgId clientId)).rows := hp
    rcases Table.mem_insert.1 hp with hp | rfl
    · rw [h.completed p hp]
      have hid : p.id < db.plans.nextId := Table.key_lt_nextId hp
      constructor
      · intro hall i hi hof
        rcases (hmem i).1 hi with hi | hi
        · exact hall i hi hof
        · have := (hnew i hi).1
          omega
      · exact fun hall i hi hof => hall i ((hmem i).2 (Or.inl hi)) hof
    · -- the new plan has an installment, which is pending
      obtain ⟨i, hi⟩ : ∃ i, i ∈ new := by
        refine List.exists_mem_of_length_pos ?_
        rw [hlength]
        exact List.length_pos_iff.2 hne
      constructor
      · intro h
        cases h
      · intro hall
        have := hall i ((hmem i).2 (Or.inr hi)) (hnew i hi).1
        rw [(hnew i hi).2.1] at this
        cases this

theorem markOverdue_paid (pastDue : ℕ → Bool) (i : Installment) :
    ((markOverdue pastDue i).status = .paid ↔ i.status = .paid) ∧
      (markOverdue pastDue i).paidPaymentId = i.paidPaymentId ∧
      (markOverdue pastDue i).planId = i.planId := by
  rw [markOverdue]
  split_ifs with h
  · rw [h.1]
    exact ⟨⟨fun h => (by cases h), fun h => (by cases h)⟩, rfl, rfl⟩
  · exact ⟨Iff.rfl, rfl, rfl⟩

theorem PlansSound.checkInstallmentsDue (h : PlansSound db done) (pastDue : ℕ → Bool) :
    PlansSound (checkInstallmentsDue db pastDue) done := by
  refine ⟨?_, ?_, ?_, ?_, h.payments, h.installments⟩
  · intro i hi
    obtain ⟨j, hj, rfl⟩ := List.mem_map.1 hi
    rw [(markOverdue_paid pastDue j).2.2]
    exact h.linked j hj
  · intro i hi
    obtain ⟨j, hj, rfl⟩ := List.mem_map.1 hi
    obtain ⟨hstatus, hpayment, _⟩ := markOverdue_paid pastDue j
    rw [Installment.Recorded, hstatus, hpayment]
    exact h.recorded j hj
  · intro s hs
    obtain ⟨i, hi, hpaid⟩ := h.settled s hs
    obtain ⟨hi, hid⟩ := Table.find?_eq_some.1 hi
    refine ⟨markOverdue pastDue i, Table.find?_eq_some.2 ⟨List.mem_map_of_mem hi, ?_⟩, ?_⟩
    · exact (markOverdue_id pastDue i).trans hid
    · exact (markOverdue_paid pastDue i).2.1.trans hpaid
  · intro p hp
    rw [h.completed p hp]
    constructor
    · intro hall i hi hof
      obtain ⟨j, hj, rfl⟩ := List.mem_map.1 hi
      obtain ⟨hstatus, _, hplan⟩ := markOverdue_paid pastDue j
      exact hstatus.2 (hall j hj (hplan.symm.trans hof))
    · intro hall i hi hof
      obtain ⟨hstatus, _, hplan⟩ := markOverdue_paid pastDue i
      exact hstatus.1 (hall _ (List.mem_map_of_mem hi) (hplan.trans hof))

/-! ### Runs -/

/-- **The step lemma**: an event keeps the invariant, with its settlement in the history. -/
theorem PlansSound.step (h : PlansSound db done) (event : PlanEvent) :
    PlansSound (planStep db event) (done ++ (settlement db event).toList) := by
  cases event with
  | payInstallment orgId planId sequence paymentId =>
    rw [planStep]
    cases hpay : Billing.payInstallment db orgId planId sequence paymentId with
    | error failure =>
      have hnone : settlement db (.payInstallment orgId planId sequence paymentId) = none := by
        simp only [settlement, hpay]
      rw [hnone]
      simpa [commit] using h
    | ok db' => exact h.payInstallment hpay
  | createPlan orgId clientId invoiceId totalAmount installmentCount =>
    rw [show (settlement db _).toList = [] from rfl, List.append_nil]
    exact commit_cases h fun _ hok => h.createPlan hok
  | checkInstallmentsDue pastDue =>
    rw [show (settlement db _).toList = [] from rfl, List.append_nil]
    exact h.checkInstallmentsDue pastDue
  | elsewhere others =>
    rw [show (settlement db _).toList = [] from rfl, List.append_nil]
    exact h.congr rfl rfl

theorem PlansSound.run (h : PlansSound db done) (events : List PlanEvent) :
    PlansSound (run planStep db events) (done ++ settlements db events) := by
  induction events generalizing db done with
  | nil =>
    rw [settlements, List.append_nil]
    exact h
  | cons event events ih =>
    rw [settlements, ← List.append_assoc]
    exact ih (h.step event)

/-- A database without plans. -/
def withoutPlans (db : Db) : Db :=
  { db with plans := ⟨[], List.nodup_nil⟩, installments := ⟨[], List.nodup_nil⟩ }

theorem withoutPlans_sound (db : Db) : PlansSound (withoutPlans db) [] where
  linked := fun _ h => absurd h List.not_mem_nil
  recorded := fun _ h => absurd h List.not_mem_nil
  settled := fun _ h => absurd h List.not_mem_nil
  completed := fun _ h => absurd h List.not_mem_nil
  payments := List.nodup_nil
  installments := List.nodup_nil

/-- **Installments are settled once.**  In every run each payment settles at most one installment
and each installment is settled at most once; at its end every plan is completed exactly when all
its installments are paid, and what the next payment allocates is within what its invoice owes. -/
theorem installments_settled_once (db : Db) (events : List PlanEvent) :
    ((settlements (withoutPlans db) events).map Settlement.paymentId).Nodup ∧
      ((settlements (withoutPlans db) events).map Settlement.installmentId).Nodup ∧
      (∀ plan ∈ (run planStep (withoutPlans db) events).plans.rows,
        plan.status = .completed ↔ AllPaid (run planStep (withoutPlans db) events) plan.id) ∧
      ∀ orgId planId sequence paymentId, AllocatesWithinBalance
        (run planStep (withoutPlans db) events)
        (planStep (run planStep (withoutPlans db) events)
          (.payInstallment orgId planId sequence paymentId)) paymentId := by
  have h := (withoutPlans_sound db).run events
  rw [List.nil_append] at h
  refine ⟨h.payments, h.installments, h.completed, fun orgId planId sequence paymentId => ?_⟩
  exact commit_cases (Or.inl rfl) fun _ hok => payInstallment_within hok

end Vigabss.Billing
