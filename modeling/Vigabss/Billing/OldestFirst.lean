import Vigabss.Billing.GroupShares
import Vigabss.Lib.Money

/-!
# Vigabss.Billing.OldestFirst — an amount spread over open invoices

What the loop of `allocateAcrossInvoices` leaves when it comes to its end: nothing of the amount is
lost, nothing is paid twice, and no invoice is paid before an older one is covered.
-/

namespace Vigabss.Billing

open Vigabss.Lib

/-! ### What an invoice gets -/

/-- An invoice is skipped, or gets some cents: none, where nothing is left for it. -/
inductive Share where
  | skipped
  | given (amount : ℤ)
  deriving DecidableEq, Repr

def Share.amount : Share → ℤ
  | skipped => 0
  | given amount => amount

/-- Skipped, or fully covered. -/
def CoveredBy (s : OpenInvoice × Share) : Prop := s.2 = .skipped ∨ s.2 = .given s.1.balanceDue

/-- The row of an allocation that is made of the share. -/
def Share.row (s : OpenInvoice × Share) : Option (ℕ × ℤ) :=
  if 0 < s.2.amount then some (s.1.invoice.id, s.2.amount) else none

/-- A live allocation from the payment to the invoice. -/
def Db.Pays (db : Db) (payment : Payment) (invoiceId : ℕ) : Prop :=
  ∃ a ∈ db.allocations.rows, ofPayment payment.id a = true ∧ a.invoiceId = invoiceId

/-- The amount is spread over the invoices in their order. -/
structure OldestFirst (payment : Payment) (amount : ℤ) (rows : List OpenInvoice)
    (applied : Applied) (spread : List (OpenInvoice × Share)) : Prop where
  rows : spread.map Prod.fst = rows
  recorded : applied.allocations.map (fun a => (a.2.1, a.2.2)) = spread.filterMap Share.row
  conserved : (applied.allocations.map fun a => a.2.2).sum + applied.remainder = amount
  shared : (spread.map fun s => s.2.amount).sum + applied.remainder = amount
  left : 0 ≤ amount → 0 ≤ applied.remainder
  bounded : ∀ s ∈ spread, 0 ≤ s.2.amount ∧ s.2.amount ≤ max 0 s.1.balanceDue
  skipped : ∀ s ∈ spread, s.2 = .skipped →
    s.1.balanceDue ≤ 0 ∨ applied.db.Pays payment s.1.invoice.id
  ordered : spread.Pairwise fun s t => 0 < t.2.amount → CoveredBy s
  exhausted : 0 < applied.remainder → ∀ s ∈ spread, CoveredBy s

section Loop

variable {payment : Payment} {db : Db} {remainder : ℤ} {applied : Applied}
  {rows rest : List OpenInvoice} {x : OpenInvoice} {spread : List (OpenInvoice × Share)}

/-! ### What is paid stays paid -/

theorem pays_finalize (db : Db) (invoice : Invoice) (invoiceId : ℕ) :
    (finalizeIfFullyPaid db invoice).1.Pays payment invoiceId ↔ db.Pays payment invoiceId := by
  rw [Db.Pays, finalize_eq]
  rfl

theorem Db.Pays.across {invoiceId : ℕ} (h : db.Pays payment invoiceId)
    (happ : allocateAcrossInvoices payment db remainder rows = .ok applied) :
    applied.db.Pays payment invoiceId := by
  refine allocateAcross_rule (I := fun _ db' => db'.Pays payment invoiceId) (fun _ _ _ hI => hI)
    ?_ h happ
  intro x rest db₁ db₂ amount id paid hI _ _ happly
  obtain ⟨-, db₃, hins, rfl⟩ := applyAllocation_ok happly
  obtain ⟨-, -, rfl⟩ := Db.insertAllocation_ok hins
  rw [if_pos rfl, pays_finalize]
  obtain ⟨a, ha, hof⟩ := hI
  exact ⟨a, Table.mem_insert.2 (.inl ha), hof⟩

theorem pays_of_duplicate {invoice : Invoice} {amount : ℤ} {anyClient finalize : Bool}
    (h : applyAllocation db payment invoice amount anyClient finalize =
      .error (insertFailure .duplicateEntry)) : db.Pays payment invoice.id := by
  by_contra hnone
  refine applyAllocation_ne_duplicate (fun a ha hof hid => ?_) h
  exact hnone ⟨a, ha, hof, hid⟩

/-! ### One invoice -/

theorem OldestFirst.none : OldestFirst payment remainder [] ⟨db, [], [], remainder⟩ [] where
  rows := rfl
  recorded := rfl
  conserved := zero_add _
  shared := zero_add _
  left := id
  bounded _ hs := absurd hs List.not_mem_nil
  skipped _ hs := absurd hs List.not_mem_nil
  ordered := .nil
  exhausted _ _ hs := absurd hs List.not_mem_nil

theorem OldestFirst.stop (hrem : remainder ≤ 0) :
    OldestFirst payment remainder rows ⟨db, [], [], remainder⟩
      (rows.map fun x => (x, .given 0)) where
  rows := by simp [Function.comp_def]
  recorded := by simp [Share.row, Share.amount]
  conserved := zero_add _
  shared := by simp [Function.comp_def, Share.amount]
  left := id
  bounded s hs := by
    obtain ⟨x, -, rfl⟩ := List.mem_map.1 hs
    exact ⟨le_rfl, le_max_left _ _⟩
  skipped s hs hskip := by
    obtain ⟨x, -, rfl⟩ := List.mem_map.1 hs
    cases hskip
  ordered := List.pairwise_map.2 (List.pairwise_of_forall fun _ _ hpos => absurd hpos (lt_irrefl _))
  exhausted hpos := absurd hpos (not_lt.2 hrem)

theorem OldestFirst.amount_le (h : OldestFirst payment remainder rest applied spread)
    {s : OpenInvoice × Share} (hs : s ∈ spread) :
    s.2.amount ≤ remainder - applied.remainder := by
  have hnonneg : ∀ a ∈ spread.map (fun s => s.2.amount), 0 ≤ a := by
    intro a ha
    obtain ⟨t, ht, rfl⟩ := List.mem_map.1 ha
    exact (h.bounded t ht).1
  have hle := List.single_le_sum hnonneg _ (List.mem_map_of_mem hs)
  have := h.shared
  omega

theorem OldestFirst.remainder_le (h : OldestFirst payment remainder rest applied spread) :
    applied.remainder ≤ remainder := by
  have hnonneg : 0 ≤ (spread.map fun s => s.2.amount).sum := by
    refine List.sum_nonneg fun a ha => ?_
    obtain ⟨t, ht, rfl⟩ := List.mem_map.1 ha
    exact (h.bounded t ht).1
  have := h.shared
  omega

theorem OldestFirst.skip (h : OldestFirst payment remainder rest applied spread)
    (hskip : x.balanceDue ≤ 0 ∨ applied.db.Pays payment x.invoice.id) :
    OldestFirst payment remainder (x :: rest) applied ((x, .skipped) :: spread) where
  rows := by rw [List.map_cons, h.rows]
  recorded := by
    rw [h.recorded]
    rfl
  conserved := h.conserved
  shared := by
    rw [List.map_cons, List.sum_cons, ← h.shared]
    exact congrArg (· + applied.remainder) (zero_add _)
  left := h.left
  bounded := List.forall_mem_cons.2 ⟨⟨le_rfl, le_max_left _ _⟩, h.bounded⟩
  skipped := List.forall_mem_cons.2 ⟨fun _ => hskip, h.skipped⟩
  ordered := List.pairwise_cons.2 ⟨fun _ _ _ => .inl rfl, h.ordered⟩
  exhausted hpos := List.forall_mem_cons.2 ⟨.inl rfl, h.exhausted hpos⟩

/-- An invoice that is paid: all it owes, or all that is left. -/
theorem OldestFirst.give {id : ℕ} {justPaid : List ℕ} {amount : ℤ} (hpos : 0 < amount)
    (hamount : amount = min remainder x.balanceDue)
    (h : OldestFirst payment (remainder - amount) rest applied spread) :
    OldestFirst payment remainder (x :: rest)
      ⟨applied.db, (id, x.invoice.id, amount) :: applied.allocations, justPaid, applied.remainder⟩
      ((x, .given amount) :: spread) where
  rows := by rw [List.map_cons, h.rows]
  recorded := by
    have hrow : Share.row (x, .given amount) = some (x.invoice.id, amount) := if_pos hpos
    rw [List.map_cons, List.filterMap_cons_some hrow, h.recorded]
  conserved := by
    have := h.conserved
    rw [List.map_cons, List.sum_cons]
    simp only
    omega
  shared := by
    have := h.shared
    rw [List.map_cons, List.sum_cons]
    simp only [Share.amount] at this ⊢
    omega
  left _ := h.left (by omega)
  bounded := List.forall_mem_cons.2 ⟨⟨hpos.le, by simp only [Share.amount]; omega⟩, h.bounded⟩
  skipped := List.forall_mem_cons.2 ⟨nofun, h.skipped⟩
  ordered := by
    -- a share after this one shows that there was more than the invoice owes
    refine List.pairwise_cons.2 ⟨fun s hs hgiven => .inr ?_, h.ordered⟩
    have hle := h.amount_le hs
    have hleft := h.left (by omega)
    rw [show amount = x.balanceDue by omega]
  exhausted hleft := by
    refine List.forall_mem_cons.2 ⟨.inr ?_, h.exhausted hleft⟩
    have hle := h.remainder_le
    have hrest : 0 < applied.remainder := hleft
    rw [show amount = x.balanceDue by omega]

/-- **The loop spreads the amount oldest first.** -/
theorem oldestFirst_across
    (h : allocateAcrossInvoices payment db remainder rows = .ok applied) :
    ∃ spread, OldestFirst payment remainder rows applied spread := by
  induction rows generalizing db remainder applied with
  | nil =>
    rw [allocateAcrossInvoices] at h
    obtain rfl := Except.ok.inj h
    exact ⟨_, .none⟩
  | cons x rest ih =>
    rw [allocateAcrossInvoices] at h
    dsimp only at h
    split_ifs at h with hrem hbal happ
    · obtain rfl := Except.ok.inj h
      exact ⟨_, .stop hrem⟩
    · obtain ⟨spread, hspread⟩ := ih h
      exact ⟨_, hspread.skip (.inl (by omega))⟩
    · exact absurd happ (by omega)
    · cases hr : applyAllocation db payment x.invoice (min remainder (max 0 x.balanceDue)) false
        true with
      | error err =>
        simp only [hr] at h
        split_ifs at h with hdup
        obtain ⟨spread, hspread⟩ := ih h
        exact ⟨_, hspread.skip (.inr ((pays_of_duplicate (hdup ▸ hr)).across h))⟩
      | ok r =>
        obtain ⟨db₁, id, paid⟩ := r
        simp only [hr, except_bind_ok] at h
        obtain ⟨rec, hrec, hout⟩ := h
        obtain ⟨spread, hspread⟩ := ih hrec
        cases hout
        exact ⟨_, hspread.give (by omega) (by omega)⟩

end Loop

/-- **The oldest invoices are paid first, and nothing is lost.** -/
theorem allocateAcross_oldestFirst {payment : Payment} {db : Db} {rows : List OpenInvoice}
    {applied : Applied} (amount : ℚ)
    (h : allocateAcrossInvoices payment db (Money.round amount) rows = .ok applied) :
    ∃ spread, OldestFirst payment (Money.round amount) rows applied spread :=
  oldestFirst_across h

/-- A payment of 75.00 over the client's invoices of 60.00 and 40.00. -/
theorem allocateAcross_oldestFirst_two :
    ∃ applied, allocateAcrossInvoices payer opened (Money.round 75)
        (getInvoicesWithBalance opened 1 1 none) = .ok applied ∧
      applied.allocations.map (fun a => (a.2.1, a.2.2)) = [(1, 6000), (2, 1500)] ∧
      ∃ spread, OldestFirst payer (Money.round 75) (getInvoicesWithBalance opened 1 1 none) applied
        spread := by
  have hrun : (allocateAcrossInvoices payer opened (Money.round 75)
      (getInvoicesWithBalance opened 1 1 none)).toOption.any (fun applied =>
        applied.allocations.map (fun a => (a.2.1, a.2.2)) = [(1, 6000), (2, 1500)]) = true := by
    decide +kernel
  obtain ⟨applied, happ, hlist⟩ := exists_ok hrun
  exact ⟨applied, happ, of_decide_eq_true hlist, allocateAcross_oldestFirst 75 happ⟩

end Vigabss.Billing
