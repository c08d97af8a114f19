import Vigabss.Cfdi.Figures

/-!
# Vigabss.Cfdi.Totals — the figures of egresos and of facturas globales

The rows that `stampCreditNote` and `stampGlobal` insert, and the XML that `generateXml` builds of
them.  A credit note's own check lets a cent pass between its header and its lines, and the total of
a factura global takes in the tax of invoices at rate zero, which no traslado carries
(`filed_adds_iff`).
-/

namespace Vigabss.Cfdi

open Vigabss.Lib Vigabss.Billing

/-! ### The code -/

/-- A live row of `credit_note_items`, in cents; both are validated not to be negative. -/
structure CreditNoteItem where
  quantity : ℤ
  unit_price : ℤ
  quantity_nonneg : 0 ≤ quantity
  unit_price_nonneg : 0 ≤ unit_price

/-- What `resolveEgresoInputs` reads: the note with its amounts in cents and its rate in
ten-thousandths, and its lines.  `refusal` is what the checks of the note's state, of the CFDI it
credits and of the receptor answer. -/
structure CreditNoteReads where
  refusal : Option AppError
  tax_exempt : Bool
  items : List CreditNoteItem
  tax_rate : ℤ
  subtotal : ℤ
  tax_amount : ℤ
  total : ℤ
  subtotal_fits : |subtotal| ≤ decimalMax
  tax_nonneg : 0 ≤ tax_amount
  tax_fits : tax_amount ≤ decimalMax
  total_nonneg : 0 ≤ total
  total_fits : total ≤ decimalMax

/-- A line of the egreso. -/
structure ConceptLine where
  cantidad : ℚ
  valorUnitario : ℚ
  importe : ℚ

/-- `Math.round(quantity * unit_price * 100)`. -/
def CreditNoteItem.cents (item : CreditNoteItem) : ℤ :=
  mathRound (fl (fl (number item.quantity * number item.unit_price) * 100))

/-- `Number(cn.subtotal || 0) || Math.round((total - taxAmount) * 100) / 100`. -/
def CreditNoteReads.netAmount (r : CreditNoteReads) : ℚ :=
  if number r.subtotal ≠ 0 then number r.subtotal
  else round2 (fl (number r.total - number r.tax_amount))

def CreditNoteReads.lineSum (r : CreditNoteReads) : ℚ :=
  r.items.foldl (fun sum it => fl (sum + number it.cents)) 0

/-- `conceptLines`: the items, or one line of the header's amount. -/
def CreditNoteReads.conceptLines (r : CreditNoteReads) : List ConceptLine :=
  if r.items = [] then [⟨1, r.netAmount, r.netAmount⟩]
  else r.items.map fun it => ⟨number it.quantity, number it.unit_price, number it.cents⟩

/-- The checks of `resolveEgresoInputs`. -/
def CreditNoteReads.resolveEgresoInputs (r : CreditNoteReads) : Except AppError ℚ :=
  match r.refusal with
  | some err => .error err
  | none =>
    if fl (1 / 100) < |fl (fl (r.netAmount + number r.tax_amount) - number r.total)| then
      .error ⟨"The credit note's amounts are inconsistent: subtotal (" ++ toFixed 2 r.netAmount ++
        ") + tax (" ++ toFixed 2 (number r.tax_amount) ++ ") must equal total (" ++
        toFixed 2 (number r.total) ++ "). Fix the credit note before stamping.", 422,
        "CREDIT_NOTE_TOTALS_INCONSISTENT"⟩
    else if r.items ≠ [] ∧ fl (1 / 100) < |fl (r.lineSum - r.netAmount)| then
      .error ⟨"The credit note's line items sum to " ++ toFixed 2 r.lineSum ++
        " but its subtotal is " ++ toFixed 2 r.netAmount ++ " — SAT requires SubTotal to equal " ++
        "the sum of concepto importes. Fix the items or the subtotal before stamping.", 422,
        "CREDIT_NOTE_TOTALS_INCONSISTENT"⟩
    else .ok (invoiceTaxFraction r.tax_rate)

def ConceptLine.row (line : ConceptLine) (objetoImp : String) (impuestos : List Impuesto) :
    Concepto :=
  ⟨toDecimal4 line.cantidad, toDecimal4 line.valorUnitario, toDecimal4 line.importe, objetoImp,
    impuestos⟩

/-- The taxed conceptos: each line with its part of the tax. -/
def taxedLines (taxRate : ℚ) (lines : List ConceptLine) (lineTaxes : List ℚ) : List Concepto :=
  List.zipWith (fun line lineTax => line.row "02" [⟨false, toDecimal4 line.importe,
    some ⌊taxRate * 10 ^ 6 + 1 / 2⌋, some (toDecimal4 lineTax)⟩]) lines lineTaxes

/-- What `stampCreditNote` inserts. -/
def egresoRow (r : CreditNoteReads) : Except StampFailure DocumentRow :=
  match r.resolveEgresoInputs with
  | .error err => .error (.app err)
  | .ok taxRate =>
    let header := DocumentRow.mk (toDecimal r.netAmount) (toDecimal (number r.tax_amount))
      (toDecimal (number r.total))
    if 0 < taxRate then
      match allocateLineTaxes (r.conceptLines.map ConceptLine.importe) taxRate
          (number r.tax_amount) with
      | none => .error (.app ⟨"The credit note tax (" ++ toFixed 2 (number r.tax_amount) ++
          ") cannot be split over its lines at " ++ toFixed 2 (fl (taxRate * 100)) ++
          "% within SAT's limits — correct the credit note tax amount.", 422,
          "CFDI_TAX_OUT_OF_BOUNDS"⟩)
      | some lineTaxes => .ok (header (taxedLines taxRate r.conceptLines lineTaxes))
    else if r.tax_exempt = true ∧ taxRate = 0 then
      .ok (header (r.conceptLines.map fun line =>
        line.row "02" [⟨true, toDecimal4 line.importe, none, none⟩]))
    else .ok (header (r.conceptLines.map fun line => line.row "01" []))

/-- An invoice of a factura global, in cents; the amounts are validated not to be negative. -/
structure GlobalInvoice where
  label : String
  tax_rate : ℤ
  subtotal : ℤ
  tax_amount : ℤ
  subtotal_nonneg : 0 ≤ subtotal
  subtotal_fits : subtotal ≤ decimalMax
  tax_nonneg : 0 ≤ tax_amount
  tax_fits : tax_amount ≤ decimalMax

/-- What `stampGlobal` reads: the invoices by id, and what the checks of the record's state and
period and of the invoices' payment, CFDIs and currencies answer. -/
structure GlobalReads where
  refusal : Option AppError
  invoices : List GlobalInvoice

structure GlobalLine where
  rate : ℚ
  base : ℚ
  tax : ℚ

def globalLine (inv : GlobalInvoice) : Except AppError GlobalLine :=
  match catalogIvaRate (invoiceTaxFraction inv.tax_rate) with
  | none => .error ⟨"Invoice " ++ inv.label ++
      " has a tax rate SAT does not accept (16%, 8% or 0%).", 422, "CFDI_TASA_NOT_IN_CATALOG"⟩
  | some rate => .ok ⟨rate, round2 (number inv.subtotal), round2 (number inv.tax_amount)⟩

/-- A concepto of the factura global. -/
def GlobalLine.row (line : GlobalLine) : Concepto :=
  ⟨10000, toDecimal4 line.base, toDecimal4 line.base, if 0 < line.rate then "02" else "01",
    if 0 < line.rate then [⟨false, toDecimal4 line.base, some ⌊line.rate * 10 ^ 6 + 1 / 2⌋,
      some (toDecimal4 line.tax)⟩] else []⟩

/-- What `stampGlobal` inserts; the database refuses figures beyond their columns. -/
def globalRow (g : GlobalReads) : Except StampFailure DocumentRow :=
  match g.refusal with
  | some err => .error (.app err)
  | none =>
    match g.invoices.mapM globalLine with
    | .error err => .error (.app err)
    | .ok lines =>
      let subtotal := round2 (lines.foldl (fun s l => fl (s + l.base)) 0)
      let taxTotal := round2 (lines.foldl (fun s l => fl (s + l.tax)) 0)
      let total := round2 (fl (subtotal + taxTotal))
      if decimalMax < toDecimal subtotal ∨ decimalMax < toDecimal taxTotal ∨
          decimalMax < toDecimal total then
        .error (.sql "Out of range value for column 'subtotal', 'total_impuestos' or 'total'")
      else .ok ⟨toDecimal subtotal, toDecimal taxTotal, toDecimal total,
        lines.map GlobalLine.row⟩

/-- A document that is filed for a credit note or for the invoices of a factura global. -/
inductive Source where
  | creditNote (r : CreditNoteReads)
  | invoices (g : GlobalReads)

/-- The row that is inserted, with its conceptos. -/
def Source.row : Source → Except StampFailure DocumentRow
  | .creditNote r => egresoRow r
  | .invoices g => globalRow g

/-! ### The law -/

/-- The amount before tax of a note that may leave it blank. -/
def CreditNoteReads.netCents (r : CreditNoteReads) : ℤ :=
  if r.subtotal ≠ 0 then r.subtotal else r.total - r.tax_amount

/-- The tax that is charged: none without a rate. -/
def CreditNoteReads.chargedTax (r : CreditNoteReads) : ℤ :=
  if 0 < invoiceTaxFraction r.tax_rate then r.tax_amount else 0

/-- A note whose header is the sum of its lines and of the tax it charges; no invoice at rate zero
with tax. -/
def Source.Consistent : Source → Prop
  | .creditNote r => (r.items ≠ [] → r.netCents = (r.items.map CreditNoteItem.cents).sum) ∧
      r.total = r.netCents + r.chargedTax
  | .invoices g => ∀ inv ∈ g.invoices,
      catalogIvaRate (invoiceTaxFraction inv.tax_rate) = some 0 → inv.tax_amount = 0

theorem CreditNoteReads.abs_netCents (r : CreditNoteReads) : |r.netCents| ≤ decimalMax := by
  unfold CreditNoteReads.netCents
  split_ifs
  · exact r.subtotal_fits
  · have := r.tax_nonneg
    have := r.tax_fits
    have := r.total_nonneg
    have := r.total_fits
    rw [abs_le]
    constructor <;> omega

theorem CreditNoteReads.netAmount_eq (r : CreditNoteReads) : r.netAmount = number r.netCents := by
  have hsub : number r.subtotal = 0 ↔ r.subtotal = 0 := by
    refine ⟨fun h => ?_, fun h => by rw [h, number_zero]⟩
    have hclose := abs_le.1 (number_close (abs_le_double r.subtotal_fits))
    rw [h] at hclose
    norm_num at hclose
    have hlt : |(r.subtotal : ℚ)| < 1 := abs_lt.2 ⟨by linarith [hclose.2], by linarith [hclose.1]⟩
    exact Int.abs_lt_one_iff.1 (by exact_mod_cast hlt)
  unfold CreditNoteReads.netAmount CreditNoteReads.netCents
  by_cases h : r.subtotal = 0
  · rw [if_neg (not_not.2 (hsub.2 h)), if_neg (not_not.2 h)]
    have htax : |r.tax_amount| ≤ decimalMax := by
      rw [abs_of_nonneg r.tax_nonneg]
      exact r.tax_fits
    have htotal : |r.total| ≤ decimalMax := by
      rw [abs_of_nonneg r.total_nonneg]
      exact r.total_fits
    have hnet := r.abs_netCents
    rw [CreditNoteReads.netCents, if_neg (not_not.2 h)] at hnet
    exact round2_difference (abs_le_double htotal) (abs_le_double htax) (abs_le_double hnet)
  · rw [if_pos fun hz => h (hsub.1 hz), if_pos h]

theorem CreditNoteItem.cents_nonneg (item : CreditNoteItem) : 0 ≤ item.cents := by
  have hq : 0 ≤ number item.quantity :=
    fl_nonneg (div_nonneg (by exact_mod_cast item.quantity_nonneg) (by norm_num))
  have hp : 0 ≤ number item.unit_price :=
    fl_nonneg (div_nonneg (by exact_mod_cast item.unit_price_nonneg) (by norm_num))
  have hx := fl_nonneg (mul_nonneg (fl_nonneg (mul_nonneg hq hp)) (by norm_num : (0 : ℚ) ≤ 100))
  exact Int.floor_nonneg.2 (by linarith)

/-- The amounts of the lines, in cents. -/
def CreditNoteReads.lineCents (r : CreditNoteReads) : List ℤ :=
  if r.items = [] then [r.netCents] else r.items.map CreditNoteItem.cents

theorem CreditNoteReads.resolveEgresoInputs_rate {r : CreditNoteReads} {taxRate : ℚ}
    (h : r.resolveEgresoInputs = .ok taxRate) : taxRate = invoiceTaxFraction r.tax_rate := by
  unfold CreditNoteReads.resolveEgresoInputs at h
  split at h
  · cases h
  split_ifs at h
  cases h
  rfl

/-- What a note that passed the checks has on its lines. -/
theorem lineCents_fit {r : CreditNoteReads} {taxRate : ℚ} (h : r.resolveEgresoInputs = .ok taxRate)
    (hlen : r.lineCents.length ≤ maxPlaceholders) :
    ∀ n ∈ r.lineCents, |n| ≤ 2 * decimalMax := by
  have hmax : decimalMax = 9999999999 := rfl
  unfold CreditNoteReads.resolveEgresoInputs at h
  split at h
  · cases h
  split_ifs at h with htotal hlines
  cases h
  intro n hn
  rw [CreditNoteReads.lineCents] at hn hlen
  split_ifs at hn with hitems
  · rw [List.mem_singleton.1 hn]
    exact abs_le_double r.abs_netCents
  rw [if_neg hitems] at hlen
  rw [not_and, not_lt] at hlines
  have hgate := hlines hitems
  have h0 : ∀ c ∈ r.items.map CreditNoteItem.cents, 0 ≤ c := by
    intro c hc
    obtain ⟨item, _, rfl⟩ := List.mem_map.1 hc
    exact item.cents_nonneg
  have hsum : r.lineSum = floatSum 0 (r.items.map CreditNoteItem.cents) := by
    rw [floatSum, List.foldl_map]
    rfl
  -- the gate holds the sum of the doubles to the header, and the header to its column
  have hnet := abs_le.1 (number_close (abs_le_double r.abs_netCents))
  have hnet' : (r.netCents : ℚ) ≤ 9999999999 := by exact_mod_cast (abs_le.1 r.abs_netCents).2
  have hcent : fl (1 / 100) ≤ 1 := by
    exact_mod_cast fl_le_natCast (n := 1) (by norm_num) (by norm_num) (by norm_num)
  have hbound : floatSum 0 (r.items.map CreditNoteItem.cents) ≤ 10 ^ 8 + 10 := by
    by_contra hlarge
    rw [← hsum, not_le] at hlarge
    rw [r.netAmount_eq] at hgate
    have hdiff : 0 ≤ r.lineSum - number r.netCents := by
      norm_num at hnet
      linarith [hnet.2]
    have hfl := (abs_le.1 (abs_fl_sub_le_mul (r.lineSum - number r.netCents))).1
    rw [abs_of_nonneg hdiff] at hfl
    have := (abs_le.1 hgate).2
    norm_num at hnet
    linarith [hnet.2]
  have hle := (List.single_le_sum h0 n hn).trans (sum_le_of_floatSum h0
    (hlen.trans (by decide)) hbound)
  rw [abs_of_nonneg (h0 n hn)]
  exact hle

theorem conceptLines_of (r : CreditNoteReads) :
    List.Forall₂ (fun line n => line.importe = number n) r.conceptLines r.lineCents := by
  unfold CreditNoteReads.conceptLines CreditNoteReads.lineCents
  split_ifs with hitems
  · exact .cons r.netAmount_eq .nil
  · rw [List.forall₂_map_left_iff, List.forall₂_map_right_iff, List.forall₂_same]
    exact fun _ _ => rfl

section Lines

variable {lines : List ConceptLine} {ns : List ℤ}

theorem carries_taxedLines {rate : ℚ} {cents : List ℤ}
    (h : List.Forall₂ (fun line n => line.importe = number n) lines ns)
    (hns : ∀ n ∈ ns, |n| ≤ 2 * decimalMax) (hlen : cents.length = ns.length)
    (hcents : ∀ c ∈ cents, 0 ≤ c ∧ c ≤ 2 * decimalMax) :
    List.Forall₂ (fun c p => c.Carries p.1 p.2) (taxedLines rate lines (cents.map number))
      (ns.zip cents) := by
  induction h generalizing cents with
  | nil => exact .nil
  | @cons line n _ _ hline _ ih =>
    cases cents with
    | nil => exact absurd hlen (by simp)
    | cons c cents =>
      obtain ⟨h0, hle⟩ := hcents c List.mem_cons_self
      refine .cons ?_ (ih (fun m hm => hns m (List.mem_cons_of_mem n hm)) (Nat.succ.inj hlen)
        fun x hx => hcents x (List.mem_cons_of_mem c hx))
      simp only [ConceptLine.row, hline]
      exact carries_taxed (hns n List.mem_cons_self) h0 hle

theorem carries_untaxedLines {row : ConceptLine → Concepto}
    (h : List.Forall₂ (fun line n => line.importe = number n) lines ns)
    (hrow : ∀ line n, n ∈ ns → line.importe = number n → (row line).Carries n 0) :
    List.Forall₂ (fun c p => c.Carries p.1 p.2) (lines.map row) (ns.map fun n => (n, 0)) := by
  induction h with
  | nil => exact .nil
  | @cons line n _ _ hline _ ih =>
    exact .cons (hrow line n List.mem_cons_self hline)
      (ih fun line m hm => hrow line m (List.mem_cons_of_mem n hm))

end Lines

/-- **The parts of an egreso**: its lines, with their shares of the tax it charges. -/
theorem made_of_egresoRow {r : CreditNoteReads} {doc : DocumentRow} (h : egresoRow r = .ok doc)
    (hlen : doc.conceptos.length ≤ maxPlaceholders) :
    ∃ parts, doc.Made parts ∧ doc.subtotal = r.netCents ∧ doc.total = r.total ∧
      parts.map Prod.fst = r.lineCents ∧ (parts.map Prod.snd).sum = r.chargedTax := by
  have hmax : decimalMax = 9999999999 := rfl
  have htax : |r.tax_amount| ≤ decimalMax := by
    rw [abs_of_nonneg r.tax_nonneg]
    exact r.tax_fits
  have htotal : |r.total| ≤ 2 * decimalMax := by
    rw [abs_of_nonneg r.total_nonneg]
    exact r.total_fits.trans (by norm_num [hmax])
  have hnet := abs_le_double r.abs_netCents
  have hof := conceptLines_of r
  have hcount := hof.length_eq
  have hcharged : r.chargedTax ≤ 2 * decimalMax := by
    have := r.tax_fits
    unfold CreditNoteReads.chargedTax
    split_ifs <;> omega
  unfold egresoRow at h
  split at h
  · cases h
  rename_i taxRate hresolved
  -- whatever the branch, the header is the note's and the conceptos are those of the parts
  have hmade : ∀ (conceptos : List Concepto) (parts : List (ℤ × ℤ)),
      ((∀ n ∈ r.lineCents, |n| ≤ 2 * decimalMax) →
        List.Forall₂ (fun c p => c.Carries p.1 p.2) conceptos parts) →
      conceptos.length = r.conceptLines.length → conceptos.length ≤ maxPlaceholders →
      parts.map Prod.fst = r.lineCents → (parts.map Prod.snd).sum = r.chargedTax →
      (DocumentRow.mk (toDecimal r.netAmount) (toDecimal (number r.tax_amount))
          (toDecimal (number r.total)) conceptos).Made parts ∧
        toDecimal r.netAmount = r.netCents ∧ toDecimal (number r.total) = r.total := by
    intro conceptos parts hcarry hlength hplaces hfst hsnd
    have hns := lineCents_fit hresolved (by omega)
    have hwritten : toDecimal r.netAmount = r.netCents := by
      rw [r.netAmount_eq, toDecimal_number_cents hnet]
    have hwritten' := toDecimal_number_cents htotal
    refine ⟨⟨hcarry hns, fun p hp => hns p.1 ?_, hsnd.le.trans hcharged, ?_, ?_⟩, hwritten,
      hwritten'⟩
    · rw [← hfst]
      exact List.mem_map_of_mem hp
    · rw [hwritten]
      exact hnet
    · rw [hwritten']
      exact htotal
  have hrate : taxRate = invoiceTaxFraction r.tax_rate := CreditNoteReads.resolveEgresoInputs_rate hresolved
  simp only at h
  split_ifs at h with hpos hexempt
  · split at h
    · cases h
    rename_i taxes htaxes
    cases h
    have hbases : r.conceptLines.map ConceptLine.importe = r.lineCents.map number := by
      rw [← List.forall₂_eq_eq_eq, List.forall₂_map_left_iff, List.forall₂_map_right_iff]
      exact hof
    rw [hbases] at htaxes
    obtain ⟨cents, rfl, hsum, hlength, hnonneg⟩ := allocateLineTaxes_some hpos.le htax htaxes
    have hfst : (r.lineCents.zip cents).map Prod.fst = r.lineCents := List.map_fst_zip hlength.ge
    have hsnd : (r.lineCents.zip cents).map Prod.snd = cents := List.map_snd_zip hlength.le
    have hcharge : r.chargedTax = r.tax_amount := by
      rw [CreditNoteReads.chargedTax, ← hrate, if_pos hpos]
    have hconceptos : (taxedLines taxRate r.conceptLines (cents.map number)).length =
        r.conceptLines.length := by
      simp [taxedLines, hlength, hcount]
    obtain ⟨hdoc, hsub, htot⟩ := hmade _ (r.lineCents.zip cents)
      (fun hns => carries_taxedLines hof hns hlength fun c hc => by
        have h0 : ∀ c ∈ cents, 0 ≤ c := by
          by_cases hitems : r.items = []
          · -- the one line takes all of the tax
            rw [CreditNoteReads.lineCents, if_pos hitems] at hlength
            obtain ⟨n, rfl⟩ := List.length_eq_one_iff.1 hlength
            intro c hc
            rw [List.mem_singleton.1 hc]
            rw [List.sum_singleton] at hsum
            rw [hsum]
            exact r.tax_nonneg
          · refine hnonneg fun b hb => ⟨?_, (le_abs_self b).trans (hns b hb)⟩
            rw [CreditNoteReads.lineCents, if_neg hitems] at hb
            obtain ⟨item, _, rfl⟩ := List.mem_map.1 hb
            exact item.cents_nonneg
        have hle := List.single_le_sum h0 c hc
        exact ⟨h0 c hc, by have := r.tax_fits; omega⟩)
      hconceptos hlen hfst (by rw [hsnd, hsum, hcharge])
    exact ⟨_, hdoc, hsub, htot, hfst, by rw [hsnd, hsum, hcharge]⟩
  all_goals
    cases h
    have hcharge : r.chargedTax = 0 := by
      rw [CreditNoteReads.chargedTax, ← hrate, if_neg hpos]
    have hfst : (r.lineCents.map fun n => (n, (0 : ℤ))).map Prod.fst = r.lineCents := by
      simp [Function.comp_def]
    have hsnd : ((r.lineCents.map fun n => (n, (0 : ℤ))).map Prod.snd).sum = r.chargedTax := by
      simp [Function.comp_def, hcharge]
  · obtain ⟨hdoc, hsub, htot⟩ := hmade _ (r.lineCents.map fun n => (n, 0))
      (fun hns => carries_untaxedLines hof fun line n hn hline => by
        rw [ConceptLine.row, hline]
        exact carries_untaxed (hns n hn) (by simp) le_rfl)
      (List.length_map _) hlen hfst hsnd
    exact ⟨_, hdoc, hsub, htot, hfst, hsnd⟩
  · obtain ⟨hdoc, hsub, htot⟩ := hmade _ (r.lineCents.map fun n => (n, 0))
      (fun hns => carries_untaxedLines hof fun line n hn hline => by
        rw [ConceptLine.row, hline]
        exact carries_untaxed (hns n hn) (by simp) (Nat.zero_le 1))
      (List.length_map _) hlen hfst hsnd
    exact ⟨_, hdoc, hsub, htot, hfst, hsnd⟩

/-! ### A factura global -/

/-- A factura global charges the tax of the invoices with a rate. -/
def GlobalInvoice.chargedTax (inv : GlobalInvoice) : ℤ :=
  if catalogIvaRate (invoiceTaxFraction inv.tax_rate) = some 0 then 0 else inv.tax_amount

/-- A line holds the amounts of its invoice, which its concepto carries. -/
theorem globalLine_ok {inv : GlobalInvoice} {line : GlobalLine} (h : globalLine inv = .ok line) :
    line.base = number inv.subtotal ∧ line.tax = number inv.tax_amount ∧
      line.row.Carries inv.subtotal inv.chargedTax := by
  have hmax : decimalMax = 9999999999 := rfl
  have hsub : |inv.subtotal| ≤ 2 * decimalMax := abs_le_double (by
    rw [abs_of_nonneg inv.subtotal_nonneg]
    exact inv.subtotal_fits)
  have htax : |inv.tax_amount| ≤ 2 * decimalMax := abs_le_double (by
    rw [abs_of_nonneg inv.tax_nonneg]
    exact inv.tax_fits)
  unfold globalLine at h
  split at h
  · cases h
  rename_i rate hrate
  rw [round2_number hsub, round2_number htax] at h
  cases h
  refine ⟨rfl, rfl, ?_⟩
  have hcharged : inv.chargedTax = if rate = 0 then 0 else inv.tax_amount := by
    rw [GlobalInvoice.chargedTax, hrate]
    simp only [Option.some.injEq]
  have hpos : 0 < rate ↔ rate ≠ 0 := by
    have hmem := List.mem_of_find?_eq_some hrate
    refine ⟨ne_of_gt, fun hne => lt_of_le_of_ne ?_ (Ne.symm hne)⟩
    rcases List.mem_cons.1 hmem with rfl | hmem
    · exact fl_nonneg (by norm_num)
    · rcases List.mem_cons.1 hmem with rfl | hmem
      · exact fl_nonneg (by norm_num)
      · exact (List.mem_singleton.1 hmem).ge
  rw [hcharged, GlobalLine.row]
  by_cases hzero : rate = 0
  · rw [if_neg (fun h => hpos.1 h hzero), if_neg (fun h => hpos.1 h hzero), if_pos hzero]
    exact carries_untaxed hsub (by simp) (Nat.zero_le 1)
  · rw [if_pos (hpos.2 hzero), if_pos (hpos.2 hzero), if_neg hzero]
    exact carries_taxed hsub inv.tax_nonneg ((le_abs_self _).trans htax)

theorem GlobalInvoice.chargedTax_le (inv : GlobalInvoice) : inv.chargedTax ≤ inv.tax_amount := by
  unfold GlobalInvoice.chargedTax
  split_ifs
  · exact inv.tax_nonneg
  · exact le_rfl

theorem sum_chargedTax_iff (invoices : List GlobalInvoice) :
    (invoices.map GlobalInvoice.chargedTax).sum = (invoices.map GlobalInvoice.tax_amount).sum ↔
      ∀ inv ∈ invoices, catalogIvaRate (invoiceTaxFraction inv.tax_rate) = some 0 →
        inv.tax_amount = 0 := by
  induction invoices with
  | nil => simp
  | cons inv invoices ih =>
    have hle := inv.chargedTax_le
    have hrest := List.sum_le_sum (l := invoices) fun i _ => i.chargedTax_le
    rw [List.map_cons, List.map_cons, List.sum_cons, List.sum_cons, List.forall_mem_cons, ← ih]
    have hone : inv.chargedTax = inv.tax_amount ↔
        (catalogIvaRate (invoiceTaxFraction inv.tax_rate) = some 0 → inv.tax_amount = 0) := by
      unfold GlobalInvoice.chargedTax
      split_ifs with hrate <;> simp [hrate, eq_comm]
    rw [← hone]
    omega

/-- **The parts of a factura global**: its header takes in all of the tax. -/
theorem made_of_globalRow {g : GlobalReads} {doc : DocumentRow} (h : globalRow g = .ok doc)
    (hlen : doc.conceptos.length ≤ maxPlaceholders) :
    ∃ parts, doc.Made parts ∧ doc.subtotal = (parts.map Prod.fst).sum ∧
      doc.total = doc.subtotal + (g.invoices.map GlobalInvoice.tax_amount).sum ∧
      (parts.map Prod.snd).sum = (g.invoices.map GlobalInvoice.chargedTax).sum := by
  have hmax : decimalMax = 9999999999 := rfl
  unfold globalRow at h
  split at h
  · cases h
  split at h
  · cases h
  rename_i lines hlines
  simp only at h
  split_ifs at h with hover
  cases h
  rw [mapM_ok] at hlines
  have hline := hlines.imp fun _ _ => globalLine_ok
  rw [List.length_map, ← hlines.length_eq] at hlen
  have hbase : lines.foldl (fun s l => fl (s + l.base)) 0 =
      floatSum 0 (g.invoices.map GlobalInvoice.subtotal) := by
    rw [← List.foldl_map (f := GlobalLine.base) (g := fun s x => fl (s + x)), floatSum,
      ← List.foldl_map (f := number) (g := fun s x => fl (s + x)), List.map_map]
    refine congrArg (List.foldl _ 0) ?_
    rw [← List.forall₂_eq_eq_eq, List.forall₂_map_left_iff, List.forall₂_map_right_iff]
    exact (hline.imp fun _ _ h => h.1).flip
  have htaxes : lines.foldl (fun s l => fl (s + l.tax)) 0 =
      floatSum 0 (g.invoices.map GlobalInvoice.tax_amount) := by
    rw [← List.foldl_map (f := GlobalLine.tax) (g := fun s x => fl (s + x)), floatSum,
      ← List.foldl_map (f := number) (g := fun s x => fl (s + x)), List.map_map]
    refine congrArg (List.foldl _ 0) ?_
    rw [← List.forall₂_eq_eq_eq, List.forall₂_map_left_iff, List.forall₂_map_right_iff]
    exact (hline.imp fun _ _ h => h.2.1).flip
  have hbound : ∀ f : GlobalInvoice → ℤ, (∀ inv, 0 ≤ f inv) →
      toDecimal (round2 (floatSum 0 (g.invoices.map f))) ≤ decimalMax →
      round2 (floatSum 0 (g.invoices.map f)) = number (g.invoices.map f).sum ∧
        0 ≤ (g.invoices.map f).sum ∧ (g.invoices.map f).sum ≤ decimalMax := by
    intro f hf hfits
    have h0 : ∀ c ∈ g.invoices.map f, 0 ≤ c := by
      intro c hc
      obtain ⟨inv, _, rfl⟩ := List.mem_map.1 hc
      exact hf inv
    exact round2_floatSum h0 (by rw [List.length_map]; exact hlen.trans (by decide)) hfits
  rw [hbase, htaxes] at hover ⊢
  rw [not_or, not_or, not_lt, not_lt, not_lt] at hover
  obtain ⟨hsub, hsub0, hsubfits⟩ := hbound _ GlobalInvoice.subtotal_nonneg hover.1
  obtain ⟨htax, htax0, htaxfits⟩ := hbound _ GlobalInvoice.tax_nonneg hover.2.1
  have habs : ∀ {c : ℤ}, 0 ≤ c → c ≤ decimalMax → |c| ≤ 2 * decimalMax := fun h0 h =>
    abs_le_double (by rwa [abs_of_nonneg h0])
  have htotal : |(g.invoices.map GlobalInvoice.subtotal).sum +
      (g.invoices.map GlobalInvoice.tax_amount).sum| ≤ 2 * decimalMax := by
    rw [abs_of_nonneg (by omega)]
    omega
  rw [hsub, htax, round2_add (habs hsub0 hsubfits) (habs htax0 htaxfits) htotal]
  have hwritten := toDecimal_number_cents (habs hsub0 hsubfits)
  have hwritten' := toDecimal_number_cents htotal
  have hfst : (g.invoices.map fun inv => (inv.subtotal, inv.chargedTax)).map Prod.fst =
      g.invoices.map GlobalInvoice.subtotal := by
    rw [List.map_map]
    rfl
  have hsnd : (g.invoices.map fun inv => (inv.subtotal, inv.chargedTax)).map Prod.snd =
      g.invoices.map GlobalInvoice.chargedTax := by
    rw [List.map_map]
    rfl
  refine ⟨g.invoices.map fun inv => (inv.subtotal, inv.chargedTax),
    ⟨?_, fun p hp => ?_, ?_, ?_, ?_⟩, ?_, ?_, by rw [hsnd]⟩
  · rw [List.forall₂_map_left_iff, List.forall₂_map_right_iff]
    exact (hline.imp fun _ _ h => h.2.2).flip
  · obtain ⟨inv, _, rfl⟩ := List.mem_map.1 hp
    exact habs inv.subtotal_nonneg inv.subtotal_fits
  · rw [hsnd]
    refine (List.sum_le_sum fun inv _ => inv.chargedTax_le).trans ?_
    omega
  · rw [hwritten]
    exact habs hsub0 hsubfits
  · rw [hwritten']
    exact htotal
  · rw [hwritten, hfst]
  · rw [hwritten, hwritten']

/-! ### The law -/

/-- **The figures of egresos and of facturas globales** add up just when the note's header is the
sum of its lines and of the tax it charges, or no invoice at rate zero has tax. -/
theorem filed_adds_iff (source : Source) (doc : DocumentRow) (x : Comprobante)
    (hrow : source.row = .ok doc) (hxml : generatedXml doc = .ok x) :
    (Adds x ∧ x.total = doc.total) ↔ source.Consistent := by
  obtain ⟨hlen, rfl⟩ := generatedXml_ok hxml
  have hstored : ∀ {parts}, doc.Made parts → (buildCfdi40Xml doc).total = doc.total :=
    fun hmade => toDecimal_number_cents hmade.total
  cases source with
  | creditNote r =>
    obtain ⟨parts, hmade, hsub, htot, hlines, htax⟩ := made_of_egresoRow hrow hlen
    rw [and_iff_left (hstored hmade), hmade.adds_iff hlen, hlines, htax, hsub, htot]
    refine and_congr_left fun _ => ?_
    rw [CreditNoteReads.lineCents]
    by_cases hitems : r.items = []
    · simp [hitems]
    · simp [hitems]
  | invoices g =>
    obtain ⟨parts, hmade, hsub, htot, htax⟩ := made_of_globalRow hrow hlen
    rw [and_iff_left (hstored hmade), hmade.adds_iff hlen, and_iff_right hsub, htot, htax,
      add_right_inj, eq_comm]
    exact sum_chargedTax_iff g.invoices

/-! ### A note of one line, and a cent beside it -/

theorem note_fits : |(1001 : ℤ)| ≤ decimalMax ∧ (1001 : ℤ) ≤ decimalMax ∧ (0 : ℤ) ≤ decimalMax := by
  decide

/-- A note of one line at rate zero, whose header says 10.01. -/
def oneLineNote (unit_price : ℤ) (h : 0 ≤ unit_price) : CreditNoteReads :=
  ⟨none, false, [⟨100, unit_price, Int.natCast_nonneg 100, h⟩], 0, 1001, 0, 1001,
    note_fits.1, le_rfl, note_fits.2.2, Int.natCast_nonneg 1001, note_fits.2.1⟩

/-- A line of 10.01, and one of 10.02. -/
def wholeNote : CreditNoteReads := oneLineNote 1001 (Int.natCast_nonneg 1001)

def centBeside : CreditNoteReads := oneLineNote 1002 (Int.natCast_nonneg 1002)

/-- What is inserted for the two. -/
def noteRow (cents : ℤ) : DocumentRow :=
  ⟨1001, 0, 1001, [⟨10000, 100 * cents, 100 * cents, "01", []⟩]⟩

def noteXml (cents : ℤ) : Comprobante :=
  ⟨1001, 1001, [⟨⟨1, 0⟩, ⟨cents, 2⟩, cents, "01", []⟩], none, []⟩

/-- The law at a note whose header is its line. -/
theorem filed_adds_iff_whole : (Source.creditNote wholeNote).row = .ok (noteRow 1001) ∧
    generatedXml (noteRow 1001) = .ok (noteXml 1001) ∧
    (Adds (noteXml 1001) ∧ (noteXml 1001).total = (noteRow 1001).total ↔
      (Source.creditNote wholeNote).Consistent) := by
  have hrow : (Source.creditNote wholeNote).row = .ok (noteRow 1001) := by decide +kernel
  have hxml : generatedXml (noteRow 1001) = .ok (noteXml 1001) := by decide +kernel
  exact ⟨hrow, hxml, filed_adds_iff _ _ _ hrow hxml⟩

/-- A note of 10.01 is accepted with a line of 10.02, and filed so. -/
theorem cent_beside_lines : (Source.creditNote centBeside).row = .ok (noteRow 1002) ∧
    generatedXml (noteRow 1002) = .ok (noteXml 1002) ∧ ¬ Adds (noteXml 1002) := by
  refine ⟨by decide +kernel, by decide +kernel, ?_⟩
  intro hadds
  exact absurd hadds.subTotal (by decide)

end Vigabss.Cfdi
