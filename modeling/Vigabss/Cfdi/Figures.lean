import Vigabss.Cfdi.Conversion

/-!
# Vigabss.Cfdi.Figures — the figures of a CFDI add up as its source does

Of a document in whole cents the summary of the traslados is the tax of its rows, whatever their
rates, so the figures add up just when the header is the sum of the lines and of that tax
(`adds_iff`).  The header of an invoice is copied and never compared with its lines.
-/

namespace Vigabss.Cfdi

open Vigabss.Lib Vigabss.Billing

/-- The figures of a CFDI agree with one another, in cents. -/
structure Adds (x : Comprobante) : Prop where
  subTotal : x.subTotal = (x.conceptos.map ConceptoXml.importe).sum
  conceptos : x.totalImpuestosTrasladados.getD 0 =
    ((x.conceptos.flatMap ConceptoXml.traslados).map fun t => t.importe.getD 0).sum
  grouped : x.totalImpuestosTrasladados.getD 0 = (x.traslados.map fun t => t.importe.getD 0).sum
  total : x.total = x.subTotal + x.totalImpuestosTrasladados.getD 0

/-- The tax that the traslados of a converted invoice carry: none at rate zero. -/
def StampReads.chargedTax (r : StampReads) : ℤ :=
  match catalogIvaRate (invoiceTaxFraction r.tax_rate) with
  | some rate => if 0 < rate then r.tax_amount else 0
  | none => 0

/-! ### Whole cents -/

/-- The importe of a traslado, in cents. -/
def Impuesto.cents (t : Impuesto) : ℤ := t.importe.getD 0 / 100

/-- A traslado of whole cents; an exempt one has no importe. -/
structure Impuesto.Whole (t : Impuesto) : Prop where
  importe : t.importe.getD 0 = 100 * t.cents
  nonneg : 0 ≤ t.cents
  exento : t.exento = true → t.cents = 0

/-- The concepto is of `line` cents and carries `tax` cents. -/
structure Concepto.Carries (c : Concepto) (line tax : ℤ) : Prop where
  importe : c.importe = 100 * line
  whole : ∀ t ∈ c.impuestos, t.Whole
  tax : (c.impuestos.map Impuesto.cents).sum = tax
  one : c.impuestos.length ≤ 1

def DocumentRow.impuestos (doc : DocumentRow) : List Impuesto :=
  doc.conceptos.flatMap Concepto.impuestos

/-- The conceptos carry the lines and taxes of `parts`, in amounts that a double can tell apart. -/
structure DocumentRow.Made (doc : DocumentRow) (parts : List (ℤ × ℤ)) : Prop where
  conceptos : List.Forall₂ (fun c p => c.Carries p.1 p.2) doc.conceptos parts
  lines : ∀ p ∈ parts, |p.1| ≤ 2 * decimalMax
  tax : (parts.map Prod.snd).sum ≤ 2 * decimalMax
  subtotal : |doc.subtotal| ≤ 2 * decimalMax
  total : |doc.total| ≤ 2 * decimalMax

theorem made_taxes {conceptos : List Concepto} {parts : List (ℤ × ℤ)}
    (h : List.Forall₂ (fun c p => c.Carries p.1 p.2) conceptos parts) :
    (∀ t ∈ conceptos.flatMap Concepto.impuestos, t.Whole) ∧
      ((conceptos.flatMap Concepto.impuestos).map Impuesto.cents).sum =
        (parts.map Prod.snd).sum ∧
      (conceptos.flatMap Concepto.impuestos).length ≤ conceptos.length := by
  induction h with
  | nil => simp
  | cons hc _ ih =>
    obtain ⟨hwhole, hsum, hlen⟩ := ih
    have hone := hc.one
    refine ⟨fun t ht => ?_, ?_, ?_⟩
    · rw [List.flatMap_cons, List.mem_append] at ht
      exact ht.elim (hc.whole t) (hwhole t)
    · rw [List.flatMap_cons, List.map_append, List.sum_append, hc.tax, hsum, List.map_cons,
        List.sum_cons]
    · rw [List.flatMap_cons, List.length_append, List.length_cons]
      omega

/-! ### Groups -/

theorem sum_by_key {α κ M : Type*} [DecidableEq κ] [AddCommMonoid M] {key : α → κ} {f : α → M}
    {keys : List κ} {l : List α} (hnodup : keys.Nodup) (hcovers : ∀ a ∈ l, key a ∈ keys) :
    (keys.map fun k => ((l.filter fun a => key a = k).map f).sum).sum = (l.map f).sum := by
  induction l with
  | nil => simp
  | cons a l ih =>
    have hone : (keys.map fun k => if key a = k then f a else 0).sum = f a := by
      rw [← List.sum_toFinset _ hnodup, Finset.sum_ite_eq,
        if_pos (List.mem_toFinset.2 (hcovers a List.mem_cons_self))]
    rw [List.map_cons, List.sum_cons, ← ih fun b hb => hcovers b (List.mem_cons_of_mem a hb)]
    nth_rewrite 1 [← hone]
    rw [← List.sum_map_add]
    refine congrArg List.sum (List.map_congr_left fun k _ => ?_)
    by_cases h : key a = k <;> simp [h]

/-- The rows of a group. -/
def Group.of (ts : List Impuesto) (g : Group) : List Impuesto := ts.filter fun t => t.key = g.key

def Group.cents (ts : List Impuesto) (g : Group) : ℤ := ((g.of ts).map Impuesto.cents).sum

/-- What the groups are after the rows `ts`. -/
structure Grouped (ts : List Impuesto) (gs : List Group) : Prop where
  nodup : (gs.map Group.key).Nodup
  covers : ∀ t ∈ ts, t.key ∈ gs.map Group.key
  few : gs.length ≤ ts.length
  importe : ∀ g ∈ gs, g.importe = floatSum 0 ((g.of ts).map Impuesto.cents)

theorem Group.importe_add {ts : List Impuesto} {t : Impuesto} {g g' : Group} (ht : t.Whole)
    (hkey : g'.key = t.key)
    (h : g.importe = floatSum 0 ((g'.of ts).map Impuesto.cents)) :
    (g.add t).importe = floatSum 0 ((g'.of (ts ++ [t])).map Impuesto.cents) := by
  have hof : g'.of (ts ++ [t]) = g'.of ts ++ [t] := by
    simp [Group.of, List.filter_append, hkey]
  rw [hof, List.map_append, floatSum, List.foldl_append]
  show fl (g.importe + number4 (t.importe.getD 0)) = fl (floatSum 0 _ + number t.cents)
  rw [ht.importe, number4_cents, h]

/-- One more row. -/
theorem Grouped.add {ts : List Impuesto} {gs : List Group} {t : Impuesto} (h : Grouped ts gs)
    (ht : t.Whole) : Grouped (ts ++ [t]) (addTraslado gs t) := by
  have hother : ∀ g : Group, g.key ≠ t.key → g.of (ts ++ [t]) = g.of ts := by
    intro g hg
    simp [Group.of, List.filter_append, Ne.symm hg]
  unfold addTraslado
  split_ifs with hany
  · obtain ⟨g₀, hg₀, hkey₀⟩ := List.any_eq_true.1 hany
    have hkeys : (gs.map fun g => if g.key = t.key then g.add t else g).map Group.key =
        gs.map Group.key := by
      rw [List.map_map]
      refine List.map_congr_left fun g _ => ?_
      simp only [Function.comp_apply]
      split_ifs <;> rfl
    refine ⟨by rw [hkeys]; exact h.nodup, fun u hu => ?_, ?_, fun g hg => ?_⟩
    · rw [hkeys]
      rcases List.mem_append.1 hu with hu | hu
      · exact h.covers u hu
      · obtain rfl := List.mem_singleton.1 hu
        exact List.mem_map.2 ⟨g₀, hg₀, of_decide_eq_true hkey₀⟩
    · rw [List.length_map, List.length_append]
      exact h.few.trans (Nat.le_add_right _ _)
    · obtain ⟨g, hmem, rfl⟩ := List.mem_map.1 hg
      split_ifs with hkey
      · exact Group.importe_add ht hkey (h.importe g hmem)
      · rw [hother g hkey]
        exact h.importe g hmem
  · have hnew : ∀ g ∈ gs, g.key ≠ t.key := fun g hg hkey =>
      hany (List.any_eq_true.2 ⟨g, hg, decide_eq_true hkey⟩)
    generalize hg₀ : (⟨t.exento, t.tasa_o_cuota, 0, 0⟩ : Group) = g₀
    have hkey₀ : g₀.key = t.key := by rw [← hg₀]; rfl
    have hempty : g₀.of ts = [] := by
      refine List.filter_eq_nil_iff.2 fun u hu hkey => ?_
      obtain ⟨g, hg, hgu⟩ := List.mem_map.1 (h.covers u hu)
      exact hnew g hg (hgu.trans ((of_decide_eq_true hkey).trans hkey₀))
    refine ⟨?_, fun u hu => ?_, ?_, fun g hg => ?_⟩
    · rw [List.map_append, List.nodup_append]
      refine ⟨h.nodup, List.nodup_singleton _, ?_⟩
      rintro _ hmem _ hsingle rfl
      obtain ⟨g, hg, hkey⟩ := List.mem_map.1 hmem
      exact hnew g hg (hkey.trans ((List.mem_singleton.1 hsingle).trans hkey₀))
    · rw [List.map_append]
      rcases List.mem_append.1 hu with hu | hu
      · exact List.mem_append_left _ (h.covers u hu)
      · obtain rfl := List.mem_singleton.1 hu
        exact List.mem_append_right _ (List.mem_singleton.2 hkey₀.symm)
    · rw [List.length_append, List.length_append]
      exact Nat.add_le_add_right h.few 1
    · rcases List.mem_append.1 hg with hg | hg
      · rw [hother g (hnew g hg)]
        exact h.importe g hg
      · obtain rfl := List.mem_singleton.1 hg
        have hnone : Group.of ts (g₀.add t) = [] := hempty
        exact Group.importe_add ht hkey₀ (by rw [hnone, ← hg₀]; rfl)

theorem groupTraslados_grouped {ts : List Impuesto} (h : ∀ t ∈ ts, t.Whole) :
    Grouped ts (groupTraslados ts) := by
  induction ts using List.reverseRecOn with
  | nil => exact ⟨List.nodup_nil, by simp, le_rfl, by simp [groupTraslados]⟩
  | append_singleton ts t ih =>
    rw [groupTraslados, List.foldl_append]
    exact (ih fun u hu => h u (List.mem_append_left _ hu)).add
      (h t (List.mem_append_right _ (List.mem_singleton_self t)))

/-! ### The summary -/

section Summary

variable {ts : List Impuesto} {gs : List Group} {g : Group}

theorem cents_of_nonneg (hts : ∀ t ∈ ts, t.Whole) : ∀ c ∈ (g.of ts).map Impuesto.cents, 0 ≤ c := by
  intro c hc
  obtain ⟨t, ht, rfl⟩ := List.mem_map.1 hc
  exact (hts t (List.mem_filter.1 ht).1).nonneg

theorem Group.cents_nonneg (hts : ∀ t ∈ ts, t.Whole) : 0 ≤ g.cents ts :=
  List.sum_nonneg (cents_of_nonneg hts)

theorem Group.cents_exento (hts : ∀ t ∈ ts, t.Whole) (hg : g.exento = true) : g.cents ts = 0 := by
  refine List.sum_eq_zero fun c hc => ?_
  obtain ⟨t, ht, rfl⟩ := List.mem_map.1 hc
  obtain ⟨hmem, hkey⟩ := List.mem_filter.1 ht
  have hkey := congrArg Prod.fst (of_decide_eq_true hkey)
  exact (hts t hmem).exento (hkey.trans hg)

theorem Grouped.sum_cents (h : Grouped ts gs) :
    (gs.map (Group.cents ts)).sum = (ts.map Impuesto.cents).sum := by
  have hkeys := @sum_by_key _ _ _ _ _ _ Impuesto.cents _ _ h.nodup h.covers
  rwa [List.map_map] at hkeys

theorem Grouped.sum_rows (h : Grouped ts gs) :
    (gs.map fun g => (g.of ts).length).sum = ts.length := by
  have hkeys := @sum_by_key _ _ _ _ _ _ (fun _ : Impuesto => 1) _ _ h.nodup h.covers
  rw [List.map_map] at hkeys
  simpa [Function.comp_def, Group.of] using hkeys

theorem Grouped.close (h : Grouped ts gs) (hts : ∀ t ∈ ts, t.Whole)
    (hfits : (ts.map Impuesto.cents).sum ≤ 2 * decimalMax) (hlen : ts.length ≤ 2 ^ 16)
    (hg : g ∈ gs) :
    |g.importe - (g.cents ts : ℚ) / 100| ≤ ((2 * (g.of ts).length : ℕ) : ℚ) / 2 ^ 26 ∧
      toDecimal g.importe = g.cents ts := by
  have hle : g.cents ts ≤ 2 * decimalMax := by
    rw [← h.sum_cents] at hfits
    refine (List.single_le_sum ?_ _ (List.mem_map_of_mem hg)).trans hfits
    intro c hc
    obtain ⟨g', _, rfl⟩ := List.mem_map.1 hc
    exact Group.cents_nonneg hts
  have hshort : ((g.of ts).map Impuesto.cents).length ≤ 2 ^ 16 := by
    rw [List.length_map]
    exact (List.length_filter_le _ _).trans hlen
  rw [h.importe g hg, ← List.length_map (f := Impuesto.cents)]
  exact ⟨floatSum_close (cents_of_nonneg hts) hle hshort,
    toDecimal_floatSum (cents_of_nonneg hts) hle hshort⟩

theorem sum_filter_of_zero {f : Group → ℤ} (h : ∀ g ∈ gs, g.exento = true → f g = 0) :
    ((gs.filter fun g => g.exento = false).map f).sum = (gs.map f).sum := by
  induction gs with
  | nil => rfl
  | cons g gs ih =>
    have hrest := ih fun g' hg' => h g' (List.mem_cons_of_mem g hg')
    have hg := h g List.mem_cons_self
    cases hexento : g.exento <;> simp_all

/-- **The total of the groups** that are not exempt is all the tax. -/
theorem Grouped.total (h : Grouped ts gs) (hts : ∀ t ∈ ts, t.Whole)
    (hfits : (ts.map Impuesto.cents).sum ≤ 2 * decimalMax) (hlen : ts.length ≤ 2 ^ 16) :
    toDecimal ((gs.filter fun g => g.exento = false).foldl (fun sum g => fl (sum + g.importe)) 0) =
      (ts.map Impuesto.cents).sum := by
  generalize htaxable : (gs.filter fun g => g.exento = false) = taxable
  have htotal : (taxable.map (Group.cents ts)).sum = (ts.map Impuesto.cents).sum := by
    rw [← htaxable, sum_filter_of_zero fun g _ => Group.cents_exento hts, h.sum_cents]
  have hsub : taxable.Sublist gs := htaxable ▸ List.filter_sublist
  -- each addition adds an error of its own to those of the groups
  have herrors : (taxable.map fun g => 2 * (g.of ts).length + 1).sum ≤ 3 * 2 ^ 16 := by
    have hall := (hsub.map fun g => 2 * (g.of ts).length + 1).sum_le_sum fun _ _ => Nat.zero_le _
    have hevery : (gs.map fun g => 2 * (g.of ts).length + 1).sum = 2 * ts.length + gs.length := by
      rw [List.sum_map_add, List.sum_map_mul_left, h.sum_rows]
      simp
    have := h.few
    omega
  have hclose := @foldl_fl_close
    (taxable.map fun g => (g.importe, g.cents ts, 2 * (g.of ts).length)) 0 0 0
    (fun p hp => by
      obtain ⟨g, hg, rfl⟩ := List.mem_map.1 hp
      exact ⟨Group.cents_nonneg hts, (h.close hts hfits hlen (hsub.subset hg)).1⟩)
    le_rfl
    (by rw [List.map_map, zero_add]; exact htotal.le.trans hfits)
    (by rw [List.map_map, zero_add]; exact herrors.trans (by norm_num)) (by norm_num)
  rw [List.foldl_map, List.map_map, List.map_map, zero_add, zero_add] at hclose
  have hbound : (((taxable.map fun g => 2 * (g.of ts).length + 1).sum : ℕ) : ℚ) ≤ 3 * 2 ^ 16 := by
    exact_mod_cast herrors
  rw [← htotal]
  have hnear := abs_le.1 (hclose.trans (div_le_div_of_nonneg_right hbound (by norm_num)))
  refine toDecimal_near ?_
  rw [abs_lt]
  constructor <;> norm_num [Function.comp_def] at hnear ⊢ <;> linarith [hnear.1, hnear.2]

end Summary

/-! ### The XML -/

section Xml

variable {doc : DocumentRow} {parts : List (ℤ × ℤ)}

theorem importes_conceptos {conceptos : List Concepto}
    (h : List.Forall₂ (fun c p => c.Carries p.1 p.2) conceptos parts)
    (hparts : ∀ p ∈ parts, |p.1| ≤ 2 * decimalMax) :
    conceptos.map (fun c => (conceptoXml c).importe) = parts.map Prod.fst := by
  induction h with
  | nil => rfl
  | @cons c p _ _ hc _ ih =>
    rw [List.map_cons, List.map_cons, ih fun q hq => hparts q (List.mem_cons_of_mem p hq)]
    show formatMoney c.importe :: _ = _
    rw [hc.importe, formatMoney_cents (hparts p List.mem_cons_self)]

/-- **The figures** add up just when the header is the sum of the lines and of the tax. -/
theorem DocumentRow.Made.adds_iff (h : doc.Made parts)
    (hlen : doc.conceptos.length ≤ maxPlaceholders) :
    Adds (buildCfdi40Xml doc) ↔ doc.subtotal = (parts.map Prod.fst).sum ∧
      doc.total = doc.subtotal + (parts.map Prod.snd).sum := by
  obtain ⟨hwhole, hsum, hfew⟩ : (∀ t ∈ doc.impuestos, t.Whole) ∧
      (doc.impuestos.map Impuesto.cents).sum = (parts.map Prod.snd).sum ∧
      doc.impuestos.length ≤ doc.conceptos.length := made_taxes h.conceptos
  have hcount : doc.impuestos.length ≤ 2 ^ 16 := hfew.trans (hlen.trans (by decide))
  have hfits := hsum.le.trans h.tax
  have hgrouped := groupTraslados_grouped hwhole
  have hsub : (buildCfdi40Xml doc).subTotal = doc.subtotal := toDecimal_number_cents h.subtotal
  have htotal : (buildCfdi40Xml doc).total = doc.total := toDecimal_number_cents h.total
  have hlines : (buildCfdi40Xml doc).conceptos.map ConceptoXml.importe = parts.map Prod.fst := by
    show (doc.conceptos.map conceptoXml).map _ = _
    rw [List.map_map]
    exact importes_conceptos h.conceptos h.lines
  have htax : (buildCfdi40Xml doc).totalImpuestosTrasladados.getD 0 =
      (parts.map Prod.snd).sum := by
    rw [← hsum, ← hgrouped.total hwhole hfits hcount]
    simp only [buildCfdi40Xml]
    split_ifs with hnil
    · change List.filter _ (groupTraslados doc.impuestos) = [] at hnil
      rw [hnil]
      norm_num [toDecimal]
    · rfl
  have hrows : ((buildCfdi40Xml doc).conceptos.flatMap ConceptoXml.traslados).map
      (fun t => t.importe.getD 0) = doc.impuestos.map Impuesto.cents := by
    have hflat : (doc.conceptos.map conceptoXml).flatMap ConceptoXml.traslados =
        doc.impuestos.map trasladoXml := by
      rw [DocumentRow.impuestos, List.flatMap_map, List.map_flatMap]
      rfl
    show ((doc.conceptos.map conceptoXml).flatMap ConceptoXml.traslados).map _ = _
    rw [hflat, List.map_map]
    refine List.map_congr_left fun t ht => ?_
    have hcents : |t.cents| ≤ 2 * decimalMax := by
      rw [abs_of_nonneg (hwhole t ht).nonneg]
      refine (List.single_le_sum ?_ _ (List.mem_map_of_mem ht)).trans hfits
      intro c hc
      obtain ⟨u, hu, rfl⟩ := List.mem_map.1 hc
      exact (hwhole u hu).nonneg
    simp only [Function.comp_apply, trasladoXml]
    split_ifs with hexento
    · exact ((hwhole t ht).exento hexento).symm
    · rw [Option.getD_some, (hwhole t ht).importe, formatMoney_cents hcents]
  have hgroups : (buildCfdi40Xml doc).traslados.map (fun t => t.importe.getD 0) =
      (groupTraslados doc.impuestos).map (Group.cents doc.impuestos) := by
    show ((groupTraslados doc.impuestos).map groupXml).map _ = _
    rw [List.map_map]
    refine List.map_congr_left fun g hg => ?_
    simp only [Function.comp_apply, groupXml]
    split_ifs with hexento
    · exact (Group.cents_exento hwhole hexento).symm
    · exact (hgrouped.close hwhole hfits hcount hg).2
  constructor
  · intro hadds
    have hsum' := hadds.subTotal
    have htotal' := hadds.total
    rw [hsub, hlines] at hsum'
    rw [htotal, hsub, htax] at htotal'
    exact ⟨hsum', htotal'⟩
  · rintro ⟨hsub', htotal'⟩
    refine ⟨?_, ?_, ?_, ?_⟩
    · rw [hsub, hlines, hsub']
    · rw [htax, hrows]
      exact hsum.symm
    · rw [htax, hgroups, hgrouped.sum_cents]
      exact hsum.symm
    · rw [htotal, hsub, htax, htotal']

end Xml

/-! ### The law -/

theorem carries_taxed {line tax cantidad valor : ℤ} {objeto : String} {rate : Option ℤ}
    (hline : |line| ≤ 2 * decimalMax) (h0 : 0 ≤ tax) (htax : tax ≤ 2 * decimalMax) :
    Concepto.Carries ⟨cantidad, valor, toDecimal4 (number line), objeto,
      [⟨false, toDecimal4 (number line), rate, some (toDecimal4 (number tax))⟩]⟩ line tax := by
  rw [toDecimal4_number hline, toDecimal4_number (abs_le.2 ⟨by omega, htax⟩)]
  have hcents : (100 * tax) / 100 = tax := Int.mul_ediv_cancel_left tax (by norm_num)
  refine ⟨rfl, fun t ht => ?_, ?_, le_rfl⟩
  · obtain rfl := List.mem_singleton.1 ht
    exact ⟨by simp [Impuesto.cents, hcents], by simp [Impuesto.cents, hcents, h0], nofun⟩
  · simp [Impuesto.cents, hcents]

theorem carries_untaxed {line cantidad valor : ℤ} {objeto : String} {impuestos : List Impuesto}
    (hline : |line| ≤ 2 * decimalMax) (hnone : ∀ t ∈ impuestos, t.importe = none)
    (hone : impuestos.length ≤ 1) :
    Concepto.Carries ⟨cantidad, valor, toDecimal4 (number line), objeto, impuestos⟩ line 0 := by
  have hcents : ∀ t ∈ impuestos, t.cents = 0 := fun t ht => by
    rw [Impuesto.cents, hnone t ht]
    rfl
  refine ⟨toDecimal4_number hline, fun t ht => ?_, ?_, hone⟩
  · refine ⟨by rw [hnone t ht, hcents t ht]; rfl, (hcents t ht).ge, fun _ => hcents t ht⟩
  · refine List.sum_eq_zero fun c hc => ?_
    obtain ⟨t, ht, rfl⟩ := List.mem_map.1 hc
    exact hcents t ht

theorem abs_le_double {c : ℤ} (h : |c| ≤ decimalMax) : |c| ≤ 2 * decimalMax := by
  have hmax : decimalMax = 9999999999 := rfl
  omega

theorem InvoiceItem.abs_amount (item : InvoiceItem) : |item.amount| ≤ 2 * decimalMax :=
  abs_le_double (by rw [abs_of_nonneg item.nonneg]; exact item.fits)

theorem carries_taxedConceptos {rate : ℚ} {items : List InvoiceItem} {cents : List ℤ}
    (h : cents.length = items.length) (hcents : ∀ c ∈ cents, 0 ≤ c ∧ c ≤ 2 * decimalMax) :
    List.Forall₂ (fun c p => c.Carries p.1 p.2) (taxedConceptos rate items (cents.map number))
      ((items.map InvoiceItem.amount).zip cents) := by
  induction items generalizing cents with
  | nil => exact .nil
  | cons item items ih =>
    cases cents with
    | nil => exact absurd h (by simp)
    | cons c cents =>
      obtain ⟨h0, hle⟩ := hcents c List.mem_cons_self
      exact .cons (carries_taxed item.abs_amount h0 hle)
        (ih (Nat.succ.inj h) fun x hx => hcents x (List.mem_cons_of_mem c hx))

theorem resolveStampInputs_ok {r : StampReads} {rate : ℚ} {receptor : Receptor}
    (h : resolveStampInputs r = .ok (rate, receptor)) :
    catalogIvaRate (invoiceTaxFraction r.tax_rate) = some rate := by
  unfold resolveStampInputs at h
  iterate 4
    split at h
    · cases h
  -- the lines, then the use of the CFDI
  iterate 2
    split at h
    · cases h
  split at h
  · cases h
  · rename_i found hrate
    split at h
    · cases h
    · cases h
      exact hrate

/-- The parts of a converted invoice: its lines with their shares of the tax. -/
theorem made_of_documentRow {r : StampReads} {doc : DocumentRow} (h : documentRow r = .ok doc) :
    ∃ parts, doc.Made parts ∧ doc.subtotal = r.subtotal ∧ doc.total = r.total ∧
      parts.map Prod.fst = r.items.map InvoiceItem.amount ∧
      (parts.map Prod.snd).sum = r.chargedTax := by
  have hsub := toDecimal_number_cents (abs_le_double r.subtotal_fits)
  have htot := toDecimal_number_cents (abs_le_double r.total_fits)
  have hsub' := abs_le_double r.subtotal_fits
  have htot' := abs_le_double r.total_fits
  have hmax : decimalMax = 9999999999 := rfl
  unfold documentRow at h
  split at h
  · cases h
  rename_i rate receptor hresolved
  have hrate := resolveStampInputs_ok hresolved
  -- without a rate above zero the rows have no importe
  have huntaxed : ∀ row : InvoiceItem → Concepto, ¬ 0 < rate →
      (∀ i, (row i).Carries i.amount 0) → ∃ parts,
        (DocumentRow.mk (toDecimal (number r.subtotal)) (toDecimal (number r.tax_amount))
          (toDecimal (number r.total)) (r.items.map row)).Made parts ∧
        toDecimal (number r.subtotal) = r.subtotal ∧ toDecimal (number r.total) = r.total ∧
        parts.map Prod.fst = r.items.map InvoiceItem.amount ∧
        (parts.map Prod.snd).sum = r.chargedTax := by
    intro row hzero hrow
    have hzeros : ((r.items.map fun i => (i.amount, (0 : ℤ))).map Prod.snd).sum = 0 := by
      simp [Function.comp_def]
    refine ⟨r.items.map fun i => (i.amount, 0), ⟨?_, fun p hp => ?_, ?_, ?_, ?_⟩, hsub, htot, ?_, ?_⟩
    · rw [List.forall₂_map_left_iff, List.forall₂_map_right_iff, List.forall₂_same]
      exact fun i _ => hrow i
    · obtain ⟨i, _, rfl⟩ := List.mem_map.1 hp
      exact i.abs_amount
    · rw [hzeros, hmax]
      norm_num
    · rw [hsub]
      exact hsub'
    · rw [htot]
      exact htot'
    · rw [List.map_map]
      rfl
    · rw [hzeros]
      simp only [StampReads.chargedTax, hrate, if_neg hzero]
  simp only at h
  split_ifs at h with hpos hexempt
  · split at h
    · cases h
    rename_i taxes htaxes
    cases h
    have hbases : (r.items.map fun i => number i.amount) =
        (r.items.map InvoiceItem.amount).map number := by
      rw [List.map_map]
      rfl
    rw [hbases] at htaxes
    obtain ⟨cents, rfl, hsum, hlength, hnonneg⟩ := allocateLineTaxes_some hpos.le r.tax_fits htaxes
    rw [List.length_map] at hlength
    have h0 := hnonneg fun b hb => by
      obtain ⟨item, _, rfl⟩ := List.mem_map.1 hb
      exact ⟨item.nonneg, (le_abs_self _).trans item.abs_amount⟩
    have htax := abs_le.1 r.tax_fits
    have hcents : ∀ c ∈ cents, 0 ≤ c ∧ c ≤ 2 * decimalMax := fun c hc => by
      have := List.single_le_sum h0 c hc
      exact ⟨h0 c hc, by omega⟩
    have hfst := @List.map_fst_zip _ _ (r.items.map InvoiceItem.amount) cents
      (by rw [List.length_map]; exact hlength.ge)
    have hsnd := @List.map_snd_zip _ _ (r.items.map InvoiceItem.amount) cents
      (by rw [List.length_map]; exact hlength.le)
    refine ⟨_, ⟨carries_taxedConceptos hlength hcents, fun p hp => ?_, ?_, ?_, ?_⟩, hsub, htot,
      hfst, ?_⟩
    · obtain ⟨i, _, hi⟩ := List.mem_map.1 (List.of_mem_zip hp).1
      rw [← hi]
      exact i.abs_amount
    · rw [hsnd, hsum]
      omega
    · rw [hsub]
      exact hsub'
    · rw [htot]
      exact htot'
    · rw [hsnd, hsum]
      simp only [StampReads.chargedTax, hrate, if_pos hpos]
  · cases h
    exact huntaxed _ hpos fun i => carries_untaxed i.abs_amount (by simp) le_rfl
  · cases h
    exact huntaxed _ hpos fun i => carries_untaxed i.abs_amount (by simp) (Nat.zero_le 1)

theorem generatedXml_ok {doc : DocumentRow} {x : Comprobante} (h : generatedXml doc = .ok x) :
    doc.conceptos.length ≤ maxPlaceholders ∧ x = buildCfdi40Xml doc := by
  unfold generatedXml at h
  split_ifs at h with hlen
  split at h
  · cases h
    exact ⟨not_lt.1 hlen, rfl⟩
  · cases h

/-- **The figures of a CFDI.**  They add up just when the invoice's header is the sum of its lines
and of the tax that is charged. -/
theorem cfdi_adds_iff (r : StampReads) (x : Comprobante) (h : stampedXml r = .ok x) :
    Adds x ↔ r.subtotal = (r.items.map InvoiceItem.amount).sum ∧
      r.total = r.subtotal + r.chargedTax := by
  unfold stampedXml at h
  split at h
  · cases h
  · rename_i doc hdoc
    obtain ⟨hlen, rfl⟩ := generatedXml_ok h
    obtain ⟨parts, hmade, hsub, htot, hlines, htax⟩ := made_of_documentRow hdoc
    rw [hmade.adds_iff hlen, hsub, htot, hlines, htax]

/-! ### Two invoices of one line -/

def plainReceptor : Receptor := ⟨"XAXX010101000", "PUBLICO EN GENERAL", "616", "64000", false⟩

theorem hundred_fits : (10000 : ℤ) ≤ decimalMax := by decide

theorem header_fits : |(10000 : ℤ)| ≤ decimalMax ∧ |(1600 : ℤ)| ≤ decimalMax ∧
    |(11600 : ℤ)| ≤ decimalMax ∧ |(110000 : ℤ)| ≤ decimalMax ∧ |(0 : ℤ)| ≤ decimalMax := by
  decide

/-- One line of 100.00. -/
def oneLine : InvoiceItem := ⟨100, 10000, 10000, Int.natCast_nonneg 10000, hundred_fits⟩

/-- An invoice of 100.00 and 16% of tax. -/
def taxedInvoice : StampReads :=
  ⟨.issued, "MXN", none, some plainReceptor, [oneLine], "S01", true, none, 1600, 10000, 1600, 11600,
    header_fits.1, header_fits.2.1, header_fits.2.2.1⟩

/-- A header of 1000.00 at rate zero, to which a line of 100.00 was added afterwards. -/
def lineAddedLater : StampReads :=
  ⟨.issued, "MXN", none, some plainReceptor, [oneLine], "S01", true, none, 0, 110000, 0, 110000,
    header_fits.2.2.2.1, header_fits.2.2.2.2, header_fits.2.2.2.1⟩

/-- The figures of the two, as written. -/
def taxedXml : Comprobante :=
  ⟨10000, 11600, [⟨⟨1, 0⟩, ⟨10000, 2⟩, 10000, "02", [⟨10000, false, some 160000, some 1600⟩]⟩],
    some 1600, [⟨10000, false, some 160000, some 1600⟩]⟩

def lineAddedXml : Comprobante :=
  ⟨110000, 110000, [⟨⟨1, 0⟩, ⟨10000, 2⟩, 10000, "01", []⟩], none, []⟩

/-- The law at an invoice that is taxed. -/
theorem cfdi_adds_iff_taxed : stampedXml taxedInvoice = .ok taxedXml ∧
    (Adds taxedXml ↔ taxedInvoice.subtotal = (taxedInvoice.items.map InvoiceItem.amount).sum ∧
      taxedInvoice.total = taxedInvoice.subtotal + taxedInvoice.chargedTax) := by
  have hx : stampedXml taxedInvoice = .ok taxedXml := by decide +kernel
  exact ⟨hx, cfdi_adds_iff taxedInvoice taxedXml hx⟩

/-- A CFDI of 1100.00 whose only concepto is 100.00 is accepted. -/
theorem subtotal_beside_lines : stampedXml lineAddedLater = .ok lineAddedXml ∧
    ¬ Adds lineAddedXml := by
  refine ⟨by decide +kernel, ?_⟩
  intro hadds
  exact absurd hadds.subTotal (by decide)

end Vigabss.Cfdi
