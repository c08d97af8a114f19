import Vigabss.Cfdi.Globals

/-!
# Vigabss.Cfdi.ReportedOnce — no sale is reported twice to SAT

An invoice is in one factura, and a factura has one CFDI, so no two live globals report an invoice.
A CFDI of its own and a live global keep apart just when neither is filed over the other: the
conversion of an invoice does not look at the facturas, and a global reads the CFDIs of its invoices
without a lock on them.
-/

namespace Vigabss.Cfdi

open Vigabss.Lib Vigabss.Billing

/-! ### The law -/

/-- No invoice with a live CFDI of its own is reported by a live global, and none by two. -/
structure ReportedOnce (t : Table Ingreso) : Prop where
  own : ∀ d ∈ t.rows, d.sat_status.live = true → ∀ g ∈ t.rows, g.sat_status.live = true →
    g.invoice_id = none → ∀ i ∈ d.invoice_id, i ∉ g.conceptos
  global : ∀ g ∈ t.rows, g.sat_status.live = true → g.invoice_id = none → ∀ h ∈ t.rows,
    h.sat_status.live = true → h.invoice_id = none → ∀ i ∈ g.conceptos, i ∈ h.conceptos → g = h

/-- An invoice gets its own CFDI only while no live global reports it, and a global is filed only
while none of its invoices has got a CFDI. -/
def Exclusive (s : SaleDb) : SaleTask → Bool → Prop
  | .filingInvoice invoice, true => ∀ g ∈ s.docs.rows, g.sat_status.live = true →
      g.invoice_id = none → invoice ∉ g.conceptos
  | .filingGlobal _ ids, true => ∀ d ∈ s.docs.rows, d.sat_status.live = true →
      ∀ i ∈ d.invoice_id, i ∉ ids
  | _, _ => True

/-! ### What the locks protect -/

/-- The factura whose row a call has locked. -/
def SaleTask.holder : SaleTask → Option ℕ
  | .changing f _ => some f.id
  | .readingGlobal factura => some factura
  | .filingGlobal factura _ => some factura
  | _ => none

/-- The factura has no CFDI yet. -/
def Unfiled (s : SaleDb) (factura : ℕ) : Prop :=
  ∃ f, s.facturas.find? factura = some f ∧ f.cfdi_document_id = none

/-- The invoice is an item of the factura. -/
def Lists (s : SaleDb) (factura invoice : ℕ) : Prop :=
  ∃ it ∈ s.items.rows, it.factura = factura ∧ it.invoice = invoice

/-- What a call relies on under its lock. -/
def Relies (s : SaleDb) : SaleTask → Prop
  | .changing f _ => Unfiled s f.id
  | .readingGlobal factura => Unfiled s factura
  | .filingGlobal factura ids => Unfiled s factura ∧ ∀ i ∈ ids, Lists s factura i
  | _ => True

/-- An invoice is in one factura, a factura has one CFDI, and a global reports items of its
factura. -/
structure Filed (s : SaleDb) : Prop where
  ids : ∀ d ∈ s.docs.rows, d.id < s.nextDoc
  refs : ∀ f ∈ s.facturas.rows, ∀ c ∈ f.cfdi_document_id, c < s.nextDoc
  one : ∀ it ∈ s.items.rows, ∀ jt ∈ s.items.rows, it.invoice = jt.invoice → it = jt
  global : ∀ g ∈ s.docs.rows, g.invoice_id = none →
    ∃ f ∈ s.facturas.rows, f.cfdi_document_id = some g.id ∧ ∀ i ∈ g.conceptos, Lists s f.id i

/-- What a statement may do to the facturas that its call has not locked: nothing. -/
structure LeavesOthers (s s' : SaleDb) (factura : Option ℕ) : Prop where
  unfiled : ∀ f, factura ≠ some f → Unfiled s f → Unfiled s' f
  lists : ∀ f i, factura ≠ some f → Lists s f i → Lists s' f i

theorem Relies.of_leaves {s s' : SaleDb} {factura : Option ℕ} {u : SaleTask}
    (h : LeavesOthers s s' factura) (hapart : ∀ k, factura = some k → u.holder ≠ some k)
    (hu : Relies s u) : Relies s' u := by
  have hne : ∀ k, u.holder = some k → factura ≠ some k := fun k hk hf => hapart k hf hk
  cases u with
  | changing f change => exact h.unfiled f.id (hne f.id rfl) hu
  | readingGlobal factura => exact h.unfiled factura (hne factura rfl) hu
  | filingGlobal factura ids =>
    exact ⟨h.unfiled factura (hne factura rfl) hu.1,
      fun i hi => h.lists factura i (hne factura rfl) (hu.2 i hi)⟩
  | _ => trivial

theorem leavesOthers_refl (s : SaleDb) (factura : Option ℕ) : LeavesOthers s s factura where
  unfiled _ _ h := h
  lists _ _ _ h := h

theorem Filed.globals {s : SaleDb} (h : Filed s) {g g' : Ingreso} (hg : g ∈ s.docs.rows)
    (hnone : g.invoice_id = none) (hg' : g' ∈ s.docs.rows) (hnone' : g'.invoice_id = none) {i : ℕ}
    (hi : i ∈ g.conceptos) (hi' : i ∈ g'.conceptos) : g = g' := by
  obtain ⟨f, hf, hcfdi, hlists⟩ := h.global g hg hnone
  obtain ⟨f', hf', hcfdi', hlists'⟩ := h.global g' hg' hnone'
  obtain ⟨it, hit, hitf, hiti⟩ := hlists i hi
  obtain ⟨jt, hjt, hjtf, hjti⟩ := hlists' i hi'
  have hsame : it = jt := h.one it hit jt hjt (by rw [hiti, hjti])
  have hfactura : f = f' := Table.eq_of_key_eq hf hf'
    (show f.id = f'.id by rw [← hitf, ← hjtf, hsame])
  have hid : g.id = g'.id := by
    rw [hfactura, hcfdi'] at hcfdi
    exact (Option.some.inj hcfdi).symm
  exact Table.eq_of_key_eq hg hg' hid

/-! ### The changes of the rows -/

theorem mem_moveDoc {s : SaleDb} {doc : ℕ} {m : SatMove} {d : Ingreso} :
    d ∈ (s.moveDoc doc m).docs.rows ↔ (d ∈ s.docs.rows ∧ d.id ≠ doc) ∨
      ∃ e, s.docs.find? doc = some e ∧ d = e.move m :=
  @Table.mem_modify _ _ _ _ _ (Ingreso.key_move m) _

theorem mem_markStamped {s : SaleDb} {factura : ℕ} {f : Factura} :
    f ∈ (s.markStamped factura).facturas.rows ↔ (f ∈ s.facturas.rows ∧ f.id ≠ factura) ∨
      ∃ f', s.facturas.find? factura = some f' ∧ f = f'.mark :=
  @Table.mem_modify _ _ _ _ _ Factura.key_mark _

theorem mem_fileGlobal {s : SaleDb} {factura : ℕ} {ids : List ℕ} {f : Factura} :
    f ∈ (s.fileGlobal factura ids).facturas.rows ↔ (f ∈ s.facturas.rows ∧ f.id ≠ factura) ∨
      ∃ f', s.facturas.find? factura = some f' ∧ f = f'.filed s.nextDoc :=
  @Table.mem_modify _ _ _ _ _ (Factura.key_filed s.nextDoc) _

section Changes

variable {s : SaleDb} (h : Filed s)

include h

theorem Filed.congr {s' : SaleDb} (hdocs : s'.docs = s.docs) (hnext : s'.nextDoc = s.nextDoc)
    (hfacturas : s'.facturas = s.facturas) (hitems : s'.items = s.items) : Filed s' := by
  cases s'
  cases hdocs
  cases hnext
  cases hfacturas
  cases hitems
  exact ⟨h.ids, h.refs, h.one, h.global⟩

theorem Filed.mem_fileDoc {invoice_id : Option ℕ} {conceptos : List ℕ} {d : Ingreso} :
    d ∈ (s.fileDoc invoice_id conceptos).docs.rows ↔
      d = ⟨s.nextDoc, invoice_id, conceptos, .draft⟩ ∨ d ∈ s.docs.rows := by
  refine Table.mem_put.trans (or_congr_right ⟨fun hd => hd.1, fun hd => ⟨hd, ?_⟩⟩)
  exact (h.ids d hd).ne

theorem Filed.fileInvoice (invoice : ℕ) : Filed (s.fileDoc (some invoice) [invoice]) where
  ids d hd := by
    rcases h.mem_fileDoc.1 hd with rfl | hd
    · exact Nat.lt_succ_self _
    · exact (h.ids d hd).trans (Nat.lt_succ_self _)
  refs f hf c hc := (h.refs f hf c hc).trans (Nat.lt_succ_self _)
  one := h.one
  global g hg hnone := by
    rcases h.mem_fileDoc.1 hg with rfl | hg
    · cases hnone
    · exact h.global g hg hnone

theorem Filed.moveDoc (doc : ℕ) (m : SatMove) : Filed (s.moveDoc doc m) := by
  have hback : ∀ d ∈ (s.moveDoc doc m).docs.rows, ∃ e ∈ s.docs.rows, e.id = d.id ∧
      e.invoice_id = d.invoice_id ∧ e.conceptos = d.conceptos := by
    intro d hd
    rcases mem_moveDoc.1 hd with ⟨hd, _⟩ | ⟨e, he, rfl⟩
    · exact ⟨d, hd, rfl, rfl, rfl⟩
    · exact ⟨e, (Table.find?_eq_some.1 he).1, rfl, rfl, rfl⟩
  refine ⟨fun d hd => ?_, h.refs, h.one, fun g hg hnone => ?_⟩
  · obtain ⟨e, he, hid, _, _⟩ := hback d hd
    exact hid ▸ h.ids e he
  · obtain ⟨e, he, hid, hinvoice, hconceptos⟩ := hback g hg
    rw [← hid, ← hconceptos]
    exact h.global e he (hinvoice.trans hnone)

theorem Filed.removeDoc (doc : ℕ) : Filed { s with docs := s.docs.remove doc } where
  ids d hd := h.ids d (Table.mem_remove.1 hd).1
  refs := h.refs
  one := h.one
  global g hg := h.global g (Table.mem_remove.1 hg).1

theorem Filed.markStamped (factura : ℕ) : Filed (s.markStamped factura) where
  ids := h.ids
  refs f hf := by
    rcases mem_markStamped.1 hf with ⟨hf, _⟩ | ⟨f', hf', rfl⟩
    · exact h.refs f hf
    · exact h.refs f' (Table.find?_eq_some.1 hf').1
  one := h.one
  global g hg hnone := by
    obtain ⟨f, hf, hcfdi, hlists⟩ := h.global g hg hnone
    by_cases hid : f.id = factura
    · refine ⟨f.mark, mem_markStamped.2 (.inr ⟨f, ?_, rfl⟩), hcfdi, hlists⟩
      exact Table.find?_eq_some.2 ⟨hf, hid⟩
    · exact ⟨f, mem_markStamped.2 (.inl ⟨hf, hid⟩), hcfdi, hlists⟩

theorem Filed.fileGlobal {factura : ℕ} {ids : List ℕ} (hunfiled : Unfiled s factura)
    (hlists : ∀ i ∈ ids, Lists s factura i) : Filed (s.fileGlobal factura ids) := by
  obtain ⟨f₀, hf₀, hnone₀⟩ := hunfiled
  obtain ⟨hmem₀, hid₀⟩ := Table.find?_eq_some.1 hf₀
  have hid₀ : f₀.id = factura := hid₀
  refine ⟨?_, ?_, h.one, ?_⟩
  · intro d hd
    rcases h.mem_fileDoc.1 hd with rfl | hd
    · exact Nat.lt_succ_self _
    · exact (h.ids d hd).trans (Nat.lt_succ_self _)
  · intro f hf c hc
    rcases mem_fileGlobal.1 hf with ⟨hf, _⟩ | ⟨f', hf', rfl⟩
    · exact (h.refs f hf c hc).trans (Nat.lt_succ_self _)
    · cases hc
      exact Nat.lt_succ_self _
  · intro g hg hnone
    rcases h.mem_fileDoc.1 hg with rfl | hg
    · refine ⟨f₀.filed s.nextDoc, mem_fileGlobal.2 (.inr ⟨f₀, hf₀, rfl⟩), rfl, fun i hi => ?_⟩
      show Lists s f₀.id i
      rw [hid₀]
      exact hlists i hi
    · obtain ⟨f, hf, hcfdi, hitems⟩ := h.global g hg hnone
      refine ⟨f, mem_fileGlobal.2 (.inl ⟨hf, ?_⟩), hcfdi, hitems⟩
      intro hkey
      have hkey : f.id = factura := hkey
      have hsame : f = f₀ := Table.eq_of_key_eq hf hmem₀ (show f.id = f₀.id by rw [hkey, hid₀])
      rw [hsame, hnone₀] at hcfdi
      cases hcfdi

theorem Filed.removeItem {it : FacturaItem} (hit : s.items.find? it.id = some it)
    (hunfiled : Unfiled s it.factura) : Filed { s with items := s.items.remove it.id } := by
  obtain ⟨f₀, hf₀, hnone₀⟩ := hunfiled
  obtain ⟨hmem₀, hid₀⟩ := Table.find?_eq_some.1 hf₀
  have hid₀ : f₀.id = it.factura := hid₀
  refine ⟨h.ids, h.refs, ?_, ?_⟩
  · intro jt hjt kt hkt
    exact h.one jt (Table.mem_remove.1 hjt).1 kt (Table.mem_remove.1 hkt).1
  · intro g hg hnone
    obtain ⟨f, hf, hcfdi, hlists⟩ := h.global g hg hnone
    refine ⟨f, hf, hcfdi, fun i hi => ?_⟩
    obtain ⟨jt, hjt, hjtf, hjti⟩ := hlists i hi
    refine ⟨jt, Table.mem_remove.2 ⟨hjt, fun hkey => ?_⟩, hjtf, hjti⟩
    have hsame : jt = it := Table.eq_of_key_eq hjt (Table.find?_eq_some.1 hit).1 hkey
    have hfactura : f = f₀ := Table.eq_of_key_eq hf hmem₀
      (show f.id = f₀.id by rw [hid₀, ← hjtf, hsame])
    rw [hfactura, hnone₀] at hcfdi
    cases hcfdi

end Changes

/-! ### Items that are added -/

def OneFactura (t : Table FacturaItem) : Prop :=
  ∀ it ∈ t.rows, ∀ jt ∈ t.rows, it.invoice = jt.invoice → it = jt

theorem mem_insertItem {t : Table FacturaItem} {factura invoice : ℕ} {it : FacturaItem} :
    it ∈ (t.insert (newItem factura invoice) (key_newItem factura invoice)).rows ↔
      it ∈ t.rows ∨ it = newItem factura invoice t.nextId :=
  @Table.mem_insert _ _ _ _ (key_newItem factura invoice) _

theorem subset_addItems {factura : ℕ} {it : FacturaItem} (ids : List ℕ) {t : Table FacturaItem}
    (h : it ∈ t.rows) : it ∈ (addItems t factura ids).rows := by
  induction ids generalizing t with
  | nil => exact h
  | cons i ids ih => exact ih (mem_insertItem.2 (.inl h))

theorem oneFactura_addItems {factura : ℕ} {ids : List ℕ} (hids : ids.Nodup)
    {t : Table FacturaItem} (hone : OneFactura t)
    (hnew : ∀ i ∈ ids, ∀ it ∈ t.rows, it.invoice ≠ i) : OneFactura (addItems t factura ids) := by
  induction ids generalizing t with
  | nil => exact hone
  | cons i ids ih =>
    obtain ⟨hnotin, hids⟩ := List.nodup_cons.1 hids
    have hfresh := hnew i List.mem_cons_self
    refine ih hids ?_ ?_
    · intro it hit jt hjt hsame
      rcases mem_insertItem.1 hit with hit | rfl
      · rcases mem_insertItem.1 hjt with hjt | rfl
        · exact hone it hit jt hjt hsame
        · exact absurd hsame (hfresh it hit)
      · rcases mem_insertItem.1 hjt with hjt | rfl
        · exact absurd hsame.symm (hfresh jt hjt)
        · rfl
    · intro j hj it hit
      rcases mem_insertItem.1 hit with hit | rfl
      · exact hnew j (List.mem_cons_of_mem _ hj) it hit
      · rintro rfl
        exact hnotin hj

variable (books : SaleBooks)

theorem eligible_new (s : SaleDb) (f : Factura) (currency : Option String) :
    ((books.invoices.rows.filter (books.eligible s f currency)).map SaleInvoice.id).Nodup ∧
      ∀ i ∈ (books.invoices.rows.filter (books.eligible s f currency)).map SaleInvoice.id,
        ∀ it ∈ s.items.rows, it.invoice ≠ i := by
  constructor
  · exact (List.filter_sublist.map SaleInvoice.id).nodup books.invoices.nodup
  · intro i hi it hit
    obtain ⟨inv, hinv, rfl⟩ := List.mem_map.1 hi
    have heligible := (List.mem_filter.1 hinv).2
    simp only [SaleBooks.eligible, Bool.and_eq_true, List.all_eq_true] at heligible
    exact of_decide_eq_true (heligible.1.2 it hit)

theorem filed_addItems {s : SaleDb} (h : Filed s) (f : Factura) (currency : Option String) :
    Filed { s with
      items := addItems s.items f.id
        ((books.invoices.rows.filter (books.eligible s f currency)).map SaleInvoice.id) } where
  ids := h.ids
  refs := h.refs
  one := oneFactura_addItems (eligible_new books s f currency).1 h.one
    (eligible_new books s f currency).2
  global g hg hnone := by
    obtain ⟨f', hf', hcfdi, hlists⟩ := h.global g hg hnone
    refine ⟨f', hf', hcfdi, fun i hi => ?_⟩
    obtain ⟨it, hit, hitf, hiti⟩ := hlists i hi
    exact ⟨it, subset_addItems _ hit, hitf, hiti⟩

/-! ### What a statement leaves to the others -/

theorem leavesOthers_of_rows {s s' : SaleDb} (factura : Option ℕ) (hf : s'.facturas = s.facturas)
    (hitems : ∀ it ∈ s.items.rows, factura ≠ some it.factura → it ∈ s'.items.rows) :
    LeavesOthers s s' factura where
  unfiled f _ h := by
    unfold Unfiled
    rw [hf]
    exact h
  lists f i hne h := by
    obtain ⟨it, hit, rfl, rfl⟩ := h
    exact ⟨it, hitems it hit hne, rfl, rfl⟩

theorem leavesOthers_markStamped (s : SaleDb) (factura : ℕ) (k : Option ℕ) :
    LeavesOthers s (s.markStamped factura) k where
  unfiled f _ h := by
    obtain ⟨row, hrow, hnone⟩ := h
    have hfind := Table.find?_modify s.facturas factura f Factura.mark Factura.key_mark
    by_cases hf : f = factura
    · subst hf
      rw [if_pos rfl, hrow] at hfind
      exact ⟨row.mark, hfind, hnone⟩
    · rw [if_neg hf, hrow] at hfind
      exact ⟨row, hfind, hnone⟩
  lists _ _ _ h := h

theorem leavesOthers_fileGlobal (s : SaleDb) (factura : ℕ) (ids : List ℕ) :
    LeavesOthers s (s.fileGlobal factura ids) (some factura) where
  unfiled f hne h := by
    obtain ⟨row, hrow, hnone⟩ := h
    have hfind := Table.find?_modify s.facturas factura f (Factura.filed s.nextDoc)
      (Factura.key_filed s.nextDoc)
    have hf : f ≠ factura := fun hf => hne (congrArg some hf.symm)
    rw [if_neg hf, hrow] at hfind
    exact ⟨row, hfind, hnone⟩
  lists _ _ _ h := h

/-! ### A statement of a call -/

abbrev HoldsFactura (t : SaleTask) (factura : ℕ) : Prop := t.holder = some factura

abbrev LockedFactura (s : SaleDb) (factura : ℕ) : Prop := factura ∈ s.lockedFacturas

/-- What one statement does. -/
structure SaleKeeps (s : SaleDb) (t : SaleTask) (s' : SaleDb) (t' : SaleTask) : Prop where
  filed : Filed s'
  relies : Relies s' t'
  locks : Threads.KeepsLocks HoldsFactura LockedFactura s t s' t'
  leaves : LeavesOthers s s' t.holder

theorem relies_of_free {s : SaleDb} {t : SaleTask} (h : t.holder = none) : Relies s t := by
  cases t with
  | changing f change => cases h
  | readingGlobal factura => cases h
  | filingGlobal factura ids => cases h
  | _ => trivial

theorem saleKeeps_free {s s' : SaleDb} {t t' : SaleTask} (ht : t.holder = none)
    (ht' : t'.holder = none) (hfiled : Filed s') (hleaves : LeavesOthers s s' none)
    (hlocked : s'.lockedFacturas = s.lockedFacturas) : SaleKeeps s t s' t' where
  filed := hfiled
  relies := relies_of_free ht'
  locks := {
    taken := fun k hk => by rw [HoldsFactura, ht'] at hk; cases hk
    held := fun _ k hk => by rw [HoldsFactura, ht'] at hk; cases hk
    kept := fun k hk _ => by rw [LockedFactura, hlocked]; exact hk }
  leaves := ht ▸ hleaves

theorem saleKeeps_same {s : SaleDb} {t t' : SaleTask} (h : Filed s) (ht : t.holder = none)
    (ht' : t'.holder = none) : SaleKeeps s t s t' :=
  saleKeeps_free ht ht' h (leavesOthers_refl s none) rfl

theorem saleKeeps_release {s s' : SaleDb} {t t' : SaleTask} {factura : ℕ}
    (ht : t.holder = some factura) (ht' : t'.holder = none) (hfiled : Filed s')
    (hleaves : LeavesOthers s s' (some factura))
    (hlocked : s'.lockedFacturas = s.lockedFacturas.filter (· ≠ factura)) :
    SaleKeeps s t s' t' where
  filed := hfiled
  relies := relies_of_free ht'
  locks := {
    taken := fun k hk => by rw [HoldsFactura, ht'] at hk; cases hk
    held := fun _ k hk => by rw [HoldsFactura, ht'] at hk; cases hk
    kept := fun k hk hne => by
      rw [LockedFactura, hlocked, List.mem_filter]
      exact ⟨hk, decide_eq_true fun heq => hne (heq ▸ ht)⟩ }
  leaves := ht ▸ hleaves

theorem saleKeeps_rollback {s : SaleDb} {t t' : SaleTask} {factura : ℕ} (h : Filed s)
    (ht : t.holder = some factura) (ht' : t'.holder = none) :
    SaleKeeps s t (s.releaseFactura factura) t' :=
  saleKeeps_release ht ht' (h.congr rfl rfl rfl rfl)
    (leavesOthers_of_rows _ rfl fun _ hit _ => hit) rfl

theorem saleKeeps_take {s : SaleDb} {t t' : SaleTask} {factura : ℕ} (h : Filed s)
    (ht' : t'.holder = some factura) (hfree : factura ∉ s.lockedFacturas)
    (hrelies : Relies s t') :
    SaleKeeps s t { s with lockedFacturas := factura :: s.lockedFacturas } t' where
  filed := h.congr rfl rfl rfl rfl
  relies := Relies.of_leaves (leavesOthers_of_rows none rfl fun _ hit _ => hit)
    (fun k hk => by cases hk) hrelies
  locks := {
    taken := fun k hk => by
      have hk' := ht'.symm.trans hk
      cases hk'
      exact .inr hfree
    held := fun _ k hk => by
      have hk' := ht'.symm.trans hk
      cases hk'
      exact List.mem_cons_self
    kept := fun k hk _ => List.mem_cons_of_mem _ hk }
  leaves := leavesOthers_of_rows _ rfl fun _ hit _ => hit

theorem saleKeeps_hold {s : SaleDb} {t t' : SaleTask} (h : Filed s) (hsame : t'.holder = t.holder)
    (hrelies : Relies s t') : SaleKeeps s t s t' where
  filed := h
  relies := hrelies
  locks := {
    taken := fun _ hk => .inl (hsame.symm.trans hk)
    held := fun hlocked k hk => hlocked k (hsame.symm.trans hk)
    kept := fun _ hk _ => hk }
  leaves := leavesOthers_refl s _

theorem lockDraft_ok {t : Table Factura} {factura : ℕ} {f : Factura}
    (h : lockDraft t factura = .ok f) :
    t.find? factura = some f ∧ f.cfdi_document_id = none := by
  unfold lockDraft at h
  cases hf : t.find? factura with
  | none =>
    rw [hf] at h
    cases h
  | some f' =>
    rw [hf] at h
    dsimp only at h
    split_ifs at h with hdraft
    cases h
    exact ⟨rfl, not_not.1 (not_or.1 hdraft).2⟩

theorem lockGlobal_ok {t : Table Factura} {factura : ℕ} {f : Factura}
    (h : lockGlobal t factura = .ok f) :
    t.find? factura = some f ∧ f.cfdi_document_id = none := by
  unfold lockGlobal at h
  cases hf : t.find? factura with
  | none =>
    rw [hf] at h
    cases h
  | some f' =>
    rw [hf] at h
    dsimp only at h
    split at h
    · cases h
    rename_i hdraft
    cases hproblem : f'.periodProblem with
    | some problem =>
      rw [hproblem] at h
      cases h
    | none =>
      rw [hproblem] at h
      cases h
      exact ⟨rfl, not_not.1 (not_or.1 hdraft).2⟩

theorem globalInvoices_ok {s : SaleDb} {factura : ℕ} {ids : List ℕ}
    (h : globalInvoices (books.invoicesOf s factura)
      (ownCfdi s.docs ((books.invoicesOf s factura).map SaleInvoice.id)) = .ok ids) :
    ∀ i ∈ ids, Lists s factura i := by
  have hids : ids = (books.invoicesOf s factura).map SaleInvoice.id := by
    unfold globalInvoices at h
    dsimp only at h
    split at h
    · cases h
    split at h
    · cases h
    split at h
    · cases h
    split at h
    · cases h
    cases hrate : rateProblem (books.invoicesOf s factura) with
    | some inv =>
      rw [hrate] at h
      cases h
    | none =>
      rw [hrate] at h
      exact (Except.ok.inj h).symm
  intro i hi
  rw [hids] at hi
  obtain ⟨inv, hinv, rfl⟩ := List.mem_map.1 hi
  have hmem := (List.mem_insertionSort (r := fun a b : SaleInvoice => a.id ≤ b.id)).1 hinv
  have hitem := (List.mem_filter.1 hmem).2
  rw [Bool.and_eq_true, List.any_eq_true] at hitem
  obtain ⟨it, hit, hsame⟩ := hitem.2
  exact ⟨it, hit, of_decide_eq_true hsame⟩

theorem saleKeeps_change {s : SaleDb} (h : Filed s) {f : Factura} {change : DraftChange}
    (hrelies : Relies s (.changing f change)) :
    SaleKeeps s (.changing f change) (books.change s f change).1 (books.change s f change).2 := by
  cases change with
  | addEligible currency =>
    simp only [SaleBooks.change]
    split
    · exact saleKeeps_hold h rfl hrelies
    · refine saleKeeps_release rfl rfl ((filed_addItems books h f currency).congr rfl rfl rfl rfl)
        (leavesOthers_of_rows _ rfl fun it hit _ => ?_) rfl
      exact subset_addItems _ hit
  | removeItem item =>
    simp only [SaleBooks.change]
    split
    · rename_i hitem
      obtain ⟨it, hit, hfactura⟩ := hitem
      have hid : it.id = item := (Table.find?_eq_some.1 hit).2
      subst hid
      refine saleKeeps_release rfl rfl
        ((h.removeItem hit (hfactura ▸ hrelies)).congr rfl rfl rfl rfl)
        (leavesOthers_of_rows _ rfl fun jt hjt hne => ?_) rfl
      refine Table.mem_remove.2 ⟨hjt, fun hkey => hne ?_⟩
      rw [Table.eq_of_key_eq hjt (Table.find?_eq_some.1 hit).1 hkey, hfactura]
    · exact saleKeeps_rollback h rfl rfl

/-- **Step lemma.**  Every statement that goes through keeps the facturas and what the calls rely
on. -/
theorem saleKeeps_proceed {s : SaleDb} {t : SaleTask} (h : Filed s) (hrelies : Relies s t) :
    SaleKeeps s t (t.proceed books s).1 (t.proceed books s).2 := by
  cases t with
  | checkingInvoice invoice =>
    simp only [SaleTask.proceed]
    split
    · exact saleKeeps_same h rfl rfl
    · split <;> exact saleKeeps_same h rfl rfl
  | lockingInvoice invoice =>
    simp only [SaleTask.proceed]
    split
    · exact saleKeeps_same h rfl rfl
    · exact saleKeeps_free rfl rfl (h.congr rfl rfl rfl rfl)
        (leavesOthers_of_rows _ rfl fun _ hit _ => hit) rfl
  | readingInvoice invoice =>
    simp only [SaleTask.proceed]
    split
    · exact saleKeeps_same h rfl rfl
    · exact saleKeeps_free rfl rfl (h.congr rfl rfl rfl rfl)
        (leavesOthers_of_rows _ rfl fun _ hit _ => hit) rfl
  | filingInvoice invoice =>
    exact saleKeeps_free rfl rfl ((h.fileInvoice invoice).congr rfl rfl rfl rfl)
      (leavesOthers_of_rows _ rfl fun _ hit _ => hit) rfl
  | rebuilding doc =>
    simp only [SaleTask.proceed]
    split
    · exact saleKeeps_same h rfl rfl
    · split <;> exact saleKeeps_same h rfl rfl
  | discarding doc invoice =>
    simp only [SaleTask.proceed]
    split
    · exact saleKeeps_same h rfl rfl
    · split
      · exact saleKeeps_same h rfl rfl
      · exact saleKeeps_free rfl rfl (h.removeDoc doc)
          (leavesOthers_of_rows _ rfl fun _ hit _ => hit) rfl
  | lockingDraft factura change =>
    simp only [SaleTask.proceed]
    split
    · exact saleKeeps_same h rfl rfl
    · rename_i hfree
      split
      · rename_i f hok
        obtain ⟨hf, hnone⟩ := lockDraft_ok hok
        have hid : f.id = factura := (Table.find?_eq_some.1 hf).2
        subst hid
        exact saleKeeps_take h rfl hfree ⟨f, hf, hnone⟩
      · exact saleKeeps_same h rfl rfl
  | changing f change => exact saleKeeps_change books h hrelies
  | checkingEmisor factura =>
    simp only [SaleTask.proceed]
    split <;> exact saleKeeps_same h rfl rfl
  | lockingGlobal factura =>
    simp only [SaleTask.proceed]
    split
    · exact saleKeeps_same h rfl rfl
    · rename_i hfree
      split
      · rename_i f hok
        obtain ⟨hf, hnone⟩ := lockGlobal_ok hok
        exact saleKeeps_take h rfl hfree ⟨f, hf, hnone⟩
      · exact saleKeeps_same h rfl rfl
  | readingGlobal factura =>
    simp only [SaleTask.proceed]
    split
    · rename_i ids hok
      exact saleKeeps_hold h rfl ⟨hrelies, globalInvoices_ok books hok⟩
    · exact saleKeeps_rollback h rfl rfl
  | filingGlobal factura ids =>
    exact saleKeeps_release rfl rfl (h.fileGlobal hrelies.1 hrelies.2)
      (leavesOthers_fileGlobal s factura ids) rfl
  | stamping doc factura =>
    refine saleKeeps_free rfl ?_ (h.moveDoc doc .stamped)
      (leavesOthers_of_rows _ rfl fun _ hit _ => hit) rfl
    cases factura <;> rfl
  | marking factura =>
    exact saleKeeps_free rfl rfl (h.markStamped factura)
      (leavesOthers_markStamped s factura none) rfl
  | moving doc m =>
    exact saleKeeps_free rfl rfl (h.moveDoc doc m)
      (leavesOthers_of_rows _ rfl fun _ hit _ => hit) rfl
  | refused err => exact saleKeeps_same h rfl rfl
  | failed => exact saleKeeps_same h rfl rfl
  | done => exact saleKeeps_same h rfl rfl

theorem saleKeeps_abort {s : SaleDb} {t : SaleTask} (h : Filed s) :
    SaleKeeps s t (t.abort s) .failed := by
  cases t with
  | readingInvoice invoice =>
    exact saleKeeps_free rfl rfl (h.congr rfl rfl rfl rfl)
      (leavesOthers_of_rows _ rfl fun _ hit _ => hit) rfl
  | filingInvoice invoice =>
    exact saleKeeps_free rfl rfl (h.congr rfl rfl rfl rfl)
      (leavesOthers_of_rows _ rfl fun _ hit _ => hit) rfl
  | changing f change => exact saleKeeps_rollback h rfl rfl
  | readingGlobal factura => exact saleKeeps_rollback h rfl rfl
  | filingGlobal factura ids => exact saleKeeps_rollback h rfl rfl
  | _ => exact saleKeeps_same h rfl rfl

theorem saleKeeps_next {s : SaleDb} {t : SaleTask} (h : Filed s) (hrelies : Relies s t)
    (through : Bool) :
    SaleKeeps s t (t.next books s through).1 (t.next books s through).2 := by
  cases through with
  | false => exact saleKeeps_abort h
  | true => exact saleKeeps_proceed books h hrelies

/-! ### The law, statement by statement -/

theorem ReportedOnce.of_back {t t' : Table Ingreso} (h : ReportedOnce t)
    (hid : ∀ d ∈ t'.rows, ∀ e ∈ t'.rows, d.id = e.id → d = e)
    (hback : ∀ d ∈ t'.rows, ∃ e ∈ t.rows, e.id = d.id ∧ e.invoice_id = d.invoice_id ∧
      e.conceptos = d.conceptos ∧ (d.sat_status.live = true → e.sat_status.live = true)) :
    ReportedOnce t' where
  own d hd hlive g hg hglive hnone i hi := by
    obtain ⟨e, he, _, hinvoice, _, helive⟩ := hback d hd
    obtain ⟨e', he', _, hinvoice', hconceptos, helive'⟩ := hback g hg
    rw [← hconceptos]
    exact h.own e he (helive hlive) e' he' (helive' hglive) (hinvoice'.trans hnone) i
      (hinvoice ▸ hi)
  global g hg hglive hnone g' hg' hglive' hnone' i hi hi' := by
    obtain ⟨e, he, heid, hinvoice, hconceptos, helive⟩ := hback g hg
    obtain ⟨e', he', heid', hinvoice', hconceptos', helive'⟩ := hback g' hg'
    have hsame := h.global e he (helive hglive) (hinvoice.trans hnone) e' he' (helive' hglive')
      (hinvoice'.trans hnone') i (hconceptos ▸ hi) (hconceptos' ▸ hi')
    exact hid g hg g' hg' (by rw [← heid, ← heid', hsame])

theorem reportedOnce_moveDoc {s : SaleDb} (h : ReportedOnce s.docs) (doc : ℕ) (m : SatMove) :
    ReportedOnce (s.moveDoc doc m).docs := by
  refine h.of_back (fun d hd e he => Table.eq_of_key_eq hd he) fun d hd => ?_
  rcases mem_moveDoc.1 hd with ⟨hd, _⟩ | ⟨e, he, rfl⟩
  · exact ⟨d, hd, rfl, rfl, rfl, fun hlive => hlive⟩
  · exact ⟨e, (Table.find?_eq_some.1 he).1, rfl, rfl, rfl, m.live_apply⟩

theorem reportedOnce_removeDoc {s : SaleDb} (h : ReportedOnce s.docs) (doc : ℕ) :
    ReportedOnce (s.docs.remove doc) := by
  refine h.of_back (fun d hd e he => Table.eq_of_key_eq hd he) fun d hd => ?_
  exact ⟨d, (Table.mem_remove.1 hd).1, rfl, rfl, rfl, fun hlive => hlive⟩

theorem reportedOnce_fileInvoice {s : SaleDb} (hfiled : Filed s) (h : ReportedOnce s.docs)
    {invoice : ℕ} (hfree : ∀ g ∈ s.docs.rows, g.sat_status.live = true → g.invoice_id = none →
      invoice ∉ g.conceptos) : ReportedOnce (s.fileDoc (some invoice) [invoice]).docs where
  own d hd hlive g hg hglive hnone i hi := by
    rcases hfiled.mem_fileDoc.1 hg with rfl | hg
    · cases hnone
    rcases hfiled.mem_fileDoc.1 hd with rfl | hd
    · cases hi
      exact hfree g hg hglive hnone
    · exact h.own d hd hlive g hg hglive hnone i hi
  global g hg hglive hnone g' hg' hglive' hnone' := by
    rcases hfiled.mem_fileDoc.1 hg with rfl | hg
    · cases hnone
    rcases hfiled.mem_fileDoc.1 hg' with rfl | hg'
    · cases hnone'
    · exact h.global g hg hglive hnone g' hg' hglive' hnone'

theorem reportedOnce_fileGlobal {s : SaleDb} (hfiled : Filed s) (h : ReportedOnce s.docs)
    {factura : ℕ} {ids : List ℕ} (hafter : Filed (s.fileGlobal factura ids))
    (hfree : ∀ d ∈ s.docs.rows, d.sat_status.live = true → ∀ i ∈ d.invoice_id, i ∉ ids) :
    ReportedOnce (s.fileGlobal factura ids).docs where
  own d hd hlive g hg hglive hnone i hi := by
    rcases hfiled.mem_fileDoc.1 hd with rfl | hd
    · cases hi
    rcases hfiled.mem_fileDoc.1 hg with rfl | hg
    · exact hfree d hd hlive i hi
    · exact h.own d hd hlive g hg hglive hnone i hi
  global g hg _ hnone g' hg' _ hnone' i hi hi' := hafter.globals hg hnone hg' hnone' hi hi'

theorem reportedOnce_next {s : SaleDb} {t : SaleTask} (hfiled : Filed s) (hrelies : Relies s t)
    (h : ReportedOnce s.docs) {through : Bool} (hgood : Exclusive s t through) :
    ReportedOnce (t.next books s through).1.docs := by
  cases through with
  | false => cases t <;> exact h
  | true =>
    show ReportedOnce (t.proceed books s).1.docs
    cases t with
    | filingInvoice invoice => exact reportedOnce_fileInvoice hfiled h hgood
    | filingGlobal factura ids =>
      exact reportedOnce_fileGlobal hfiled h (hfiled.fileGlobal hrelies.1 hrelies.2) hgood
    | stamping doc factura => exact reportedOnce_moveDoc h doc .stamped
    | moving doc m => exact reportedOnce_moveDoc h doc m
    | discarding doc invoice =>
      simp only [SaleTask.proceed]
      split
      · exact h
      · split
        · exact h
        · exact reportedOnce_removeDoc h doc
    | changing f change =>
      cases change <;> simp only [SaleTask.proceed, SaleBooks.change] <;> split <;> exact h
    | _ =>
      -- no document is written
      simp only [SaleTask.proceed]
      repeat' split
      all_goals exact h

theorem not_reportedOnce_next {s : SaleDb} {t : SaleTask} (hfiled : Filed s) {through : Bool}
    (hbad : ¬ Exclusive s t through) : ¬ ReportedOnce (t.next books s through).1.docs := by
  intro h
  cases through with
  | false => cases t <;> exact hbad trivial
  | true =>
    cases t with
    | filingInvoice invoice =>
      refine hbad fun g hg hlive hnone => ?_
      exact h.own _ (hfiled.mem_fileDoc.2 (.inl rfl)) rfl g (hfiled.mem_fileDoc.2 (.inr hg)) hlive
        hnone invoice rfl
    | filingGlobal factura ids =>
      refine hbad fun d hd hlive i hi => ?_
      exact h.own d (hfiled.mem_fileDoc.2 (.inr hd)) hlive _ (hfiled.mem_fileDoc.2 (.inl rfl)) rfl
        rfl i hi
    | _ => exact hbad trivial

/-! ### Runs -/

/-- The facturas públicas that the staff has opened, none of them filed yet. -/
structure DraftFacturas where
  table : Table Factura
  unfiled : ∀ f ∈ table.rows, f.cfdi_document_id = none

def SaleDb.start (drafts : DraftFacturas) : SaleDb := ⟨.empty, 1, drafts.table, .empty, [], []⟩

abbrev saleStep (books : SaleBooks) :
    Threads SaleDb SaleTask → Turn SaleCall Bool → Threads SaleDb SaleTask :=
  Threads.step SaleCall.start (SaleTask.next books)

theorem filed_start (drafts : DraftFacturas) : Filed (.start drafts) where
  ids d hd := by cases hd
  refs f hf c hc := by
    rw [drafts.unfiled f hf] at hc
    cases hc
  one it hit := by cases hit
  global g hg := by cases hg

theorem reportedOnce_empty : ReportedOnce .empty where
  own d hd := by cases hd
  global g hg := by cases hg

theorem holder_start (c : SaleCall) : c.start.holder = none := by cases c <;> rfl

theorem sales_always (books : SaleBooks) (s : Threads SaleDb SaleTask)
    (turns : List (Turn SaleCall Bool))
    (hs : s.Holds Filed (fun s t => Relies s t ∧ ∀ k, HoldsFactura t k → LockedFactura s k)
      fun t u => ∀ k, HoldsFactura t k → ¬ HoldsFactura u k) :
    Always (saleStep books)
      (fun s => s.Holds Filed (fun s t => Relies s t ∧ ∀ k, HoldsFactura t k → LockedFactura s k)
        fun t u => ∀ k, HoldsFactura t k → ¬ HoldsFactura u k) s turns := by
  have hgood : StepsMeet (saleStep books) (Threads.Meets fun _ _ _ => True) s turns :=
    stepsMeet_meets s turns
  refine Threads.holds_locked HoldsFactura LockedFactura ?_ ?_ ?_ hs hgood
  · exact fun s c => relies_of_free (holder_start c)
  · intro c k hk
    rw [HoldsFactura, holder_start c] at hk
    cases hk
  · intro s t through h hrelies _ _
    have hkeeps := saleKeeps_next books h hrelies through
    exact ⟨hkeeps.filed, hkeeps.relies, hkeeps.locks,
      fun u hu hapart => hu.of_leaves hkeeps.leaves hapart⟩

/-- **No sale is reported twice just when no document is filed over another.** -/
theorem reported_once_iff (books : SaleBooks) (drafts : DraftFacturas)
    (turns : List (Turn SaleCall Bool)) :
    Always (saleStep books) (fun s => ReportedOnce s.shared.docs) (.idle (.start drafts)) turns ↔
      StepsMeet (saleStep books) (Threads.Meets Exclusive) (.idle (.start drafts)) turns :=
  Threads.always_iff_meets (sales_always books)
    (fun _ _ _ h hu hown hgood => reportedOnce_next books h hu.1 hown hgood)
    (fun _ _ _ h _ hbad => not_reportedOnce_next books h hbad)
    (Threads.Holds.idle (filed_start drafts)) reportedOnce_empty turns

/-! ### An invoice of a global that is stamped alone -/

theorem sale_nonneg : (0 : ℤ) ≤ 10000 := by norm_num

theorem sale_fits : (10000 : ℤ) ≤ decimalMax := by norm_num [decimalMax]

theorem sale_total_fits : |(10000 : ℤ)| ≤ decimalMax := by norm_num [decimalMax]

theorem sale_tax_fits : |(0 : ℤ)| ≤ decimalMax := by norm_num [decimalMax]

/-- A paid invoice of 100.00 without tax. -/
def paidSale : SaleInvoice where
  id := 1
  invoice_number := "A-1"
  deleted := false
  paid_at := some 15
  stamp := {
    status := .paid, currency := "MXN", existing := none
    receptor := some ⟨"XAXX010101000", "CLIENTE", "616", "06000", false⟩
    items := [⟨100, 10000, 10000, sale_nonneg, sale_fits⟩]
    usoCfdi := "S01", usoCfdiAllowed := true, nombreProblem := none
    tax_rate := 0, subtotal := 10000, tax_amount := 0, total := 10000
    subtotal_fits := sale_total_fits, tax_fits := sale_tax_fits
    total_fits := sale_total_fits }

/-- Every month takes ten instants. -/
def oneSale : SaleBooks where
  invoices := ⟨[paidSale], List.nodup_singleton _⟩
  businessDayStartUtc _ month := 10 * month
  emisorNameProblem := none

/-- The factura of January. -/
def january : DraftFacturas where
  table := ⟨[⟨1, .draft, none, 1, 2026, none⟩], List.nodup_singleton _⟩
  unfiled f hf := by
    rw [List.mem_singleton.1 hf]

/-- The invoice is reported in a stamped global, and then stamped for its client. -/
def stampedAgain : List (Turn SaleCall Bool) :=
  [.call (.addEligibleInvoices 1 none), .turn 0 true, .turn 0 true, .call (.stampGlobal 1)] ++
    List.replicate 6 (.turn 1 true) ++ [.call (.stampInvoice 1)] ++
    List.replicate 4 (.turn 2 true)

theorem sale_reported_twice :
    ¬ ∀ (books : SaleBooks) (drafts : DraftFacturas) (turns : List (Turn SaleCall Bool)),
      Always (saleStep books) (fun s => ReportedOnce s.shared.docs) (.idle (.start drafts))
        turns := by
  intro h
  have hlast := (h oneSale january stampedAgain).last
  have hown : (⟨2, some 1, [1], .draft⟩ : Ingreso) ∈
      (run (saleStep oneSale) (.idle (.start january)) stampedAgain).shared.docs.rows := by
    decide +kernel
  have hglobal : (⟨1, none, [1], .vigente⟩ : Ingreso) ∈
      (run (saleStep oneSale) (.idle (.start january)) stampedAgain).shared.docs.rows := by
    decide +kernel
  exact hlast.own _ hown rfl _ hglobal rfl rfl 1 rfl List.mem_cons_self

end Vigabss.Cfdi
