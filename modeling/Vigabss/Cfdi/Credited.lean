import Vigabss.Cfdi.Egresos

/-!
# Vigabss.Cfdi.Credited — what the egresos of an invoice credit

The row lock of a credit note keeps it from having two live egresos.  The cap holds as long as the
egresos of the other notes come to no more, when a call inserts, than its view gave: nothing but the
order of the calls sees to that, since each holds the lock of its own note only.
-/

namespace Vigabss.Cfdi

open Vigabss.Lib Vigabss.Billing

variable (books : EgresoBooks)

/-! ### The law -/

/-- A credit note has at most one live egreso. -/
def OneEach (t : Table Egreso) : Prop :=
  ∀ d ∈ t.rows, ∀ e ∈ t.rows, d.sat_status.live = true → e.sat_status.live = true →
    d.credit_note_id = e.credit_note_id → d = e

/-- The live egresos related to an ingreso are within its total and half a cent. -/
def Capped (t : Table Egreso) : Prop :=
  ∀ invoice rel, books.related invoice = some rel →
    (books.credited t invoice : ℚ) / 100 ≤ rel.total / 100 + 1 / 200

/-- What a call reads of the others still covers what they have when it inserts, and a note of an
ingreso with total 0 has total 0: the cap is skipped for such an ingreso. -/
def StillCovers (s : EgresoDb) : EgresoTask → Bool → Prop
  | .filing c credited _, true =>
    books.alreadyCredited s.egresos c.note ≤ credited ∧
      ∀ cn ∈ books.notes c.note, ∀ rel ∈ cn.invoice_id.bind books.related,
        rel.total = 0 → cn.total = 0
  | _, _ => True

instance StillCovers.decide (s : EgresoDb) :
    (task : EgresoTask) → (through : Bool) → Decidable (StillCovers books s task through)
  | .filing c credited _, true => inferInstanceAs (Decidable
      (books.alreadyCredited s.egresos c.note ≤ credited ∧
        ∀ cn ∈ books.notes c.note, ∀ rel ∈ cn.invoice_id.bind books.related,
          rel.total = 0 → cn.total = 0))
  | .filing _ _ _, false => .isTrue trivial
  | .checking _, _ => .isTrue trivial
  | .summing _ _, _ => .isTrue trivial
  | .locking _, _ => .isTrue trivial
  | .reading _, _ => .isTrue trivial
  | .stamping _, _ => .isTrue trivial
  | .moving _ _, _ => .isTrue trivial
  | .discarding _, _ => .isTrue trivial
  | .refused _, _ => .isTrue trivial
  | .failed, _ => .isTrue trivial
  | .done, _ => .isTrue trivial

/-! ### The cap in cents -/

theorem exceedsRelated_iff {credited total related : ℤ} (hc0 : 0 ≤ credited)
    (hc : credited ≤ 10 ^ 12) (ht0 : 0 ≤ total) (ht : total ≤ decimalMax) (hr0 : 0 ≤ related)
    (hr : related < 10 ^ 12) :
    exceedsRelated credited total related = true ↔ 0 < related ∧ related < credited + total := by
  have ht' : total ≤ 9999999999 := ht
  have hpos : 0 < number related ↔ 0 < related := by
    have := number_nonpos_iff hr0 hr.le
    rw [← not_le, ← not_le, this]
  have hnc := abs_le.1 (number_near (c := credited) (by rw [abs_of_nonneg hc0]; omega))
  have hnt := abs_le.1 (number_near (c := total) (by rw [abs_of_nonneg ht0]; omega))
  have hnr := abs_le.1 (number_near (c := related) (by rw [abs_of_nonneg hr0]; omega))
  have hhalf := abs_le.1 (abs_fl_sub_le (q := 5 / 1000) (n := 0) (by norm_num) (by
    rw [abs_of_pos (by norm_num)]
    norm_num))
  have hcq : (0 : ℚ) ≤ credited ∧ (credited : ℚ) ≤ 10 ^ 12 := by
    constructor <;> exact_mod_cast ‹_›
  have htq : (0 : ℚ) ≤ total ∧ (total : ℚ) ≤ 9999999999 := by constructor <;> exact_mod_cast ‹_›
  have hrq : (0 : ℚ) ≤ related ∧ (related : ℚ) ≤ 10 ^ 12 :=
    ⟨by exact_mod_cast hr0, by exact_mod_cast hr.le⟩
  have hsum : |number credited + number total| < 2 ^ (35 : ℤ) := by
    rw [abs_lt]
    constructor <;> norm_num at hnc hnt ⊢ <;> linarith [hnc.1, hnc.2, hnt.1, hnt.2]
  have hcap : |number related + fl (5 / 1000)| < 2 ^ (35 : ℤ) := by
    rw [abs_lt]
    constructor <;> norm_num at hnr hhalf ⊢ <;> linarith [hnr.1, hnr.2, hhalf.1, hhalf.2]
  have hflsum := abs_le.1 (abs_fl_sub_le (by norm_num) hsum)
  have hflcap := abs_le.1 (abs_fl_sub_le (by norm_num) hcap)
  norm_num at hnc hnt hnr hhalf hflsum hflcap
  have hgt : fl (number related + fl (5 / 1000)) < fl (number credited + number total) ↔
      related < credited + total := by
    constructor
    · intro h
      by_contra hle
      have hle' : (credited : ℚ) + total ≤ related := by exact_mod_cast not_lt.1 hle
      linarith [hnc.2, hnt.2, hnr.1, hhalf.1, hflsum.2, hflcap.1]
    · intro h
      have hle : (related : ℚ) + 1 ≤ credited + total := by exact_mod_cast h
      linarith [hnc.1, hnt.1, hnr.2, hhalf.2, hflsum.1, hflcap.2]
  simp only [exceedsRelated, decide_eq_true_eq]
  exact and_congr hpos hgt

/-! ### What a resolution says -/

/-- The note may be filed against an ingreso that the reads gave. -/
structure Resolves (books : EgresoBooks) (note : ℕ) (credited : ℤ) (inputs : EgresoInputs)
    (cn : EgresoNote) (invoice : ℕ) (rel : RelatedCfdi) : Prop where
  note : books.notes note = some cn
  credits : cn.invoice_id = some invoice
  related : books.related invoice = some rel
  within : exceedsRelated credited cn.total rel.total = false
  total : inputs.total = number cn.total

theorem relatedOf_ok {cn : EgresoNote} {related : Option RelatedCfdi} {credited : ℤ}
    {rel : RelatedCfdi} (h : relatedOf cn related credited = .ok rel) :
    related = some rel ∧ exceedsRelated credited cn.total rel.total = false := by
  unfold relatedOf at h
  cases hrel : related.filter fun rel => (given rel.uuid).isSome with
  | none =>
    rw [hrel] at h
    cases h
  | some rel' =>
    rw [hrel] at h
    dsimp only at h
    split_ifs at h with hclient hexceeds
    cases h
    exact ⟨(Option.filter_eq_some_iff.1 hrel).1, Bool.not_eq_true _ ▸ hexceeds⟩

theorem egresoAmounts_ok {cn : EgresoNote} {items : List NoteItem} {amounts : ℚ × ℚ × ℚ}
    (h : egresoAmounts cn items = .ok amounts) : amounts.2.2 = number cn.total := by
  unfold egresoAmounts at h
  dsimp only at h
  split_ifs at h
  cases h
  rfl

theorem resolveEgresoInputs_ok {note : ℕ} {existing : Option (ℕ × SatStatus)} {credited : ℤ}
    {opts : EgresoOpts} {inputs : EgresoInputs}
    (h : resolveEgresoInputs (books.reads note existing credited) opts = .ok inputs) :
    existing = none ∧ ∃ cn invoice rel, Resolves books note credited inputs cn invoice rel := by
  unfold resolveEgresoInputs at h
  cases hcn : (books.reads note existing credited).cn with
  | none =>
    rw [hcn] at h
    cases h
  | some cn =>
    rw [hcn] at h
    dsimp only at h
    split at h
    · cases h
    split at h
    · cases h
    cases hexisting : (books.reads note existing credited).existing with
    | some doc =>
      rw [hexisting] at h
      cases h
    | none =>
      rw [hexisting] at h
      dsimp only at h
      split at h
      · cases h
      rename_i hinvoice
      obtain ⟨invoice, hinvoice⟩ := Option.ne_none_iff_exists'.1 hinvoice
      obtain ⟨rel, hrel, h⟩ := except_bind_ok.1 h
      obtain ⟨hrelated, hwithin⟩ := relatedOf_ok hrel
      cases hreceptor : (books.reads note existing credited).receptor.filter Receptor.complete with
      | none =>
        rw [hreceptor] at h
        cases h
      | some receptor =>
        rw [hreceptor] at h
        obtain ⟨amounts, hamounts, h⟩ := except_bind_ok.1 h
        cases h
        have hnote : books.notes note = some cn := hcn
        refine ⟨hexisting, cn, invoice, rel, hnote, hinvoice, ?_, hwithin,
          egresoAmounts_ok hamounts⟩
        have hbind : (books.invoiceOf note).bind books.related = some rel := hrelated
        rw [EgresoBooks.invoiceOf, hnote, Option.bind_some, hinvoice, Option.bind_some] at hbind
        exact hbind

/-! ### Sums of egresos -/

theorem creditedByOthers_eq {t : Table Egreso} {note : ℕ}
    (h : ∀ d ∈ t.rows, d.sat_status.live = true → d.credit_note_id ≠ note) (invoice : ℕ) :
    books.creditedByOthers t invoice note = books.credited t invoice := by
  refine Table.sum_congr (List.map_congr_left fun d hd => ?_)
  cases hlive : d.sat_status.live with
  | false => simp [Table.share, hlive]
  | true => simp [Table.share, hlive, h d hd hlive]

theorem credited_insert (t : Table Egreso) (note : ℕ) (inputs : EgresoInputs) (invoice : ℕ) :
    books.credited (t.insert (newEgreso note inputs) (key_newEgreso note inputs)) invoice =
      books.credited t invoice +
        if books.invoiceOf note = some invoice then toDecimal inputs.total else 0 := by
  have hshare : Table.share (fun d : Egreso =>
      d.sat_status.live && decide (books.invoiceOf d.credit_note_id = some invoice)) Egreso.total
        (newEgreso note inputs t.nextId) =
      if books.invoiceOf note = some invoice then toDecimal inputs.total else 0 := by
    by_cases hnote : books.invoiceOf note = some invoice <;>
      simp [Table.share, newEgreso, SatStatus.live, hnote]
  rw [EgresoBooks.credited, Table.sum_insert, hshare]
  rfl

theorem credited_moved_le {t : Table Egreso} (hnonneg : ∀ d ∈ t.rows, 0 ≤ d.total) (id : ℕ)
    (m : SatMove) (invoice : ℕ) :
    books.credited (t.modify id (Egreso.move m) (Egreso.key_move m)) invoice ≤
      books.credited t invoice := by
  refine Table.sum_modify_le _ _ id _ _ fun d hd => ?_
  have htotal := hnonneg d hd
  unfold Table.share
  cases hlive : (d.move m).sat_status.live with
  | false =>
    simp only [hlive, Bool.false_and, Bool.false_eq_true, if_false]
    split_ifs
    · exact htotal
    · exact le_rfl
  | true =>
    have hbefore : d.sat_status.live = true := m.live_apply hlive
    simp only [hlive, hbefore]
    exact le_rfl

/-! ### The row lock -/

/-- The note whose row a call has locked. -/
def EgresoTask.holder : EgresoTask → Option ℕ
  | .reading c => some c.note
  | .filing c _ _ => some c.note
  | _ => none

def Apart (t u : EgresoTask) : Prop := ∀ note, t.holder = some note → u.holder ≠ some note

/-- The note has no live egreso. -/
def Free (t : Table Egreso) (note : ℕ) : Prop :=
  ∀ d ∈ t.rows, d.sat_status.live = true → d.credit_note_id ≠ note

/-- What a call relies on: its lock, and from its view on, that the note has no live egreso. -/
structure Locks (s : EgresoDb) (t : EgresoTask) : Prop where
  locked : ∀ note, t.holder = some note → note ∈ s.locked
  free : ∀ c credited inputs, t = .filing c credited inputs → Free s.egresos c.note
  resolved : ∀ c credited inputs, t = .filing c credited inputs →
    ∃ cn invoice rel, Resolves books c.note credited inputs cn invoice rel

structure Single (s : EgresoDb) : Prop where
  nonneg : ∀ d ∈ s.egresos.rows, 0 ≤ d.total
  one : OneEach s.egresos

/-- A statement leaves the egresos of the other notes no livelier, and gives back or takes no lock
but its own. -/
structure Leaves (s s' : EgresoDb) (note : Option ℕ) : Prop where
  locked : ∀ n ∈ s.locked, note ≠ some n → n ∈ s'.locked
  free : ∀ n, note ≠ some n → Free s.egresos n → Free s'.egresos n

variable {books}

theorem Locks.of_leaves {s s' : EgresoDb} {t u : EgresoTask} (hleaves : Leaves s s' t.holder)
    (hapart : Apart t u) (h : Locks books s u) : Locks books s' u where
  locked note hu := hleaves.locked note (h.locked note hu) fun ht => hapart note ht hu
  free c credited inputs hu := by
    subst hu
    exact hleaves.free c.note (fun ht => hapart c.note ht rfl) (h.free c credited inputs rfl)
  resolved := h.resolved

theorem Locks.of_holder_none {s : EgresoDb} {t : EgresoTask} (h : t.holder = none) :
    Locks books s t where
  locked note ht := by
    rw [h] at ht
    cases ht
  free c credited inputs ht := by
    subst ht
    cases h
  resolved c credited inputs ht := by
    subst ht
    cases h

theorem leaves_release (s : EgresoDb) (note : ℕ) : Leaves s (s.release note) (some note) where
  locked _ hn hne := List.mem_filter.2 ⟨hn, decide_eq_true fun h => hne (congrArg some h.symm)⟩
  free _ _ h := h

theorem free_of_existing {t : Table Egreso} {note : ℕ} (h : existingEgreso t note = none) :
    Free t note := by
  intro d hd hlive hnote
  have hnone := List.find?_eq_none.1 (Option.map_eq_none_iff.1 h) d hd
  exact hnone (decide_eq_true ⟨hnote, hlive⟩)

/-! ### Documents that are moved or discarded -/

theorem mem_moved {t : Table Egreso} {id : ℕ} {m : SatMove} {d : Egreso}
    (h : d ∈ (t.modify id (Egreso.move m) (Egreso.key_move m)).rows) :
    ∃ e ∈ t.rows, e.id = d.id ∧ e.credit_note_id = d.credit_note_id ∧ e.total = d.total ∧
      (d.sat_status.live = true → e.sat_status.live = true) := by
  rcases Table.mem_modify.1 h with ⟨hd, _⟩ | ⟨e, he, rfl⟩
  · exact ⟨d, hd, rfl, rfl, rfl, fun hlive => hlive⟩
  · exact ⟨e, (Table.find?_eq_some.1 he).1, rfl, rfl, rfl, m.live_apply⟩

theorem single_moved {s : EgresoDb} (h : Single s) (id : ℕ) (m : SatMove) :
    Single (s.moved id m) where
  nonneg d hd := by
    obtain ⟨e, he, _, _, htotal, _⟩ := mem_moved hd
    rw [← htotal]
    exact h.nonneg e he
  one d hd d' hd' hlive hlive' hnote := by
    obtain ⟨e, he, hid, hcn, _, hback⟩ := mem_moved hd
    obtain ⟨e', he', hid', hcn', _, hback'⟩ := mem_moved hd'
    have heq := h.one e he e' he' (hback hlive) (hback' hlive') (by rw [hcn, hcn', hnote])
    exact Table.eq_of_key_eq hd hd' (show d.id = d'.id by rw [← hid, ← hid', heq])

theorem leaves_moved (s : EgresoDb) (id : ℕ) (m : SatMove) : Leaves s (s.moved id m) none where
  locked _ hn _ := hn
  free _ _ h d hd hlive := by
    obtain ⟨e, he, _, hcn, _, hback⟩ := mem_moved hd
    rw [← hcn]
    exact h e he (hback hlive)

theorem single_remove {s : EgresoDb} (h : Single s) (id : ℕ) :
    Single { s with egresos := s.egresos.remove id } where
  nonneg d hd := h.nonneg d (Table.mem_remove.1 hd).1
  one d hd e he := h.one d (Table.mem_remove.1 hd).1 e (Table.mem_remove.1 he).1

theorem leaves_remove (s : EgresoDb) (id : ℕ) :
    Leaves s { s with egresos := s.egresos.remove id } none where
  locked _ hn _ := hn
  free _ _ h d hd := h d (Table.mem_remove.1 hd).1

/-! ### An egreso that is filed -/

theorem newEgreso_total {note : ℕ} {credited : ℤ} {inputs : EgresoInputs} {cn : EgresoNote}
    {invoice : ℕ} {rel : RelatedCfdi} (h : Resolves books note credited inputs cn invoice rel) :
    toDecimal inputs.total = cn.total := by
  have hfits : cn.total ≤ 9999999999 := cn.fits
  rw [h.total]
  exact toDecimal_number cn.nonneg (by omega)

theorem mem_filed {s : EgresoDb} {note : ℕ} {inputs : EgresoInputs} {d : Egreso}
    (h : d ∈ (s.filed note inputs).egresos.rows) :
    d ∈ s.egresos.rows ∨ d = newEgreso note inputs s.egresos.nextId :=
  (@Table.mem_insert _ _ _ _ (key_newEgreso note inputs) _).1 h

theorem single_filed {s : EgresoDb} (h : Single s) {note : ℕ} {credited : ℤ}
    {inputs : EgresoInputs} (hfree : Free s.egresos note) {cn : EgresoNote} {invoice : ℕ}
    {rel : RelatedCfdi} (hres : Resolves books note credited inputs cn invoice rel) :
    Single (s.filed note inputs) where
  nonneg d hd := by
    rcases mem_filed hd with hd | rfl
    · exact h.nonneg d hd
    · show 0 ≤ toDecimal inputs.total
      rw [newEgreso_total hres]
      exact cn.nonneg
  one d hd e he hlive hlive' hnote := by
    rcases mem_filed hd with hd | rfl <;> rcases mem_filed he with he | rfl
    · exact h.one d hd e he hlive hlive' hnote
    · exact absurd hnote (hfree d hd hlive)
    · exact absurd hnote.symm (hfree e he hlive')
    · rfl

theorem leaves_filed (s : EgresoDb) (note : ℕ) (inputs : EgresoInputs) :
    Leaves s (s.filed note inputs) (some note) where
  locked := (leaves_release s note).locked
  free n hne h d hd hlive := by
    rcases mem_filed hd with hd | rfl
    · exact h d hd hlive
    · exact fun hnote => hne (congrArg some hnote)

/-! ### The sums stay within the ingresos -/

/-- The cap, in cents. -/
def Within (books : EgresoBooks) (s : EgresoDb) : Prop :=
  ∀ invoice rel, books.related invoice = some rel → books.credited s.egresos invoice ≤ rel.total

/-- What a call read of the other notes was within the ingreso. -/
def ReadWithin (books : EgresoBooks) : EgresoTask → Prop
  | .filing c credited _ => 0 ≤ credited ∧
      ∀ invoice rel, books.invoiceOf c.note = some invoice → books.related invoice = some rel →
        credited ≤ rel.total
  | _ => True

theorem Within.capped {s : EgresoDb} (h : Within books s) : Capped books s.egresos := by
  intro invoice rel hrel
  have hle : (books.credited s.egresos invoice : ℚ) ≤ rel.total := by
    exact_mod_cast h invoice rel hrel
  linarith

theorem credited_nonneg {s : EgresoDb} (h : Single s) (invoice note : ℕ) :
    0 ≤ books.creditedByOthers s.egresos invoice note :=
  Table.sum_nonneg _ _ fun d hd _ => h.nonneg d hd

theorem Resolves.invoiceOf {note : ℕ} {credited : ℤ} {inputs : EgresoInputs} {cn : EgresoNote}
    {invoice : ℕ} {rel : RelatedCfdi} (h : Resolves books note credited inputs cn invoice rel) :
    books.invoiceOf note = some invoice := by
  rw [EgresoBooks.invoiceOf, h.note, Option.bind_some, h.credits]

/-- **One filing**: where the others have no more than the call read, its egreso fits. -/
theorem within_filed {s : EgresoDb} (h : Within books s) {c : EgresoCall} {credited : ℤ}
    {inputs : EgresoInputs} (hfree : Free s.egresos c.note) {cn : EgresoNote} {invoice : ℕ}
    {rel : RelatedCfdi} (hres : Resolves books c.note credited inputs cn invoice rel)
    (hread : ReadWithin books (.filing c credited inputs))
    (hgood : StillCovers books s (.filing c credited inputs) true) :
    Within books (s.filed c.note inputs) := by
  intro invoice' rel' hrel'
  unfold EgresoDb.filed
  rw [credited_insert, newEgreso_total hres]
  have hwithin := h invoice' rel' hrel'
  by_cases hsame : books.invoiceOf c.note = some invoice'
  · have hinv : invoice = invoice' := Option.some.inj (hres.invoiceOf.symm.trans hsame)
    subst hinv
    have hrel : rel = rel' := Option.some.inj (hres.related.symm.trans hrel')
    subst hrel
    obtain ⟨hcovers, hzero⟩ := hgood
    rw [EgresoBooks.alreadyCredited, hsame, Option.elim_some, creditedByOthers_eq books hfree]
      at hcovers
    obtain ⟨hcredited0, hcredited⟩ := hread
    have hcredited := hcredited invoice rel hsame hrel'
    have hfits := rel.fits
    have hcap := exceedsRelated_iff hcredited0 (by omega) cn.nonneg cn.fits rel.nonneg rel.fits
    rw [hres.within] at hcap
    have hnone : cn.invoice_id.bind books.related = some rel := by
      rw [hres.credits, Option.bind_some, hrel']
    have hzero := hzero cn hres.note rel hnone
    have hrel0 := rel.nonneg
    rw [if_pos hsame]
    by_cases hpos : 0 < rel.total
    · have hle : ¬ rel.total < credited + cn.total := fun hlt =>
        Bool.false_ne_true (hcap.2 ⟨hpos, hlt⟩)
      omega
    · have htotal := hzero (by omega)
      omega
  · rw [if_neg hsame]
    omega

theorem within_moved {s : EgresoDb} (h : Within books s) (hs : Single s) (id : ℕ) (m : SatMove) :
    Within books (s.moved id m) := fun invoice rel hrel =>
  (credited_moved_le books hs.nonneg id m invoice).trans (h invoice rel hrel)

theorem within_remove {s : EgresoDb} (h : Within books s) (hs : Single s) (id : ℕ) :
    Within books { s with egresos := s.egresos.remove id } := fun invoice rel hrel =>
  (Table.sum_remove_le _ _ (fun d hd _ => hs.nonneg d hd) id).trans (h invoice rel hrel)

/-! ### A statement of a call -/

/-- What one statement does: the shared state keeps its invariants, the call its own knowledge, and
the others theirs. -/
structure Keeps (books : EgresoBooks) (s : EgresoDb) (t : EgresoTask) (through : Bool)
    (s' : EgresoDb) (t' : EgresoTask) : Prop where
  single : Single s'
  locks : Locks books s' t'
  leaves : Leaves s s' t.holder
  apart : ∀ u, Locks books s u → Apart t u → Apart t' u
  within : Within books s → ReadWithin books t → StillCovers books s t through →
    Within books s' ∧ ReadWithin books t'

theorem leaves_refl (s : EgresoDb) (note : Option ℕ) : Leaves s s note where
  locked _ hn _ := hn
  free _ _ h := h

theorem keeps_of_holder_none {s s' : EgresoDb} {t t' : EgresoTask} {through : Bool}
    (ht : t'.holder = none)
    (hsingle : Single s') (hleaves : Leaves s s' t.holder)
    (hwithin : Within books s → Within books s') : Keeps books s t through s' t' where
  single := hsingle
  locks := Locks.of_holder_none ht
  leaves := hleaves
  apart u _ _ note hnote := by
    rw [ht] at hnote
    cases hnote
  within h _ _ := by
    refine ⟨hwithin h, ?_⟩
    cases t' with
    | filing c credited inputs => cases ht
    | _ => trivial

theorem keeps_same {s : EgresoDb} {t t' : EgresoTask} {through : Bool} (h : Single s)
    (ht : t'.holder = none) :
    Keeps books s t through s t' :=
  keeps_of_holder_none ht h (leaves_refl s _) id

theorem keeps_release {s : EgresoDb} {t t' : EgresoTask} {through : Bool} {note : ℕ}
    (h : Single s) (ht : t.holder = some note) (ht' : t'.holder = none) : Keeps books s t through (s.release note) t' :=
  keeps_of_holder_none ht' ⟨h.nonneg, h.one⟩ (ht ▸ leaves_release s note) id

theorem keeps_moved {s : EgresoDb} {t t' : EgresoTask} {through : Bool} (h : Single s)
    (ht : t.holder = none)
    (ht' : t'.holder = none) (id : ℕ) (m : SatMove) : Keeps books s t through (s.moved id m) t' :=
  keeps_of_holder_none ht' (single_moved h id m) (ht ▸ leaves_moved s id m)
    fun hwithin => within_moved hwithin h id m

theorem keeps_lock {s : EgresoDb} (h : Single s) {c : EgresoCall} (hc : c.note ∉ s.locked) :
    Keeps books s (.locking c) true { s with locked := c.note :: s.locked } (.reading c) where
  single := ⟨h.nonneg, h.one⟩
  locks := {
    locked := fun note hnote => by
      cases hnote
      exact List.mem_cons_self
    free := fun _ _ _ ht => by cases ht
    resolved := fun _ _ _ ht => by cases ht }
  leaves := ⟨fun _ hn _ => List.mem_cons_of_mem _ hn, fun _ _ hfree => hfree⟩
  apart u hu _ note hnote hholder := by
    cases hnote
    exact hc (hu.locked c.note hholder)
  within hwithin _ _ := ⟨hwithin, trivial⟩

theorem keeps_read {s : EgresoDb} (h : Single s) {c : EgresoCall}
    (hlocks : Locks books s (.reading c)) {inputs : EgresoInputs}
    (hok : resolveEgresoInputs (books.reads c.note (existingEgreso s.egresos c.note)
      (books.alreadyCredited s.egresos c.note)) c.opts = .ok inputs) :
    Keeps books s (.reading c) true s
      (.filing c (books.alreadyCredited s.egresos c.note) inputs) := by
  obtain ⟨hnone, cn, invoice, rel, hres⟩ := resolveEgresoInputs_ok books hok
  have hfree := free_of_existing hnone
  refine ⟨h, ⟨hlocks.locked, ?_, ?_⟩, leaves_refl s _, fun u _ hapart => hapart, ?_⟩
  · rintro _ _ _ ⟨⟩
    exact hfree
  · rintro _ _ _ ⟨⟩
    exact ⟨cn, invoice, rel, hres⟩
  · intro hwithin _ _
    refine ⟨hwithin, ?_, ?_⟩
    · rw [EgresoBooks.alreadyCredited, hres.invoiceOf, Option.elim_some]
      exact credited_nonneg h invoice c.note
    · intro invoice' rel' hinvoice' hrel'
      rw [EgresoBooks.alreadyCredited, hinvoice', Option.elim_some, creditedByOthers_eq books hfree]
      exact hwithin invoice' rel' hrel'

theorem keeps_filed {s : EgresoDb} (h : Single s) {c : EgresoCall} {credited : ℤ}
    {inputs : EgresoInputs} (hlocks : Locks books s (.filing c credited inputs)) :
    Keeps books s (.filing c credited inputs) true (s.filed c.note inputs)
      (.stamping s.egresos.nextId) := by
  have hfree := hlocks.free c credited inputs rfl
  obtain ⟨cn, invoice, rel, hres⟩ := hlocks.resolved c credited inputs rfl
  refine ⟨single_filed h hfree hres, Locks.of_holder_none rfl, leaves_filed s c.note inputs, ?_,
    fun hwithin hread hgood => ⟨within_filed hwithin hfree hres hread hgood, trivial⟩⟩
  rintro u _ _ note ⟨⟩

/-- **Step lemma.** -/
theorem keeps_next {s : EgresoDb} {t : EgresoTask} (h : Single s) (hlocks : Locks books s t)
    (through : Bool) :
    Keeps books s t through (t.next books s through).1 (t.next books s through).2 := by
  cases t with
  | checking c => cases through <;> exact keeps_same h rfl
  | summing c existing =>
    cases through with
    | false => exact keeps_same h rfl
    | true =>
      simp only [EgresoTask.next, if_true]
      split <;> exact keeps_same h rfl
  | locking c =>
    cases through with
    | false => exact keeps_same h rfl
    | true =>
      simp only [EgresoTask.next, if_true]
      split
      · exact keeps_same h rfl
      · rename_i hfree
        exact keeps_lock h hfree
  | reading c =>
    cases through with
    | false => exact keeps_release h rfl rfl
    | true =>
      simp only [EgresoTask.next, if_true]
      split
      · rename_i inputs hok
        exact keeps_read h hlocks hok
      · exact keeps_release h rfl rfl
  | filing c credited inputs =>
    cases through with
    | false => exact keeps_release h rfl rfl
    | true => exact keeps_filed h hlocks
  | stamping id =>
    cases through with
    | false => exact keeps_same h rfl
    | true => exact keeps_moved h rfl rfl id .stamped
  | moving id m =>
    cases through with
    | false => exact keeps_same h rfl
    | true => exact keeps_moved h rfl rfl id m
  | discarding id =>
    simp only [EgresoTask.next]
    split
    · exact keeps_of_holder_none rfl (single_remove h id) (leaves_remove s id) fun hwithin =>
        within_remove hwithin h id
    · exact keeps_same h rfl
  | refused err => exact keeps_same h rfl
  | failed => exact keeps_same h rfl
  | done => exact keeps_same h rfl

/-! ### Runs -/

/-- The calls and the documents, from books without egresos. -/
def EgresoDb.start : EgresoDb := ⟨.empty, []⟩

abbrev egresoStep (books : EgresoBooks) :
    Threads EgresoDb EgresoTask → Turn EgresoAct Bool → Threads EgresoDb EgresoTask :=
  Threads.step EgresoAct.start (EgresoTask.next books)

theorem Apart.symm {t u : EgresoTask} (h : Apart t u) : Apart u t :=
  fun note hu ht => h note ht hu

theorem locks_start (s : EgresoDb) (c : EgresoAct) : Locks books s c.start := by
  cases c <;> exact Locks.of_holder_none rfl

theorem apart_start (c : EgresoAct) (u : EgresoTask) : Apart c.start u := by
  rintro note h
  cases c <;> cases h

theorem single_start : Single .start where
  nonneg d hd := by cases hd
  one d hd := by cases hd

theorem within_start : Within books .start := fun _ rel _ => rel.nonneg

/-- **Each credit note has at most one live egreso, and the egresos of an invoice stay within its
CFDI in every run whose calls insert while their view of the other notes still covers them.** -/
theorem egresos_lawful (books : EgresoBooks) (turns : List (Turn EgresoAct Bool)) :
    Always (egresoStep books) (fun s => OneEach s.shared.egresos) (.idle .start) turns ∧
      (StepsMeet (egresoStep books) (Threads.Meets (StillCovers books)) (.idle .start) turns →
        Always (egresoStep books)
          (fun s => OneEach s.shared.egresos ∧ Capped books s.shared.egresos) (.idle .start)
          turns) := by
  constructor
  · have hall := @Threads.always_holds _ _ _ _ EgresoAct.start (EgresoTask.next books) Single
      (Locks books) Apart (fun _ _ _ => True) (fun _ _ h => h.symm) locks_start apart_start ?_ _
      (Threads.Holds.idle single_start) turns (stepsMeet_meets _ _)
    · exact hall.mono fun s h => h.one
    · intro s t through hs ht _
      have hkeeps := keeps_next hs ht through
      exact ⟨hkeeps.single, hkeeps.locks, fun u hu hapart =>
        ⟨hu.of_leaves hkeeps.leaves hapart, hkeeps.apart u hu hapart⟩⟩
  · intro hgood
    have hall := @Threads.always_holds _ _ _ _ EgresoAct.start (EgresoTask.next books)
      (fun s => Single s ∧ Within books s) (fun s t => Locks books s t ∧ ReadWithin books t) Apart
      (StillCovers books) (fun _ _ h => h.symm) ?_ apart_start ?_ _
      (Threads.Holds.idle ⟨single_start, within_start⟩) turns hgood
    · exact hall.mono fun s h => ⟨h.1.one, h.2.capped⟩
    · intro s c
      refine ⟨locks_start s c, ?_⟩
      cases c <;> trivial
    · rintro s t through ⟨hs, hwithin⟩ ⟨ht, hread⟩ hcovers
      have hkeeps := keeps_next hs ht through
      obtain ⟨hwithin', hread'⟩ := hkeeps.within hwithin hread hcovers
      exact ⟨⟨hkeeps.single, hwithin'⟩, ⟨hkeeps.locks, hread'⟩, fun u hu hapart =>
        ⟨⟨hu.1.of_leaves hkeeps.leaves hapart, hu.2⟩, hkeeps.apart u hu.1 hapart⟩⟩

/-! ### Two notes at once -/

/-- A note of 60.00 without tax. -/
def note60 : EgresoNote :=
  ⟨.issued, "MXN", 7, some 1, 0, false, 6000, 0, 6000, by norm_num, by norm_num [decimalMax]⟩

/-- The CFDI of its invoice, of 100.00. -/
def ingreso100 : RelatedCfdi := ⟨some "A1", some "03", 10000, 7, by norm_num, by norm_num⟩

/-- Two such notes of one invoice. -/
def twoNotes : EgresoBooks where
  notes note := if note = 1 ∨ note = 2 then some note60 else none
  related invoice := if invoice = 1 then some ingreso100 else none
  receptor client := if client = 7 then
    some ⟨"XAXX010101000", "CLIENTE", "616", "06000", false⟩ else none
  items _ := []

def stampNote (note : ℕ) : EgresoAct := .stampCreditNote ⟨note, ⟨none, none⟩⟩

/-- The first note is filed, stamped and cancelled, and then the second is filed. -/
theorem egresos_lawful_in_turn :
    Always (egresoStep twoNotes)
      (fun s => OneEach s.shared.egresos ∧ Capped twoNotes s.shared.egresos) (.idle .start)
      ([.call (stampNote 1)] ++ List.replicate 6 (.turn 0 true) ++
        [.call (.move 1 .cancelled), .turn 1 true, .call (stampNote 2)] ++
        List.replicate 6 (.turn 2 true)) :=
  (egresos_lawful twoNotes _).2 (by decide +kernel)

/-- Both calls read before either inserts, and 120.00 are credited to an invoice of 100.00. -/
theorem credited_over_total :
    ¬ ∀ (books : EgresoBooks) (turns : List (Turn EgresoAct Bool)),
      Always (egresoStep books)
        (fun s => OneEach s.shared.egresos ∧ Capped books s.shared.egresos) (.idle .start)
        turns := by
  intro h
  have hlast := (h twoNotes ([.call (stampNote 1), .call (stampNote 2)] ++
    List.replicate 4 (.turn 0 true) ++ List.replicate 4 (.turn 1 true) ++
    [.turn 0 true, .turn 1 true])).last.2 1 ingreso100 rfl
  revert hlast
  decide +kernel

end Vigabss.Cfdi
