import Mathlib.Data.List.Basic
import Mathlib.Order.Basic

/-!
# Vigabss.Lib.Paging — a sorted list read in pages

A reader asks for the next `batch` rows behind the key of the last row it read, until a page comes
back short.  Rows that share the key of the last row of a full page are not read.  Where the keys
that are read count up by one, what is left out are just the rows that repeat a multiple of
`batch`.
-/

namespace Vigabss.Lib

variable {α : Type*} (key : α → ℕ) (batch : ℕ)

/-- The next rows behind `prev`. -/
def page (rows : List α) (prev : ℕ) : List α :=
  (rows.filter fun r => prev < key r).take batch

/-- The key of the last row, or `prev`. -/
def lastKey (prev : ℕ) (rows : List α) : ℕ := rows.foldl (fun _ r => key r) prev

theorem lastKey_mem {rows : List α} (hne : rows ≠ []) (prev : ℕ) :
    ∃ r ∈ rows, lastKey key prev rows = key r := by
  induction rows generalizing prev with
  | nil => exact absurd rfl hne
  | cons r rows ih =>
    by_cases hrows : rows = []
    · subst hrows
      exact ⟨r, List.mem_cons_self, rfl⟩
    · obtain ⟨r', hr', hkey⟩ := ih hrows (key r)
      exact ⟨r', List.mem_cons_of_mem _ hr', hkey⟩

theorem length_behind_lt {rows : List α} {prev : ℕ} (hbatch : 0 < batch)
    (hfull : ¬ (page key batch rows prev).length < batch) :
    (rows.filter fun r => lastKey key prev (page key batch rows prev) < key r).length <
      (rows.filter fun r => prev < key r).length := by
  have hne : page key batch rows prev ≠ [] := by
    intro hnil
    rw [hnil] at hfull
    exact hfull hbatch
  obtain ⟨last, hlast, hkey⟩ := lastKey_mem key hne prev
  have hmem : last ∈ rows.filter fun r => prev < key r := List.mem_of_mem_take hlast
  have hlt : prev < key last := of_decide_eq_true (List.mem_filter.1 hmem).2
  have hsub : (rows.filter fun r => key last < key r) =
      (rows.filter fun r => prev < key r).filter fun r => key last < key r := by
    rw [List.filter_filter]
    refine List.filter_congr fun r _ => ?_
    by_cases hr : key last < key r
    · simp [hr, Nat.lt_trans hlt hr]
    · simp [hr]
  rw [hkey, hsub]
  exact List.length_filter_lt_length_iff_exists.2 ⟨last, hmem, by simp⟩

/-- The rows that are read from `prev` on. -/
def readPages (hbatch : 0 < batch) (rows : List α) (prev : ℕ) : List α :=
  if _h : (page key batch rows prev).length < batch then page key batch rows prev
  else page key batch rows prev ++
    readPages hbatch rows (lastKey key prev (page key batch rows prev))
termination_by (rows.filter fun r => prev < key r).length
decreasing_by exact length_behind_lt key batch hbatch _h

/-- The reader as one pass: `count` rows of the page are read, the last of them at `prev`. -/
def reach (prev count : ℕ) : List α → List α
  | [] => []
  | r :: rows =>
    if count = batch ∧ key r ≤ prev then reach prev count rows
    else r :: reach (key r) (if count = batch then 1 else count + 1) rows

/-- The rows without those that repeat the key of the row before them at a multiple of `batch`. -/
def visible (prev : ℕ) : List α → List α
  | [] => []
  | r :: rows =>
    if key r = prev ∧ prev % batch = 0 then visible prev rows else r :: visible (key r) rows

variable {key batch}

theorem visible_sublist (prev : ℕ) (rows : List α) :
    List.Sublist (visible key batch prev rows) rows := by
  induction rows generalizing prev with
  | nil => exact List.Sublist.slnil
  | cons r rows ih =>
    unfold visible
    split_ifs
    · exact (ih prev).cons r
    · exact (ih (key r)).cons_cons r

/-! ### One pass -/

theorem reach_skip {prev : ℕ} {skipped rows : List α} (h : ∀ r ∈ skipped, key r ≤ prev) :
    reach key batch prev batch (skipped ++ rows) = reach key batch prev batch rows := by
  induction skipped with
  | nil => rfl
  | cons r skipped ih =>
    rw [List.cons_append, reach, if_pos ⟨rfl, h r List.mem_cons_self⟩]
    exact ih fun r' hr' => h r' (List.mem_cons_of_mem _ hr')

theorem reach_within {prev count : ℕ} {rows rest : List α} (hcount : count + rows.length ≤ batch) :
    reach key batch prev count (rows ++ rest) =
      rows ++ reach key batch (lastKey key prev rows) (count + rows.length) rest := by
  induction rows generalizing prev count with
  | nil => rfl
  | cons r rows ih =>
    rw [List.length_cons] at hcount
    have hopen : count ≠ batch := by omega
    rw [List.cons_append, reach, if_neg (fun h => hopen h.1), if_neg hopen,
      ih (by omega), List.cons_append, List.length_cons]
    show r :: (rows ++ reach key batch (lastKey key (key r) rows) _ rest) =
      r :: (rows ++ reach key batch (lastKey key (key r) rows) _ rest)
    rw [show count + 1 + rows.length = count + (rows.length + 1) by omega]

theorem reach_page {prev : ℕ} {rows rest : List α}
    (hrows : ∀ r ∈ rows, prev < key r) (hlength : rows.length ≤ batch) (hne : rows ≠ []) :
    reach key batch prev batch (rows ++ rest) =
      rows ++ reach key batch (lastKey key prev rows) rows.length rest := by
  obtain ⟨r, rows, rfl⟩ := List.exists_cons_of_ne_nil hne
  have hlt := hrows r List.mem_cons_self
  rw [List.cons_append, reach, if_neg (fun h => absurd h.2 (by omega)), if_pos rfl,
    reach_within (by rw [List.length_cons] at hlength; omega), List.cons_append]
  rw [List.length_cons, Nat.add_comm]
  rfl

theorem lastKey_ge {rows : List α} {prev : ℕ} (hrows : ∀ r ∈ rows, prev < key r) :
    prev ≤ lastKey key prev rows := by
  by_cases hne : rows = []
  · subst hne
    exact Nat.le_refl _
  · obtain ⟨r, hr, hkey⟩ := lastKey_mem key hne prev
    have hlt := hrows r hr
    omega

theorem le_lastKey {rows : List α} {prev : ℕ}
    (hsorted : rows.Pairwise fun a b => key a ≤ key b) :
    ∀ r ∈ rows, key r ≤ lastKey key prev rows := by
  induction rows generalizing prev with
  | nil => exact fun r hr => absurd hr List.not_mem_nil
  | cons r rows ih =>
    obtain ⟨hfirst, hrest⟩ := List.pairwise_cons.1 hsorted
    intro r' hr'
    show key r' ≤ lastKey key (key r) rows
    rcases List.mem_cons.1 hr' with rfl | hmem
    · by_cases hne : rows = []
      · subst hne
        exact Nat.le_refl _
      · obtain ⟨last, hlast, hkey⟩ := lastKey_mem key hne (key r')
        rw [hkey]
        exact hfirst last hlast
    · exact ih hrest r' hmem

theorem eq_behind {rows : List α} (hsorted : rows.Pairwise fun a b => key a ≤ key b)
    (prev : ℕ) : rows = (rows.filter fun r => key r ≤ prev) ++
      rows.filter fun r => prev < key r := by
  induction rows with
  | nil => rfl
  | cons r rows ih =>
    obtain ⟨hfirst, hrest⟩ := List.pairwise_cons.1 hsorted
    by_cases hr : key r ≤ prev
    · have hnot : ¬ prev < key r := by omega
      simp only [List.filter_cons, hr, hnot, decide_true, decide_false, if_true, List.cons_append,
        Bool.false_eq_true, if_false]
      rw [← ih hrest]
    · have hall : (rows.filter fun r => key r ≤ prev) = [] := by
        refine List.filter_eq_nil_iff.2 fun r' hr' => ?_
        have hle := hfirst r' hr'
        simp only [decide_eq_true_eq]
        omega
      have hnot : prev < key r := by omega
      have hrows := ih hrest
      rw [hall, List.nil_append] at hrows
      simp only [List.filter_cons, hr, hnot, decide_true, decide_false, if_true, hall]
      rw [← hrows]
      rfl

/-- **The reader in one pass.** -/
theorem readPages_eq_reach (hbatch : 0 < batch) {rows : List α}
    (hsorted : rows.Pairwise fun a b => key a ≤ key b) (prev : ℕ) :
    readPages key batch hbatch rows prev = reach key batch prev batch rows := by
  have hbehind : reach key batch prev batch rows =
      reach key batch prev batch (rows.filter fun r => prev < key r) := by
    conv_lhs => rw [eq_behind hsorted prev]
    exact reach_skip fun r hr => of_decide_eq_true (List.mem_filter.1 hr).2
  have hall : ∀ r ∈ page key batch rows prev, prev < key r := fun r hr =>
    of_decide_eq_true (List.mem_filter.1 (List.mem_of_mem_take hr)).2
  have hsplit : (rows.filter fun r => prev < key r) =
      page key batch rows prev ++ (rows.filter fun r => prev < key r).drop batch :=
    (List.take_append_drop batch _).symm
  have hlength : (page key batch rows prev).length ≤ batch := List.length_take_le _ _
  rw [hbehind]
  unfold readPages
  split_ifs with hshort
  · -- the short page is all there is
    have hpage : page key batch rows prev = rows.filter fun r => prev < key r := by
      refine List.take_of_length_le ?_
      rw [page, List.length_take] at hshort
      omega
    by_cases hne : page key batch rows prev = []
    · rw [← hpage, hne]
      rfl
    · have hread := @reach_page _ key batch prev _ [] hall hlength hne
      rw [List.append_nil] at hread
      rw [← hpage, hread]
      simp [reach]
  · have hne : page key batch rows prev ≠ [] := by
      intro hnil
      rw [hnil] at hshort
      exact hshort hbatch
    have hfull : (page key batch rows prev).length = batch := by omega
    rw [hsplit, reach_page hall hlength hne, hfull,
      readPages_eq_reach hbatch hsorted (lastKey key prev (page key batch rows prev))]
    refine congrArg (page key batch rows prev ++ ·) ?_
    have hrows : rows = (rows.filter fun r => key r ≤ prev) ++ (page key batch rows prev ++
        (rows.filter fun r => prev < key r).drop batch) := by
      rw [← hsplit]
      exact eq_behind hsorted prev
    have hsortedPage : (page key batch rows prev).Pairwise fun a b => key a ≤ key b :=
      (hsorted.sublist List.filter_sublist).sublist (List.take_sublist _ _)
    -- what comes before the rest is at or before the last row of the page
    have hskip := congrArg
      (reach key batch (lastKey key prev (page key batch rows prev)) batch) hrows
    rw [hskip, reach_skip, reach_skip]
    · exact le_lastKey hsortedPage
    · intro r hr
      have hle : key r ≤ prev := of_decide_eq_true (List.mem_filter.1 hr).2
      exact Nat.le_trans hle (lastKey_ge hall)
termination_by (rows.filter fun r => prev < key r).length
decreasing_by exact length_behind_lt key batch hbatch hshort

/-! ### What is left out -/

/-- The rows read of the page when `prev` rows have been read. -/
def readOfPage (batch prev : ℕ) : ℕ := if prev % batch = 0 then batch else prev % batch

theorem readOfPage_succ {batch : ℕ} (hbatch : 0 < batch) (prev : ℕ) :
    (if readOfPage batch prev = batch then 1 else readOfPage batch prev + 1) =
      readOfPage batch (prev + 1) := by
  have hlt := Nat.mod_lt prev hbatch
  have hsucc : (prev % batch + 1) % batch = (prev + 1) % batch := Nat.mod_add_mod prev batch 1
  unfold readOfPage
  generalize prev % batch = r at hlt hsucc ⊢
  by_cases hlast : r + 1 = batch
  · rw [hlast, Nat.mod_self] at hsucc
    rw [← hsucc]
    split_ifs <;> omega
  · rw [Nat.mod_eq_of_lt (show r + 1 < batch by omega)] at hsucc
    rw [← hsucc, if_neg (Nat.succ_ne_zero r)]
    split_ifs <;> omega

theorem readOfPage_eq_batch {batch : ℕ} (hbatch : 0 < batch) (prev : ℕ) :
    readOfPage batch prev = batch ↔ prev % batch = 0 := by
  have hlt := Nat.mod_lt prev hbatch
  unfold readOfPage
  split_ifs with hzero
  · simp [hzero]
  · constructor
    · intro h
      omega
    · intro h
      exact absurd h hzero

/-- The keys count up by one from behind `prev`. -/
def CountsUp (key : α → ℕ) : ℕ → List α → Prop
  | _, [] => True
  | prev, r :: rows => key r = prev + 1 ∧ CountsUp key (key r) rows

theorem CountsUp.visible {prev : ℕ} {rows : List α} (h : CountsUp key prev rows) :
    visible key batch prev rows = rows := by
  induction rows generalizing prev with
  | nil => rfl
  | cons r rows ih =>
    have hkey := h.1
    unfold Vigabss.Lib.visible
    rw [if_neg (fun hrepeats => by omega), ih h.2]

theorem CountsUp.sorted {prev : ℕ} {rows : List α} (h : CountsUp key prev rows) :
    (rows.Pairwise fun a b => key a ≤ key b) ∧ ∀ r ∈ rows, prev ≤ key r := by
  induction rows generalizing prev with
  | nil => exact ⟨List.Pairwise.nil, fun r hr => absurd hr List.not_mem_nil⟩
  | cons r rows ih =>
    obtain ⟨hsorted, hfrom⟩ := ih h.2
    have hkey := h.1
    refine ⟨List.pairwise_cons.2 ⟨hfrom, hsorted⟩, ?_⟩
    intro r' hr'
    rcases List.mem_cons.1 hr' with rfl | hmem
    · omega
    · have hle := hfrom r' hmem
      omega

/-- The one pass and the visible rows agree where either counts up. -/
theorem reach_eq_visible (hbatch : 0 < batch) {rows : List α} {prev : ℕ}
    (hsorted : rows.Pairwise fun a b => key a ≤ key b) (hfrom : ∀ r ∈ rows, prev ≤ key r)
    (hcounts : CountsUp key prev (reach key batch prev (readOfPage batch prev) rows) ∨
      CountsUp key prev (visible key batch prev rows)) :
    reach key batch prev (readOfPage batch prev) rows = visible key batch prev rows := by
  induction rows generalizing prev with
  | nil => rfl
  | cons r rows ih =>
    obtain ⟨hfirst, hrest⟩ := List.pairwise_cons.1 hsorted
    have hge := hfrom r List.mem_cons_self
    unfold reach visible at hcounts ⊢
    by_cases hskip : key r = prev ∧ prev % batch = 0
    · have hskip' : readOfPage batch prev = batch ∧ key r ≤ prev :=
        ⟨(readOfPage_eq_batch hbatch prev).2 hskip.2, by omega⟩
      rw [if_pos hskip, if_pos hskip'] at hcounts ⊢
      exact ih hrest (fun r' hr' => hfrom r' (List.mem_cons_of_mem _ hr')) hcounts
    · have hskip' : ¬ (readOfPage batch prev = batch ∧ key r ≤ prev) := by
        rintro ⟨hfull, hle⟩
        exact hskip ⟨by omega, (readOfPage_eq_batch hbatch prev).1 hfull⟩
      rw [if_neg hskip, if_neg hskip', readOfPage_succ hbatch prev] at hcounts ⊢
      have hkey : key r = prev + 1 := by
        rcases hcounts with hcounts | hcounts
        · exact hcounts.1
        · exact hcounts.1
      rw [← hkey] at hcounts ⊢
      refine congrArg (r :: ·) (ih hrest hfirst ?_)
      rcases hcounts with hcounts | hcounts
      · exact Or.inl hcounts.2
      · exact Or.inr hcounts.2

/-- **What the reader reads** of a sorted list, where the keys count up from one. -/
theorem readPages_eq_visible (hbatch : 0 < batch) {rows : List α}
    (hsorted : rows.Pairwise fun a b => key a ≤ key b)
    (hcounts : CountsUp key 0 (readPages key batch hbatch rows 0) ∨
      CountsUp key 0 (visible key batch 0 rows)) :
    readPages key batch hbatch rows 0 = visible key batch 0 rows := by
  have hpass : readPages key batch hbatch rows 0 =
      reach key batch 0 (readOfPage batch 0) rows := by
    have hstart : readOfPage batch 0 = batch := by simp [readOfPage]
    rw [hstart]
    exact readPages_eq_reach hbatch hsorted 0
  rw [hpass] at hcounts ⊢
  exact reach_eq_visible hbatch hsorted (fun _ _ => Nat.zero_le _) hcounts

end Vigabss.Lib
