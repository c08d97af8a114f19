import Mathlib.Algebra.Order.BigOperators.Group.List
import Mathlib.Algebra.Order.Ring.Int
import Mathlib.Data.List.Nodup
import Mathlib.Tactic.Abel

/-!
# Vigabss.Lib.Table — database tables with a numeric primary key

A `Table` is a list of rows with distinct keys, in the order in which a statement that touches
several rows visits them.  Rows are read by key or by a filter, inserted under a fresh key
(`AUTO_INCREMENT`) and rewritten in place; `sum` is `SUM(f) … WHERE p`.  The lemmas say how one
insert and one rewrite change each of these.
-/

namespace Vigabss.Lib

/-- Rows with a numeric primary key. -/
class Keyed (α : Type*) where
  key : α → ℕ

/-- A table: rows with distinct primary keys. -/
structure Table (α : Type*) [Keyed α] where
  rows : List α
  nodup : (rows.map Keyed.key).Nodup

namespace Table

open Keyed

variable {α : Type*} [Keyed α]

@[ext] theorem ext {s t : Table α} (h : s.rows = t.rows) : s = t := by
  cases s
  cases t
  cases h
  rfl

instance [DecidableEq α] : DecidableEq (Table α) := fun s t =>
  decidable_of_iff (s.rows = t.rows) ⟨ext, congrArg rows⟩

def empty : Table α := ⟨[], List.nodup_nil⟩

/-- The row with the given key. -/
def find? (t : Table α) (id : ℕ) : Option α := t.rows.find? fun a => key a = id

/-- The next value of the key's `AUTO_INCREMENT`. -/
def nextId (t : Table α) : ℕ := (t.rows.map key).foldr max 0 + 1

theorem key_lt_nextId {t : Table α} {a : α} (h : a ∈ t.rows) : key a < t.nextId := by
  have : ∀ l : List ℕ, ∀ n ∈ l, n ≤ l.foldr max 0 := by
    intro l
    induction l with
    | nil => simp
    | cons m l ih =>
      intro n hn
      rcases List.mem_cons.1 hn with rfl | hn
      · exact le_max_left _ _
      · exact (ih n hn).trans (le_max_right _ _)
  exact Nat.lt_succ_of_le (this _ _ (List.mem_map_of_mem h))

/-- Insert the row `mk id` under the next key. -/
def insert (t : Table α) (mk : ℕ → α) (hmk : ∀ n, key (mk n) = n) : Table α where
  rows := t.rows ++ [mk t.nextId]
  nodup := by
    rw [List.map_append, List.nodup_append]
    refine ⟨t.nodup, by simp, ?_⟩
    intro n hn m hm
    obtain ⟨a, ha, rfl⟩ := List.mem_map.1 hn
    obtain rfl : m = t.nextId := by simpa [hmk] using hm
    exact (key_lt_nextId ha).ne

theorem keys_rewrite (l : List α) (id : ℕ) {f : α → α} (hf : ∀ a, key (f a) = key a) :
    (l.map fun a => if key a = id then f a else a).map key = l.map key := by
  rw [List.map_map]
  refine List.map_congr_left fun a _ => ?_
  simp only [Function.comp_apply]
  split_ifs
  · exact hf a
  · rfl

/-- Rewrite the row with the given key, which keeps its key. -/
def modify (t : Table α) (id : ℕ) (f : α → α) (hf : ∀ a, key (f a) = key a) : Table α where
  rows := t.rows.map fun a => if key a = id then f a else a
  nodup := by
    rw [keys_rewrite t.rows id hf]
    exact t.nodup

/-- Delete the row with the given key. -/
def remove (t : Table α) (id : ℕ) : Table α where
  rows := t.rows.filter fun a => key a ≠ id
  nodup := (List.filter_sublist.map key).nodup t.nodup

theorem keys_replace (l : List α) (a : α) :
    (l.map fun b => if key b = key a then a else b).map key = l.map key := by
  rw [List.map_map]
  refine List.map_congr_left fun b _ => ?_
  simp only [Function.comp_apply]
  split_ifs with h
  · exact h.symm
  · rfl

/-- Write a whole row: in the place of the row of its key, or as a new row. -/
def put (t : Table α) (a : α) : Table α :=
  if h : key a ∈ t.rows.map key then
    ⟨t.rows.map fun b => if key b = key a then a else b, by rw [keys_replace]; exact t.nodup⟩
  else
    ⟨t.rows ++ [a], by
      rw [List.map_append, List.nodup_append]
      refine ⟨t.nodup, by simp, fun n hn m hm => ?_⟩
      obtain rfl : m = key a := by simpa using hm
      exact fun heq => h (heq ▸ hn)⟩

@[simp] theorem nextId_modify (t : Table α) (id : ℕ) (f : α → α) (hf : ∀ a, key (f a) = key a) :
    (t.modify id f hf).nextId = t.nextId := by
  rw [nextId, modify, keys_rewrite t.rows id hf, nextId]

/-- `SUM(f)` over the rows that meet `p`; 0 when there are none. -/
def sum (t : Table α) (p : α → Bool) (f : α → ℤ) : ℤ :=
  (t.rows.map fun a => if p a then f a else 0).sum

/-! ### Reading by key -/

theorem find?_eq_some {t : Table α} {id : ℕ} {a : α} :
    t.find? id = some a ↔ a ∈ t.rows ∧ key a = id := by
  constructor
  · intro h
    exact ⟨List.mem_of_find?_eq_some h, by simpa using List.find?_some h⟩
  · rintro ⟨ha, rfl⟩
    have hnd := t.nodup
    unfold find?
    generalize t.rows = l at ha hnd
    induction l with
    | nil => simp at ha
    | cons b l ih =>
      rw [List.map_cons, List.nodup_cons] at hnd
      rcases List.mem_cons.1 ha with rfl | ha
      · simp
      · have hne : key b ≠ key a := fun h => hnd.1 (h ▸ List.mem_map_of_mem ha)
        rw [List.find?_cons_of_neg (by simpa using hne)]
        exact ih ha hnd.2

theorem find?_eq_none {t : Table α} {id : ℕ} :
    t.find? id = none ↔ ∀ a ∈ t.rows, key a ≠ id := by
  simp [find?]

theorem find?_key {t : Table α} {a : α} (h : a ∈ t.rows) : t.find? (key a) = some a :=
  find?_eq_some.2 ⟨h, rfl⟩

theorem eq_of_key_eq {t : Table α} {a b : α} (ha : a ∈ t.rows) (hb : b ∈ t.rows)
    (h : key a = key b) : a = b := by
  have := find?_key ha
  rw [h, find?_key hb] at this
  exact (Option.some.inj this).symm

theorem filter_eq_singleton {t : Table α} {a : α} (ha : a ∈ t.rows) {p : α → Bool} (hp : p a = true)
    (h : ∀ b ∈ t.rows, p b = true → key b = key a) : t.rows.filter p = [a] := by
  have hall : ∀ b ∈ t.rows.filter p, b = a := fun b hb =>
    eq_of_key_eq (List.mem_filter.1 hb).1 ha
      (h b (List.mem_filter.1 hb).1 (List.mem_filter.1 hb).2)
  have hnd : (t.rows.filter p).Nodup :=
    List.Nodup.of_map key ((List.filter_sublist.map key).nodup t.nodup)
  have hmem : a ∈ t.rows.filter p := List.mem_filter.2 ⟨ha, hp⟩
  rw [List.eq_replicate_of_mem hall] at hnd hmem ⊢
  have hle : (t.rows.filter p).length ≤ 1 := List.nodup_replicate.1 hnd
  have hpos : (t.rows.filter p).length ≠ 0 := (List.mem_replicate.1 hmem).1
  rw [show (t.rows.filter p).length = 1 by omega]
  rfl

theorem find?_nextId (t : Table α) : t.find? t.nextId = none :=
  find?_eq_none.2 fun _ ha => (key_lt_nextId ha).ne

@[simp] theorem mem_insert {t : Table α} {mk : ℕ → α} {hmk : ∀ n, key (mk n) = n} {a : α} :
    a ∈ (t.insert mk hmk).rows ↔ a ∈ t.rows ∨ a = mk t.nextId := by
  simp [insert]

theorem mem_modify {t : Table α} {id : ℕ} {f : α → α} {hf : ∀ a, key (f a) = key a} {a : α} :
    a ∈ (t.modify id f hf).rows ↔
      (a ∈ t.rows ∧ key a ≠ id) ∨ ∃ b, t.find? id = some b ∧ a = f b := by
  simp only [modify, List.mem_map]
  constructor
  · rintro ⟨b, hb, rfl⟩
    split_ifs with h
    · exact .inr ⟨b, find?_eq_some.2 ⟨hb, h⟩, rfl⟩
    · exact .inl ⟨hb, h⟩
  · rintro (⟨ha, hne⟩ | ⟨b, hb, rfl⟩)
    · exact ⟨a, ha, if_neg hne⟩
    · obtain ⟨hb, hid⟩ := find?_eq_some.1 hb
      exact ⟨b, hb, if_pos hid⟩

@[simp] theorem mem_remove {t : Table α} {id : ℕ} {a : α} :
    a ∈ (t.remove id).rows ↔ a ∈ t.rows ∧ key a ≠ id := by
  simp [remove]

theorem mem_put {t : Table α} {a b : α} :
    b ∈ (t.put a).rows ↔ b = a ∨ b ∈ t.rows ∧ key b ≠ key a := by
  unfold put
  split_ifs with h
  · simp only [List.mem_map]
    constructor
    · rintro ⟨c, hc, rfl⟩
      split_ifs with hk
      · exact .inl rfl
      · exact .inr ⟨hc, hk⟩
    · rintro (rfl | ⟨hb, hk⟩)
      · obtain ⟨c, hc, hk⟩ := List.mem_map.1 h
        exact ⟨c, hc, if_pos hk⟩
      · exact ⟨b, hb, if_neg hk⟩
  · simp only [List.mem_append, List.mem_singleton]
    constructor
    · rintro (hb | rfl)
      · exact .inr ⟨hb, fun hk => h (hk ▸ List.mem_map_of_mem hb)⟩
      · exact .inl rfl
    · rintro (rfl | ⟨hb, -⟩)
      · exact .inr rfl
      · exact .inl hb

theorem rows_put {t : Table α} {a : α} (h : key a ∈ t.rows.map key) :
    (t.put a).rows = t.rows.map fun b => if key b = key a then a else b := by
  rw [put, dif_pos h]

theorem mem_foldl_put_of_not_mem {as : List α} {t : Table α} {b : α} (h : key b ∉ as.map key) :
    b ∈ (as.foldl put t).rows ↔ b ∈ t.rows := by
  induction as generalizing t with
  | nil => rfl
  | cons a as ih =>
    rw [List.map_cons, List.mem_cons, not_or] at h
    rw [List.foldl_cons, ih h.2, mem_put]
    constructor
    · rintro (rfl | ⟨hb, -⟩)
      · exact absurd rfl h.1
      · exact hb
    · exact fun hb => .inr ⟨hb, h.1⟩

theorem mem_foldl_put_of_mem {as : List α} {t t' : Table α} {b : α} (h : key b ∈ as.map key) :
    b ∈ (as.foldl put t).rows ↔ b ∈ (as.foldl put t').rows := by
  induction as generalizing t t' with
  | nil => simp at h
  | cons a as ih =>
    simp only [List.foldl_cons]
    by_cases has : key b ∈ as.map key
    · exact ih has
    · have hk : key b = key a := by simpa [has] using h
      rw [mem_foldl_put_of_not_mem has, mem_foldl_put_of_not_mem has, mem_put, mem_put]
      simp [hk]

theorem mem_of_mem_foldl_put {as : List α} {t : Table α} {b : α}
    (h : b ∈ (as.foldl put t).rows) : b ∈ as ∨ b ∈ t.rows := by
  induction as generalizing t with
  | nil => exact .inr h
  | cons a as ih =>
    rcases ih h with hb | hb
    · exact .inl (List.mem_cons_of_mem _ hb)
    · rcases mem_put.1 hb with rfl | ⟨hb, -⟩
      · exact .inl List.mem_cons_self
      · exact .inr hb

@[simp] theorem nextId_insert (t : Table α) (mk : ℕ → α) (hmk : ∀ n, key (mk n) = n) :
    (t.insert mk hmk).nextId = t.nextId + 1 := by
  have hmax : ∀ (l : List ℕ) (m : ℕ), (l ++ [m]).foldr max 0 = max (l.foldr max 0) m := by
    intro l m
    induction l with
    | nil => simp
    | cons n l ih => simp [ih, max_assoc]
  have hlt : (t.rows.map key).foldr max 0 ≤ t.nextId := Nat.le_succ _
  rw [nextId, insert, List.map_append, List.map_singleton, hmk, hmax, max_eq_right hlt]

theorem modify_eq_self {t : Table α} {id : ℕ} (h : t.find? id = none) (f : α → α)
    (hf : ∀ a, key (f a) = key a) : t.modify id f hf = t := by
  refine ext ((List.map_congr_left fun a ha => ?_).trans (List.map_id _))
  exact if_neg (find?_eq_none.1 h a ha)

theorem find?_modify (t : Table α) (id j : ℕ) (f : α → α) (hf : ∀ a, key (f a) = key a) :
    (t.modify id f hf).find? j = if j = id then (t.find? id).map f else t.find? j := by
  cases h : t.find? j with
  | none =>
    have hj : (t.modify id f hf).find? j = none := by
      rw [find?_eq_none] at h ⊢
      rintro a ha rfl
      rcases mem_modify.1 ha with ⟨ha, -⟩ | ⟨b, hb, rfl⟩
      · exact h a ha rfl
      · exact h b (find?_eq_some.1 hb).1 (hf b).symm
    split_ifs with hjid
    · subst hjid
      rw [hj, h, Option.map_none]
    · exact hj
  | some a =>
    obtain ⟨ha, rfl⟩ := find?_eq_some.1 h
    split_ifs with hjid
    · rw [← hjid, h, Option.map_some]
      exact find?_eq_some.2 ⟨mem_modify.2 (.inr ⟨a, hjid ▸ h, rfl⟩), hf a⟩
    · exact find?_eq_some.2 ⟨mem_modify.2 (.inl ⟨ha, hjid⟩), rfl⟩

theorem find?_insert (t : Table α) (mk : ℕ → α) (hmk : ∀ n, key (mk n) = n) (j : ℕ) :
    (t.insert mk hmk).find? j = if j = t.nextId then some (mk t.nextId) else t.find? j := by
  split_ifs with h
  · subst h
    exact find?_eq_some.2 ⟨mem_insert.2 (.inr rfl), hmk _⟩
  · cases hj : t.find? j with
    | none =>
      rw [find?_eq_none] at hj ⊢
      rintro a ha rfl
      rcases mem_insert.1 ha with ha | rfl
      · exact hj a ha rfl
      · exact h (hmk _)
    | some a =>
      obtain ⟨ha, hk⟩ := find?_eq_some.1 hj
      exact find?_eq_some.2 ⟨mem_insert.2 (.inl ha), hk⟩

theorem find?_put (t : Table α) (a : α) (j : ℕ) :
    (t.put a).find? j = if j = key a then some a else t.find? j := by
  split_ifs with h
  · exact find?_eq_some.2 ⟨mem_put.2 (.inl rfl), h.symm⟩
  · cases hj : t.find? j with
    | none =>
      rw [find?_eq_none] at hj ⊢
      rintro b hb rfl
      rcases mem_put.1 hb with rfl | ⟨hb, -⟩
      · exact h rfl
      · exact hj b hb rfl
    | some b =>
      obtain ⟨hb, rfl⟩ := find?_eq_some.1 hj
      exact find?_eq_some.2 ⟨mem_put.2 (.inr ⟨hb, h⟩), rfl⟩

/-! ### Sums -/

variable (p : α → Bool) (f : α → ℤ)

/-- What a row contributes to `SUM(f) … WHERE p`. -/
def share (a : α) : ℤ := if p a then f a else 0

omit [Keyed α] in
theorem share_nonneg {a : α} (h : 0 ≤ f a) : 0 ≤ share p f a := by
  unfold share
  split_ifs
  · exact h
  · exact le_rfl

theorem sum_eq (t : Table α) : t.sum p f = (t.rows.map (share p f)).sum := rfl

theorem sum_insert (t : Table α) (mk : ℕ → α) (hmk : ∀ n, key (mk n) = n) :
    (t.insert mk hmk).sum p f = t.sum p f + share p f (mk t.nextId) := by
  simp [sum_eq, insert]

theorem sum_map_update {t : Table α} {id : ℕ} {a : α} (h : t.find? id = some a) {F G : α → ℤ}
    (hFG : ∀ b ∈ t.rows, key b ≠ id → G b = F b) :
    (t.rows.map G).sum = (t.rows.map F).sum - F a + G a := by
  obtain ⟨ha, hid⟩ := find?_eq_some.1 h
  have hnd := t.nodup
  generalize t.rows = l at ha hFG hnd
  induction l with
  | nil => simp at ha
  | cons b l ih =>
    rw [List.map_cons, List.nodup_cons] at hnd
    simp only [List.map_cons, List.sum_cons]
    rcases List.mem_cons.1 ha with rfl | ha
    · -- the row itself: the others have other keys
      have hl : l.map G = l.map F := List.map_congr_left fun c hc =>
        hFG c (List.mem_cons_of_mem _ hc) fun hcid =>
          hnd.1 (by rw [hid, ← hcid]; exact List.mem_map_of_mem hc)
      rw [hl]
      abel
    · have hne : key b ≠ id := fun hb => hnd.1 (by rw [hb, ← hid]; exact List.mem_map_of_mem ha)
      rw [ih ha (fun c hc => hFG c (List.mem_cons_of_mem _ hc)) hnd.2,
        hFG b List.mem_cons_self hne]
      abel

theorem sum_modify {t : Table α} {id : ℕ} {a : α} (h : t.find? id = some a) (g : α → α)
    (hg : ∀ a, key (g a) = key a) :
    (t.modify id g hg).sum p f = t.sum p f - share p f a + share p f (g a) := by
  have hid := (find?_eq_some.1 h).2
  have := sum_map_update h (F := share p f)
    (G := fun b => share p f (if key b = id then g b else b)) (fun b _ hb => by rw [if_neg hb])
  simpa [sum_eq, modify, hid, Function.comp_def] using this

theorem sum_put_new {t : Table α} {a : α} (h : t.find? (key a) = none) :
    (t.put a).sum p f = t.sum p f + share p f a := by
  have hkey : key a ∉ t.rows.map key := by
    rintro hmem
    obtain ⟨b, hb, hba⟩ := List.mem_map.1 hmem
    exact find?_eq_none.1 h b hb hba
  rw [put, dif_neg hkey, sum_eq, sum_eq, List.map_append, List.sum_append, List.map_singleton,
    List.sum_singleton]

theorem sum_modify_le {t : Table α} (id : ℕ) (g : α → α) (hg : ∀ a, key (g a) = key a)
    (hle : ∀ a ∈ t.rows, share p f (g a) ≤ share p f a) :
    (t.modify id g hg).sum p f ≤ t.sum p f := by
  rw [sum_eq, sum_eq, modify, List.map_map]
  refine List.sum_le_sum fun a ha => ?_
  simp only [Function.comp_apply]
  split_ifs
  · exact hle a ha
  · exact le_rfl

theorem sum_other {t : Table α} {id : ℕ} {a : α} (h : t.find? id = some a) :
    t.sum (fun b => p b && decide (key b ≠ id)) f = t.sum p f - share p f a := by
  have hid := (find?_eq_some.1 h).2
  have := sum_map_update h (F := share p f)
    (G := share (fun b => p b && decide (key b ≠ id)) f)
    (fun b _ hb => by simp [share, hb])
  rw [sum_eq, this, sum_eq]
  simp [share, hid]

theorem sum_congr {t t' : Table α} {p p' : α → Bool} {f : α → ℤ}
    (h : t'.rows.map (share p' f) = t.rows.map (share p f)) : t'.sum p' f = t.sum p f := by
  rw [sum_eq, sum_eq, h]

theorem sum_congr_map {β : Type} {t t' : Table α} {p : α → Bool} {f : α → ℤ} (g : α → β) (v : β → ℤ)
    (hv : ∀ a, share p f a = v (g a)) (h : t'.rows.map g = t.rows.map g) :
    t'.sum p f = t.sum p f := by
  refine sum_congr ?_
  have hshare : share p f = v ∘ g := funext hv
  rw [hshare, ← List.map_map, ← List.map_map, h]

theorem sum_congr_rows {t : Table α} {p : α → Bool} {f g : α → ℤ} (h : ∀ a ∈ t.rows, f a = g a) :
    t.sum p f = t.sum p g := by
  rw [sum, sum, List.map_congr_left fun a ha => by rw [h a ha]]

theorem sum_add (t : Table α) (f g : α → ℤ) :
    t.sum p (fun a => f a + g a) = t.sum p f + t.sum p g := by
  have hsplit : (fun a => if p a then f a + g a else 0) =
      fun a => (if p a then f a else 0) + if p a then g a else 0 := by
    funext a
    split_ifs <;> simp
  rw [sum, hsplit, List.sum_map_add, sum, sum]

theorem sum_single (t : Table α) (id : ℕ) (c : ℤ) :
    t.sum p (fun a => if id = key a then c else 0) = if (t.find? id).any p = true then c else 0 := by
  cases h : t.find? id with
  | none =>
    have hne : ∀ a ∈ t.rows, share p (fun a => if id = key a then c else 0) a = 0 := by
      intro a ha
      have := find?_eq_none.1 h a ha
      simp [share, Ne.symm this]
    rw [sum_eq, List.map_congr_left hne]
    simp
  | some a =>
    have hid := (find?_eq_some.1 h).2
    have hsum := sum_map_update h (F := fun _ => 0)
      (G := share p fun a => if id = key a then c else 0)
      (fun b _ hb => by simp [share, Ne.symm hb])
    rw [sum_eq, hsum]
    simp [share, hid]

theorem sum_nonneg {t : Table α} (h : ∀ a ∈ t.rows, p a → 0 ≤ f a) : 0 ≤ t.sum p f := by
  refine List.sum_nonneg fun x hx => ?_
  obtain ⟨a, ha, rfl⟩ := List.mem_map.1 hx
  split_ifs with hp
  · exact h a ha hp
  · exact le_rfl

theorem sum_remove_le {t : Table α} (h : ∀ a ∈ t.rows, p a → 0 ≤ f a) (id : ℕ) :
    (t.remove id).sum p f ≤ t.sum p f := by
  refine ((List.filter_sublist (l := t.rows)).map (share p f)).sum_le_sum fun x hx => ?_
  obtain ⟨a, ha, rfl⟩ := List.mem_map.1 hx
  unfold share
  split_ifs with hp
  · exact h a ha hp
  · exact le_rfl

end Table

end Vigabss.Lib
