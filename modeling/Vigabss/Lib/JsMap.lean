import Mathlib.Algebra.BigOperators.Group.Finset.Basic

/-!
# Vigabss.Lib.JsMap — a `Map` with its entries in the order of insertion

`get`, `set` and `delete` of a JavaScript `Map`.  A key stands once in a map; setting one that is
there keeps its place.
-/

namespace Vigabss.Lib

/-- A `Map`. -/
structure JsMap (κ ν : Type) where
  entries : List (κ × ν)
  nodup : (entries.map Prod.fst).Nodup

namespace JsMap

variable {κ ν : Type} [DecidableEq κ]

/-- `new Map()`. -/
def empty : JsMap κ ν := ⟨[], List.nodup_nil⟩

/-- The value of a key in a list of entries. -/
def find (key : κ) : List (κ × ν) → Option ν
  | [] => none
  | (k, v) :: entries => if k = key then some v else find key entries

/-- The entries with a key set. -/
def place (key : κ) (value : ν) : List (κ × ν) → List (κ × ν)
  | [] => [(key, value)]
  | (k, v) :: entries =>
    if k = key then (key, value) :: entries else (k, v) :: place key value entries

theorem mem_keys_place {key k : κ} {value : ν} {entries : List (κ × ν)} :
    k ∈ (place key value entries).map Prod.fst ↔ k = key ∨ k ∈ entries.map Prod.fst := by
  induction entries with
  | nil => simp [place]
  | cons p entries ih =>
    rw [place]
    split_ifs with h
    · simp [h]
    · simp only [List.map_cons, List.mem_cons, ih]
      exact or_left_comm

theorem nodup_place {key : κ} {value : ν} {entries : List (κ × ν)}
    (h : (entries.map Prod.fst).Nodup) : ((place key value entries).map Prod.fst).Nodup := by
  induction entries with
  | nil => exact List.nodup_singleton key
  | cons p entries ih =>
    obtain ⟨hnot, hrest⟩ := List.nodup_cons.1 h
    rw [place]
    split_ifs with hkey
    · exact List.nodup_cons.2 ⟨hkey ▸ hnot, hrest⟩
    · refine List.nodup_cons.2 ⟨fun hmem => ?_, ih hrest⟩
      exact (mem_keys_place.1 hmem).elim hkey hnot

/-- `map.get(key)`. -/
def get (m : JsMap κ ν) (key : κ) : Option ν := find key m.entries

/-- `map.set(key, value)`. -/
def set (m : JsMap κ ν) (key : κ) (value : ν) : JsMap κ ν :=
  ⟨place key value m.entries, nodup_place m.nodup⟩

/-- `map.delete(key)`. -/
def delete (m : JsMap κ ν) (key : κ) : JsMap κ ν :=
  ⟨m.entries.filter (·.1 ≠ key), m.nodup.sublist (List.filter_sublist.map _)⟩

/-! ### What a map holds -/

theorem find_eq_some {entries : List (κ × ν)} (h : (entries.map Prod.fst).Nodup) {key : κ}
    {value : ν} : find key entries = some value ↔ (key, value) ∈ entries := by
  induction entries with
  | nil => simp [find]
  | cons p entries ih =>
    obtain ⟨hnot, hrest⟩ := List.nodup_cons.1 h
    rw [find, List.mem_cons]
    split_ifs with hkey
    · subst hkey
      constructor
      · intro hvalue
        cases hvalue
        exact .inl rfl
      · rintro (hp | hmem)
        · rw [← hp]
        · exact absurd (List.mem_map_of_mem (f := Prod.fst) hmem) hnot
    · rw [ih hrest]
      exact ⟨.inr, fun hmem => hmem.resolve_left fun hp => hkey (congrArg Prod.fst hp).symm⟩

theorem mem_entries {m : JsMap κ ν} {key : κ} {value : ν} :
    (key, value) ∈ m.entries ↔ m.get key = some value := (find_eq_some m.nodup).symm

theorem find_place (key k : κ) (value : ν) (entries : List (κ × ν)) :
    find k (place key value entries) = if k = key then some value else find k entries := by
  induction entries with
  | nil =>
    rw [place, find]
    exact if_congr eq_comm rfl rfl
  | cons p entries ih =>
    rw [place]
    split_ifs with hkey hk hk
    · rw [find, if_pos hk.symm]
    · rw [find, find, if_neg (Ne.symm hk), if_neg (hkey ▸ Ne.symm hk)]
    · rw [find, if_neg (hk ▸ hkey), ih, if_pos hk]
    · rw [find, find, ih, if_neg hk]

/-- **`set` gives its key the value** and leaves the others. -/
@[simp] theorem get_set (m : JsMap κ ν) (key k : κ) (value : ν) :
    (m.set key value).get k = if k = key then some value else m.get k :=
  find_place key k value m.entries

/-- **`delete` takes its key away** and leaves the others. -/
@[simp] theorem get_delete (m : JsMap κ ν) (key k : κ) :
    (m.delete key).get k = if k = key then none else m.get k := by
  ext value
  rw [← mem_entries, delete, List.mem_filter, mem_entries]
  split_ifs with hk <;> simp [hk]

theorem entries_perm {m m' : JsMap κ ν} (h : ∀ key, m.get key = m'.get key) :
    m.entries.Perm m'.entries := by
  refine (List.perm_ext_iff_of_nodup m.nodup.of_map m'.nodup.of_map).2 fun p => ?_
  have hmem : p ∈ m.entries ↔ m.get p.1 = some p.2 := mem_entries
  have hmem' : p ∈ m'.entries ↔ m'.get p.1 = some p.2 := mem_entries
  rw [hmem, hmem', h]

/-! ### Sums over a map -/

section Sum

variable {M : Type} [AddCommMonoid M] (f : κ → ν → M)

/-- A sum over the entries. -/
def total (m : JsMap κ ν) : M := (m.entries.map fun p => f p.1 p.2).sum

/-- The part of a key. -/
def part (m : JsMap κ ν) (key : κ) : M := (m.get key).elim 0 (f key)

theorem total_congr {m m' : JsMap κ ν} (h : ∀ key, m.get key = m'.get key) :
    m.total f = m'.total f := ((entries_perm h).map _).sum_eq

/-- **A sum over the entries is one over the keys**, and over any set that has them. -/
theorem total_eq_sum (m : JsMap κ ν) {keys : Finset κ}
    (hkeys : ∀ key value, m.get key = some value → key ∈ keys) :
    m.total f = ∑ key ∈ keys, m.part f key := by
  have hsub : (m.entries.map Prod.fst).toFinset ⊆ keys := by
    intro key hmem
    obtain ⟨p, hp, rfl⟩ := List.mem_map.1 (List.mem_toFinset.1 hmem)
    exact hkeys p.1 p.2 (mem_entries.1 hp)
  rw [← Finset.sum_subset hsub, List.sum_toFinset _ m.nodup, List.map_map, total]
  · congr 1
    refine List.map_congr_left fun p hp => ?_
    show f p.1 p.2 = m.part f p.1
    rw [part, mem_entries.1 hp, Option.elim_some]
  · intro key _ hnot
    cases hget : m.get key with
    | none => rw [part, hget, Option.elim_none]
    | some value =>
      refine absurd (List.mem_toFinset.2 ?_) hnot
      exact List.mem_map_of_mem (f := Prod.fst) (mem_entries.2 hget)

end Sum

end JsMap

end Vigabss.Lib
