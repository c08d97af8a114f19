import Mathlib.Algebra.BigOperators.Group.List.Basic
import Mathlib.Tactic.Ring

/-!
# Vigabss.Lib.Journal — accounts kept by appending entries

A journal is a list of entries, each under a key and with a value.  It only grows: to bring the
sum under a key to a target one appends the difference.  `Brings` says that this has been done, and
its lemmas say what it leaves: the target under that key, everything else as it was, the earlier
entries in place, and nothing to do a second time.
-/

namespace Vigabss.Lib.Journal

variable {ε κ : Type*} [DecidableEq κ] (key : ε → κ) (value : ε → ℤ)

/-- The sum of the values under a key. -/
def net (es : List ε) (k : κ) : ℤ := ((es.filter fun e => key e = k).map value).sum

theorem net_neg (es : List ε) (k : κ) :
    net key (fun e => -value e) es k = -net key value es k := by
  unfold net
  induction es.filter fun e => key e = k with
  | nil => rfl
  | cons e es ih =>
    simp only [List.map_cons, List.sum_cons, ih]
    ring

theorem net_append (es fs : List ε) (k : κ) :
    net key value (es ++ fs) k = net key value es k + net key value fs k := by
  simp [net]

theorem net_map {δ : Type*} (f : δ → ε) (ds : List δ) (k : κ) :
    net key value (ds.map f) k = net (fun d => key (f d)) (fun d => value (f d)) ds k := by
  simp [net, List.filter_map, Function.comp_def]

theorem net_concat (es : List ε) (e : ε) (k : κ) :
    net key value (es ++ [e]) k = net key value es k + if key e = k then value e else 0 := by
  rw [net_append]
  by_cases h : key e = k <;> simp [net, h]

/-- The sum under `k` has been brought to `target`, by an entry for the difference if there was
one. -/
def Brings (es es' : List ε) (k : κ) (target : ℤ) : Prop :=
  net key value es k = target ∧ es' = es ∨
    net key value es k ≠ target ∧
      ∃ e, key e = k ∧ value e = target - net key value es k ∧ es' = es ++ [e]

variable {key value} {es es' es'' : List ε} {k : κ} {target : ℤ}

theorem Brings.grows (h : Brings key value es es' k target) : es <+: es' := by
  obtain ⟨-, rfl⟩ | ⟨-, e, -, -, rfl⟩ := h
  · exact List.prefix_rfl
  · exact List.prefix_append es [e]

/-- **The sum is at its target**, and the sums under other keys are as they were. -/
theorem Brings.net (h : Brings key value es es' k target) :
    net key value es' = Function.update (net key value es) k target := by
  funext j
  obtain ⟨heq, rfl⟩ | ⟨-, e, rfl, hv, rfl⟩ := h
  · rw [← heq, Function.update_eq_self]
  · rw [net_concat]
    by_cases hj : key e = j
    · subst hj
      rw [if_pos rfl, Function.update_self, hv]
      ring
    · rw [if_neg hj, add_zero, Function.update_of_ne (Ne.symm hj)]

theorem Brings.coarse {κ' : Type*} [DecidableEq κ'] (g : κ → κ')
    (h : Brings key value es es' k target) (j : κ') :
    Journal.net (g ∘ key) value es' j =
      Journal.net (g ∘ key) value es j +
        if g k = j then target - Journal.net key value es k else 0 := by
  obtain ⟨heq, rfl⟩ | ⟨-, e, rfl, hv, rfl⟩ := h
  · simp [heq]
  · rw [net_concat, hv]
    rfl

end Vigabss.Lib.Journal
