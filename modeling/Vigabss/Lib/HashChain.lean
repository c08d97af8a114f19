import Mathlib.Data.List.Induction

/-!
# Vigabss.Lib.HashChain — lists of links, each hashed with the one before it

A link has a position, the hash of the link before it, a body and its own hash.  A list is `Linked`
from a start when positions count up, each link names the hash before it, and each hash is the
digest of the three.  Where digests do not collide, a linked list is determined by its start and
its tip.
-/

namespace Vigabss.Lib

variable {η α : Type*}

/-- A link of a chain. -/
@[ext] structure Link (η α : Type*) where
  prev : η
  seq : ℕ
  body : α
  hash : η
  deriving DecidableEq, Repr

variable (digest : η → ℕ → α → η)

/-- The link fits behind position `n` with hash `h`. -/
def Link.Fits (l : Link η α) (n : ℕ) (h : η) : Prop :=
  l.seq = n + 1 ∧ l.prev = h ∧ l.hash = digest l.prev l.seq l.body

/-- The links fit, one behind the other. -/
def Linked : ℕ → η → List (Link η α) → Prop
  | _, _, [] => True
  | n, h, l :: ls => l.Fits digest n h ∧ Linked l.seq l.hash ls

/-- The position and hash of the last link, or of the start. -/
def tip (n : ℕ) (h : η) : List (Link η α) → ℕ × η
  | [] => (n, h)
  | l :: ls => tip l.seq l.hash ls

@[simp] theorem tip_concat (n : ℕ) (h : η) (ls : List (Link η α)) (l : Link η α) :
    tip n h (ls ++ [l]) = (l.seq, l.hash) := by
  induction ls generalizing n h with
  | nil => rfl
  | cons l' ls ih => exact ih l'.seq l'.hash

variable {digest}

theorem linked_concat {n : ℕ} {h : η} {ls : List (Link η α)} {l : Link η α} :
    Linked digest n h (ls ++ [l]) ↔
      Linked digest n h ls ∧ l.Fits digest (tip n h ls).1 (tip n h ls).2 := by
  induction ls generalizing n h with
  | nil => simp [Linked, tip]
  | cons l' ls ih => simp [Linked, tip, ih, and_assoc]

theorem Linked.tip_seq {n : ℕ} {h : η} {ls : List (Link η α)} (hls : Linked digest n h ls) :
    (tip n h ls).1 = n + ls.length := by
  induction ls generalizing n h with
  | nil => rfl
  | cons l ls ih =>
    have hseq := hls.1.1
    rw [tip, ih hls.2, hseq, List.length_cons]
    omega

/-- **A chain is what its tip says**: two linked lists with one start and one tip are the same. -/
theorem Linked.eq_of_tip (hdigest : ∀ h m a h' m' a', digest h m a = digest h' m' a' →
    h = h' ∧ m = m' ∧ a = a') {n : ℕ} {h : η} {ls ls' : List (Link η α)}
    (hls : Linked digest n h ls) (hls' : Linked digest n h ls') (htip : tip n h ls = tip n h ls') :
    ls = ls' := by
  induction ls using List.reverseRecOn generalizing ls' with
  | nil =>
    have hlength := hls'.tip_seq
    rw [← htip] at hlength
    have hzero : ls'.length = 0 := by
      show ls'.length = 0
      have hstart : (tip n h ([] : List (Link η α))).1 = n := rfl
      omega
    exact (List.length_eq_zero_iff.1 hzero).symm
  | append_singleton ls l ih =>
    induction ls' using List.reverseRecOn with
    | nil =>
      have hlength := hls.tip_seq
      rw [htip, List.length_append] at hlength
      have hstart : (tip n h ([] : List (Link η α))).1 = n := rfl
      simp only [List.length_cons] at hlength
      omega
    | append_singleton ls' l' _ =>
      obtain ⟨hinit, hseq, hprev, hhash⟩ := linked_concat.1 hls
      obtain ⟨hinit', hseq', hprev', hhash'⟩ := linked_concat.1 hls'
      rw [tip_concat, tip_concat, Prod.mk.injEq] at htip
      -- the last hashes are digests of the last links
      have hsame := hdigest _ _ _ _ _ _ ((hhash.symm.trans htip.2).trans hhash')
      have hlast : l = l' := Link.ext hsame.1 hsame.2.1 hsame.2.2 htip.2
      have hbefore : tip n h ls = tip n h ls' := by
        refine Prod.ext ?_ ?_
        · omega
        · rw [← hprev, ← hprev', hsame.1]
      rw [ih hinit hinit' hbefore, hlast]

end Vigabss.Lib
