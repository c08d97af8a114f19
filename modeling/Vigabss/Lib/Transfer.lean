import Vigabss.Lib.Table

/-!
# Vigabss.Lib.Transfer — amounts that go from one table's rows to another's

A transfer takes an amount from the row under one key and brings it to the row under another.  A
row *shows* what is left on it: nothing below zero, and nothing at all when it does not count.
Summed over a class of rows, what is shown changes by what went through the class, as long as each
row can bear what goes through it.
-/

namespace Vigabss.Lib

/-! ### Transfers -/

/-- An amount on its way from one key to another. -/
structure Transfer where
  source : ℕ
  sink : ℕ
  amount : ℤ

/-- What the transfers move through a key, at one of their two ends. -/
def through (side : Transfer → ℕ) (ts : List Transfer) (id : ℕ) : ℤ :=
  (ts.map fun t => if side t = id then t.amount else 0).sum

@[simp] theorem through_nil (side : Transfer → ℕ) (id : ℕ) : through side [] id = 0 := rfl

@[simp] theorem through_cons (side : Transfer → ℕ) (t : Transfer) (ts : List Transfer) (id : ℕ) :
    through side (t :: ts) id = (if side t = id then t.amount else 0) + through side ts id := by
  simp [through]

theorem sum_through {α : Type} [Keyed α] (t : Table α) (p : α → Bool) (side : Transfer → ℕ)
    (ts : List Transfer) :
    t.sum p (fun a => through side ts (Keyed.key a)) =
      (ts.map fun x => if (t.find? (side x)).any p = true then x.amount else 0).sum := by
  induction ts with
  | nil => simp [Table.sum]
  | cons x ts ih =>
    simp only [through_cons, List.map_cons, List.sum_cons]
    rw [Table.sum_add, ih, Table.sum_single]

/-! ### What a row shows -/

/-- What is shown of what is left on a row. -/
def shown (counts : Bool) (left : ℤ) : ℤ := if counts = true then max 0 left else 0

theorem shown_of_nonpos {counts : Bool} {left : ℤ} (h : left ≤ 0) : shown counts left = 0 := by
  unfold shown
  split_ifs
  · exact max_eq_left h
  · rfl

/-- The row, which showed `before`, shows `amount` less once that much is taken off what is left. -/
def Bears (counts : Bool) (before left amount : ℤ) : Prop :=
  shown counts (left - amount) = before - amount

instance (counts : Bool) (before left amount : ℤ) : Decidable (Bears counts before left amount) :=
  inferInstanceAs (Decidable (_ = _))

theorem bears_iff_of_pos {opens counts : Bool} {left amount : ℤ} (h : opens = true → counts = true)
    (hpos : 0 < amount) :
    Bears counts (shown opens left) left amount ↔ amount ≤ shown opens left := by
  unfold Bears shown
  by_cases ho : opens = true
  · rw [if_pos ho, if_pos (h ho)]
    omega
  · rw [if_neg ho]
    split_ifs <;> omega

end Vigabss.Lib
