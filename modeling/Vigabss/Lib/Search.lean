import Mathlib.Data.List.Infix

/-!
# Vigabss.Lib.Search — the first place where a pattern stands

`text.indexOf(pattern, start)` and `text.includes(pattern)`.  The first place splits the text in
what stands before it and what stands behind, and the pattern does not stand earlier:
`splitFirst_eq_some`.
-/

namespace Vigabss.Lib

variable {α : Type*}

/-- `source.slice(start, stop)`. -/
def slice (source : List α) (start stop : ℕ) : List α := (source.drop start).take (stop - start)

theorem slice_append (done part rest : List α) :
    slice (done ++ (part ++ rest)) done.length (done.length + part.length) = part := by
  rw [slice, List.drop_left, Nat.add_sub_cancel_left, List.take_left]

variable [DecidableEq α]

/-- The text before the first place of a pattern, and the text behind it. -/
def splitFirst (pattern : List α) : List α → Option (List α × List α)
  | [] => if pattern = [] then some ([], []) else none
  | c :: text =>
    if pattern <+: c :: text then some ([], (c :: text).drop pattern.length)
    else (splitFirst pattern text).map fun p => (c :: p.1, p.2)

/-- `source.indexOf(pattern, start)`. -/
def indexOf (pattern source : List α) (start : ℕ) : Option ℕ :=
  (splitFirst pattern (source.drop start)).map fun p => start + p.1.length

/-- `text.includes(pattern)`. -/
def includes (pattern text : List α) : Bool := (splitFirst pattern text).isSome

variable {pattern text before behind : List α}

theorem splitFirst_eq_none : splitFirst pattern text = none ↔ ¬ pattern <:+: text := by
  induction text with
  | nil => simp [splitFirst, List.infix_nil]
  | cons c text ih =>
    rw [splitFirst, List.infix_cons_iff, not_or]
    split_ifs with hhere
    · simp [hhere]
    · rw [Option.map_eq_none_iff, ih]
      exact ⟨fun h => ⟨hhere, h⟩, fun h => h.2⟩

/-- **The first place of a pattern.** -/
theorem splitFirst_eq_some (hne : pattern ≠ []) :
    splitFirst pattern text = some (before, behind) ↔
      text = before ++ (pattern ++ behind) ∧ ¬ pattern <:+: before ++ pattern.dropLast := by
  have hlonger : 0 < pattern.length := List.length_pos_iff.2 hne
  induction text generalizing before with
  | nil =>
    rw [splitFirst, if_neg hne]
    simp [hne]
  | cons c text ih =>
    rw [splitFirst]
    split_ifs with hhere
    · obtain ⟨rest, hrest⟩ := hhere
      have hshort : ¬ pattern <:+: pattern.dropLast := fun h => by
        have hle := h.length_le
        rw [List.length_dropLast] at hle
        omega
      constructor
      · rintro h
        cases h
        exact ⟨by rw [← hrest, List.drop_left]; rfl, hshort⟩
      · rintro ⟨htext, hearlier⟩
        cases before with
        | nil =>
          rw [htext, List.nil_append, List.drop_left]
        | cons d before =>
          -- the pattern stands at the beginning, before the place that is meant
          refine absurd (List.IsPrefix.isInfix ?_) hearlier
          have hp : pattern <+: c :: text := ⟨rest, hrest⟩
          have hq : (d :: before) ++ pattern.dropLast <+: c :: text := by
            rw [htext]
            exact (List.prefix_append_right_inj _).2
              ((List.dropLast_prefix pattern).trans (List.prefix_append _ _))
          refine List.prefix_of_prefix_length_le hp hq ?_
          rw [List.length_append, List.length_cons, List.length_dropLast]
          omega
    · rw [Option.map_eq_some_iff]
      constructor
      · rintro ⟨⟨before, behind⟩, hsplit, hpair⟩
        cases hpair
        obtain ⟨htext, hearlier⟩ := ih.1 hsplit
        refine ⟨by rw [htext, List.cons_append], ?_⟩
        rw [List.cons_append, List.infix_cons_iff, not_or]
        refine ⟨fun hp => hhere (hp.trans ?_), hearlier⟩
        rw [htext, ← List.cons_append, ← List.cons_append]
        exact (List.prefix_append_right_inj _).2
          ((List.dropLast_prefix pattern).trans (List.prefix_append _ _))
      · rintro ⟨htext, hearlier⟩
        cases before with
        | nil =>
          exact absurd ⟨behind, htext.symm⟩ hhere
        | cons d before =>
          rw [List.cons_append] at htext hearlier
          obtain ⟨rfl, htail⟩ := List.cons.inj htext
          refine ⟨(before, behind), ih.2 ⟨htail, ?_⟩, rfl⟩
          exact fun h => hearlier (h.trans (List.suffix_cons _ _).isInfix)

theorem splitFirst_le (hne : pattern ≠ []) (h : splitFirst pattern text = some (before, behind))
    {a b : List α} (htext : text = a ++ (pattern ++ b)) : before.length ≤ a.length := by
  have hlonger : 0 < pattern.length := List.length_pos_iff.2 hne
  obtain ⟨htext', hearlier⟩ := (splitFirst_eq_some hne).1 h
  by_contra hlt
  refine hearlier (List.IsInfix.trans ⟨a, [], List.append_nil _⟩ (List.IsPrefix.isInfix ?_))
  have hp : a ++ pattern <+: text := ⟨b, by rw [htext, List.append_assoc]⟩
  have hq : before ++ pattern.dropLast <+: text := by
    rw [htext']
    exact (List.prefix_append_right_inj _).2
      ((List.dropLast_prefix pattern).trans (List.prefix_append _ _))
  refine List.prefix_of_prefix_length_le hp hq ?_
  rw [List.length_append, List.length_append, List.length_dropLast]
  omega

theorem includes_iff : includes pattern text = true ↔ pattern <:+: text := by
  rw [includes, Option.isSome_iff_ne_none, Ne, splitFirst_eq_none, not_not]

theorem indexOf_append (done rest : List α) :
    indexOf pattern (done ++ rest) done.length =
      (splitFirst pattern rest).map fun p => done.length + p.1.length := by
  rw [indexOf, List.drop_left]

theorem le_of_indexOf {source : List α} {start i : ℕ} (h : indexOf pattern source start = some i) :
    start ≤ i := by
  obtain ⟨p, _, rfl⟩ := Option.map_eq_some_iff.1 h
  exact Nat.le_add_right _ _

end Vigabss.Lib
