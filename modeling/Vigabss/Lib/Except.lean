import Mathlib.Data.List.Forall2

/-!
# Vigabss.Lib.Except — requests that check before they act

Inversion of `do` blocks in `Except`: what a request that succeeded has computed and checked.
-/

namespace Vigabss.Lib

theorem except_bind_ok {ε α β : Type} {x : Except ε α} {f : α → Except ε β} {b : β} :
    (x >>= f) = .ok b ↔ ∃ a, x = .ok a ∧ f a = .ok b := by
  cases x with
  | error e => simp [bind, Except.bind]
  | ok a => simp [bind, Except.bind]

theorem except_bind_error {ε α β : Type} {x : Except ε α} {f : α → Except ε β} {e : ε} :
    (x >>= f) = .error e ↔ x = .error e ∨ ∃ a, x = .ok a ∧ f a = .error e := by
  cases x with
  | error e' => simp [bind, Except.bind]
  | ok a => simp [bind, Except.bind]

theorem exists_ok {ε α : Type} {x : Except ε α} {p : α → Bool} (h : x.toOption.any p = true) :
    ∃ a, x = .ok a ∧ p a = true := by
  cases x with
  | error e => cases h
  | ok a => exact ⟨a, rfl, h⟩

theorem check_ok {ε α : Type} {p : Prop} [Decidable p] {e : ε} {next : Unit → Except ε α} {a : α}
    (h : (if p then (Except.error e >>= next) else next ()) = .ok a) : ¬ p ∧ next () = .ok a := by
  split_ifs at h with hp
  · cases h
  · exact ⟨hp, h⟩

theorem mapM_ok {ε α β : Type} {f : α → Except ε β} {l : List α} {l' : List β} :
    l.mapM f = .ok l' ↔ List.Forall₂ (fun a b => f a = .ok b) l l' := by
  induction l generalizing l' with
  | nil =>
    rw [List.forall₂_nil_left_iff]
    constructor
    · exact fun h => (Except.ok.inj h).symm
    · rintro rfl
      rfl
  | cons a l ih =>
    rw [List.mapM_cons, List.forall₂_cons_left_iff, except_bind_ok]
    constructor
    · rintro ⟨b, hb, h⟩
      obtain ⟨bs, hbs, h⟩ := except_bind_ok.1 h
      exact ⟨b, bs, hb, ih.1 hbs, (Except.ok.inj h).symm⟩
    · rintro ⟨b, bs, hb, hbs, rfl⟩
      exact ⟨b, hb, except_bind_ok.2 ⟨bs, ih.2 hbs, rfl⟩⟩

/-- Two requests agree when they return the same, if both succeed. -/
def Agree {ε α : Type} (x y : Except ε α) : Prop := ∀ a b, x = .ok a → y = .ok b → a = b

theorem Agree.refl {ε α : Type} (x : Except ε α) : Agree x x :=
  fun _ _ ha hb => Except.ok.inj (ha.symm.trans hb)

theorem Agree.bind {ε α β : Type} {x y : Except ε α} {f g : α → Except ε β} (h : Agree x y)
    (hfg : ∀ a, Agree (f a) (g a)) : Agree (x >>= f) (y >>= g) := by
  intro b c hb hc
  obtain ⟨a, ha, hb⟩ := except_bind_ok.1 hb
  obtain ⟨a', ha', hc⟩ := except_bind_ok.1 hc
  obtain rfl := h a a' ha ha'
  exact hfg a b c hb hc

theorem Agree.check {ε α : Type} {p q : Prop} [Decidable p] [Decidable q] {e e' : ε}
    {f g : Unit → Except ε α} (h : Agree (f ()) (g ())) :
    Agree (if p then (Except.error e >>= f) else f ()) (if q then (Except.error e' >>= g) else g ())
      := by
  intro a b ha hb
  exact h a b (check_ok ha).2 (check_ok hb).2

end Vigabss.Lib
