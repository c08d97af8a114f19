import Vigabss.Lib.IpText

/-!
# Vigabss.Lib.Json — the text of a JSON value

`JSON.stringify` of a value without arrays, with its members in the order in which they were set.
Every text says where it ends, so no two values have one text: `stringify_injective`.
-/

namespace Vigabss.Lib

theorem append_cons_inj {c : Char} {a b x y : List Char} (ha : c ∉ a) (hb : c ∉ b)
    (h : a ++ c :: x = b ++ c :: y) : a = b ∧ x = y := by
  induction a generalizing b with
  | nil =>
    cases b with
    | nil => exact ⟨rfl, (List.cons.inj h).2⟩
    | cons d b => exact absurd (List.cons.inj h).1 (List.ne_of_not_mem_cons hb)
  | cons d a ih =>
    cases b with
    | nil => exact absurd (List.cons.inj h).1.symm (List.ne_of_not_mem_cons ha)
    | cons d' b =>
      obtain ⟨hhead, htail⟩ := List.cons.inj h
      obtain ⟨hab, hrest⟩ := ih (List.not_mem_of_not_mem_cons ha)
        (List.not_mem_of_not_mem_cons hb) htail
      exact ⟨by rw [hhead, hab], hrest⟩

/-- A JSON value. -/
inductive Json where
  | null
  | bool (b : Bool)
  | number (n : ℕ)
  | text (s : List Char)
  | object (members : List (List Char × Json))

namespace Json

/-- A character between quotes. -/
def escape (c : Char) : List Char :=
  if c = '"' then ['\\', '"']
  else if c = '\\' then ['\\', '\\']
  else if c = '\x08' then ['\\', 'b']
  else if c = '\t' then ['\\', 't']
  else if c = '\n' then ['\\', 'n']
  else if c = '\x0c' then ['\\', 'f']
  else if c = '\r' then ['\\', 'r']
  else if c.toNat < 0x20 then
    ['\\', 'u', '0', '0', Nat.digitChar (c.toNat / 16), Nat.digitChar (c.toNat % 16)]
  else [c]

/-- A string in quotes. -/
def quoted (s : List Char) : List Char := '"' :: (s.flatMap escape ++ ['"'])

mutual

/-- `JSON.stringify(value)`. -/
def stringify : Json → List Char
  | .null => "null".toList
  | .bool b => if b then "true".toList else "false".toList
  | .number n => Nat.toDigits 10 n
  | .text s => quoted s
  | .object members => '{' :: stringifyMembers true members

/-- The members of an object, and the brace behind them. -/
def stringifyMembers : Bool → List (List Char × Json) → List Char
  | _, [] => ['}']
  | first, (key, value) :: members =>
    (if first then [] else [',']) ++
      (quoted key ++ ':' :: (stringify value ++ stringifyMembers false members))

end

/-! ### Strings -/

/-- An escaped character is read back. -/
def unescape : List Char → Option (Char × List Char)
  | '\\' :: '"' :: rest => some ('"', rest)
  | '\\' :: '\\' :: rest => some ('\\', rest)
  | '\\' :: 'b' :: rest => some ('\x08', rest)
  | '\\' :: 't' :: rest => some ('\t', rest)
  | '\\' :: 'n' :: rest => some ('\n', rest)
  | '\\' :: 'f' :: rest => some ('\x0c', rest)
  | '\\' :: 'r' :: rest => some ('\r', rest)
  | '\\' :: 'u' :: '0' :: '0' :: c :: d :: rest =>
    some (Char.ofNat (JsText.digitValue c * 16 + JsText.digitValue d), rest)
  | c :: rest => some (c, rest)
  | [] => none

theorem unescape_escape (c : Char) (rest : List Char) :
    unescape (escape c ++ rest) = some (c, rest) := by
  unfold escape
  split_ifs with h1 h2 h3 h4 h5 h6 h7 h8
  · subst h1; rfl
  · subst h2; rfl
  · subst h3; rfl
  · subst h4; rfl
  · subst h5; rfl
  · subst h6; rfl
  · subst h7; rfl
  · show some (Char.ofNat _, rest) = some (c, rest)
    rw [IpText.digitValue_digitChar _ (by omega), IpText.digitValue_digitChar _ (by omega),
      show c.toNat / 16 * 16 + c.toNat % 16 = c.toNat by omega, Char.ofNat_toNat]
  · rw [List.singleton_append, unescape]
    all_goals simp_all

theorem escape_append_ne (c : Char) (s t : List Char) : escape c ++ s ≠ '"' :: t := by
  intro h
  unfold escape at h
  split_ifs at h with hquote <;> simp only [List.cons_append, List.nil_append, List.cons.injEq] at h
  all_goals first
    | exact absurd h.1 (by decide)
    | exact absurd h.1 hquote

/-- **A string ends where its text says.** -/
theorem quoted_ends {a b x y : List Char} (h : quoted a ++ x = quoted b ++ y) :
    a = b ∧ x = y := by
  have hbody : a.flatMap escape ++ '"' :: x = b.flatMap escape ++ '"' :: y := by
    simpa [quoted] using h
  clear h
  induction a generalizing b with
  | nil =>
    cases b with
    | nil => exact ⟨rfl, (List.cons.inj hbody).2⟩
    | cons d b =>
      rw [List.flatMap_cons, List.append_assoc] at hbody
      exact absurd hbody.symm (escape_append_ne d _ _)
  | cons c a ih =>
    cases b with
    | nil =>
      rw [List.flatMap_cons, List.append_assoc] at hbody
      exact absurd hbody (escape_append_ne c _ _)
    | cons d b =>
      rw [List.flatMap_cons, List.flatMap_cons, List.append_assoc, List.append_assoc] at hbody
      have hread := congrArg unescape hbody
      rw [unescape_escape, unescape_escape] at hread
      obtain ⟨hc, hrest⟩ := Prod.mk.inj (Option.some.inj hread)
      obtain ⟨hab, hxy⟩ := ih hrest
      exact ⟨by rw [hc, hab], hxy⟩

/-! ### Values -/

/-- The kind of a value. -/
def kind : Json → ℕ
  | .null => 0
  | .bool _ => 1
  | .number _ => 2
  | .text _ => 3
  | .object _ => 4

/-- The kind of the values whose texts begin with a character. -/
def kindOf (c : Char) : ℕ :=
  if c = 'n' then 0
  else if c = 't' ∨ c = 'f' then 1
  else if JsText.isDigit 10 c then 2
  else if c = '"' then 3
  else 4

theorem stringify_head (a : Json) : ∃ c s, stringify a = c :: s ∧ kindOf c = a.kind := by
  cases a with
  | null => exact ⟨_, _, rfl, rfl⟩
  | bool b => cases b <;> exact ⟨_, _, rfl, rfl⟩
  | number n =>
    obtain ⟨c, s, hs⟩ := List.exists_cons_of_ne_nil (Nat.toDigits_ne_nil (n := n) (b := 10))
    have hall := @IpText.all_isDigit_toDigits 10 (by omega) (by omega) n
    rw [hs, List.all_cons, Bool.and_eq_true] at hall
    refine ⟨c, s, by rw [stringify, hs], ?_⟩
    have hn : c ≠ 'n' := by rintro rfl; exact absurd hall.1 (by decide)
    have ht : c ≠ 't' := by rintro rfl; exact absurd hall.1 (by decide)
    have hf : c ≠ 'f' := by rintro rfl; exact absurd hall.1 (by decide)
    rw [kindOf, if_neg hn, if_neg (not_or.2 ⟨ht, hf⟩), if_pos hall.1]
    rfl
  | text s => exact ⟨_, _, rfl, rfl⟩
  | object members => exact ⟨_, _, by rw [stringify], rfl⟩

/-- The text behind a value does not go on with a digit. -/
def Stops (x : List Char) : Prop := ∀ c ∈ x.head?, JsText.isDigit 10 c = false

theorem number_ends {m n : ℕ} {x y : List Char} (hx : Stops x) (hy : Stops y)
    (h : Nat.toDigits 10 m ++ x = Nat.toDigits 10 n ++ y) : m = n ∧ x = y := by
  have hread : ∀ (k : ℕ) (z : List Char), Stops z →
      (Nat.toDigits 10 k ++ z).takeWhile (JsText.isDigit 10) = Nat.toDigits 10 k := by
    intro k z hz
    have hall := @IpText.all_isDigit_toDigits 10 (by omega) (by omega) k
    rw [List.takeWhile_append_of_pos (List.all_eq_true.1 hall)]
    cases z with
    | nil => simp
    | cons c z => rw [List.takeWhile_cons_of_neg (by simp [hz c rfl]), List.append_nil]
  have hdigits : Nat.toDigits 10 m = Nat.toDigits 10 n := by
    rw [← hread m x hx, h, hread n y hy]
  refine ⟨?_, List.append_cancel_left (hdigits ▸ h)⟩
  have hvalue := congrArg (JsText.digitsValue 10) hdigits
  rwa [IpText.digitsValue_toDigits (by omega) (by omega),
    IpText.digitsValue_toDigits (by omega) (by omega)] at hvalue

theorem members_stop (members : List (List Char × Json)) (x : List Char) :
    Stops (stringifyMembers false members ++ x) := by
  intro c hc
  cases members with
  | nil =>
    rw [stringifyMembers] at hc
    cases hc
    decide
  | cons m members =>
    obtain ⟨key, value⟩ := m
    rw [stringifyMembers] at hc
    cases hc
    decide

mutual

/-- **A value ends where its text says.** -/
theorem stringify_ends (a b : Json) {x y : List Char} (hx : Stops x) (hy : Stops y)
    (h : stringify a ++ x = stringify b ++ y) : a = b ∧ x = y := by
  obtain ⟨c, s, hs, hc⟩ := stringify_head a
  obtain ⟨d, t, ht, hd⟩ := stringify_head b
  have hkind : a.kind = b.kind := by
    rw [hs, ht] at h
    rw [← hc, ← hd, (List.cons.inj h).1]
  match a, b, hkind with
  | .null, .null, _ => exact ⟨rfl, List.append_cancel_left h⟩
  | .bool p, .bool q, _ =>
    cases p <;> cases q
    · exact ⟨rfl, List.append_cancel_left h⟩
    · exact absurd (List.cons.inj h).1 (by decide)
    · exact absurd (List.cons.inj h).1 (by decide)
    · exact ⟨rfl, List.append_cancel_left h⟩
  | .number m, .number n, _ =>
    rw [stringify, stringify] at h
    obtain ⟨rfl, hxy⟩ := number_ends hx hy h
    exact ⟨rfl, hxy⟩
  | .text p, .text q, _ =>
    rw [stringify, stringify] at h
    obtain ⟨rfl, hxy⟩ := quoted_ends h
    exact ⟨rfl, hxy⟩
  | .object ms, .object ns, _ =>
    rw [stringify, stringify] at h
    obtain ⟨rfl, hxy⟩ := members_end true ms ns (List.cons.inj h).2
    exact ⟨rfl, hxy⟩

theorem members_end (first : Bool) (ms ns : List (List Char × Json)) {x y : List Char}
    (h : stringifyMembers first ms ++ x = stringifyMembers first ns ++ y) : ms = ns ∧ x = y := by
  match ms, ns with
  | [], [] => exact ⟨rfl, List.append_cancel_left h⟩
  | [], (key, value) :: ns =>
    cases first <;> exact absurd (List.cons.inj h).1 (by decide)
  | (key, value) :: ms, [] =>
    cases first <;> exact absurd (List.cons.inj h).1 (by decide)
  | (key, value) :: ms, (key', value') :: ns =>
    rw [stringifyMembers, stringifyMembers] at h
    simp only [List.append_assoc, List.cons_append] at h
    obtain ⟨rfl, hvalue⟩ := quoted_ends (List.append_cancel_left h)
    obtain ⟨rfl, hmembers⟩ := stringify_ends value value' (members_stop ms x) (members_stop ns y)
      (List.cons.inj hvalue).2
    obtain ⟨rfl, hxy⟩ := members_end false ms ns hmembers
    exact ⟨rfl, hxy⟩

end

/-- **No two values have one text.** -/
theorem stringify_injective : Function.Injective stringify := by
  intro a b h
  have hstop : Stops [] := fun c hc => by cases hc
  exact (stringify_ends a b hstop hstop (by rw [h])).1

end Json

end Vigabss.Lib
