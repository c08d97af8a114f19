import Vigabss.Lib.Ipv6Text

/-!
# Vigabss.Lib.Ipv6Forms — the forms that the text of an IPv6 address takes

The text of an address is groups between colons, or such groups before and behind one `::`; the last
group may be an IPv4 address, which stands for two.  Letters may be of either case.
-/

namespace Vigabss.Lib.IpText

open JsText (isDigit digitValue digitsValue)

/-! ### Letters of either case -/

theorem toLower_val (c : Char) : c.toLower.toNat =
    if 65 ≤ c.toNat ∧ c.toNat ≤ 90 then c.toNat + 32 else c.toNat := by
  delta Char.toLower
  have hrange : (c.val ≥ 'A'.val ∧ c.val ≤ 'Z'.val) ↔ 65 ≤ c.toNat ∧ c.toNat ≤ 90 := Iff.rfl
  simp only [hrange]
  split_ifs with h
  · show (c.val + ('a'.val - 'A'.val)).toNat = c.val.toNat + 32
    have hle : c.val.toNat ≤ 90 := h.2
    rw [UInt32.toNat_add, Nat.mod_eq_of_lt]
    · rfl
    · show c.val.toNat + 32 < 2 ^ 32
      omega
  · rfl

theorem digitValue_toLower (c : Char) : digitValue c.toLower = digitValue c := by
  have hval := toLower_val c
  have hrange : ∀ (a b x : Char), (a ≤ x ∧ x ≤ b) ↔ a.toNat ≤ x.toNat ∧ x.toNat ≤ b.toNat :=
    fun _ _ _ => Iff.rfl
  have h0 : '0'.toNat = 48 := rfl
  have h9 : '9'.toNat = 57 := rfl
  have ha : 'a'.toNat = 97 := rfl
  have hz : 'z'.toNat = 122 := rfl
  have hA : 'A'.toNat = 65 := rfl
  have hZ : 'Z'.toNat = 90 := rfl
  unfold digitValue
  simp only [hrange, h0, h9, ha, hz, hA, hZ, hval]
  split_ifs <;> omega

theorem toLower_eq_iff {c sign : Char} (hsign : sign.toNat < 65) : c.toLower = sign ↔ c = sign := by
  have hval := toLower_val c
  rw [← Char.toNat_inj, ← Char.toNat_inj, hval]
  split_ifs <;> omega

theorem splitOn_map_toLower {sign : Char} (hsign : sign.toNat < 65) (text : List Char) :
    (text.map Char.toLower).splitOn sign = (text.splitOn sign).map fun g => g.map Char.toLower := by
  induction text with
  | nil => rfl
  | cons c text ih =>
    rw [List.map_cons, List.splitOn_cons_eq_if_modifyHead, List.splitOn_cons_eq_if_modifyHead]
    simp only [beq_iff_eq, toLower_eq_iff hsign]
    split_ifs
    · rw [List.map_cons, ih]
      rfl
    · rw [ih]
      cases text.splitOn sign <;> rfl

theorem all_isDigit_map_toLower (radix : ℕ) (g : List Char) :
    (g.map Char.toLower).all (isDigit radix) = g.all (isDigit radix) := by
  rw [List.all_map]
  refine congrArg (List.all g) (funext fun c => ?_)
  show decide (digitValue c.toLower < radix) = decide (digitValue c < radix)
  rw [digitValue_toLower]

theorem digitsValue_map_toLower (radix : ℕ) (g : List Char) :
    digitsValue radix (g.map Char.toLower) = digitsValue radix g := by
  rw [digitsValue, List.foldl_map, digitsValue]
  simp only [digitValue_toLower]

theorem group_map_toLower (g : List Char) : group (g.map Char.toLower) = group g := by
  rw [group, group, all_isDigit_map_toLower, digitsValue_map_toLower, List.length_map]
  simp only [ne_eq, List.map_eq_nil_iff]

theorem octet_map_toLower (g : List Char) : octet (g.map Char.toLower) = octet g := by
  have hzero : (g.map Char.toLower = ['0']) ↔ g = ['0'] := by
    rcases g with _ | ⟨c, _ | ⟨d, g⟩⟩
    · simp
    · simp only [List.map_cons, List.map_nil, List.cons.injEq, and_true]
      exact toLower_eq_iff (by decide)
    · simp
  have hhead : (g.map Char.toLower).head? = some '0' ↔ g.head? = some '0' := by
    rcases g with _ | ⟨c, g⟩
    · simp
    · simp only [List.map_cons, List.head?_cons, Option.some.injEq]
      exact toLower_eq_iff (by decide)
  rw [octet, octet, all_isDigit_map_toLower, digitsValue_map_toLower]
  simp only [ne_eq, List.map_eq_nil_iff, hzero, hhead]

theorem ipv4_map_toLower (text : List Char) : ipv4 (text.map Char.toLower) = ipv4 text := by
  have hmap : ∀ gs : List (List Char),
      (gs.map fun g => g.map Char.toLower).mapM octet = gs.mapM octet := by
    intro gs
    induction gs with
    | nil => rfl
    | cons g gs ih => rw [List.map_cons, List.mapM_cons, List.mapM_cons, octet_map_toLower, ih]
  rw [ipv4, ipv4, splitOn_map_toLower (by decide), hmap]

theorem groups_cons_cons (dotted : Bool) (g g' : List Char) (gs : List (List Char)) :
    groups dotted (g :: g' :: gs) =
      (group g).bind fun n => (groups dotted (g' :: gs)).map fun ns => n :: ns := by
  rw [groups.eq_3 _ _ _ (by simp)]
  cases group g with
  | none => rfl
  | some n => cases groups dotted (g' :: gs) <;> rfl

theorem groups_map_toLower (dotted : Bool) (gs : List (List Char)) :
    groups dotted (gs.map fun g => g.map Char.toLower) = groups dotted gs := by
  induction gs with
  | nil => rfl
  | cons g gs ih =>
    cases gs with
    | nil => rw [List.map_singleton, groups, groups, group_map_toLower, ipv4_map_toLower]
    | cons g' gs =>
      rw [List.map_cons] at ih
      rw [List.map_cons, List.map_cons, groups_cons_cons, groups_cons_cons, group_map_toLower, ih]

theorem halfGroups_map_toLower (dotted : Bool) (half : List Char) :
    halfGroups dotted (half.map Char.toLower) = halfGroups dotted half := by
  rw [halfGroups, halfGroups, splitOn_map_toLower (by decide), groups_map_toLower]
  simp only [List.map_eq_nil_iff]

theorem splitDouble_map_toLower (text : List Char) :
    splitDouble (text.map Char.toLower) = (splitDouble text).map fun halves =>
      (halves.1.map Char.toLower, halves.2.map Char.toLower) := by
  fun_induction splitDouble text with
  | case1 rest => rfl
  | case2 c rest hnot ih =>
    have hlower : ∀ r, c.toLower = ':' → rest.map Char.toLower = ':' :: r → False := by
      intro r hc hrest
      obtain ⟨d, tail, rfl, hd, -⟩ := List.map_eq_cons_iff.1 hrest
      exact hnot tail ((toLower_eq_iff (by decide)).1 hc)
        (by rw [(toLower_eq_iff (by decide)).1 hd])
    rw [List.map_cons, splitDouble.eq_2 _ _ hlower, ih, Option.map_map, Option.map_map]
    rfl
  | case3 => rfl

/-- **Letters of either case are read alike.** -/
theorem ipv6_map_toLower (text : List Char) : ipv6 (text.map Char.toLower) = ipv6 text := by
  rw [ipv6, ipv6, splitDouble_map_toLower, splitOn_map_toLower (by decide), groups_map_toLower]
  cases splitDouble text with
  | none => rfl
  | some halves =>
    simp only [Option.map_some, halfGroups_map_toLower]

/-! ### Numbers of octets and groups -/

theorem eq_zero_of_digitValue {c : Char} (h : digitValue c = 0) : c = '0' := by
  rw [digitValue] at h
  split_ifs at h with h0
  · have hlow : 48 ≤ c.toNat := h0.1
    have hzero : c.toNat - 48 = 0 := h
    refine Char.toNat_inj.1 ?_
    show c.toNat = 48
    omega

theorem length_octet {g : List Char} {n : ℕ} (h : octet g = some n) :
    1 ≤ g.length ∧ g.length ≤ 3 := by
  rw [octet] at h
  split_ifs at h with hg
  obtain ⟨hne, -, hzero, hle⟩ := hg
  obtain ⟨c, rest, rfl⟩ := List.exists_cons_of_ne_nil hne
  refine ⟨by rw [List.length_cons]; omega, ?_⟩
  by_contra hlong
  rw [List.length_cons] at hlong
  have hfirst : 1 ≤ digitValue c := by
    by_contra hlow
    have hc : c = '0' := eq_zero_of_digitValue (by omega)
    subst hc
    have hone := hzero rfl
    rw [(List.cons.inj hone).2] at hlong
    simp at hlong
  have hpow : 10 ^ 3 ≤ 10 ^ rest.length := Nat.pow_le_pow_right (by omega) (by omega)
  have hvalue := digitsValue_cons 10 c rest
  have := Nat.mul_le_mul hfirst hpow
  omega

theorem digits_of_octet {g : List Char} {n : ℕ} (h : octet g = some n) :
    g.all (isDigit 10) = true ∧ digitsValue 10 g = n := by
  rw [octet] at h
  split_ifs at h with hg
  exact ⟨hg.2.1, Option.some.inj h⟩

theorem ne_nil_of_octet {g : List Char} {n : ℕ} (h : octet g = some n) : g ≠ [] :=
  List.length_pos_iff.1 (length_octet h).1

theorem number_of_octet {g : List Char} {n : ℕ} (h : octet g = some n) :
    JsText.number g = some (n : ℚ) := by
  have hlt := octet_lt h
  obtain ⟨hdigits, hvalue⟩ := digits_of_octet h
  rw [JsText.number_digits (ne_nil_of_octet h) hdigits (by omega), hvalue]

theorem parseInt_of_octet {g : List Char} {n : ℕ} (h : octet g = some n) :
    JsText.parseInt 10 g = some (n : ℤ) := by
  have hlt := octet_lt h
  obtain ⟨hdigits, hvalue⟩ := digits_of_octet h
  rw [JsText.parseInt_digits (by omega) (ne_nil_of_octet h) hdigits (by omega), hvalue]

theorem parseInt_of_group {g : List Char} {n : ℕ} (h : group g = some n) :
    JsText.parseInt 16 g = some (n : ℤ) := by
  have hlt := group_lt h
  rw [group] at h
  split_ifs at h with hg
  cases h
  exact JsText.parseInt_digits le_rfl hg.1 hg.2.2 (by omega)

/-! ### Texts of groups -/

theorem group_ne_nil {g : List Char} {n : ℕ} (h : group g = some n) : g ≠ [] := by
  rintro rfl
  cases h

theorem groups_false_cons {g : List Char} {gs : List (List Char)} {ns : List ℕ} :
    groups false (g :: gs) = some ns ↔
      ∃ n ms, group g = some n ∧ groups false gs = some ms ∧ ns = n :: ms := by
  rcases gs with _ | ⟨g', gs⟩
  · cases hg : group g with
    | none => simp [groups, hg]
    | some n =>
      simp only [groups, hg, Option.some.injEq]
      constructor
      · rintro rfl
        exact ⟨n, [], rfl, rfl, rfl⟩
      · rintro ⟨_, _, rfl, rfl, rfl⟩
        rfl
  · rw [groups_cons_cons]
    simp only [Option.bind_eq_some_iff, Option.map_eq_some_iff]
    constructor
    · rintro ⟨n, hn, ms, hms, rfl⟩
      exact ⟨n, ms, hn, hms, rfl⟩
    · rintro ⟨n, ms, hn, hms, rfl⟩
      exact ⟨n, hn, ms, hms, rfl⟩

theorem forall₂_of_groups {gs : List (List Char)} {ns : List ℕ} (h : groups false gs = some ns) :
    List.Forall₂ (fun g n => group g = some n) gs ns := by
  induction gs generalizing ns with
  | nil =>
    obtain rfl := Option.some.inj h
    exact .nil
  | cons g gs ih =>
    obtain ⟨n, ms, hn, hms, rfl⟩ := groups_false_cons.1 h
    exact .cons hn (ih hms)

theorem groups_of_forall₂ {gs : List (List Char)} {ns : List ℕ}
    (h : List.Forall₂ (fun g n => group g = some n) gs ns) : groups false gs = some ns := by
  induction h with
  | nil => rfl
  | cons hn _ ih => exact groups_false_cons.2 ⟨_, _, hn, ih, rfl⟩

theorem group_of_mem {gs : List (List Char)} {ns : List ℕ} (h : groups false gs = some ns)
    {g : List Char} (hg : g ∈ gs) : ∃ n, group g = some n := by
  induction gs generalizing ns with
  | nil => cases hg
  | cons g' gs ih =>
    obtain ⟨n, ms, hn, hms, rfl⟩ := groups_false_cons.1 h
    rcases List.mem_cons.1 hg with rfl | hg
    · exact ⟨n, hn⟩
    · exact ih hms hg

theorem dot_notMem_of_group {g : List Char} {n : ℕ} (h : group g = some n) : '.' ∉ g :=
  fun hdot => absurd (mem_of_group h hdot) (by decide)

theorem ne_nil_of_groups {dotted : Bool} {gs : List (List Char)} {ns : List ℕ}
    (h : groups dotted gs = some ns) : ∀ g ∈ gs, g ≠ [] := by
  induction gs generalizing ns with
  | nil => exact fun _ hg => absurd hg List.not_mem_nil
  | cons g gs ih =>
    rcases gs with _ | ⟨g', gs⟩
    · intro g' hg'
      rw [List.mem_singleton.1 hg']
      rintro rfl
      rw [groups] at h
      cases dotted <;> cases h
    · rw [groups_cons_cons] at h
      obtain ⟨n, hn, hrest⟩ := Option.bind_eq_some_iff.1 h
      obtain ⟨ms, hms, -⟩ := Option.map_eq_some_iff.1 hrest
      intro x hx
      rcases List.mem_cons.1 hx with rfl | hx
      · exact group_ne_nil hn
      · exact ih hms x hx

theorem colon_notMem_of_groups {dotted : Bool} {gs : List (List Char)} {ns : List ℕ}
    (h : groups dotted gs = some ns) : ∀ g ∈ gs, ':' ∉ g := by
  intro g hg hcolon
  rcases mem_of_groups h hg hcolon with hdot | hdigit
  · exact absurd hdot (by decide)
  · exact absurd hdigit (by decide)

theorem exists_groups_of_half {dotted : Bool} {half : List Char} {ns : List ℕ}
    (h : halfGroups dotted half = some ns) :
    ∃ gs, half = [':'].intercalate gs ∧ groups dotted gs = some ns := by
  rw [halfGroups] at h
  split_ifs at h with hnil
  · exact ⟨[], hnil, h⟩
  · exact ⟨half.splitOn ':', (List.intercalate_splitOn ':').symm, h⟩

theorem intercalate_append_cons (front : List (List Char)) (g : List Char)
    (gs : List (List Char)) :
    [':'].intercalate (front ++ g :: gs) =
      front.flatMap (· ++ [':']) ++ [':'].intercalate (g :: gs) := by
  induction front with
  | nil => rfl
  | cons x front ih =>
    rw [List.cons_append, List.intercalate_cons_of_ne_nil (by simp), ih, List.flatMap_cons]
    simp

theorem splitDouble_groups {dotted : Bool} {gs : List (List Char)} {ns : List ℕ}
    (h : groups dotted gs = some ns) (rest : List Char) :
    splitDouble ([':'].intercalate gs ++ ':' :: ':' :: rest) =
      some ([':'].intercalate gs, rest) :=
  splitDouble_double (ne_nil_of_groups h) (colon_notMem_of_groups h) rest

theorem splitDouble_groups_none {dotted : Bool} {gs : List (List Char)} {ns : List ℕ}
    (h : groups dotted gs = some ns) : splitDouble ([':'].intercalate gs) = none :=
  splitDouble_intercalate (ne_nil_of_groups h) (colon_notMem_of_groups h)

/-! ### The dotted tail -/

/-- A dotted tail stands for the two groups of its halves. -/
theorem groups_undotted {gs : List (List Char)} {ns : List ℕ} (h : groups true gs = some ns) :
    groups false gs = some ns ∨ ∃ front quad m, gs = front ++ [quad] ∧ ipv4 quad = some m ∧
      groups false (front ++ [shortGroup (m / 65536), shortGroup (m % 65536)]) = some ns := by
  induction gs generalizing ns with
  | nil => exact .inl h
  | cons g gs ih =>
    rcases gs with _ | ⟨g', gs⟩
    · rw [groups] at h
      cases hg : group g with
      | some n =>
        rw [hg] at h
        left
        rw [groups, hg]
        exact h
      | none =>
        rw [hg] at h
        obtain ⟨m, hm, rfl⟩ := Option.map_eq_some_iff.1 h
        have hlt := ipv4_lt hm
        refine .inr ⟨[], g, m, rfl, hm, groups_of_forall₂ (.cons ?_ (.cons ?_ .nil))⟩
        · exact group_shortGroup (by omega)
        · exact group_shortGroup (by omega)
    · rw [groups_cons_cons] at h
      obtain ⟨n, hn, hrest⟩ := Option.bind_eq_some_iff.1 h
      obtain ⟨ms, hms, rfl⟩ := Option.map_eq_some_iff.1 hrest
      rcases ih hms with hplain | ⟨front, quad, m, hgs, hm, hfront⟩
      · exact .inl (groups_false_cons.2 ⟨n, ms, hn, hplain, rfl⟩)
      · refine .inr ⟨g :: front, quad, m, by rw [hgs]; rfl, hm, ?_⟩
        exact groups_false_cons.2 ⟨n, ms, hn, hfront, rfl⟩

/-- The text of an address without a dotted tail. -/
inductive Undotted : List Char → ℕ → Prop
  | full {gs : List (List Char)} {ns : List ℕ} (hgs : groups false gs = some ns)
      (hlength : ns.length = 8) : Undotted ([':'].intercalate gs) (assemble 65536 ns)
  | double {ls rs : List (List Char)} {lns rns : List ℕ} (hls : groups false ls = some lns)
      (hrs : groups false rs = some rns) (hfits : lns.length + rns.length < 8) :
      Undotted ([':'].intercalate ls ++ ':' :: ':' :: [':'].intercalate rs)
        (assemble 65536 (lns ++ List.replicate (8 - lns.length - rns.length) 0 ++ rns))

theorem dot_notMem_intercalate {gs : List (List Char)} {ns : List ℕ}
    (h : groups false gs = some ns) : '.' ∉ [':'].intercalate gs := by
  intro hdot
  rcases mem_intercalate hdot with hcolon | ⟨g, hg, hmem⟩
  · exact absurd hcolon (by decide)
  · obtain ⟨n, hn⟩ := group_of_mem h hg
    exact dot_notMem_of_group hn hmem

theorem Undotted.dot_notMem {text : List Char} {n : ℕ} (h : Undotted text n) : '.' ∉ text := by
  cases h with
  | full hgs _ => exact dot_notMem_intercalate hgs
  | double hls hrs _ =>
    intro hdot
    rcases List.mem_append.1 hdot with hdot | hdot
    · exact dot_notMem_intercalate hls hdot
    · simp only [List.mem_cons, Char.reduceEq, false_or] at hdot
      exact dot_notMem_intercalate hrs hdot

/-- Groups with a dotted tail, and the text of the two groups that it stands for. -/
theorem exists_undotted_tail {gs : List (List Char)} {ns : List ℕ} (h : groups true gs = some ns) :
    groups false gs = some ns ∨ ∃ front quad m gs', ipv4 quad = some m ∧ '.' ∉ front ∧
      (front = [] ∨ front.getLast? = some ':') ∧ (front = [] → ns.length = 2) ∧
      [':'].intercalate gs = front ++ quad ∧ groups false gs' = some ns ∧
      [':'].intercalate gs' =
        front ++ (shortGroup (m / 65536) ++ ':' :: shortGroup (m % 65536)) := by
  rcases groups_undotted h with hplain | ⟨front, quad, m, rfl, hm, hfront⟩
  · exact .inl hplain
  · refine .inr ⟨front.flatMap (· ++ [':']), quad, m, _, hm, ?_, ?_, ?_, ?_, hfront, ?_⟩
    · intro hdot
      obtain ⟨g, hg, hmem⟩ := List.mem_flatMap.1 hdot
      obtain ⟨n, hn⟩ := group_of_mem hfront (List.mem_append_left _ hg)
      simp only [List.mem_append, List.mem_singleton, Char.reduceEq, or_false] at hmem
      exact dot_notMem_of_group hn hmem
    · rcases List.eq_nil_or_concat front with rfl | ⟨init, g, rfl⟩
      · exact .inl rfl
      · right
        simp
    · intro hnil
      have hfront' : front = [] := by
        rcases front with _ | ⟨g, front⟩
        · rfl
        · simp at hnil
      subst hfront'
      exact (forall₂_of_groups hfront).length_eq.symm
    · rw [intercalate_append_cons, List.intercalate_singleton]
    · rw [intercalate_append_cons, List.intercalate_cons_cons, List.intercalate_singleton,
        List.append_assoc, List.singleton_append]

/-- **The shape of an address**: eight groups, or groups before and behind one `::`. -/
theorem ipv6_shape {text : List Char} {n : ℕ} (h : ipv6 text = some n) :
    (∃ gs ns, text = [':'].intercalate gs ∧ groups true gs = some ns ∧ ns.length = 8 ∧
      n = assemble 65536 ns) ∨
    ∃ ls rs lns rns, text = [':'].intercalate ls ++ ':' :: ':' :: [':'].intercalate rs ∧
      groups false ls = some lns ∧ groups true rs = some rns ∧ lns.length + rns.length < 8 ∧
      n = assemble 65536 (lns ++ List.replicate (8 - lns.length - rns.length) 0 ++ rns) := by
  unfold ipv6 at h
  cases hsplit : splitDouble text with
  | none =>
    rw [hsplit] at h
    cases hgroups : groups true (text.splitOn ':') with
    | none => rw [hgroups] at h; cases h
    | some ns =>
      rw [hgroups] at h
      simp only [Option.bind_eq_bind, Option.bind_some] at h
      split_ifs at h with hlength
      exact .inl ⟨_, ns, (List.intercalate_splitOn ':').symm, hgroups, hlength,
        (Option.some.inj h).symm⟩
  | some halves =>
    obtain ⟨left, right⟩ := halves
    rw [hsplit] at h
    have htext := splitDouble_eq hsplit
    cases hleft : halfGroups false left with
    | none => simp [hleft] at h
    | some lns =>
      cases hright : halfGroups true right with
      | none => simp [hleft, hright] at h
      | some rns =>
        simp only [hleft, hright, Option.bind_eq_bind, Option.bind_some] at h
        split_ifs at h with hfits
        obtain ⟨ls, rfl, hls⟩ := exists_groups_of_half hleft
        obtain ⟨rs, rfl, hrs⟩ := exists_groups_of_half hright
        exact .inr ⟨ls, rs, lns, rns, htext, hls, hrs, hfits, (Option.some.inj h).symm⟩

/-- **The forms of an address**: groups of digits, and maybe a dotted tail that stands for the last
two of them. -/
theorem ipv6_forms {text : List Char} {n : ℕ} (h : ipv6 text = some n) :
    Undotted text n ∨ ∃ front quad m, text = front ++ quad ∧ '.' ∉ front ∧
      front.getLast? = some ':' ∧ ipv4 quad = some m ∧
      Undotted (front ++ (shortGroup (m / 65536) ++ ':' :: shortGroup (m % 65536))) n := by
  rcases ipv6_shape h with ⟨gs, ns, rfl, hgroups, hlength, rfl⟩ |
    ⟨ls, rs, lns, rns, rfl, hls, hrs, hfits, rfl⟩
  · rcases exists_undotted_tail hgroups with hplain |
      ⟨front, quad, m, gs', hm, hdot, hlast, htwo, htext, hgs, hnew⟩
    · exact .inl (.full hplain hlength)
    · refine .inr ⟨front, quad, m, htext, hdot, hlast.resolve_left ?_, hm, ?_⟩
      · intro hnil
        rw [htwo hnil] at hlength
        cases hlength
      · rw [← hnew]
        exact .full hgs hlength
  · rcases exists_undotted_tail hrs with hplain |
      ⟨front, quad, m, gs, hm, hdot, hlast, -, hquad, hgs, hnew⟩
    · exact .inl (.double hls hplain hfits)
    · refine .inr ⟨[':'].intercalate ls ++ ':' :: ':' :: front, quad, m, ?_, ?_, ?_, hm, ?_⟩
      · rw [hquad]
        simp
      · intro hmem
        rcases List.mem_append.1 hmem with hmem | hmem
        · exact dot_notMem_intercalate hls hmem
        · simp only [List.mem_cons, Char.reduceEq, false_or] at hmem
          exact hdot hmem
      · rw [List.getLast?_append_of_ne_nil _ (by simp)]
        rcases hlast with rfl | hlast
        · rfl
        · rw [List.getLast?_cons_of_ne_nil (by simp), List.getLast?_cons_of_ne_nil]
          · exact hlast
          · rintro rfl
            cases hlast
      · rw [List.append_assoc, List.cons_append, List.cons_append, ← hnew]
        exact .double hls hgs hfits

theorem colon_mem_of_ipv6 {text : List Char} {n : ℕ} (h : ipv6 text = some n) : ':' ∈ text := by
  rcases ipv6_shape h with ⟨gs, ns, rfl, hgs, hlength, -⟩ | ⟨ls, rs, lns, rns, rfl, -⟩
  · rcases gs with _ | ⟨g, _ | ⟨g', gs⟩⟩
    · rw [groups] at hgs
      cases hgs
      cases hlength
    · rw [groups] at hgs
      split at hgs
      · cases hgs
        cases hlength
      · rw [if_pos rfl, Option.map_eq_some_iff] at hgs
        obtain ⟨n, -, rfl⟩ := hgs
        cases hlength
    · simp
  · simp

/-! ### Texts of a shape -/

theorem groups_true_of_false {gs : List (List Char)} {ns : List ℕ}
    (h : groups false gs = some ns) : groups true gs = some ns := by
  induction gs generalizing ns with
  | nil => exact h
  | cons g gs ih =>
    obtain ⟨n, ms, hn, hms, rfl⟩ := groups_false_cons.1 h
    cases gs with
    | nil =>
      cases hms
      rw [groups, hn]
    | cons g' gs =>
      rw [groups_cons_cons, hn, ih hms]
      rfl

theorem splitOn_groups {dotted : Bool} {gs : List (List Char)} {ns : List ℕ}
    (h : groups dotted gs = some ns) (hne : gs ≠ []) :
    ([':'].intercalate gs).splitOn ':' = gs :=
  List.splitOn_intercalate ':' (colon_notMem_of_groups h) hne

theorem halfGroups_groups {dotted : Bool} {gs : List (List Char)} {ns : List ℕ}
    (h : groups dotted gs = some ns) : halfGroups dotted ([':'].intercalate gs) = some ns := by
  cases gs with
  | nil => exact h
  | cons g gs =>
    have hsplit := splitOn_groups h (List.cons_ne_nil g gs)
    have hne : [':'].intercalate (g :: gs) ≠ [] := by
      intro hnil
      rw [hnil] at hsplit
      exact ne_nil_of_groups h g List.mem_cons_self (List.cons.inj hsplit).1.symm
    rw [halfGroups, if_neg hne, hsplit, h]

/-- **Eight groups are an address.** -/
theorem ipv6_of_groups {gs : List (List Char)} {ns : List ℕ} (h : groups true gs = some ns)
    (hlength : ns.length = 8) : ipv6 ([':'].intercalate gs) = some (assemble 65536 ns) := by
  have hne : gs ≠ [] := by
    rintro rfl
    cases h
    cases hlength
  rw [ipv6, splitDouble_groups_none h]
  simp [splitOn_groups h hne, h, hlength]

/-- **Fewer groups around `::` are an address.** -/
theorem ipv6_of_double {ls rs : List (List Char)} {lns rns : List ℕ}
    (hls : groups false ls = some lns) (hrs : groups true rs = some rns)
    (hfits : lns.length + rns.length < 8) :
    ipv6 ([':'].intercalate ls ++ ':' :: ':' :: [':'].intercalate rs) =
      some (assemble 65536 (lns ++ List.replicate (8 - lns.length - rns.length) 0 ++ rns)) := by
  rw [ipv6, splitDouble_groups hls]
  simp [halfGroups_groups hls, halfGroups_groups hrs, hfits]

end Vigabss.Lib.IpText
