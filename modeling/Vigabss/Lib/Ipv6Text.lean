import Vigabss.Lib.IpText

/-!
# Vigabss.Lib.Ipv6Text — the canonical text of an IPv6 address

The text that a URL host has: the groups in small hexadecimal digits without leading zeros, and
`::` for the first of the longest runs of two zero groups or more.  It is read back as the address
(`ipv6_canonicalText`), so two addresses with one canonical text are one.
-/

namespace Vigabss.Lib.IpText

open JsText (isDigit digitValue digitsValue)

/-! ### Places -/

/-- The lowest `k` digits of a number in a base, the highest of them first. -/
def places (base : ℕ) : ℕ → ℕ → List ℕ
  | 0, _ => []
  | k + 1, n => places base k (n / base) ++ [n % base]

@[simp] theorem length_places (base k n : ℕ) : (places base k n).length = k := by
  induction k generalizing n with
  | zero => rfl
  | succ k ih => rw [places, List.length_append, ih, List.length_singleton]

theorem lt_of_mem_places {base k n d : ℕ} (hbase : 0 < base) (h : d ∈ places base k n) :
    d < base := by
  induction k generalizing n with
  | zero => cases h
  | succ k ih =>
    rw [places, List.mem_append, List.mem_singleton] at h
    rcases h with h | rfl
    · exact ih h
    · exact Nat.mod_lt _ hbase

theorem assemble_append (base : ℕ) (ds : List ℕ) (d : ℕ) :
    assemble base (ds ++ [d]) = assemble base ds * base + d := by
  rw [assemble, List.foldl_append]
  rfl

/-- **Places are read back.** -/
theorem assemble_places (base k n : ℕ) : assemble base (places base k n) = n % base ^ k := by
  induction k generalizing n with
  | zero => rw [pow_zero, Nat.mod_one]; rfl
  | succ k ih =>
    rw [places, assemble_append, ih, pow_succ, Nat.mul_comm (base ^ k), Nat.mod_mul]
    ring

theorem assemble_lt {base : ℕ} {ds : List ℕ} (h : ∀ d ∈ ds, d < base) :
    assemble base ds < base ^ ds.length := by
  induction ds using List.reverseRecOn with
  | nil => exact Nat.one_pos
  | append_singleton ds d ih =>
    have hd := h d (by simp)
    have hds := ih fun x hx => h x (List.mem_append_left _ hx)
    rw [assemble_append, List.length_append, List.length_singleton, pow_succ]
    nlinarith

theorem assemble_append_list (base : ℕ) (as bs : List ℕ) :
    assemble base (as ++ bs) = assemble base as * base ^ bs.length + assemble base bs := by
  induction bs using List.reverseRecOn with
  | nil => simp [assemble]
  | append_singleton bs b ih =>
    rw [← List.append_assoc, assemble_append, ih, assemble_append, List.length_append,
      List.length_singleton, pow_succ]
    ring

theorem assemble_replicate_zero (base k : ℕ) : assemble base (List.replicate k 0) = 0 := by
  induction k with
  | zero => rfl
  | succ k ih => rw [List.replicate_succ', assemble_append, ih, zero_mul]

theorem places_assemble {base : ℕ} {ds : List ℕ} (h : ∀ d ∈ ds, d < base) :
    places base ds.length (assemble base ds) = ds := by
  induction ds using List.reverseRecOn with
  | nil => rfl
  | append_singleton ds d ih =>
    have hd := h d (by simp)
    have hbase : 0 < base := by omega
    have hrest := ih fun x hx => h x (List.mem_append_left _ hx)
    rw [assemble_append, List.length_append, List.length_singleton, places,
      Nat.mul_add_mod_of_lt hd, Nat.mul_comm, Nat.mul_add_div hbase, Nat.div_eq_of_lt hd,
      Nat.add_zero, hrest]

theorem places_zero (base k : ℕ) : places base k 0 = List.replicate k 0 := by
  induction k with
  | zero => rfl
  | succ k ih => rw [places, Nat.zero_div, Nat.zero_mod, ih, List.replicate_succ']

theorem places_add (base k l n : ℕ) :
    places base (k + l) n = places base k (n / base ^ l) ++ places base l n := by
  induction l generalizing n with
  | zero => simp [places]
  | succ l ih =>
    rw [← Nat.add_assoc, places, ih, places, ← List.append_assoc, Nat.div_div_eq_div_mul, pow_succ,
      Nat.mul_comm base]

theorem places_eq_map (base k n : ℕ) :
    places base k n = (List.range k).map fun j => n / base ^ (k - 1 - j) % base := by
  induction k generalizing n with
  | zero => rfl
  | succ k ih =>
    rw [places, ih, List.range_succ, List.map_append, List.map_singleton, Nat.add_sub_cancel,
      Nat.sub_self, pow_zero, Nat.div_one]
    congr 1
    refine List.map_congr_left fun j hj => ?_
    have hj := List.mem_range.1 hj
    rw [Nat.div_div_eq_div_mul, ← pow_succ', show k - 1 - j + 1 = k - j by omega]

theorem places_mod (base k n : ℕ) : places base k (n % base ^ k) = places base k n := by
  rw [places_eq_map, places_eq_map]
  refine List.map_congr_left fun j hj => ?_
  have hj := List.mem_range.1 hj
  have hpow : base ^ k = base ^ (k - 1 - j) * base ^ (j + 1) := by
    rw [← pow_add]
    congr 1
    omega
  rw [hpow, Nat.mod_mul_right_div_self, Nat.mod_mod_of_dvd _ (dvd_pow_self base (by omega))]

theorem take_drop_places (base a k l n : ℕ) :
    ((places base (a + k + l) n).drop a).take k = places base k (n / base ^ l) := by
  rw [places_add, places_add, List.append_assoc, List.drop_left' (length_places _ _ _),
    List.take_left' (length_places _ _ _)]

theorem padStart_toDigits {base : ℕ} (hbase : 1 < base) {k n : ℕ} (hn : n < base ^ (k + 1)) :
    JsText.padStart (k + 1) '0' (Nat.toDigits base n) =
      (places base (k + 1) n).map Nat.digitChar := by
  induction k generalizing n with
  | zero =>
    rw [Nat.zero_add, pow_one] at hn
    rw [Nat.toDigits_eq_if hbase, if_pos hn]
    simp [JsText.padStart, places, Nat.mod_eq_of_lt hn]
  | succ k ih =>
    rw [Nat.toDigits_eq_if hbase, places, List.map_append]
    split_ifs with hlt
    · rw [Nat.div_eq_of_lt hlt, Nat.mod_eq_of_lt hlt, places_zero, List.map_replicate]
      rfl
    · have hdiv : n / base < base ^ (k + 1) := by
        refine Nat.div_lt_of_lt_mul ?_
        rwa [Nat.mul_comm, ← pow_succ]
      rw [← ih hdiv, JsText.padStart, JsText.padStart, List.length_append, List.length_singleton,
        Nat.add_sub_add_right, List.append_assoc]
      rfl

theorem and_ones_shift {w k n : ℕ} (hn : n < 2 ^ w) :
    n &&& ((2 ^ w - 1) <<< k % 2 ^ w) = n / 2 ^ k * 2 ^ k := by
  refine Nat.eq_of_testBit_eq fun i => ?_
  rw [Nat.testBit_and, Nat.testBit_mod_two_pow, Nat.testBit_shiftLeft,
    Nat.testBit_two_pow_sub_one, Nat.mul_comm, Nat.testBit_two_pow_mul, Nat.testBit_div_two_pow]
  by_cases hi : i < w
  · by_cases hlow : k ≤ i
    · have hsub : i - k < w := by omega
      simp [hlow, hi, hsub]
    · simp [hlow]
  · have hbit : n.testBit i = false :=
      Nat.testBit_lt_two_pow (hn.trans_le (Nat.pow_le_pow_right (by omega) (by omega)))
    by_cases hlow : k ≤ i
    · simp [hbit, hlow, hi]
    · simp [hlow]

theorem ones_shift {w k : ℕ} (hk : k ≤ w) : (2 ^ w - 1) <<< k % 2 ^ w = 2 ^ w - 2 ^ k := by
  have hpos := Nat.two_pow_pos k
  have hle : 2 ^ k ≤ 2 ^ w := Nat.pow_le_pow_right (by omega) hk
  have hprod : (2 ^ w - 1) * 2 ^ k = 2 ^ w - 2 ^ k + 2 ^ w * (2 ^ k - 1) := by
    rw [Nat.sub_mul, Nat.mul_sub, Nat.one_mul, Nat.mul_one]
    have : 2 ^ w ≤ 2 ^ w * 2 ^ k := Nat.le_mul_of_pos_right _ hpos
    omega
  rw [Nat.shiftLeft_eq, hprod, Nat.add_mul_mod_self_left, Nat.mod_eq_of_lt (by omega)]

/-! ### Bounds of what is read -/

theorem digitsValue_eq_assemble (radix : ℕ) (digits : List Char) :
    digitsValue radix digits = assemble radix (digits.map digitValue) := by
  rw [digitsValue, assemble, List.foldl_map]

theorem digitsValue_cons (radix : ℕ) (c : Char) (digits : List Char) :
    digitsValue radix (c :: digits) =
      digitValue c * radix ^ digits.length + digitsValue radix digits := by
  have happend := assemble_append_list radix [digitValue c] (digits.map digitValue)
  rw [digitsValue_eq_assemble, digitsValue_eq_assemble, List.map_cons, ← List.singleton_append,
    happend, List.length_map]
  simp [assemble]

theorem digitsValue_lt {radix : ℕ} {digits : List Char} (h : digits.all (isDigit radix) = true) :
    digitsValue radix digits < radix ^ digits.length := by
  rw [digitsValue_eq_assemble, ← List.length_map digitValue]
  refine assemble_lt fun d hd => ?_
  obtain ⟨c, hc, rfl⟩ := List.mem_map.1 hd
  exact of_decide_eq_true (List.all_eq_true.1 h c hc)

theorem group_lt {g : List Char} {n : ℕ} (h : group g = some n) : n < 65536 := by
  rw [group] at h
  split_ifs at h with hg
  obtain rfl := Option.some.inj h
  calc digitsValue 16 g < 16 ^ g.length := digitsValue_lt hg.2.2
    _ ≤ 16 ^ 4 := Nat.pow_le_pow_right (by omega) hg.2.1

theorem octet_lt {g : List Char} {n : ℕ} (h : octet g = some n) : n < 256 := by
  rw [octet] at h
  split_ifs at h with hg
  obtain rfl := Option.some.inj h
  exact Nat.lt_succ_of_le hg.2.2.2

theorem forall₂_of_mapM_octet {gs : List (List Char)} {ns : List ℕ}
    (h : gs.mapM octet = some ns) : List.Forall₂ (fun g n => octet g = some n) gs ns := by
  induction gs generalizing ns with
  | nil =>
    obtain rfl := Option.some.inj h
    exact .nil
  | cons g gs ih =>
    rw [List.mapM_cons] at h
    cases hg : octet g with
    | none => rw [hg] at h; cases h
    | some m =>
      cases hgs : gs.mapM octet with
      | none => rw [hg, hgs] at h; cases h
      | some ms =>
        rw [hg, hgs] at h
        obtain rfl := Option.some.inj h
        exact .cons hg (ih hgs)

theorem exists_octets {text : List Char} {n : ℕ} (h : ipv4 text = some n) :
    ∃ ns, List.Forall₂ (fun g n => octet g = some n) (text.splitOn '.') ns ∧ ns.length = 4 ∧
      (∀ d ∈ ns, d < 256) ∧ n = assemble 256 ns := by
  have hlt : ∀ {gs : List (List Char)} {ns : List ℕ},
      List.Forall₂ (fun g n => octet g = some n) gs ns → ∀ d ∈ ns, d < 256 := by
    intro gs ns hns
    induction hns with
    | nil => exact fun _ hd => absurd hd List.not_mem_nil
    | cons hg _ ih =>
      intro d hd
      rcases List.mem_cons.1 hd with rfl | hd
      · exact octet_lt hg
      · exact ih d hd
  rw [ipv4] at h
  cases hoctets : (text.splitOn '.').mapM octet with
  | none => rw [hoctets] at h; cases h
  | some ns =>
    rw [hoctets] at h
    simp only [Option.bind_eq_bind, Option.bind_some] at h
    split_ifs at h with hfour
    have hns := forall₂_of_mapM_octet hoctets
    exact ⟨ns, hns, hfour, hlt hns, (Option.some.inj h).symm⟩

theorem ipv4_lt {text : List Char} {n : ℕ} (h : ipv4 text = some n) : n < 4294967296 := by
  obtain ⟨ns, -, hfour, hlt, rfl⟩ := exists_octets h
  have := assemble_lt hlt
  rwa [hfour] at this

theorem groups_lt {dotted : Bool} {gs : List (List Char)} {ns : List ℕ}
    (h : groups dotted gs = some ns) : ∀ n ∈ ns, n < 65536 := by
  induction gs generalizing ns with
  | nil =>
    obtain rfl := Option.some.inj h
    exact fun _ hn => absurd hn List.not_mem_nil
  | cons g gs ih =>
    cases gs with
    | nil =>
      rw [groups] at h
      cases hg : group g with
      | some m =>
        rw [hg] at h
        obtain rfl := Option.some.inj h
        intro n hn
        rw [List.mem_singleton.1 hn]
        exact group_lt hg
      | none =>
        rw [hg] at h
        dsimp only at h
        split_ifs at h
        obtain ⟨m, hm, rfl⟩ := Option.map_eq_some_iff.1 h
        have := ipv4_lt hm
        intro n hn
        rcases List.mem_pair.1 hn with rfl | rfl <;> omega
    | cons g' gs =>
      rw [groups] at h
      · cases hg : group g with
        | none => rw [hg] at h; cases h
        | some m =>
          cases hgs : groups dotted (g' :: gs) with
          | none => rw [hg, hgs] at h; cases h
          | some ms =>
            rw [hg, hgs] at h
            obtain rfl := Option.some.inj h
            intro n hn
            rcases List.mem_cons.1 hn with rfl | hn
            · exact group_lt hg
            · exact ih hgs n hn
      · exact fun hnil => absurd hnil (List.cons_ne_nil _ _)

theorem halfGroups_lt {dotted : Bool} {half : List Char} {ns : List ℕ}
    (h : halfGroups dotted half = some ns) : ∀ n ∈ ns, n < 65536 := by
  rw [halfGroups] at h
  split_ifs at h
  · obtain rfl := Option.some.inj h
    exact fun _ hn => absurd hn List.not_mem_nil
  · exact groups_lt h

/-- What is read is an address. -/
theorem ipv6_lt {text : List Char} {n : ℕ} (h : ipv6 text = some n) : n < 2 ^ 128 := by
  have hpow : (65536 : ℕ) ^ 8 = 2 ^ 128 := by norm_num
  rw [← hpow]
  unfold ipv6 at h
  cases hsplit : splitDouble text with
  | none =>
    rw [hsplit] at h
    cases hgroups : groups true (text.splitOn ':') with
    | none => rw [hgroups] at h; cases h
    | some ns =>
      rw [hgroups] at h
      simp only [Option.bind_eq_bind, Option.bind_some] at h
      split_ifs at h with height
      obtain rfl := Option.some.inj h
      have := assemble_lt (groups_lt hgroups)
      rwa [height] at this
  | some halves =>
    obtain ⟨left, right⟩ := halves
    rw [hsplit] at h
    cases hleft : halfGroups false left with
    | none => simp [hleft] at h
    | some ls =>
      cases hright : halfGroups true right with
      | none => simp [hleft, hright] at h
      | some rs =>
        simp only [hleft, hright, Option.bind_eq_bind, Option.bind_some] at h
        split_ifs at h with hfits
        obtain rfl := Option.some.inj h
        have hlt : ∀ d ∈ ls ++ List.replicate (8 - ls.length - rs.length) 0 ++ rs,
            d < 65536 := by
          intro d hd
          rw [List.mem_append, List.mem_append] at hd
          rcases hd with (hd | hd) | hd
          · exact halfGroups_lt hleft d hd
          · rw [List.eq_of_mem_replicate hd]
            omega
          · exact halfGroups_lt hright d hd
        have hlength : (ls ++ List.replicate (8 - ls.length - rs.length) 0 ++ rs).length = 8 := by
          rw [List.length_append, List.length_append, List.length_replicate]
          omega
        have := assemble_lt hlt
        rwa [hlength] at this

/-! ### Groups without leading zeros -/

/-- A group in as few digits as it takes. -/
def shortGroup (n : ℕ) : List Char := Nat.toDigits 16 n

/-- Groups between colons. -/
def joined (ns : List ℕ) : List Char := [':'].intercalate (ns.map shortGroup)

theorem shortGroup_ne_nil (n : ℕ) : shortGroup n ≠ [] := Nat.toDigits_ne_nil

theorem notMem_shortGroup {c : Char} (hc : 36 ≤ digitValue c) (n : ℕ) : c ∉ shortGroup n :=
  notMem_toDigits (by omega) (by omega) hc n

theorem group_shortGroup {n : ℕ} (hn : n < 65536) : group (shortGroup n) = some n := by
  have hvalue : digitsValue 16 (shortGroup n) = n := digitsValue_toDigits (by omega) (by omega) n
  rw [group, if_pos ?_, hvalue]
  exact ⟨shortGroup_ne_nil n, (Nat.length_toDigits_le_iff (by omega) (by omega)).2 hn,
    all_isDigit_toDigits (by omega) (by omega) n⟩

theorem groups_shortGroup {dotted : Bool} {ns : List ℕ} (hns : ∀ n ∈ ns, n < 65536) :
    groups dotted (ns.map shortGroup) = some ns := by
  induction ns with
  | nil => rfl
  | cons n ns ih =>
    have hn := group_shortGroup (hns n List.mem_cons_self)
    have hrest := ih fun m hm => hns m (List.mem_cons_of_mem _ hm)
    rcases ns with _ | ⟨m, ns⟩
    · simp [groups, hn]
    · rw [List.map_cons] at hrest
      simp [groups, hn, hrest]

theorem shortGroups_ne_nil (ns : List ℕ) : ∀ g ∈ ns.map shortGroup, g ≠ [] := by
  intro g hg
  obtain ⟨n, -, rfl⟩ := List.mem_map.1 hg
  exact shortGroup_ne_nil n

theorem colon_notMem_shortGroups (ns : List ℕ) : ∀ g ∈ ns.map shortGroup, ':' ∉ g := by
  intro g hg
  obtain ⟨n, -, rfl⟩ := List.mem_map.1 hg
  exact notMem_shortGroup (by decide) n

theorem splitOn_joined {ns : List ℕ} (hne : ns ≠ []) :
    (joined ns).splitOn ':' = ns.map shortGroup :=
  List.splitOn_intercalate ':' (colon_notMem_shortGroups ns) (by simpa using hne)

theorem joined_ne_nil {ns : List ℕ} (hne : ns ≠ []) : joined ns ≠ [] := by
  intro hnil
  have hsplit := splitOn_joined hne
  rw [hnil] at hsplit
  have hmem : [] ∈ ns.map shortGroup := by
    rw [← hsplit]
    exact List.mem_cons_self
  obtain ⟨n, -, hn⟩ := List.mem_map.1 hmem
  exact shortGroup_ne_nil n hn

theorem halfGroups_joined {dotted : Bool} {ns : List ℕ} (hns : ∀ n ∈ ns, n < 65536) :
    halfGroups dotted (joined ns) = some ns := by
  by_cases hnil : ns = []
  · subst hnil
    rfl
  · rw [halfGroups, if_neg (joined_ne_nil hnil), splitOn_joined hnil, groups_shortGroup hns]

/-- The first `::` behind groups. -/
theorem splitDouble_double {gs : List (List Char)} (hne : ∀ g ∈ gs, g ≠ [])
    (hcolon : ∀ g ∈ gs, ':' ∉ g) (rest : List Char) :
    splitDouble ([':'].intercalate gs ++ ':' :: ':' :: rest) =
      some ([':'].intercalate gs, rest) := by
  induction gs with
  | nil => rfl
  | cons g gs ih =>
    have hg := hcolon g List.mem_cons_self
    have hrest := ih (fun x hx => hne x (List.mem_cons_of_mem _ hx))
      fun x hx => hcolon x (List.mem_cons_of_mem _ hx)
    rcases gs with _ | ⟨g', gs⟩
    · rw [List.intercalate_singleton, splitDouble_append hg]
      simp [splitDouble]
    · obtain ⟨c, cs, hcs⟩ := List.exists_cons_of_ne_nil (hne g' (by simp))
      have hc : c ≠ ':' := by
        rintro rfl
        exact hcolon g' (by simp) (hcs ▸ List.mem_cons_self)
      have hstart : ∃ tail, [':'].intercalate (g' :: gs) ++ ':' :: ':' :: rest = c :: tail := by
        rcases gs with _ | ⟨g'', gs⟩
        · exact ⟨_, by rw [List.intercalate_singleton, hcs, List.cons_append]⟩
        · exact ⟨_, by rw [List.intercalate_cons_cons, hcs, List.append_assoc, List.append_assoc,
            List.cons_append]⟩
      obtain ⟨tail, htail⟩ := hstart
      rw [List.intercalate_cons_cons, List.append_assoc, List.append_assoc, splitDouble_append hg,
        List.singleton_append, splitDouble.eq_2 _ _ ?_, hrest]
      · simp
      · intro r _ hr
        rw [htail] at hr
        exact hc (List.cons.inj hr).1

theorem splitDouble_joined (ns : List ℕ) (rest : List Char) :
    splitDouble (joined ns ++ ':' :: ':' :: rest) = some (joined ns, rest) :=
  splitDouble_double (shortGroups_ne_nil ns) (colon_notMem_shortGroups ns) rest

theorem splitDouble_joined_none (ns : List ℕ) : splitDouble (joined ns) = none :=
  splitDouble_intercalate (shortGroups_ne_nil ns) (colon_notMem_shortGroups ns)

/-- **Eight groups are read.** -/
theorem ipv6_joined {ns : List ℕ} (hlength : ns.length = 8) (hns : ∀ n ∈ ns, n < 65536) :
    ipv6 (joined ns) = some (assemble 65536 ns) := by
  have hne : ns ≠ [] := by
    rintro rfl
    cases hlength
  rw [ipv6, splitDouble_joined_none]
  simp [splitOn_joined hne, groups_shortGroup hns, hlength]

/-- **Groups around `::` are read**, with zero groups between them. -/
theorem ipv6_double {ls rs : List ℕ} (hfits : ls.length + rs.length < 8)
    (hls : ∀ n ∈ ls, n < 65536) (hrs : ∀ n ∈ rs, n < 65536) :
    ipv6 (joined ls ++ ':' :: ':' :: joined rs) =
      some (assemble 65536 (ls ++ List.replicate (8 - ls.length - rs.length) 0 ++ rs)) := by
  rw [ipv6, splitDouble_joined]
  simp [halfGroups_joined hls, halfGroups_joined hrs, hfits]

/-! ### The longest run -/

/-- The run found and the longest run before it, start and length, go on along the flags; of runs
as long the first is kept. -/
def scanRuns : ℕ → ℕ × ℕ → ℕ × ℕ → List Bool → ℕ × ℕ
  | _, found, longest, [] => if longest.2 < found.2 then found else longest
  | index, found, longest, true :: flags =>
    scanRuns (index + 1) (if found.2 = 0 then (index, 1) else (found.1, found.2 + 1)) longest flags
  | index, found, longest, false :: flags =>
    scanRuns (index + 1) (0, 0) (if longest.2 < found.2 then found else longest) flags

/-- The first of the longest runs of two set flags or more; of length one where there is none. -/
def longestRun (flags : List Bool) : ℕ × ℕ := scanRuns 0 (0, 0) (0, 1) flags

/-- All flags of the run are set. -/
def Run (flags : List Bool) (run : ℕ × ℕ) : Prop :=
  ∀ i, run.1 ≤ i → i < run.1 + run.2 → flags[i]? = some true

theorem run_scanRuns {flags rest : List Bool} {index : ℕ} {found longest : ℕ × ℕ}
    (hrest : flags.drop index = rest) (hfound : Run flags found)
    (hend : found.2 = 0 ∨ found.1 + found.2 = index)
    (hlongest : 1 < longest.2 → Run flags longest) (hpos : 1 ≤ longest.2) :
    1 < (scanRuns index found longest rest).2 → Run flags (scanRuns index found longest rest) := by
  induction rest generalizing index found longest with
  | nil =>
    rw [scanRuns]
    split_ifs
    · exact fun _ => hfound
    · exact hlongest
  | cons flag rest ih =>
    have hnext : flags.drop (index + 1) = rest := by
      rw [← List.drop_drop, hrest]
      rfl
    have hflag : flags[index]? = some flag := by
      rw [← List.head?_drop, hrest]
      rfl
    cases flag with
    | true =>
      rw [scanRuns]
      refine ih hnext ?_ ?_ hlongest hpos
      · split_ifs with hnone
        · intro i hlow hhigh
          obtain rfl : i = index := by dsimp only at hlow hhigh; omega
          exact hflag
        · intro i hlow hhigh
          dsimp only at hlow hhigh
          by_cases hi : i < found.1 + found.2
          · exact hfound i hlow hi
          · obtain rfl : i = index := by omega
            exact hflag
      · right
        split_ifs
        · rfl
        · dsimp only
          omega
    | false =>
      rw [scanRuns]
      refine ih hnext ?_ (.inl rfl) ?_ ?_
      · intro i hlow hhigh
        dsimp only at hlow hhigh
        omega
      · split_ifs
        · exact fun _ => hfound
        · exact hlongest
      · split_ifs <;> omega

theorem run_longestRun (flags : List Bool) (h : 1 < (longestRun flags).2) :
    Run flags (longestRun flags) := by
  refine run_scanRuns rfl (fun i hlow hhigh => ?_) (.inl rfl) (fun hlt => ?_) le_rfl h
  · dsimp only at hlow hhigh
    omega
  · exact absurd hlt (by decide)

theorem eq_of_run {ns : List ℕ} {run : ℕ × ℕ} (h : Run (ns.map (· = 0)) run) (hpos : 0 < run.2) :
    ns = ns.take run.1 ++ List.replicate run.2 0 ++ ns.drop (run.1 + run.2) ∧
      run.1 + run.2 ≤ ns.length := by
  obtain ⟨start, len⟩ := run
  have hzero : ∀ i, start ≤ i → i < start + len → ns[i]? = some 0 := by
    intro i hlow hhigh
    have hflag := h i hlow hhigh
    rw [List.getElem?_map, Option.map_eq_some_iff] at hflag
    obtain ⟨n, hn, hzero⟩ := hflag
    rw [hn, of_decide_eq_true hzero]
  have hlength : start + len ≤ ns.length := by
    have hlast := hzero (start + len - 1) (by dsimp only at hpos; omega) (by omega)
    obtain ⟨hlt, -⟩ := List.getElem?_eq_some_iff.1 hlast
    omega
  refine ⟨?_, hlength⟩
  refine List.ext_getElem? fun i => ?_
  dsimp only
  rw [List.append_assoc, List.getElem?_append, List.getElem?_append, List.length_take,
    List.length_replicate, min_eq_left (by omega)]
  split_ifs with h1 h2
  · rw [List.getElem?_take_of_lt h1]
  · rw [List.getElem?_replicate_of_lt h2]
    exact hzero i (by omega) (by omega)
  · rw [List.getElem?_drop]
    congr 1
    omega

/-! ### The canonical text -/

/-- The canonical text of eight groups. -/
def canonicalGroups (ns : List ℕ) : List Char :=
  let run := longestRun (ns.map (· = 0))
  if 1 < run.2 then joined (ns.take run.1) ++ ':' :: ':' :: joined (ns.drop (run.1 + run.2))
  else joined ns

/-- The canonical text of an address. -/
def canonicalText (n : ℕ) : List Char := canonicalGroups (places 65536 8 n)

theorem ipv6_canonicalGroups {ns : List ℕ} (hlength : ns.length = 8) (hns : ∀ n ∈ ns, n < 65536) :
    ipv6 (canonicalGroups ns) = some (assemble 65536 ns) := by
  rw [canonicalGroups]
  split_ifs with hrun
  · obtain ⟨hcut, hle⟩ := eq_of_run (run_longestRun _ hrun) (by omega)
    generalize longestRun (ns.map (· = 0)) = run at hrun hcut hle
    have hzeros : 8 - (ns.take run.1).length - (ns.drop (run.1 + run.2)).length = run.2 := by
      rw [List.length_take, List.length_drop]
      omega
    rw [ipv6_double, hzeros, ← hcut]
    · rw [List.length_take, List.length_drop]
      omega
    · exact fun n hn => hns n (List.mem_of_mem_take hn)
    · exact fun n hn => hns n (List.mem_of_mem_drop hn)
  · exact ipv6_joined hlength hns

/-- **The canonical text is read back.** -/
theorem ipv6_canonicalText {n : ℕ} (hn : n < 2 ^ 128) : ipv6 (canonicalText n) = some n := by
  have hpow : (65536 : ℕ) ^ 8 = 2 ^ 128 := by norm_num
  rw [canonicalText, ipv6_canonicalGroups (length_places _ _ _)
    fun d hd => lt_of_mem_places (by omega) hd, assemble_places, hpow, Nat.mod_eq_of_lt hn]

theorem canonicalText_injective {m n : ℕ} (hm : m < 2 ^ 128) (hn : n < 2 ^ 128)
    (h : canonicalText m = canonicalText n) : m = n := by
  have hread := ipv6_canonicalText hm
  rw [h, ipv6_canonicalText hn] at hread
  exact (Option.some.inj hread).symm

theorem mem_joined {c : Char} {ns : List ℕ} (h : c ∈ joined ns) :
    c = ':' ∨ ∃ d < 16, c = Nat.digitChar d := by
  refine (mem_intercalate h).imp_right ?_
  rintro ⟨g, hg, hc⟩
  obtain ⟨n, -, rfl⟩ := List.mem_map.1 hg
  exact mem_toDigits (by omega) hc

theorem mem_canonicalText {c : Char} {n : ℕ} (h : c ∈ canonicalText n) :
    c = ':' ∨ ∃ d < 16, c = Nat.digitChar d := by
  rw [canonicalText, canonicalGroups] at h
  split_ifs at h
  · rcases List.mem_append.1 h with h | h
    · exact mem_joined h
    · rcases List.mem_cons.1 h with rfl | h
      · exact .inl rfl
      · rcases List.mem_cons.1 h with rfl | h
        · exact .inl rfl
        · exact mem_joined h
  · exact mem_joined h

/-! ### The characters of an address -/

theorem splitDouble_eq {text left right : List Char} (h : splitDouble text = some (left, right)) :
    text = left ++ ':' :: ':' :: right := by
  fun_induction splitDouble text generalizing left right with
  | case1 rest =>
    obtain ⟨rfl, rfl⟩ := Prod.mk.inj (Option.some.inj h)
    rfl
  | case2 c rest _ ih =>
    obtain ⟨halves, hhalves, heq⟩ := Option.map_eq_some_iff.1 h
    obtain ⟨rfl, rfl⟩ := Prod.mk.inj heq
    rw [List.cons_append, ← ih hhalves]
  | case3 => cases h

theorem mem_of_ipv4 {text : List Char} {n : ℕ} (h : ipv4 text = some n) {c : Char}
    (hc : c ∈ text) : c = '.' ∨ isDigit 16 c = true := by
  obtain ⟨ns, hns, -⟩ := exists_octets h
  have hdigit : ∀ {gs : List (List Char)} {ns : List ℕ},
      List.Forall₂ (fun g n => octet g = some n) gs ns → ∀ g ∈ gs, ∀ c ∈ g,
        isDigit 16 c = true := by
    intro gs ns hns g hg c hc
    induction hns with
    | nil => cases hg
    | cons hoctet _ ih =>
      rcases List.mem_cons.1 hg with rfl | hg
      · rw [octet] at hoctet
        split_ifs at hoctet with hform
        have hten : digitValue c < 10 := of_decide_eq_true (List.all_eq_true.1 hform.2.1 c hc)
        exact decide_eq_true (by omega)
      · exact ih hg
  have hjoin : ['.'].intercalate (text.splitOn '.') = text := List.intercalate_splitOn '.'
  rw [← hjoin] at hc
  refine (mem_intercalate hc).imp_right ?_
  rintro ⟨g, hg, hcg⟩
  exact hdigit hns g hg c hcg

theorem mem_of_group {g : List Char} {n : ℕ} (h : group g = some n) {c : Char} (hc : c ∈ g) :
    isDigit 16 c = true := by
  rw [group] at h
  split_ifs at h with hg
  exact List.all_eq_true.1 hg.2.2 c hc

theorem mem_of_groups {dotted : Bool} {gs : List (List Char)} {ns : List ℕ}
    (h : groups dotted gs = some ns) {g : List Char} (hg : g ∈ gs) {c : Char} (hc : c ∈ g) :
    c = '.' ∨ isDigit 16 c = true := by
  induction gs generalizing ns with
  | nil => cases hg
  | cons g' gs ih =>
    cases gs with
    | nil =>
      obtain rfl := List.mem_singleton.1 hg
      rw [groups] at h
      cases hgroup : group g with
      | some m => exact .inr (mem_of_group hgroup hc)
      | none =>
        rw [hgroup] at h
        dsimp only at h
        split_ifs at h
        obtain ⟨m, hm, -⟩ := Option.map_eq_some_iff.1 h
        exact mem_of_ipv4 hm hc
    | cons g'' gs =>
      rw [groups] at h
      · cases hgroup : group g' with
        | none => rw [hgroup] at h; cases h
        | some m =>
          cases hgs : groups dotted (g'' :: gs) with
          | none => rw [hgroup, hgs] at h; cases h
          | some ms =>
            rcases List.mem_cons.1 hg with rfl | hg
            · exact .inr (mem_of_group hgroup hc)
            · exact ih hgs hg
      · exact fun hnil => absurd hnil (List.cons_ne_nil _ _)

theorem mem_of_halfGroups {dotted : Bool} {half : List Char} {ns : List ℕ}
    (h : halfGroups dotted half = some ns) {c : Char} (hc : c ∈ half) :
    c = ':' ∨ c = '.' ∨ isDigit 16 c = true := by
  rw [halfGroups] at h
  split_ifs at h with hnil
  · rw [hnil] at hc
    cases hc
  · have hjoin : [':'].intercalate (half.splitOn ':') = half := List.intercalate_splitOn ':'
    rw [← hjoin] at hc
    refine (mem_intercalate hc).imp_right ?_
    rintro ⟨g, hg, hcg⟩
    exact mem_of_groups h hg hcg

theorem mem_of_ipv6 {text : List Char} {n : ℕ} (h : ipv6 text = some n) {c : Char}
    (hc : c ∈ text) : c = ':' ∨ c = '.' ∨ isDigit 16 c = true := by
  unfold ipv6 at h
  cases hsplit : splitDouble text with
  | none =>
    rw [hsplit] at h
    cases hgroups : groups true (text.splitOn ':') with
    | none => rw [hgroups] at h; cases h
    | some ns =>
      have hjoin : [':'].intercalate (text.splitOn ':') = text := List.intercalate_splitOn ':'
      rw [← hjoin] at hc
      refine (mem_intercalate hc).imp_right ?_
      rintro ⟨g, hg, hcg⟩
      exact mem_of_groups hgroups hg hcg
  | some halves =>
    obtain ⟨left, right⟩ := halves
    rw [hsplit] at h
    rw [splitDouble_eq hsplit] at hc
    cases hleft : halfGroups false left with
    | none => simp [hleft] at h
    | some ls =>
      cases hright : halfGroups true right with
      | none => simp [hleft, hright] at h
      | some rs =>
        rcases List.mem_append.1 hc with hc | hc
        · exact mem_of_halfGroups hleft hc
        · rcases List.mem_cons.1 hc with rfl | hc
          · exact .inl rfl
          · rcases List.mem_cons.1 hc with rfl | hc
            · exact .inl rfl
            · exact mem_of_halfGroups hright hc

end Vigabss.Lib.IpText
