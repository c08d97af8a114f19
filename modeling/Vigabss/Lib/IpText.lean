import Vigabss.Lib.JsText

/-!
# Vigabss.Lib.IpText — the text forms of internet addresses

Readers of the text forms of IPv4 and IPv6 addresses, `::` and a dotted tail included, and of an
address with a prefix length.  A text that writes all groups out is read as the number of its
groups.
-/

namespace Vigabss.Lib.IpText

open JsText (isDigit digitValue digitsValue)

/-! ### Readers -/

/-- The number that has these digits. -/
def assemble (base : ℕ) (digits : List ℕ) : ℕ := digits.foldl (fun n d => n * base + d) 0

/-- A decimal octet without leading zeros. -/
def octet (g : List Char) : Option ℕ :=
  if g ≠ [] ∧ g.all (isDigit 10) ∧ (g.head? = some '0' → g = ['0']) ∧ digitsValue 10 g ≤ 255 then
    some (digitsValue 10 g)
  else none

/-- Four octets between dots. -/
def ipv4 (text : List Char) : Option ℕ := do
  let octets ← (text.splitOn '.').mapM octet
  if octets.length = 4 then some (assemble 256 octets) else none

/-- A group of one to four hexadecimal digits. -/
def group (g : List Char) : Option ℕ :=
  if g ≠ [] ∧ g.length ≤ 4 ∧ g.all (isDigit 16) then some (digitsValue 16 g) else none

/-- Groups, the last of which may be an IPv4 address. -/
def groups (dotted : Bool) : List (List Char) → Option (List ℕ)
  | [] => some []
  | [g] =>
    match group g with
    | some n => some [n]
    | none => if dotted then (ipv4 g).map fun n => [n / 65536, n % 65536] else none
  | g :: gs => do
    let n ← group g
    let ns ← groups dotted gs
    return n :: ns

/-- The texts before and behind the first `::`. -/
def splitDouble : List Char → Option (List Char × List Char)
  | ':' :: ':' :: rest => some ([], rest)
  | c :: rest => (splitDouble rest).map fun halves => (c :: halves.1, halves.2)
  | [] => none

/-- The groups of a half, none for an empty one. -/
def halfGroups (dotted : Bool) (half : List Char) : Option (List ℕ) :=
  if half = [] then some [] else groups dotted (half.splitOn ':')

/-- An IPv6 address, where `::` stands for one zero group or more. -/
def ipv6 (text : List Char) : Option ℕ :=
  match splitDouble text with
  | none => do
    let ns ← groups true (text.splitOn ':')
    if ns.length = 8 then some (assemble 65536 ns) else none
  | some (left, right) => do
    let ls ← halfGroups false left
    let rs ← halfGroups true right
    if ls.length + rs.length < 8 then
      some (assemble 65536 (ls ++ List.replicate (8 - ls.length - rs.length) 0 ++ rs))
    else none

/-- An address with a length behind a slash, or else with the length that is given; letters of
either case. -/
def block (width : ℕ) (address : List Char → Option ℕ) (length : Option ℕ) (text : List Char) :
    Option (ℕ × ℕ) :=
  match (text.map Char.toLower).splitOn '/' with
  | [a] => (address a).map fun n => (n, length.getD width)
  | [a, l] => do
    let n ← address a
    let len ← JsText.decimal l
    if len ≤ width then some (n, len) else none
  | _ => none

/-- The addresses that share the prefix of a block. -/
def Covers (width : ℕ) (b : ℕ × ℕ) (a : ℕ) : Prop :=
  a / 2 ^ (width - b.2) = b.1 / 2 ^ (width - b.2)

instance (width : ℕ) (b : ℕ × ℕ) (a : ℕ) : Decidable (Covers width b a) :=
  inferInstanceAs (Decidable (_ = _))

theorem covers_iff {width len l a : ℕ} (hl : 2 ^ (width - len) ∣ l) :
    Covers width (l, len) a ↔ l ≤ a ∧ a < l + 2 ^ (width - len) := by
  obtain ⟨k, rfl⟩ := hl
  have hpos := Nat.two_pow_pos (width - len)
  unfold Covers
  rw [Nat.mul_div_cancel_left k hpos, Nat.div_eq_iff hpos]
  have hcomm := Nat.mul_comm (2 ^ (width - len)) k
  constructor
  · rintro ⟨hlow, hhigh⟩
    omega
  · rintro ⟨hlow, hhigh⟩
    omega

/-! ### Digits -/

theorem digitValue_digitChar : ∀ d < 16, digitValue (Nat.digitChar d) = d := by decide

theorem toLower_digitChar : ∀ d < 16, (Nat.digitChar d).toLower = Nat.digitChar d := by decide

theorem digitsValue_append (radix : ℕ) (ds : List Char) (c : Char) :
    digitsValue radix (ds ++ [c]) = digitsValue radix ds * radix + digitValue c := by
  simp [digitsValue]

section Digits

variable {radix : ℕ} (hradix : 1 < radix) (hle : radix ≤ 16)
include hradix

theorem mem_toDigits {n : ℕ} {c : Char} (hc : c ∈ Nat.toDigits radix n) :
    ∃ d < radix, c = d.digitChar := by
  induction n using Nat.strong_induction_on with
  | _ n ih =>
    rw [Nat.toDigits_eq_if hradix] at hc
    split_ifs at hc with hlt
    · exact ⟨n, hlt, List.mem_singleton.1 hc⟩
    · rcases List.mem_append.1 hc with hinit | hlast
      · exact ih (n / radix) (Nat.div_lt_self (by omega) hradix) hinit
      · exact ⟨n % radix, Nat.mod_lt _ (by omega), List.mem_singleton.1 hlast⟩

theorem head_toDigits {n : ℕ} (h : (Nat.toDigits radix n).head? = some '0') : n = 0 := by
  induction n using Nat.strong_induction_on with
  | _ n ih =>
    rw [Nat.toDigits_eq_if hradix] at h
    split_ifs at h with hlt
    · exact Nat.digitChar_eq_zero.1 (Option.some.inj h)
    · rw [List.head?_append_of_ne_nil _ Nat.toDigits_ne_nil] at h
      have hzero := ih (n / radix) (Nat.div_lt_self (by omega) hradix) h
      rw [Nat.div_eq_zero_iff] at hzero
      omega

include hle

/-- **Digits are read back.** -/
theorem digitsValue_toDigits (n : ℕ) : digitsValue radix (Nat.toDigits radix n) = n := by
  induction n using Nat.strong_induction_on with
  | _ n ih =>
    rw [Nat.toDigits_eq_if hradix]
    split_ifs with hlt
    · simp [digitsValue, digitValue_digitChar n (lt_of_lt_of_le hlt hle)]
    · have hmod : n % radix < radix := Nat.mod_lt _ (by omega)
      rw [digitsValue_append, ih (n / radix) (Nat.div_lt_self (by omega) hradix),
        digitValue_digitChar _ (lt_of_lt_of_le hmod hle)]
      exact Nat.div_add_mod' n radix

theorem all_isDigit_toDigits (n : ℕ) : (Nat.toDigits radix n).all (isDigit radix) = true := by
  refine List.all_eq_true.2 fun c hc => ?_
  obtain ⟨d, hd, rfl⟩ := mem_toDigits hradix hc
  exact decide_eq_true (by rwa [digitValue_digitChar d (lt_of_lt_of_le hd hle)])

theorem notMem_toDigits {c : Char} (hc : 36 ≤ digitValue c) (n : ℕ) :
    c ∉ Nat.toDigits radix n := by
  intro hmem
  obtain ⟨d, hd, rfl⟩ := mem_toDigits hradix hmem
  rw [digitValue_digitChar d (lt_of_lt_of_le hd hle)] at hc
  omega

end Digits

theorem decimal_toDigits (n : ℕ) : JsText.decimal (Nat.toDigits 10 n) = some n := by
  rw [JsText.decimal, if_pos ⟨Nat.toDigits_ne_nil, all_isDigit_toDigits (by omega) (by omega) n⟩,
    digitsValue_toDigits (by omega) (by omega)]

/-! ### IPv4 -/

theorem octet_toDigits {n : ℕ} (hn : n ≤ 255) : octet (Nat.toDigits 10 n) = some n := by
  have hvalue := digitsValue_toDigits (show 1 < 10 by omega) (by omega) n
  rw [octet, if_pos ?_, hvalue]
  refine ⟨Nat.toDigits_ne_nil, all_isDigit_toDigits (by omega) (by omega) n, ?_, by omega⟩
  intro hzero
  rw [head_toDigits (by omega) hzero]
  rfl

theorem mapM_octet {ns : List ℕ} (hns : ∀ n ∈ ns, n ≤ 255) :
    (ns.map (Nat.toDigits 10)).mapM octet = some ns := by
  induction ns with
  | nil => rfl
  | cons n ns ih =>
    rw [List.map_cons, List.mapM_cons, octet_toDigits (hns n List.mem_cons_self),
      ih fun m hm => hns m (List.mem_cons_of_mem _ hm)]
    rfl

/-- **A dotted quad is read** as the number of its octets. -/
theorem ipv4_dotted {ns : List ℕ} (hlength : ns.length = 4) (hns : ∀ n ∈ ns, n ≤ 255) :
    ipv4 (['.'].intercalate (ns.map (Nat.toDigits 10))) = some (assemble 256 ns) := by
  have hsplit : (['.'].intercalate (ns.map (Nat.toDigits 10))).splitOn '.' =
      ns.map (Nat.toDigits 10) := by
    refine List.splitOn_intercalate '.' ?_ ?_
    · intro l hl
      obtain ⟨n, _, rfl⟩ := List.mem_map.1 hl
      exact notMem_toDigits (by omega) (by omega) (by decide) n
    · intro hnil
      rw [List.map_eq_nil_iff.1 hnil] at hlength
      cases hlength
  rw [ipv4, hsplit, mapM_octet hns]
  simp [hlength]

/-! ### IPv6 -/

/-- A group written out in four digits. -/
def fullGroup (n : ℕ) : List Char := JsText.padStart 4 '0' (Nat.toDigits 16 n)

theorem digitsValue_replicate (radix k : ℕ) (ds : List Char) :
    digitsValue radix (List.replicate k '0' ++ ds) = digitsValue radix ds := by
  induction k with
  | zero => rfl
  | succ k ih =>
    rw [List.replicate_succ, List.cons_append]
    show List.foldl _ (0 * radix + digitValue '0') _ = _
    rw [zero_mul, zero_add]
    exact ih

theorem mem_fullGroup {n : ℕ} {c : Char} (hc : c ∈ fullGroup n) : ∃ d < 16, c = d.digitChar := by
  rcases List.mem_append.1 hc with hpad | hdigit
  · exact ⟨0, by omega, List.eq_of_mem_replicate hpad⟩
  · exact mem_toDigits (by omega) hdigit

theorem notMem_fullGroup {c : Char} (hc : 36 ≤ digitValue c) (n : ℕ) : c ∉ fullGroup n := by
  intro hmem
  obtain ⟨d, hd, rfl⟩ := mem_fullGroup hmem
  rw [digitValue_digitChar d hd] at hc
  omega

theorem fullGroup_ne_nil (n : ℕ) : fullGroup n ≠ [] :=
  List.append_ne_nil_of_right_ne_nil _ Nat.toDigits_ne_nil

theorem group_fullGroup {n : ℕ} (hn : n < 65536) : group (fullGroup n) = some n := by
  have hlength : (Nat.toDigits 16 n).length ≤ 4 :=
    (Nat.length_toDigits_le_iff (by omega) (by omega)).2 hn
  have hvalue : digitsValue 16 (fullGroup n) = n := by
    rw [fullGroup, JsText.padStart, digitsValue_replicate,
      digitsValue_toDigits (by omega) (by omega)]
  rw [group, if_pos ?_, hvalue]
  refine ⟨fullGroup_ne_nil n, ?_, ?_⟩
  · rw [fullGroup, JsText.padStart, List.length_append, List.length_replicate]
    omega
  · refine List.all_eq_true.2 fun c hc => ?_
    obtain ⟨d, hd, rfl⟩ := mem_fullGroup hc
    exact decide_eq_true (by rwa [digitValue_digitChar d hd])

theorem groups_fullGroup {dotted : Bool} {ns : List ℕ} (hns : ∀ n ∈ ns, n < 65536) :
    groups dotted (ns.map fullGroup) = some ns := by
  induction ns with
  | nil => rfl
  | cons n ns ih =>
    have hn := group_fullGroup (hns n List.mem_cons_self)
    have hrest := ih fun m hm => hns m (List.mem_cons_of_mem _ hm)
    rcases ns with _ | ⟨m, ns⟩
    · simp [groups, hn]
    · rw [List.map_cons] at hrest
      simp [groups, hn, hrest]

theorem splitDouble_append {g : List Char} (hg : ':' ∉ g) (rest : List Char) :
    splitDouble (g ++ rest) = (splitDouble rest).map fun halves => (g ++ halves.1, halves.2) := by
  induction g with
  | nil => simp
  | cons c g ih =>
    have hc : c ≠ ':' := (List.ne_of_not_mem_cons hg).symm
    rw [List.cons_append, splitDouble.eq_2 _ _ (by intro r hr _; exact hc hr),
      ih (List.not_mem_of_not_mem_cons hg), Option.map_map]
    rfl

/-- Groups that are not empty make no `::`. -/
theorem splitDouble_intercalate {gs : List (List Char)} (hne : ∀ g ∈ gs, g ≠ [])
    (hcolon : ∀ g ∈ gs, ':' ∉ g) : splitDouble ([':'].intercalate gs) = none := by
  induction gs with
  | nil => rfl
  | cons g gs ih =>
    have hg := hcolon g List.mem_cons_self
    have hrest := ih (fun g' hg' => hne g' (List.mem_cons_of_mem _ hg'))
      (fun g' hg' => hcolon g' (List.mem_cons_of_mem _ hg'))
    rcases gs with _ | ⟨g', gs⟩
    · rw [List.intercalate_singleton, ← List.append_nil g, splitDouble_append hg]
      rfl
    · obtain ⟨c, cs, hcs⟩ := List.exists_cons_of_ne_nil (hne g' (by simp))
      have hc : c ≠ ':' := by
        rintro rfl
        exact hcolon g' (by simp) (hcs ▸ List.mem_cons_self)
      have hstart : ∃ rest, [':'].intercalate (g' :: gs) = c :: rest := by
        rcases gs with _ | ⟨g'', gs⟩
        · exact ⟨cs, by rw [List.intercalate_singleton, hcs]⟩
        · exact ⟨_, by rw [List.intercalate_cons_cons, hcs, List.append_assoc, List.cons_append]⟩
      obtain ⟨rest, hrest'⟩ := hstart
      rw [List.intercalate_cons_cons, List.append_assoc, splitDouble_append hg,
        List.singleton_append, splitDouble.eq_2 _ _ ?_, hrest]
      · rfl
      · intro r _ hr
        rw [hrest'] at hr
        exact hc (List.cons.inj hr).1

/-- **Eight full groups are read** as the number that they make. -/
theorem ipv6_fullGroups {ns : List ℕ} (hlength : ns.length = 8) (hns : ∀ n ∈ ns, n < 65536) :
    ipv6 ([':'].intercalate (ns.map fullGroup)) = some (assemble 65536 ns) := by
  have hcolon : ∀ g ∈ ns.map fullGroup, ':' ∉ g := by
    intro g hg
    obtain ⟨n, _, rfl⟩ := List.mem_map.1 hg
    exact notMem_fullGroup (by decide) n
  have hne : ∀ g ∈ ns.map fullGroup, g ≠ [] := by
    intro g hg
    obtain ⟨n, _, rfl⟩ := List.mem_map.1 hg
    exact fullGroup_ne_nil n
  have hsplit : ([':'].intercalate (ns.map fullGroup)).splitOn ':' = ns.map fullGroup := by
    refine List.splitOn_intercalate ':' hcolon ?_
    intro hnil
    rw [List.map_eq_nil_iff.1 hnil] at hlength
    cases hlength
  rw [ipv6, splitDouble_intercalate hne hcolon]
  simp [hsplit, groups_fullGroup hns, hlength]

/-! ### Blocks -/

theorem block_congr {width : ℕ} {address : List Char → Option ℕ} {length : Option ℕ}
    {text text' : List Char} (h : text.map Char.toLower = text'.map Char.toLower) :
    block width address length text = block width address length text' := by
  unfold block
  rw [h]

/-- Small letters, digits and signs, but no slash. -/
def Plain (text : List Char) : Prop := ∀ c ∈ text, c.toLower = c ∧ c ≠ '/'

theorem Plain.map_toLower {text : List Char} (h : Plain text) :
    text.map Char.toLower = text :=
  (List.map_congr_left fun c hc => (h c hc).1).trans (List.map_id _)

theorem Plain.notMem {text : List Char} (h : Plain text) : '/' ∉ text :=
  fun hmem => (h '/' hmem).2 rfl

theorem plain_of_digits {text : List Char} (h : ∀ c ∈ text, ∃ d < 16, c = Nat.digitChar d) :
    Plain text := by
  intro c hc
  obtain ⟨d, hd, rfl⟩ := h c hc
  refine ⟨toLower_digitChar d hd, ?_⟩
  rintro hslash
  have hvalue := digitValue_digitChar d hd
  rw [hslash] at hvalue
  have hslash : digitValue '/' = 36 := rfl
  omega

theorem plain_toDigits (n : ℕ) : Plain (Nat.toDigits 10 n) :=
  plain_of_digits fun _ hc =>
    (mem_toDigits (by omega) hc).imp fun _ hd => ⟨lt_trans hd.1 (by omega), hd.2⟩

theorem plain_fullGroup (n : ℕ) : Plain (fullGroup n) :=
  plain_of_digits fun _ hc => mem_fullGroup hc

theorem mem_intercalate {sep c : Char} {gs : List (List Char)} (h : c ∈ [sep].intercalate gs) :
    c = sep ∨ ∃ g ∈ gs, c ∈ g := by
  induction gs with
  | nil => exact absurd h List.not_mem_nil
  | cons g gs ih =>
    rcases gs with _ | ⟨g', gs⟩
    · rw [List.intercalate_singleton] at h
      exact .inr ⟨g, List.mem_cons_self, h⟩
    · rw [List.intercalate_cons_cons, List.append_assoc, List.mem_append, List.mem_append,
        List.mem_singleton] at h
      rcases h with hg | rfl | hrest
      · exact .inr ⟨g, List.mem_cons_self, hg⟩
      · exact .inl rfl
      · refine (ih hrest).imp_right ?_
        rintro ⟨l, hl, hc⟩
        exact ⟨l, List.mem_cons_of_mem _ hl, hc⟩

theorem plain_intercalate {sep : Char} (hsep : Plain [sep]) {gs : List (List Char)}
    (hgs : ∀ g ∈ gs, Plain g) : Plain ([sep].intercalate gs) := by
  intro c hc
  rcases mem_intercalate hc with rfl | ⟨g, hg, hmem⟩
  · exact hsep c List.mem_cons_self
  · exact hgs g hg c hmem

theorem block_address {width : ℕ} {address : List Char → Option ℕ} {length : Option ℕ}
    {text : List Char} {n : ℕ} (htext : Plain text) (haddress : address text = some n) :
    block width address length text = some (n, length.getD width) := by
  have hsplit : (['/'].intercalate [text]).splitOn '/' = [text] :=
    List.splitOn_intercalate '/' (fun l hl => List.mem_singleton.1 hl ▸ htext.notMem)
      (List.cons_ne_nil _ _)
  rw [List.intercalate_singleton] at hsplit
  rw [block, htext.map_toLower, hsplit]
  simp [haddress]

theorem block_prefix {width : ℕ} {address : List Char → Option ℕ} {length : Option ℕ}
    {text : List Char} {n len : ℕ} (htext : Plain text) (haddress : address text = some n)
    (hlen : len ≤ width) :
    block width address length (text ++ '/' :: Nat.toDigits 10 len) = some (n, len) := by
  have hsplit : (['/'].intercalate [text, Nat.toDigits 10 len]).splitOn '/' =
      [text, Nat.toDigits 10 len] := by
    refine List.splitOn_intercalate '/' ?_ (List.cons_ne_nil _ _)
    intro l hl
    rcases List.mem_pair.1 hl with rfl | rfl
    · exact htext.notMem
    · exact (plain_toDigits len).notMem
  rw [List.intercalate_cons_cons, List.intercalate_singleton, List.append_assoc,
    List.singleton_append] at hsplit
  have hmap : (text ++ '/' :: Nat.toDigits 10 len).map Char.toLower =
      text ++ '/' :: Nat.toDigits 10 len := by
    rw [List.map_append, List.map_cons, htext.map_toLower, (plain_toDigits len).map_toLower]
    rfl
  rw [block, hmap, hsplit]
  simp [haddress, decimal_toDigits, hlen]

end Vigabss.Lib.IpText
