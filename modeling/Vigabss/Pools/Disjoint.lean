import Vigabss.Pools.Assignment

/-!
# Vigabss.Pools.Disjoint — what is handed out of a pool

The loops test the first address of a block against the excluded ranges, and its text against the
texts of the assignments.  What they hand out lies in the pool, and they refuse a request only when
nothing is free; but a block may hold excluded or assigned addresses behind its first one, and an
assignment may be written in another way.
-/

namespace Vigabss.Pools

open Vigabss.Lib
open Vigabss.Lib.IpText (Covers Plain assemble)
open Vigabss.RadiusServer (indexOfDoubleColon splitDoubleColon groupsOf)

/-! ### What texts and pools stand for -/

/-- The bits of an address. -/
def Version.width : Version → ℕ
  | .v4 => 32
  | .v6 => 128

/-- The address and the prefix length that an assignment's text writes, in any text form; the column
`prefix_len` is the length of an IPv6 address without one. -/
def Assignment.block (v : Version) (row : Assignment) : Option (ℕ × ℕ) :=
  match v with
  | .v4 => IpText.block 32 IpText.ipv4 none row.ip_address.toList
  | .v6 => IpText.block 128 IpText.ipv6 (row.prefix_len.map Fin.val) row.ip_address.toList

/-- An address belongs to an assignment. -/
def Assignment.Holds (v : Version) (row : Assignment) (a : ℕ) : Prop :=
  ∃ b, row.block v = some b ∧ Covers v.width b a

/-- An address that the pool may hand out: for IPv4, neither the network nor the broadcast address
nor the gateway. -/
def Pool.Usable (pool : Pool) (a : ℕ) : Prop :=
  match pool.ip_version with
  | .v4 => (parseIpv4Pool pool).1 < a ∧ a < (parseIpv4Pool pool).2 ∧ gatewayInt pool ≠ some a
  | .v6 => ∃ range, parseIpv6Pool pool = some range ∧ range.1 ≤ a ∧ a ≤ range.2

/-- An address that `excluded_ranges` names. -/
def Pool.Excluded (pool : Pool) (a : ℕ) : Prop :=
  match pool.ip_version with
  | .v4 => isIpv4Excluded a pool.excluded_ranges = true
  | .v6 => isIpv6Excluded a pool.excluded_ranges = true

/-- The length of what the pool hands out. -/
def Pool.len (pool : Pool) : Option ℕ :=
  match pool.ip_version with
  | .v4 => some 32
  | .v6 => pool.prefixLen.map Fin.val

/-- An address is excluded or assigned. -/
def Pool.Used (pool : Pool) (rows : List Assignment) (a : ℕ) : Prop :=
  pool.Excluded a ∨ ∃ row ∈ liveRows pool rows, row.Holds pool.ip_version a

/-- A block of usable addresses, none of them excluded or assigned. -/
def Pool.Free (pool : Pool) (rows : List Assignment) (b : ℕ × ℕ) : Prop :=
  ∀ a < 2 ^ pool.ip_version.width, Covers pool.ip_version.width b a →
    pool.Usable a ∧ ¬ pool.Used rows a

/-- What a call hands out was free, and it fails only if nothing is. -/
def Lawful (pool : Pool) (rows : List Assignment) (r : Request) : Prop :=
  match assignNextFreeIp pool rows r with
  | .ok row => ∃ b, row.block pool.ip_version = some b ∧ pool.Free rows b
  | .error _ => ∀ len, pool.len = some len → ∀ n < 2 ^ pool.ip_version.width,
      ¬ pool.Free rows (n, len)

/-- The loop of a pool. -/
def Pool.search (pool : Pool) : Option Search :=
  match pool.ip_version with
  | .v4 => some (ipv4Search pool)
  | .v6 => do
    let range ← parseIpv6Pool pool
    let len ← pool.prefixLen
    return ipv6Search pool range.1 range.2 len

/-- Some block of the pool is used in part: the loop would hand it out, since its first address is
neither excluded nor the gateway, and no live assignment is written as the block or as its first
address; but it holds an excluded or an assigned address. -/
def Pool.UsedInPart (pool : Pool) (rows : List Assignment) : Prop :=
  ∃ s len, pool.search = some s ∧ pool.len = some len ∧
    ∃ p, Place s.start s.stop s.step p ∧ s.offers pool rows p = true ∧
      ∃ a < 2 ^ pool.ip_version.width,
        Covers pool.ip_version.width (p % 2 ^ pool.ip_version.width, len) a ∧ pool.Used rows a

/-! ### Numbers and texts -/

theorem bigIntGroups_length (k n : ℕ) : (bigIntGroups k n).length = k := by
  induction k generalizing n with
  | zero => rfl
  | succ k ih => rw [bigIntGroups, List.length_append, ih, List.length_singleton]

theorem bigIntGroups_lt (k n : ℕ) : ∀ g ∈ bigIntGroups k n, g < 65536 := by
  induction k generalizing n with
  | zero =>
    intro g hg
    exact absurd hg List.not_mem_nil
  | succ k ih =>
    intro g hg
    rcases List.mem_append.1 hg with hinit | hlast
    · exact ih _ g hinit
    · rw [List.mem_singleton.1 hlast, show 0xffff = 2 ^ 16 - 1 from rfl,
        Nat.and_two_pow_sub_one_eq_mod]
      exact Nat.mod_lt _ (by omega)

theorem bigIntGroups_congr (k : ℕ) {p q : ℕ} (h : p % 2 ^ (16 * k) = q % 2 ^ (16 * k)) :
    bigIntGroups k p = bigIntGroups k q := by
  induction k generalizing p q with
  | zero => rfl
  | succ k ih =>
    rw [show 16 * (k + 1) = 16 + 16 * k by ring, pow_add, Nat.mod_mul, Nat.mod_mul] at h
    have hlow : p % 2 ^ 16 = q % 2 ^ 16 := by omega
    have hhigh : p / 2 ^ 16 % 2 ^ (16 * k) = q / 2 ^ 16 % 2 ^ (16 * k) := by omega
    rw [bigIntGroups, bigIntGroups, Nat.shiftRight_eq_div_pow, Nat.shiftRight_eq_div_pow,
      ih hhigh, show 0xffff = 2 ^ 16 - 1 from rfl, Nat.and_two_pow_sub_one_eq_mod,
      Nat.and_two_pow_sub_one_eq_mod, hlow]

theorem assemble_bigIntGroups (k n : ℕ) :
    assemble 65536 (bigIntGroups k n) = n % 2 ^ (16 * k) := by
  induction k generalizing n with
  | zero => simp [bigIntGroups, assemble, Nat.mod_one]
  | succ k ih =>
    have hfold : assemble 65536 (bigIntGroups (k + 1) n) =
        assemble 65536 (bigIntGroups k (n >>> 16)) * 65536 + (n &&& 0xffff) := by
      simp [assemble, bigIntGroups]
    rw [hfold, ih, show 0xffff = 2 ^ 16 - 1 from rfl, Nat.and_two_pow_sub_one_eq_mod,
      Nat.shiftRight_eq_div_pow, show 16 * (k + 1) = 16 + 16 * k by ring, pow_add,
      Nat.mod_mul]
    omega

theorem plain_bigIntToIpv6 (n : ℕ) : Plain (bigIntToIpv6 n) := by
  refine IpText.plain_intercalate ?_ ?_
  · intro c hc
    rw [List.mem_singleton.1 hc]
    decide
  · intro g hg
    obtain ⟨n, _, rfl⟩ := List.mem_map.1 hg
    exact IpText.plain_fullGroup n

/-- **The text of an IPv6 number** is read as the number, up to 128 bits. -/
theorem ipv6_bigIntToIpv6 (n : ℕ) : IpText.ipv6 (bigIntToIpv6 n) = some (n % 2 ^ 128) := by
  have hread := IpText.ipv6_fullGroups (bigIntGroups_length 8 n) (bigIntGroups_lt 8 n)
  rw [assemble_bigIntGroups] at hread
  exact hread

theorem plain_intToIpv4 (n : ℕ) : Plain (intToIpv4 n) := by
  refine IpText.plain_intercalate ?_ ?_
  · intro c hc
    rw [List.mem_singleton.1 hc]
    decide
  · intro g hg
    obtain ⟨n, _, rfl⟩ := List.mem_map.1 hg
    exact IpText.plain_toDigits n

/-- **The text of an IPv4 number** is read as the number. -/
theorem ipv4_intToIpv4 (n : ℕ) : IpText.ipv4 (intToIpv4 n) = some (n % 2 ^ 32) := by
  have hbyte : ∀ m, m &&& 0xff = m % 256 := fun m => Nat.and_two_pow_sub_one_eq_mod m 8
  have hread : IpText.ipv4 (intToIpv4 n) =
      some (assemble 256 [n >>> 24 &&& 0xff, n >>> 16 &&& 0xff, n >>> 8 &&& 0xff, n &&& 0xff]) := by
    refine IpText.ipv4_dotted rfl ?_
    intro m hm
    simp only [hbyte, List.mem_cons, List.not_mem_nil, or_false] at hm
    omega
  rw [hread]
  simp only [assemble, List.foldl_cons, List.foldl_nil, hbyte, Nat.shiftRight_eq_div_pow]
  congr 1
  omega

/-! ### Searches -/

/-- What a search has to do with addresses of a version: its texts are read as the blocks that they
are for, and its places are the blocks of usable addresses. -/
structure Search.Reads (s : Search) (pool : Pool) (len : ℕ) : Prop where
  step_eq : s.step = 2 ^ (pool.ip_version.width - len)
  step_dvd : s.step ∣ 2 ^ pool.ip_version.width
  candidate : ∀ p, ∀ row : Assignment, sameKey row.ip_address (s.candidate p) = true →
    row.block pool.ip_version = some (p % 2 ^ pool.ip_version.width, len)
  texts : ∀ p, ∀ t ∈ s.texts p, ∀ row : Assignment, row.ip_address = t →
    ∃ l, row.block pool.ip_version = some (p % 2 ^ pool.ip_version.width, l)
  congr : ∀ p q, p % 2 ^ pool.ip_version.width = q % 2 ^ pool.ip_version.width →
    s.candidate p = s.candidate q
  aligned : ∀ p, Place s.start s.stop s.step p → s.step ∣ p % 2 ^ pool.ip_version.width
  usable : ∀ p, Place s.start s.stop s.step p → s.barred p = false →
    ∀ a < 2 ^ pool.ip_version.width,
      Covers pool.ip_version.width (p % 2 ^ pool.ip_version.width, len) a → pool.Usable a
  complete : ∀ p < 2 ^ pool.ip_version.width, s.step ∣ p →
    (∀ a, p ≤ a → a < p + s.step → pool.Usable a ∧ ¬ pool.Excluded a) →
      Place s.start s.stop s.step p ∧ s.barred p = false

section Search

variable {s : Search} {pool : Pool} {len : ℕ}

theorem Search.Reads.covers_iff (h : s.Reads pool len) {l : ℕ} (hl : s.step ∣ l) (a : ℕ) :
    Covers pool.ip_version.width (l, len) a ↔ l ≤ a ∧ a < l + s.step := by
  rw [h.step_eq] at hl ⊢
  exact IpText.covers_iff hl

theorem Search.Reads.block_new (h : s.Reads pool len) (p : ℕ) (r : Request) :
    (newAssignment pool (s.candidate p) r).block pool.ip_version =
      some (p % 2 ^ pool.ip_version.width, len) :=
  h.candidate p _ (decide_eq_true rfl)

theorem liveRows_new (pool : Pool) (rows : List Assignment) (candidate : String) (r : Request) :
    liveRows pool (rows ++ [newAssignment pool candidate r]) =
      liveRows pool rows ++ [newAssignment pool candidate r] := by
  simp [liveRows, newAssignment, Assignment.live]

theorem Search.offers_iff (s : Search) (pool : Pool) (rows : List Assignment) (p : ℕ) :
    s.offers pool rows p = true ↔ s.barred p = false ∧
      (∀ row ∈ liveRows pool rows, row.ip_address ∉ s.texts p) ∧
      ∀ row ∈ liveRows pool rows, sameKey row.ip_address (s.candidate p) = false := by
  simp only [Search.offers, Bool.and_eq_true, Bool.not_eq_true', List.all_eq_true,
    decide_eq_true_eq, List.mem_map, not_exists, not_and, List.any_eq_false, Bool.not_eq_true,
    and_assoc]
  refine and_congr_right fun _ => and_congr_left fun _ => ?_
  constructor
  · intro h row hrow hmem
    exact h _ hmem row hrow rfl
  · intro h t ht row hrow heq
    exact h row hrow (heq ▸ ht)

/-- The allocator that a search is. -/
def Search.allocator (s : Search) (pool : Pool) : Allocator (List Assignment) Request ℕ where
  start := s.start
  stop := s.stop
  step := s.step
  step_pos := s.step_pos
  accept rows p := s.offers pool rows p
  label p := p % 2 ^ pool.ip_version.width
  take rows r p := rows ++ [newAssignment pool (s.candidate p) r]

/-- The addresses of a block that are neither excluded nor assigned. -/
def Pool.Clean (pool : Pool) (len : ℕ) (rows : List Assignment) (l : ℕ) : Prop :=
  ∀ a < 2 ^ pool.ip_version.width, Covers pool.ip_version.width (l, len) a → ¬ pool.Used rows a

theorem used_new (h : s.Reads pool len) (rows : List Assignment) (p : ℕ) (r : Request) (a : ℕ) :
    pool.Used (rows ++ [newAssignment pool (s.candidate p) r]) a ↔
      pool.Used rows a ∨
        Covers pool.ip_version.width (p % 2 ^ pool.ip_version.width, len) a := by
  have hnew : (newAssignment pool (s.candidate p) r).Holds pool.ip_version a ↔
      Covers pool.ip_version.width (p % 2 ^ pool.ip_version.width, len) a := by
    simp [Assignment.Holds, h.block_new p r]
  simp only [Pool.Used, liveRows_new, List.mem_append, List.mem_singleton, or_and_right,
    exists_or, exists_eq_left, hnew, or_assoc]

/-- **A search is an allocator of blocks**: what it inserts bars its own block, and leaves the
others as they are. -/
theorem Search.Reads.lawful (h : s.Reads pool len) :
    (s.allocator pool).Lawful (pool.Clean len) where
  accept_take rows r p q _ _ := by
    have hnew := h.block_new p r
    show s.offers pool (rows ++ [newAssignment pool (s.candidate p) r]) q = true ↔
      s.offers pool rows q = true ∧
        q % 2 ^ pool.ip_version.width ≠ p % 2 ^ pool.ip_version.width
    simp only [Search.offers_iff, liveRows_new, List.forall_mem_append, List.forall_mem_singleton]
    constructor
    · rintro ⟨hbarred, ⟨htexts, _⟩, hkeys, hkey⟩
      refine ⟨⟨hbarred, htexts, hkeys⟩, ?_⟩
      intro hlabel
      rw [h.congr q p hlabel] at hkey
      exact absurd (decide_eq_true rfl) (Bool.eq_false_iff.1 hkey)
    · rintro ⟨⟨hbarred, htexts, hkeys⟩, hlabel⟩
      refine ⟨hbarred, ⟨htexts, ?_⟩, hkeys, Bool.eq_false_iff.2 ?_⟩
      · intro hmem
        obtain ⟨l, hl⟩ := h.texts q _ hmem _ rfl
        rw [hnew, Option.some.injEq, Prod.mk.injEq] at hl
        exact hlabel hl.1.symm
      · intro hkey
        have hsame := h.candidate q _ hkey
        rw [hnew, Option.some.injEq, Prod.mk.injEq] at hsame
        exact hlabel hsame.1.symm
  clean_take rows r p q hp hq hlabel := by
    refine forall_congr' fun a => imp_congr_right fun ha => ?_
    refine imp_congr_right fun hcovers => not_congr ?_
    show pool.Used (rows ++ [newAssignment pool (s.candidate p) r]) a ↔ pool.Used rows a
    rw [used_new h]
    refine or_iff_left fun hother => hlabel ?_
    have hp' := h.aligned p hp
    have hq' := h.aligned q hq
    obtain ⟨hlow, hhigh⟩ := (h.covers_iff hq' a).1 hcovers
    obtain ⟨hlow', hhigh'⟩ := (h.covers_iff hp' a).1 hother
    -- two multiples of the step that are less than a step apart
    show q % 2 ^ pool.ip_version.width = p % 2 ^ pool.ip_version.width
    obtain ⟨i, hi⟩ := hp'
    obtain ⟨j, hj⟩ := hq'
    rw [hi] at hlow' hhigh' ⊢
    rw [hj] at hlow hhigh ⊢
    have hlt : s.step * j < s.step * (i + 1) := by
      rw [Nat.mul_succ]
      omega
    have hlt' : s.step * i < s.step * (j + 1) := by
      rw [Nat.mul_succ]
      omega
    have hij := Nat.lt_of_mul_lt_mul_left hlt
    have hji := Nat.lt_of_mul_lt_mul_left hlt'
    rw [show i = j by omega]

variable {rows : List Assignment} {r : Request} {message : String}

theorem Search.Reads.offers_of_clean (h : s.Reads pool len) {p : ℕ}
    (hp : p < 2 ^ pool.ip_version.width) (hbarred : s.barred p = false)
    (hclean : ¬ pool.Used rows p) : s.offers pool rows p = true := by
  have hmod := Nat.mod_eq_of_lt hp
  have hself : ∀ l, Covers pool.ip_version.width (p, l) p := fun _ => rfl
  refine (s.offers_iff pool rows p).2 ⟨hbarred, ?_, ?_⟩
  · intro row hrow hmem
    obtain ⟨l, hl⟩ := h.texts p _ hmem row rfl
    rw [hmod] at hl
    exact hclean (Or.inr ⟨row, hrow, _, hl, hself l⟩)
  · intro row hrow
    refine Bool.eq_false_iff.2 fun hkey => ?_
    have hblock := h.candidate p row hkey
    rw [hmod] at hblock
    exact hclean (Or.inr ⟨row, hrow, _, hblock, hself len⟩)

/-- A search that finds nothing leaves nothing free. -/
theorem Search.Reads.none_free (h : s.Reads pool len)
    (hnone : firstFit (s.offers pool rows) s.stop s.step s.step_pos s.start = none) {n : ℕ}
    (hn : n < 2 ^ pool.ip_version.width) : ¬ pool.Free rows (n, len) := by
  intro hfree
  have hpos := s.step_pos
  have hle : n / s.step * s.step ≤ n := Nat.div_mul_le_self n s.step
  have hdvd : s.step ∣ n / s.step * s.step := Dvd.intro_left _ rfl
  obtain ⟨blocks, hblocks⟩ := h.step_dvd
  have hend : n / s.step * s.step + s.step ≤ 2 ^ pool.ip_version.width := by
    have hlt : n / s.step < blocks := Nat.div_lt_of_lt_mul (hblocks ▸ hn)
    rw [hblocks, ← Nat.succ_mul, Nat.mul_comm s.step]
    exact Nat.mul_le_mul_right _ hlt
  -- the block begins at the multiple of its size below `n`
  have hsame : ∀ a, Covers pool.ip_version.width (n, len) a ↔
      Covers pool.ip_version.width (n / s.step * s.step, len) a := by
    intro a
    unfold IpText.Covers
    rw [← h.step_eq, Nat.mul_div_cancel _ hpos]
  have hall : ∀ a, n / s.step * s.step ≤ a → a < n / s.step * s.step + s.step →
      pool.Usable a ∧ ¬ pool.Used rows a := fun a hlow hhigh =>
    hfree a (lt_of_lt_of_le hhigh hend) ((hsame a).2 ((h.covers_iff hdvd a).2 ⟨hlow, hhigh⟩))
  obtain ⟨hplace, hbarred⟩ := h.complete _ (lt_of_le_of_lt hle hn) hdvd fun a hlow hhigh =>
    ⟨(hall a hlow hhigh).1, fun hexcluded => (hall a hlow hhigh).2 (Or.inl hexcluded)⟩
  have hoffers : s.offers pool rows (n / s.step * s.step) = true :=
    h.offers_of_clean (lt_of_le_of_lt hle hn) hbarred
      (hall _ le_rfl (Nat.lt_add_of_pos_right hpos)).2
  rw [firstFit_none hnone hplace] at hoffers
  exact absurd hoffers Bool.false_ne_true

theorem Search.Reads.lawful_iff (h : s.Reads pool len) (hlen : pool.len = some len)
    (hassign : assignNextFreeIp pool rows r = s.assign pool rows r message) :
    Lawful pool rows r ↔ ∀ p, (s.allocator pool).pick rows = some p →
      pool.Clean len rows ((s.allocator pool).label p) := by
  unfold Lawful
  rw [hassign, Search.assign]
  show _ ↔ ∀ p, firstFit (s.offers pool rows) s.stop s.step s.step_pos s.start = some p →
    pool.Clean len rows (p % 2 ^ pool.ip_version.width)
  cases hpick : firstFit (s.offers pool rows) s.stop s.step s.step_pos s.start with
  | none =>
    refine iff_of_true ?_ (fun p hp => (Option.some_ne_none p hp.symm).elim)
    intro len' hlen' n hn
    rw [hlen] at hlen'
    cases hlen'
    exact h.none_free hpick hn
  | some p =>
    obtain ⟨hplace, hoffers, _⟩ := firstFit_some hpick
    have hbarred := ((s.offers_iff pool rows p).1 hoffers).1
    constructor
    · rintro ⟨b, hb, hfree⟩ p' hp'
      cases hp'
      rw [h.block_new p r] at hb
      cases hb
      intro a ha hcovers
      exact (hfree a ha hcovers).2
    · intro hclean
      refine ⟨_, h.block_new p r, ?_⟩
      intro a ha hcovers
      exact ⟨h.usable p hplace hbarred a ha hcovers, hclean p rfl a ha hcovers⟩

theorem Search.next_eq (s : Search) (hassign : assignNextFreeIp pool rows r =
    s.assign pool rows r message) : (s.allocator pool).next rows r = assigned pool rows r := by
  have hpick : (s.allocator pool).pick rows =
      firstFit (s.offers pool rows) s.stop s.step s.step_pos s.start := rfl
  unfold Allocator.next assigned
  rw [hassign, Search.assign, hpick]
  cases firstFit (s.offers pool rows) s.stop s.step s.step_pos s.start with
  | none => rfl
  | some p => rfl

/-- **Requests answered by a search** are all lawful just when no block is used in part. -/
theorem Search.Reads.always_lawful_iff (h : s.Reads pool len) (hlen : pool.len = some len)
    (hassign : ∀ rows r, assignNextFreeIp pool rows r = s.assign pool rows r message)
    (rows : List Assignment) :
    (∀ rs r, Lawful pool (run (assigned pool) rows rs) r) ↔
      ∀ p, Place s.start s.stop s.step p → s.offers pool rows p = true →
        pool.Clean len rows (p % 2 ^ pool.ip_version.width) := by
  have hnext : (s.allocator pool).next = assigned pool := by
    funext rows r
    exact s.next_eq (hassign rows r)
  have hclean := h.lawful.always_clean_iff rows
  rw [hnext] at hclean
  refine Iff.trans ?_ hclean
  constructor
  · intro hall rs
    exact (h.lawful_iff hlen (hassign _ default)).1 (hall rs default)
  · intro hall rs r
    exact (h.lawful_iff hlen (hassign _ r)).2 (hall rs)

end Search

/-! ### The two loops -/

theorem parseIpv4Pool_lt (pool : Pool) : (parseIpv4Pool pool).2 < 2 ^ 32 := by
  unfold parseIpv4Pool ipv4Range
  split_ifs
  · exact BitVec.isLt _
  · exact BitVec.isLt _

/-- The IPv4 loop goes through the usable addresses. -/
theorem ipv4Search_reads {pool : Pool} (hv : pool.ip_version = .v4) :
    (ipv4Search pool).Reads pool 32 := by
  have hw : pool.ip_version.width = 32 := by
    rw [hv]
    rfl
  have hstop := parseIpv4Pool_lt pool
  have hread : ∀ p, ∀ row : Assignment,
      row.ip_address.toList.map Char.toLower = (intToIpv4 p).map Char.toLower →
        row.block pool.ip_version = some (p % 2 ^ pool.ip_version.width, 32) := by
    intro p row hrow
    rw [hw, hv, Assignment.block, IpText.block_congr hrow,
      IpText.block_address (plain_intToIpv4 p) (ipv4_intToIpv4 p)]
    rfl
  have hplace : ∀ p, Place (ipv4Search pool).start (ipv4Search pool).stop (ipv4Search pool).step p ↔
      (parseIpv4Pool pool).1 < p ∧ p < (parseIpv4Pool pool).2 := fun p =>
    ⟨fun h => ⟨h.1, h.2.1⟩, fun h => ⟨h.1, h.2, one_dvd _⟩⟩
  refine ⟨?_, one_dvd _, ?_, ?_, ?_, ?_, ?_, ?_⟩
  · rw [hw]
    rfl
  · intro p row hkey
    have hlower := of_decide_eq_true hkey
    rw [show (ipv4Search pool).candidate p = String.ofList (intToIpv4 p) from rfl,
      String.toList_ofList] at hlower
    exact hread p row hlower
  · intro p t ht row hrow
    refine ⟨32, hread p row ?_⟩
    rw [hrow, List.mem_singleton.1 ht, String.toList_ofList]
  · intro p q hpq
    rw [hw] at hpq
    have hbyte : ∀ m, m &&& 0xff = m % 256 := fun m => Nat.and_two_pow_sub_one_eq_mod m 8
    show String.ofList (intToIpv4 p) = String.ofList (intToIpv4 q)
    simp only [intToIpv4, hbyte, Nat.shiftRight_eq_div_pow]
    rw [show p / 2 ^ 24 % 256 = q / 2 ^ 24 % 256 by omega,
      show p / 2 ^ 16 % 256 = q / 2 ^ 16 % 256 by omega,
      show p / 2 ^ 8 % 256 = q / 2 ^ 8 % 256 by omega, show p % 256 = q % 256 by omega]
  · intro p _
    exact one_dvd _
  · intro p hp hbarred a ha hcovers
    obtain ⟨hlow, hhigh⟩ := (hplace p).1 hp
    simp only [ipv4Search, Bool.or_eq_false_iff, decide_eq_false_iff_not] at hbarred
    have hsame : a = p := by
      rw [hw] at ha hcovers
      simp only [IpText.Covers, Nat.sub_self, pow_zero, Nat.div_one] at hcovers
      rw [hcovers, Nat.mod_eq_of_lt (lt_trans hhigh hstop)]
    simp only [Pool.Usable, hv]
    rw [hsame]
    exact ⟨hlow, hhigh, hbarred.1⟩
  · intro p _ _ hall
    have hp := hall p le_rfl (Nat.lt_succ_self p)
    simp only [Pool.Usable, Pool.Excluded, hv, Bool.not_eq_true] at hp
    obtain ⟨⟨hlow, hhigh, hgateway⟩, hexcluded⟩ := hp
    refine ⟨(hplace p).2 ⟨hlow, hhigh⟩, ?_⟩
    simp only [ipv4Search, Bool.or_eq_false_iff, decide_eq_false_iff_not]
    exact ⟨hgateway, hexcluded⟩

/-! ### Masks -/

theorem land_natCast (x : ℤ) (m : ℕ) :
    ∃ n : ℕ, Int.land x m = n ∧ ∀ i, n.testBit i = true → m.testBit i = true := by
  rcases x with a | a
  · refine ⟨a &&& m, rfl, fun i hi => ?_⟩
    rw [Nat.testBit_and, Bool.and_eq_true] at hi
    exact hi.2
  · refine ⟨Nat.ldiff m a, rfl, fun i hi => ?_⟩
    rw [Nat.testBit_ldiff, Bool.and_eq_true] at hi
    exact hi.1

theorem shl1_sub_one (h : ℕ) : shl1 h - 1 = ((2 ^ h - 1 : ℕ) : ℤ) := by
  rw [shl1, if_pos (Int.natCast_nonneg h), Int.toNat_natCast]
  push_cast [Nat.one_le_two_pow]
  rfl

theorem mask_testBit (h : ℕ) :
    ∃ mask : ℕ, Int.land (Int.lnot (shl1 h - 1)) (shl1 128 - 1) = mask ∧
      ∀ i, mask.testBit i = true → h ≤ i ∧ i < 128 := by
  have hfull := shl1_sub_one 128
  refine ⟨Nat.ldiff (2 ^ 128 - 1) (2 ^ h - 1), ?_, ?_⟩
  · rw [shl1_sub_one, show shl1 128 - 1 = ((2 ^ 128 - 1 : ℕ) : ℤ) from hfull]
    rfl
  · intro i hi
    rw [Nat.testBit_ldiff, Nat.testBit_two_pow_sub_one, Nat.testBit_two_pow_sub_one] at hi
    simp only [Bool.and_eq_true, decide_eq_true_eq, Bool.not_eq_true', decide_eq_false_iff_not,
      not_lt] at hi
    exact ⟨hi.2, hi.1⟩

theorem dvd_of_testBit {h n : ℕ} (hn : ∀ i, n.testBit i = true → h ≤ i) : 2 ^ h ∣ n := by
  refine Nat.dvd_of_mod_eq_zero (Nat.eq_of_testBit_eq fun i => ?_)
  rw [Nat.testBit_mod_two_pow, Nat.zero_testBit, Bool.and_eq_false_iff, decide_eq_false_iff_not]
  by_cases hi : i < h
  · right
    refine Bool.eq_false_iff.2 fun hbit => ?_
    have hle := hn i hbit
    omega
  · exact Or.inl hi

/-- The bounds of an IPv6 network: a multiple of its size and the last address behind it, or nothing
at all for a prefix that is too long. -/
theorem ipv6Range_shape {entry : List Char} {nb bb : ℤ} (h : ipv6Range entry = some (nb, bb)) :
    (nb = 0 ∧ bb = -1) ∨ ∃ k m : ℕ, nb = (m * 2 ^ k : ℕ) ∧ bb + 1 = (m * 2 ^ k + 2 ^ k : ℕ) ∧
      (m * 2 ^ k + 2 ^ k ≤ 2 ^ 128 ∨ m = 0 ∧ 2 ^ 128 ≤ 2 ^ k) := by
  simp only [ipv6Range, Option.bind_eq_bind, Option.bind_eq_some_iff, Option.pure_def,
    Option.some.injEq, Prod.mk.injEq] at h
  obtain ⟨prefixLen, _, addrBig, _, rfl, rfl⟩ := h
  generalize 128 - prefixLen = hostBits
  by_cases hneg : hostBits < 0
  · left
    have hshl : shl1 hostBits = 0 := by
      rw [shl1, if_neg (by omega)]
    have hmask : Int.land (Int.lnot (0 - 1)) (shl1 128 - 1) = ((0 : ℕ) : ℤ) := by
      rw [show shl1 128 - 1 = ((2 ^ 128 - 1 : ℕ) : ℤ) from shl1_sub_one 128]
      rfl
    rw [if_neg (by omega), hshl, hmask]
    obtain ⟨n, hn, hbits⟩ := land_natCast addrBig 0
    have hzero : n = 0 := Nat.zero_of_testBit_eq_false fun i =>
      Bool.eq_false_iff.2 fun hi => by simpa using hbits i hi
    have hldiff : Nat.ldiff 0 0 = 0 := by simp [Nat.ldiff]
    rw [hn, hzero]
    refine ⟨rfl, ?_⟩
    show Int.negSucc (Nat.ldiff 0 0) = -1
    rw [hldiff]
    rfl
  · right
    obtain ⟨h, rfl⟩ := Int.eq_ofNat_of_zero_le (not_lt.1 hneg)
    obtain ⟨mask, hmask, hmaskbits⟩ : ∃ mask : ℕ,
        (if (h : ℤ) = 128 then 0 else Int.land (Int.lnot (shl1 h - 1)) (shl1 128 - 1)) = mask ∧
          ∀ i, mask.testBit i = true → h ≤ i ∧ i < 128 := by
      by_cases hfull : (h : ℤ) = 128
      · exact ⟨0, by rw [if_pos hfull]; rfl, fun i hi => by simp at hi⟩
      · rw [if_neg hfull]
        exact mask_testBit h
    obtain ⟨n, hn, hbits⟩ := land_natCast addrBig mask
    obtain ⟨m, hm⟩ := dvd_of_testBit fun i hi => (hmaskbits i (hbits i hi)).1
    have hlor : n ||| (2 ^ h - 1) = n + (2 ^ h - 1) := by
      rw [hm]
      exact (Nat.two_pow_add_eq_or_of_lt (Nat.sub_lt (Nat.two_pow_pos h) Nat.one_pos) m).symm
    have hpos := Nat.two_pow_pos h
    refine ⟨h, m, ?_, ?_, ?_⟩
    · rw [hmask, hn, hm, Nat.mul_comm]
    · rw [hmask, hn, shl1_sub_one]
      show ((n ||| (2 ^ h - 1) : ℕ) : ℤ) + 1 = _
      rw [hlor, Nat.mul_comm m, ← hm]
      omega
    · have hlt : n < 2 ^ 128 := Nat.lt_pow_two_of_testBit n fun i hi =>
        Bool.eq_false_iff.2 fun hbit => absurd (hmaskbits i (hbits i hbit)).2 (by omega)
      by_cases hle : h ≤ 128
      · left
        obtain ⟨j, hj⟩ := Nat.pow_dvd_pow 2 hle
        rw [hm, hj] at hlt
        rw [hj, Nat.mul_comm m, ← Nat.mul_succ]
        exact Nat.mul_le_mul_left _ (Nat.lt_of_mul_lt_mul_left hlt)
      · right
        have hlow : 2 ^ 128 < 2 ^ h := Nat.pow_lt_pow_right (by omega) (by omega)
        refine ⟨?_, hlow.le⟩
        rcases m with _ | m
        · rfl
        · rw [Nat.mul_succ] at hm
          omega

/-- The IPv6 loop goes through the blocks of the pool. -/
theorem ipv6Search_reads {pool : Pool} (hv : pool.ip_version = .v6) {nb bb : ℤ}
    (hparse : parseIpv6Pool pool = some (nb, bb)) (len : Fin 129) :
    (ipv6Search pool nb bb len).Reads pool len.val := by
  have hw : pool.ip_version.width = 128 := by
    rw [hv]
    rfl
  have hlen : len.val ≤ 128 := Nat.le_of_lt_succ len.isLt
  have hpos : 0 < 2 ^ (128 - len.val) := Nat.two_pow_pos _
  have hpow : 2 ^ (128 - len.val) ∣ 2 ^ 128 := Nat.pow_dvd_pow 2 (Nat.sub_le 128 len.val)
  have husable : ∀ a : ℕ, pool.Usable a ↔ nb ≤ a ∧ a ≤ bb := by
    intro a
    simp [Pool.Usable, hv, hparse]
  have hshape : (nb = 0 ∧ bb = -1) ∨ ∃ k m : ℕ, nb = (m * 2 ^ k : ℕ) ∧
      bb + 1 = (m * 2 ^ k + 2 ^ k : ℕ) ∧
      (m * 2 ^ k + 2 ^ k ≤ 2 ^ 128 ∨ m = 0 ∧ 2 ^ 128 ≤ 2 ^ k) := by
    unfold parseIpv6Pool at hparse
    split_ifs at hparse
    exact ipv6Range_shape hparse
  have hstep : ∀ k, 2 ^ (128 - len.val) ≤ 2 ^ k → 2 ^ (128 - len.val) ∣ 2 ^ k := fun k hk =>
    Nat.pow_dvd_pow 2 ((Nat.pow_le_pow_iff_right (by omega)).1 hk)
  -- a place is a multiple of the block size, and ends in the pool
  have haligned : ∀ p, Place (ipv6Search pool nb bb len).start (ipv6Search pool nb bb len).stop
      (ipv6Search pool nb bb len).step p → 2 ^ (128 - len.val) ∣ p ∧
        (p + 2 ^ (128 - len.val) ≤ 2 ^ 128 ∧ nb ≤ p ∧ ((p + 2 ^ (128 - len.val) : ℕ) : ℤ) ≤ bb + 1 ∨
          nb ≤ 0 ∧ 2 ^ 128 ≤ bb + 1) := by
    rintro p ⟨hlow, hhigh, hdvd⟩
    replace hlow : nb.toNat ≤ p := hlow
    replace hhigh : p + 2 ^ (128 - len.val) ≤ (bb + 1).toNat := hhigh
    replace hdvd : 2 ^ (128 - len.val) ∣ p - nb.toNat := hdvd
    rcases hshape with ⟨rfl, rfl⟩ | ⟨k, m, hnb, hbb, hbound⟩
    · omega
    · rw [hbb, Int.toNat_natCast] at hhigh
      rw [hnb, Int.toNat_natCast] at hlow hdvd
      have hstart : 2 ^ (128 - len.val) ∣ m * 2 ^ k :=
        Dvd.dvd.mul_left (hstep k (by omega)) m
      refine ⟨?_, ?_⟩
      · rw [← Nat.sub_add_cancel hlow]
        exact Nat.dvd_add hdvd hstart
      · rcases hbound with hbound | ⟨rfl, hbound⟩
        · left
          refine ⟨by omega, by omega, ?_⟩
          rw [hbb]
          exact_mod_cast hhigh
        · right
          rw [hnb, hbb, Nat.zero_mul, Nat.zero_add]
          exact ⟨le_rfl, by exact_mod_cast hbound⟩
  have hprefix : ∀ p, ∀ row : Assignment, row.ip_address.toList.map Char.toLower =
      (bigIntToIpv6 p ++ '/' :: Nat.toDigits 10 len.val).map Char.toLower →
        row.block pool.ip_version = some (p % 2 ^ pool.ip_version.width, len.val) := by
    intro p row hrow
    rw [hw, hv, Assignment.block, IpText.block_congr hrow,
      IpText.block_prefix (plain_bigIntToIpv6 p) (ipv6_bigIntToIpv6 p) hlen]
  refine ⟨?_, ?_, ?_, ?_, ?_, ?_, ?_, ?_⟩
  · rw [hw]
    rfl
  · rw [hw]
    exact hpow
  · intro p row hkey
    have hlower := of_decide_eq_true hkey
    rw [show (ipv6Search pool nb bb len).candidate p =
      String.ofList (bigIntToIpv6 p ++ '/' :: Nat.toDigits 10 len.val) from rfl,
      String.toList_ofList] at hlower
    exact hprefix p row hlower
  · intro p t ht row hrow
    rcases List.mem_pair.1 ht with rfl | rfl
    · refine ⟨len.val, hprefix p row ?_⟩
      rw [hrow, String.toList_ofList]
    · refine ⟨(row.prefix_len.map Fin.val).getD 128, ?_⟩
      rw [hw, hv, Assignment.block, hrow, String.toList_ofList,
        IpText.block_address (plain_bigIntToIpv6 p) (ipv6_bigIntToIpv6 p)]
  · intro p q hpq
    rw [hw] at hpq
    show String.ofList (bigIntToIpv6 p ++ _) = String.ofList (bigIntToIpv6 q ++ _)
    rw [bigIntToIpv6, bigIntToIpv6, bigIntGroups_congr 8 hpq]
  · intro p hp
    rw [hw]
    exact (Nat.dvd_mod_iff hpow).2 (haligned p hp).1
  · intro p hp _ a ha hcovers
    obtain ⟨hdvd, hbounds⟩ := haligned p hp
    rw [hw] at ha hcovers
    obtain ⟨hlow, hhigh⟩ := (IpText.covers_iff ((Nat.dvd_mod_iff hpow).2 hdvd)).1 hcovers
    refine (husable a).2 ?_
    rcases hbounds with ⟨hstop, hnb, hbb⟩ | ⟨hnb, hbb⟩
    · rw [Nat.mod_eq_of_lt (by omega)] at hlow hhigh
      omega
    · omega
  · intro p _ hdvd hall
    have hfirst := (husable p).1 (hall p le_rfl (Nat.lt_add_of_pos_right hpos)).1
    have hlast := (husable (p + (2 ^ (128 - len.val) - 1))).1
      (hall _ (Nat.le_add_right _ _) (Nat.add_lt_add_left (Nat.sub_lt hpos Nat.one_pos) p)).1
    have hbarred : (ipv6Search pool nb bb len).barred p = false := by
      have hexcluded := (hall p le_rfl (Nat.lt_add_of_pos_right hpos)).2
      simpa [Pool.Excluded, hv, ipv6Search] using hexcluded
    refine ⟨⟨?_, ?_, ?_⟩, hbarred⟩
    · show nb.toNat ≤ p
      omega
    · show p + 2 ^ (128 - len.val) ≤ (bb + 1).toNat
      omega
    · show 2 ^ (128 - len.val) ∣ p - nb.toNat
      rcases hshape with ⟨rfl, rfl⟩ | ⟨k, m, hnb, hbb, _⟩
      · omega
      · refine Nat.dvd_sub hdvd ?_
        rw [hnb, Int.toNat_natCast]
        exact Dvd.dvd.mul_left (hstep k (by omega)) m

/-! ### The law -/

theorem lawful_of_search_none {pool : Pool} (hnone : pool.search = none) (rows : List Assignment)
    (r : Request) : Lawful pool rows r := by
  cases hv : pool.ip_version with
  | v4 => simp [Pool.search, hv] at hnone
  | v6 =>
    cases hparse : parseIpv6Pool pool with
    | none =>
      simp only [Lawful, assignNextFreeIp, assignNextFreeIpv6Prefix, hv, hparse]
      intro len _ n hn hfree
      obtain ⟨range, hrange, _⟩ : ∃ range, parseIpv6Pool pool = some range ∧ _ := by
        have husable := (hfree n (by rwa [hv]) rfl).1
        simp only [Pool.Usable, hv] at husable
        exact husable
      rw [hparse] at hrange
      cases hrange
    | some range =>
      obtain ⟨nb, bb⟩ := range
      cases hlen : pool.prefixLen with
      | none =>
        simp only [Lawful, assignNextFreeIp, assignNextFreeIpv6Prefix, hv, hparse, hlen]
        intro len hsome
        rw [Pool.len, hv] at hsome
        simp only [hlen, Option.map_none] at hsome
        cases hsome
      | some len => simp [Pool.search, hv, hparse, hlen] at hnone

/-- **Requests to one pool**, whatever is excluded and assigned in it: they hand out nothing but
free blocks of the pool, and fail only if none is left, just when no block is used in part. -/
theorem assignments_lawful_iff (pool : Pool) (rows : List Assignment) :
    (∀ rs r, Lawful pool (run (assigned pool) rows rs) r) ↔ ¬ pool.UsedInPart rows := by
  have hiff : ∀ s len message, pool.search = some s → pool.len = some len → s.Reads pool len →
      (∀ rows r, assignNextFreeIp pool rows r = s.assign pool rows r message) →
      ((∀ rs r, Lawful pool (run (assigned pool) rows rs) r) ↔ ¬ pool.UsedInPart rows) := by
    intro s len message hsearch hlen hreads hassign
    rw [hreads.always_lawful_iff hlen hassign rows]
    constructor
    · rintro hclean ⟨s', len', hsearch', hlen', p, hplace, hoffers, a, ha, hcovers, hused⟩
      rw [hsearch] at hsearch'
      rw [hlen] at hlen'
      cases hsearch'
      cases hlen'
      exact hclean p hplace hoffers a ha hcovers hused
    · intro hpart p hplace hoffers a ha hcovers hused
      exact hpart ⟨s, len, hsearch, hlen, p, hplace, hoffers, a, ha, hcovers, hused⟩
  cases hsearch : pool.search with
  | none =>
    refine iff_of_true (fun rs r => lawful_of_search_none hsearch _ r) ?_
    rintro ⟨s, _, hs, _⟩
    rw [hsearch] at hs
    cases hs
  | some s =>
    cases hv : pool.ip_version with
    | v4 =>
      have hs : pool.search = some (ipv4Search pool) := by simp [Pool.search, hv]
      refine hiff (ipv4Search pool) 32 "No free IPv4 addresses available in pool" hs
        (by simp [Pool.len, hv]) (ipv4Search_reads hv) ?_
      intro rows r
      simp only [assignNextFreeIp, hv]
      rfl
    | v6 =>
      simp only [Pool.search, hv, Option.bind_eq_bind, Option.bind_eq_some_iff, Option.pure_def,
        Option.some.injEq] at hsearch
      obtain ⟨⟨nb, bb⟩, hparse, len, hlen, _⟩ := hsearch
      have hs : pool.search = some (ipv6Search pool nb bb len) := by
        simp [Pool.search, hv, hparse, hlen]
      refine hiff _ len.val "No free IPv6 prefixes available in pool" hs
        (by simp [Pool.len, hv, hlen]) (ipv6Search_reads hv hparse len) ?_
      intro rows r
      simp only [assignNextFreeIp, assignNextFreeIpv6Prefix, hv, hparse, hlen]

/-- A pool of blocks of length 56, with nothing excluded. -/
def delegationPool : Pool :=
  ⟨5, some 1, .v6, "fd00::/48", none, none, some ⟨56, by decide⟩, none⟩

/-- An address behind the first one of the pool's first block. -/
def staticAddress : Assignment :=
  ⟨5, some 1, "fd00::1:0:0:5", none, some 31, some 12, .static, .active, false⟩

theorem parse_delegationPool : parseIpv6Pool delegationPool =
    some (0xfd000000000000000000000000000000, 0xfd0000000000ffffffffffffffffffff) := by
  have hlen : JsText.parseInt 10 ['4', '8'] = some 48 :=
    JsText.parseInt_digits (by omega) (by decide) (by decide) (by decide)
  have hfirst : JsText.parseInt 16 ['f', 'd', '0', '0'] = some 0xfd00 :=
    JsText.parseInt_digits (by omega) (by decide) (by decide) (by decide)
  have hzero : JsText.parseInt 16 ['0', '0', '0', '0'] = some 0 :=
    JsText.parseInt_digits (by omega) (by decide) (by decide) (by decide)
  have haddr : ipv6ToBigInt ['f', 'd', '0', '0', ':', ':'] =
      some 0xfd000000000000000000000000000000 := by
    have hleft : splitDoubleColon ['f', 'd', '0', '0', ':', ':'] = (['f', 'd', '0', '0'], []) := by
      decide
    have hindex : (indexOfDoubleColon ['f', 'd', '0', '0', ':', ':']).isSome = true := by decide
    have hgroups : groupsOf ['f', 'd', '0', '0'] = [['f', 'd', '0', '0']] := by decide
    have hnone : groupsOf [] = [] := rfl
    simp only [ipv6ToBigInt, hindex, if_true, hleft, hgroups, hnone, List.length_cons,
      List.length_nil, zero_add, add_zero, Nat.not_ofNat_lt_one, if_false, Nat.add_one_sub_one,
      tsub_zero, List.replicate, List.cons_append, List.nil_append, Option.bind_eq_bind,
      Option.bind_some, List.foldlM_cons, reduceCtorEq, hfirst, Option.map_some, hzero,
      List.foldlM_nil, Option.pure_def, Option.some.injEq]
    decide +kernel
  have hsplit : JsText.split '/' "fd00::/48".toList =
      [['f', 'd', '0', '0', ':', ':'], ['4', '8']] := by decide
  have htrim : JsText.trim ['f', 'd', '0', '0', ':', ':'] = ['f', 'd', '0', '0', ':', ':'] := by
    decide
  have hslash : '/' ∈ "fd00::/48".toList := by decide
  show (if '/' ∈ "fd00::/48".toList then ipv6Range "fd00::/48".toList else none) = _
  rw [if_pos hslash, ipv6Range, hsplit]
  simp only [List.getD_cons_succ, List.getD_cons_zero, hlen, htrim, haddr, Option.bind_eq_bind,
    Option.bind_some, Option.pure_def]
  decide +kernel

/-- The first block is handed out over the static address in it. -/
theorem covering_block_assigned : ¬ Lawful delegationPool [staticAddress] default := by
  have hreads := ipv6Search_reads (show delegationPool.ip_version = .v6 from rfl)
    parse_delegationPool ⟨56, by decide⟩
  have hassign : assignNextFreeIp delegationPool [staticAddress] default =
      (ipv6Search delegationPool 0xfd000000000000000000000000000000
        0xfd0000000000ffffffffffffffffffff ⟨56, by decide⟩).assign delegationPool [staticAddress] default
        "No free IPv6 prefixes available in pool" := by
    show assignNextFreeIpv6Prefix delegationPool [staticAddress] default = _
    rw [assignNextFreeIpv6Prefix, parse_delegationPool]
    rfl
  have hblock : staticAddress.block .v6 = some (0xfd000000000000000001000000000005, 128) := by
    decide
  rw [hreads.lawful_iff rfl hassign]
  intro hclean
  refine hclean 0xfd000000000000000000000000000000 ?_ 0xfd000000000000000001000000000005
    (by decide) (by decide)
    (Or.inr ⟨staticAddress, by decide, _, hblock, rfl⟩)
  rw [Allocator.pick, firstFit, if_pos (by decide), if_pos (by decide)]
  rfl

end Vigabss.Pools
