import Mathlib.Data.List.Range
import Vigabss.Lib.Ipv6Text

/-!
# Vigabss.Lib.Blocks — blocks of addresses, split and shared

A block is an address with a prefix length, and stands for the addresses that share its prefix.
`splits_range` splits one into equal blocks, and `share_iff` says when two have a common address.
-/

namespace Vigabss.Lib.IpText

/-- The first address of a block. -/
def first (width : ℕ) (b : ℕ × ℕ) : ℕ := b.1 / 2 ^ (width - b.2) * 2 ^ (width - b.2)

/-- Two blocks have an address in common. -/
def Share (width : ℕ) (b c : ℕ × ℕ) : Prop := ∃ a, Covers width b a ∧ Covers width c a

/-- Blocks that are a parent, in order and without a common address. -/
structure Splits (width : ℕ) (parent : ℕ × ℕ) (blocks : List (ℕ × ℕ)) : Prop where
  disjoint : blocks.Pairwise fun b c => ¬ Share width b c
  increasing : blocks.Pairwise fun b c => b.1 < c.1
  covers : ∀ a, (∃ b ∈ blocks, Covers width b a) ↔ Covers width parent a

theorem covers_iff_first {width : ℕ} {b : ℕ × ℕ} {a : ℕ} :
    Covers width b a ↔ first width b ≤ a ∧ a < first width b + 2 ^ (width - b.2) := by
  have hpos := Nat.two_pow_pos (width - b.2)
  rw [Covers, Nat.div_eq_iff hpos, first]
  omega

theorem covers_self (width : ℕ) (b : ℕ × ℕ) : Covers width b b.1 := rfl

theorem share_iff {width : ℕ} {b c : ℕ × ℕ} : Share width b c ↔
    first width b < first width c + 2 ^ (width - c.2) ∧
      first width c < first width b + 2 ^ (width - b.2) := by
  have hb := Nat.two_pow_pos (width - b.2)
  have hc := Nat.two_pow_pos (width - c.2)
  unfold Share
  simp only [covers_iff_first]
  constructor
  · rintro ⟨a, ha, ha'⟩
    omega
  · intro h
    exact ⟨max (first width b) (first width c), by omega⟩

theorem Share.symm {width : ℕ} {b c : ℕ × ℕ} (h : Share width b c) : Share width c b :=
  h.imp fun _ ha => ha.symm

/-- **Equal parts**: the blocks of a longer prefix, from the first address on, are the block. -/
theorem splits_range {width p s : ℕ} (hps : p ≤ s) (hs : s ≤ width) (n : ℕ) :
    Splits width (n, p) ((List.range (2 ^ (s - p))).map fun i =>
      (first width (n, p) + i * 2 ^ (width - s), s)) := by
  have hpos := Nat.two_pow_pos (width - s)
  have hpow : 2 ^ (width - p) = 2 ^ (s - p) * 2 ^ (width - s) := by
    rw [← Nat.pow_add]
    congr 1
    omega
  obtain ⟨k, hk⟩ : ∃ k, first width (n, p) = k * 2 ^ (width - s) :=
    ⟨n / 2 ^ (width - p) * 2 ^ (s - p), by rw [first, hpow, Nat.mul_assoc]⟩
  have hsize : 2 ^ (width - p) = 2 ^ (s - p) * 2 ^ (width - s) := hpow
  have hdiv : ∀ i a, Covers width (first width (n, p) + i * 2 ^ (width - s), s) a ↔
      a / 2 ^ (width - s) = k + i := by
    intro i a
    rw [Covers, hk, ← Nat.add_mul, Nat.mul_div_cancel _ hpos]
  refine ⟨?_, ?_, fun a => ?_⟩
  · rw [List.pairwise_map]
    refine List.pairwise_lt_range.imp fun {i j} hij => ?_
    rintro ⟨a, hi, hj⟩
    rw [hdiv] at hi hj
    omega
  · rw [List.pairwise_map]
    refine List.pairwise_lt_range.imp fun {i j} hij => ?_
    have := Nat.mul_lt_mul_of_pos_right hij hpos
    show first width (n, p) + i * 2 ^ (width - s) < first width (n, p) + j * 2 ^ (width - s)
    omega
  · have hparent : Covers width (n, p) a ↔ k ≤ a / 2 ^ (width - s) ∧
        a / 2 ^ (width - s) < k + 2 ^ (s - p) := by
      rw [covers_iff_first, hk, hsize, ← Nat.add_mul, Nat.le_div_iff_mul_le hpos,
        Nat.div_lt_iff_lt_mul hpos]
    rw [hparent]
    simp only [List.mem_map, List.mem_range]
    constructor
    · rintro ⟨_, ⟨i, hi, rfl⟩, hcover⟩
      rw [hdiv] at hcover
      omega
    · rintro ⟨hlow, hhigh⟩
      exact ⟨_, ⟨a / 2 ^ (width - s) - k, by omega, rfl⟩, (hdiv _ a).2 (by omega)⟩

theorem first_add_le {width p n : ℕ} (hp : p ≤ width) (hn : n < 2 ^ width) :
    first width (n, p) + 2 ^ (width - p) ≤ 2 ^ width := by
  have hpow : 2 ^ width = 2 ^ p * 2 ^ (width - p) := by
    rw [← Nat.pow_add]
    congr 1
    omega
  have hquot : n / 2 ^ (width - p) < 2 ^ p := by
    refine Nat.div_lt_of_lt_mul ?_
    rwa [Nat.mul_comm, ← hpow]
  show n / 2 ^ (width - p) * 2 ^ (width - p) + 2 ^ (width - p) ≤ 2 ^ width
  rw [hpow, ← Nat.succ_mul]
  exact Nat.mul_le_mul_right _ hquot

theorem part_lt {width p s n i : ℕ} (hps : p ≤ s) (hs : s ≤ width) (hn : n < 2 ^ width)
    (hi : i < 2 ^ (s - p)) : first width (n, p) + i * 2 ^ (width - s) < 2 ^ width := by
  have hpow : 2 ^ (width - p) = 2 ^ (s - p) * 2 ^ (width - s) := by
    rw [← Nat.pow_add]
    congr 1
    omega
  have hpart := Nat.mul_lt_mul_of_pos_right hi (Nat.two_pow_pos (width - s))
  have hend := first_add_le (hps.trans hs) hn
  omega

theorem Splits.parent_eq {width p : ℕ} {m n : ℕ} {blocks : List (ℕ × ℕ)}
    (hm : Splits width (m, p) blocks) (hn : Splits width (n, p) blocks) :
    m / 2 ^ (width - p) = n / 2 ^ (width - p) :=
  (hn.covers m).1 ((hm.covers m).2 (covers_self width (m, p)))

theorem Splits.congr {width p : ℕ} {m n : ℕ} {blocks : List (ℕ × ℕ)}
    (h : Splits width (m, p) blocks) (heq : m / 2 ^ (width - p) = n / 2 ^ (width - p)) :
    Splits width (n, p) blocks := by
  refine ⟨h.disjoint, h.increasing, fun a => ?_⟩
  rw [h.covers a, Covers, Covers, heq]

theorem block_length_le {width : ℕ} {address : List Char → Option ℕ} {length : Option ℕ}
    (hlength : length.getD width ≤ width) {text : List Char} {b : ℕ × ℕ}
    (h : block width address length text = some b) : b.2 ≤ width := by
  unfold block at h
  split at h
  · obtain ⟨n, -, rfl⟩ := Option.map_eq_some_iff.1 h
    exact hlength
  · simp only [Option.bind_eq_bind, Option.bind_eq_some_iff] at h
    obtain ⟨n, -, len, -, h⟩ := h
    split_ifs at h with hle
    cases h
    exact hle
  · cases h

/-! ### Digits of a prefix -/

theorem assemble_div {base : ℕ} (hbase : 0 < base) (as : List ℕ) {bs : List ℕ}
    (hbs : ∀ d ∈ bs, d < base) :
    assemble base (as ++ bs) / base ^ bs.length = assemble base as := by
  rw [assemble_append_list, Nat.add_comm, Nat.add_mul_div_right _ _ (Nat.pow_pos hbase),
    Nat.div_eq_of_lt (assemble_lt hbs), Nat.zero_add]

theorem assemble_mod {base : ℕ} (as : List ℕ) {bs : List ℕ} (hbs : ∀ d ∈ bs, d < base) :
    assemble base (as ++ bs) % base ^ bs.length = assemble base bs := by
  rw [assemble_append_list, Nat.add_comm, Nat.add_mul_mod_self_right,
    Nat.mod_eq_of_lt (assemble_lt hbs)]

theorem assemble_inj {base : ℕ} {as bs : List ℕ} (has : ∀ d ∈ as, d < base)
    (hbs : ∀ d ∈ bs, d < base) (hlength : as.length = bs.length) :
    assemble base as = assemble base bs ↔ as = bs := by
  refine ⟨fun h => ?_, congrArg _⟩
  rw [← places_assemble has, h, hlength, places_assemble hbs]

/-- **A prefix by its digits**: whole digits, and the first bits of one more. -/
theorem covers_digits {e k : ℕ} (hk : k ≤ e) (as ws bs : List ℕ) {d x : ℕ}
    (hds : ∀ d' ∈ as ++ d :: bs, d' < 2 ^ e) (hws : ∀ w ∈ ws ++ [x], w < 2 ^ e)
    (hlength : as.length = ws.length) {width len : ℕ}
    (hwidth : width = e * (as.length + 1 + bs.length)) (hlen : len = e * as.length + k) :
    Covers width (assemble (2 ^ e) (ws ++ x :: List.replicate bs.length 0), len)
      (assemble (2 ^ e) (as ++ d :: bs)) ↔
      as = ws ∧ d / 2 ^ (e - k) = x / 2 ^ (e - k) := by
  have hpow : 2 ^ (width - len) = (2 ^ e) ^ bs.length * 2 ^ (e - k) := by
    rw [← pow_mul, ← pow_add, hwidth, hlen]
    congr 1
    have : e * (as.length + 1 + bs.length) = e * as.length + e + e * bs.length := by ring
    omega
  have hsplit : 2 ^ e = 2 ^ k * 2 ^ (e - k) := by
    rw [← pow_add]
    congr 1
    omega
  have hdiv : ∀ {hs ts : List ℕ} {y : ℕ}, (∀ d' ∈ ts, d' < 2 ^ e) → ts.length = bs.length →
      assemble (2 ^ e) (hs ++ y :: ts) / 2 ^ (width - len) =
        assemble (2 ^ e) hs * 2 ^ k + y / 2 ^ (e - k) := by
    intro hs ts y hts hcount
    have happend : hs ++ y :: ts = (hs ++ [y]) ++ ts := by simp
    rw [hpow, ← Nat.div_div_eq_div_mul, ← hcount, happend,
      assemble_div (Nat.two_pow_pos e) _ hts, assemble_append]
    have hshift : assemble (2 ^ e) hs * 2 ^ e = assemble (2 ^ e) hs * 2 ^ k * 2 ^ (e - k) := by
      rw [Nat.mul_assoc, ← hsplit]
    rw [hshift, Nat.add_comm, Nat.add_mul_div_right _ _ (Nat.two_pow_pos _), Nat.add_comm]
  have hquot : ∀ y, y < 2 ^ e → y / 2 ^ (e - k) < 2 ^ k := by
    intro y hy
    rw [hsplit, Nat.mul_comm] at hy
    exact Nat.div_lt_of_lt_mul hy
  have hd := hquot d (hds d (by simp))
  have hx := hquot x (hws x (by simp))
  have has : ∀ a ∈ as, a < 2 ^ e := fun a ha => hds a (List.mem_append_left _ ha)
  have hws' : ∀ w ∈ ws, w < 2 ^ e := fun w hw => hws w (List.mem_append_left _ hw)
  rw [Covers, hdiv (fun b hb => hds b (by simp [hb])) rfl,
    hdiv (fun z hz => by rw [List.eq_of_mem_replicate hz]; exact Nat.two_pow_pos e)
      List.length_replicate, ← assemble_inj has hws' hlength]
  constructor
  · intro h
    have hmod := congrArg (· % 2 ^ k) h
    simp only [Nat.mul_add_mod_of_lt hd, Nat.mul_add_mod_of_lt hx] at hmod
    refine ⟨?_, hmod⟩
    rw [hmod] at h
    exact Nat.eq_of_mul_eq_mul_right (Nat.two_pow_pos k) (Nat.add_right_cancel h)
  · rintro ⟨h, h'⟩
    rw [h, h']

end Vigabss.Lib.IpText
