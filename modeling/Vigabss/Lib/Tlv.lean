import Mathlib.Data.List.Basic
import Mathlib.Tactic.Ring

/-!
# Vigabss.Lib.Tlv — type, length, value

A sequence of records, each a type byte, a length byte that counts the whole record, and a value.
`parse` reads records until one does not fit.  A value of at most 253 bytes is read back
(`parse_encode_append`), and no longer value is ever read (`length_le_of_mem_parse`).
-/

namespace Vigabss.Lib

/-- The bytes of a buffer. -/
abbrev Bytes := List UInt8

namespace Tlv

/-- A record: what stands under a type. -/
structure Attr where
  type : UInt8
  value : Bytes
  deriving DecidableEq, Repr

/-- The bytes of a record.  The length byte wraps for a value that is too long. -/
def encode (a : Attr) : Bytes := a.type :: UInt8.ofNat (2 + a.value.length) :: a.value

/-- The records at the start of the bytes; a record that does not fit ends the reading. -/
def parse : Bytes → List Attr
  | t :: n :: rest =>
    if n.toNat < 2 ∨ rest.length + 2 < n.toNat then []
    else ⟨t, rest.take (n.toNat - 2)⟩ :: parse (rest.drop (n.toNat - 2))
  | _ => []
termination_by bs => bs.length

@[simp] theorem parse_nil : parse [] = [] := by rw [parse]; simp

theorem parse_cons (t n : UInt8) (rest : Bytes) :
    parse (t :: n :: rest) =
      if n.toNat < 2 ∨ rest.length + 2 < n.toNat then []
      else ⟨t, rest.take (n.toNat - 2)⟩ :: parse (rest.drop (n.toNat - 2)) := by
  rw [parse]

theorem toNat_length {n : ℕ} (h : n ≤ 253) : (UInt8.ofNat (2 + n)).toNat = 2 + n := by
  rw [UInt8.toNat_ofNat']
  omega

/-- **A record is read back**, and the reading goes on behind it. -/
theorem parse_encode_append {a : Attr} (h : a.value.length ≤ 253) (rest : Bytes) :
    parse (encode a ++ rest) = a :: parse rest := by
  rw [encode, List.cons_append, List.cons_append, parse_cons, toNat_length h, if_neg]
  · have hlen : 2 + a.value.length - 2 = a.value.length := by omega
    rw [hlen, List.take_left, List.drop_left]
  · rw [List.length_append]
    omega

/-- **A sequence of records is read back.** -/
theorem parse_flatMap_encode {as : List Attr} (h : ∀ a ∈ as, a.value.length ≤ 253) (rest : Bytes) :
    parse (as.flatMap encode ++ rest) = as ++ parse rest := by
  induction as with
  | nil => rfl
  | cons a as ih =>
    rw [List.flatMap_cons, List.append_assoc, parse_encode_append (h a List.mem_cons_self),
      ih fun b hb => h b (List.mem_cons_of_mem _ hb), List.cons_append]

theorem flatMap_encode_parse (bs : Bytes) : ∃ rest, bs = (parse bs).flatMap encode ++ rest := by
  induction bs using parse.induct with
  | case1 t n rest hbad =>
    rw [parse_cons, if_pos hbad]
    exact ⟨t :: n :: rest, rfl⟩
  | case2 t n rest hgood ih =>
    obtain ⟨tail, htail⟩ := ih
    rw [parse_cons, if_neg hgood, List.flatMap_cons]
    refine ⟨tail, ?_⟩
    rw [List.append_assoc, ← htail, encode]
    have hlen : UInt8.ofNat (2 + (rest.take (n.toNat - 2)).length) = n := by
      rw [List.length_take, Nat.min_eq_left (by omega),
        show 2 + (n.toNat - 2) = n.toNat by omega, UInt8.ofNat_toNat]
    rw [List.cons_append, List.cons_append, hlen, List.take_append_drop]
  | case3 bs hshort =>
    rw [parse]
    · exact ⟨bs, rfl⟩
    · exact hshort

theorem length_le_of_mem_parse {bs : Bytes} {a : Attr} (h : a ∈ parse bs) :
    a.value.length ≤ 253 := by
  induction bs using parse.induct with
  | case1 t n rest hbad =>
    rw [parse_cons, if_pos hbad] at h
    cases h
  | case2 t n rest hgood ih =>
    rw [parse_cons, if_neg hgood] at h
    rcases List.mem_cons.1 h with rfl | h
    · have := n.toNat_lt
      simp only [List.length_take]
      omega
    · exact ih h
  | case3 bs hshort =>
    rw [parse] at h
    · cases h
    · exact hshort

end Tlv

end Vigabss.Lib
