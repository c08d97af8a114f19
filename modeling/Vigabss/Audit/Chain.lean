import Mathlib.Data.List.Sort
import Vigabss.Lib.HashChain
import Vigabss.Lib.Json
import Vigabss.Lib.Paging
import Vigabss.Lib.Run

/-!
# Vigabss.Audit.Chain — the audit log and its hash chains

The insert trigger of `audit_logs`, which chains the rows of each organization and the install-wide
rows by hash, and `verifyAuditChain`, which walks one chain in pages.  SHA-256 and the text of
`JSON_ARRAY` are parameters.
-/

namespace Vigabss.Audit

open Vigabss.Lib

/-! ### The table -/

/-- The hashed fields of a row beside its place in the chain. -/
structure Entry where
  organization_id : Option ℕ
  user_id : Option ℕ
  action : String
  entity_type : String
  entity_id : Option ℕ
  summary : Option String
  old_values : Option String
  new_values : Option String
  ip_address : Option String
  user_agent : Option String
  created_at : ℤ
  deriving DecidableEq, Repr

variable (η : Type*)

/-- A row of `audit_logs`; rows of before the chain have no place in it. -/
structure AuditLog where
  id : ℕ
  entry : Entry
  chain_seq : Option ℕ
  prev_hash : Option η
  row_hash : Option η
  deriving DecidableEq, Repr

/-- A row of `audit_log_chain`. -/
structure Head where
  last_seq : ℕ
  last_hash : Option η
  deriving DecidableEq, Repr

/-- The two tables; the key of the install-wide chain is `none`, for `chain_key` 0. -/
structure Store where
  audit_logs : List (AuditLog η)
  audit_log_chain : Option ℕ → Option (Head η)

variable {η}

/-- The arguments of `JSON_ARRAY`, with the array's text and the digest of a text. -/
structure Hashing (η : Type*) where
  jsonArray : Option η → ℕ → Entry → String
  sha2 : String → η
  genesis : η

/-- What is taken from SHA-256 and from the text: neither collides. -/
structure Hashing.Injective (c : Hashing η) : Prop where
  jsonArray : ∀ prev seq entry prev' seq' entry',
    c.jsonArray prev seq entry = c.jsonArray prev' seq' entry' →
      prev = prev' ∧ seq = seq' ∧ entry = entry'
  sha2 : Function.Injective c.sha2

variable (c : Hashing η)

/-- `audit_log_row_hash`. -/
def Hashing.audit_log_row_hash (prev_hash : Option η) (chain_seq : ℕ) (entry : Entry) : Option η :=
  some (c.sha2 (c.jsonArray prev_hash chain_seq entry))

/-! ### The trigger -/

/-- The row that `trg_audit_logs_chain_bi` makes of an insert. -/
def chainedRow (id : ℕ) (head : Head η) (entry : Entry) : AuditLog η where
  id := id
  entry := entry
  chain_seq := some (head.last_seq + 1)
  prev_hash := head.last_hash
  row_hash := c.audit_log_row_hash head.last_hash (head.last_seq + 1) entry

/-- The head of a chain, which the trigger creates where there is none. -/
def Store.headOf (s : Store η) (org : Option ℕ) : Head η :=
  (s.audit_log_chain org).getD ⟨0, some c.genesis⟩

/-- An insert into `audit_logs`. -/
def Store.insert (s : Store η) (entry : Entry) : Store η :=
  let row := chainedRow c s.audit_logs.length (s.headOf c entry.organization_id) entry
  { audit_logs := s.audit_logs ++ [row]
    audit_log_chain := Function.update s.audit_log_chain entry.organization_id
      (some ⟨(s.headOf c entry.organization_id).last_seq + 1, row.row_hash⟩) }

/-- The tables when the chain begins. -/
def empty : Store η := ⟨[], fun _ => none⟩

/-- The tables after a run of inserts, by any organizations. -/
def inserted (entries : List Entry) : Store η := run (Store.insert c) empty entries

/-! ### The verification -/

section Verification

variable [DecidableEq η]

def BATCH : ℕ := 5000

def MAX_PROBLEMS : ℕ := 100

theorem BATCH_pos : 0 < BATCH := Nat.succ_pos _

/-- A problem that is reported. -/
structure Problem where
  id : Option ℕ
  chain_seq : ℕ
  problem : String
  deriving DecidableEq, Repr

/-- The variables of the walk. -/
structure Walk (η : Type*) where
  checked : ℕ
  previousSeq : ℕ
  previousHash : Option η
  problems : List Problem

/-- `Number(row.chain_seq)`. -/
def AuditLog.seq (row : AuditLog η) : ℕ := row.chain_seq.getD 0

/-- The chained rows of an organization, or the install-wide ones, by their place in the chain. -/
def chained (org : Option ℕ) (rows : List (AuditLog η)) : List (AuditLog η) :=
  (rows.filter fun r => r.entry.organization_id = org ∧ r.chain_seq.isSome).insertionSort
    fun a b => a.seq ≤ b.seq

/-- `report`, which keeps the first hundred problems. -/
def Walk.report (w : Walk η) (id : Option ℕ) (seq : ℕ) (problem : String) : Walk η :=
  if w.problems.length < MAX_PROBLEMS then
    { w with problems := w.problems ++ [⟨id, seq, problem⟩] }
  else w

/-- `report`, where something is wrong. -/
def Walk.check (w : Walk η) (row : AuditLog η) (wrong : Bool) (problem : String) : Walk η :=
  if wrong then w.report (some row.id) row.seq problem else w

/-- `audit_log_row_hash` of a row as it is. -/
def AuditLog.expected_hash (row : AuditLog η) : Option η :=
  c.audit_log_row_hash row.prev_hash row.seq row.entry

/-- One row of the walk. -/
def Walk.row (w : Walk η) (row : AuditLog η) : Walk η :=
  let checked := ((w.check row (row.seq ≠ w.previousSeq + 1)
    s!"missing rows {w.previousSeq + 1}–{row.seq - 1}").check row (row.prev_hash ≠ w.previousHash)
    "prev_hash does not match the previous row").check row (row.row_hash ≠ row.expected_hash c)
    "row content does not match its hash"
  { checked with
    previousSeq := row.seq
    previousHash := row.row_hash
    checked := w.checked + 1 }

/-- The walk through the pages of a chain. -/
def walk (org : Option ℕ) (rows : List (AuditLog η)) : Walk η :=
  (readPages AuditLog.seq BATCH BATCH_pos (chained org rows) 0).foldl (Walk.row c)
    ⟨0, 0, some c.genesis, []⟩

/-- The test of the head against the newest row. -/
def Walk.head (w : Walk η) : Option (Head η) → Walk η
  | some head =>
    if head.last_seq ≠ w.previousSeq ∨ head.last_hash ≠ w.previousHash then
      w.report none head.last_seq
        s!"chain head is at {head.last_seq} but the newest row is at {w.previousSeq}"
    else w
  | none => if 0 < w.checked then w.report none w.previousSeq "chain head is missing" else w

structure Report where
  intact : Bool
  checked : ℕ
  last_seq : ℕ
  unchained : ℕ
  problems : List Problem

/-- `verifyAuditChain`. -/
def verifyAuditChain (org : Option ℕ) (s : Store η) : Report :=
  let w := (walk c org s.audit_logs).head (s.audit_log_chain org)
  { intact := w.problems.length = 0
    checked := w.checked
    last_seq := w.previousSeq
    unchained := (s.audit_logs.filter fun r =>
      r.entry.organization_id = org ∧ r.chain_seq = none).length
    problems := w.problems }

end Verification

/-! ### The law -/

/-- A row without its number: its place, its hashed fields and its hash. -/
def AuditLog.link (row : AuditLog η) : Link (Option η) Entry :=
  ⟨row.prev_hash, row.seq, row.entry, row.row_hash⟩

/-- The chain of an organization as the rows have it. -/
def chainOf (org : Option ℕ) (rows : List (AuditLog η)) : List (Link (Option η) Entry) :=
  (chained org rows).map AuditLog.link

/-- The rows of an organization in the order of their inserts. -/
def Store.rowsOf (s : Store η) (org : Option ℕ) : List (Link (Option η) Entry) :=
  (s.audit_logs.filter fun r => r.entry.organization_id = org).map AuditLog.link

/-- The chained rows of an organization hide some: they are the rows inserted and, beside them, rows
that have place 0 or repeat, behind it, the place of a row that ends a full page. -/
def Hides (s : Store η) (org : Option ℕ) (rows : List (AuditLog η)) : Prop :=
  (visible AuditLog.seq BATCH 0 (chained org rows)).map AuditLog.link = s.rowsOf org ∧
    visible AuditLog.seq BATCH 0 (chained org rows) ≠ chained org rows

end Vigabss.Audit

/-!
## A text of the hashed fields

The text of `JSON_ARRAY`, with strings in quotes.  Every field ends where its text says, so no two
rows have one text.
-/

namespace Vigabss.Audit

open Vigabss.Lib (append_cons_inj)

/-! ### Texts that end where they say -/

/-- A text of a field is read back from what begins with it and a comma. -/
def Ends {α : Type*} (text : α → List Char) : Prop :=
  ∀ a b x y, text a ++ ',' :: x = text b ++ ',' :: y → a = b ∧ x = y

theorem ends_of_notMem {α : Type*} {text : α → List Char} (hinj : Function.Injective text)
    (hcomma : ∀ a, ',' ∉ text a) : Ends text := by
  intro a b x y h
  obtain ⟨htext, hrest⟩ := append_cons_inj (hcomma a) (hcomma b) h
  exact ⟨hinj htext, hrest⟩

/-! ### Numbers -/

/-- A number in decimal. -/
def jsonNumber (n : ℕ) : List Char := Nat.toDigits 10 n

theorem jsonNumber_injective : Function.Injective jsonNumber := by
  intro m n h
  have hread := congrArg (fun cs => Nat.ofDigitChars 10 cs 0) h
  simpa [jsonNumber] using hread

theorem notMem_jsonNumber {ch : Char} (hch : ch.isDigit = false) (n : ℕ) :
    ch ∉ jsonNumber n := by
  intro hmem
  have hdigit := Nat.isDigit_of_mem_toDigits (by omega) (by omega) hmem
  rw [hch] at hdigit
  exact absurd hdigit Bool.false_ne_true

theorem ends_jsonNumber : Ends jsonNumber :=
  ends_of_notMem jsonNumber_injective (notMem_jsonNumber rfl)

/-- A number, or `null`. -/
def jsonNumberOrNull : Option ℕ → List Char
  | some n => jsonNumber n
  | none => ['n', 'u', 'l', 'l']

theorem ends_jsonNumberOrNull : Ends jsonNumberOrNull := by
  refine ends_of_notMem ?_ ?_
  · intro a b h
    have hn : ∀ n, jsonNumber n ≠ ['n', 'u', 'l', 'l'] := fun n hnull =>
      notMem_jsonNumber rfl n (hnull ▸ List.mem_cons_self)
    rcases a with _ | m <;> rcases b with _ | n
    · rfl
    · exact absurd h.symm (hn n)
    · exact absurd h (hn m)
    · exact congrArg some (jsonNumber_injective h)
  · intro a
    rcases a with _ | n
    · decide
    · exact notMem_jsonNumber rfl n

/-- A number with its sign. -/
def jsonInt : ℤ → List Char
  | .ofNat n => jsonNumber n
  | .negSucc n => '-' :: jsonNumber n

theorem jsonInt_injective : Function.Injective jsonInt := by
  have hsign : ∀ m n, jsonNumber m ≠ '-' :: jsonNumber n := fun m n h =>
    notMem_jsonNumber rfl m (h ▸ List.mem_cons_self)
  intro a b h
  rcases a with m | m <;> rcases b with n | n
  · exact congrArg Int.ofNat (jsonNumber_injective h)
  · exact absurd h (hsign m n)
  · exact absurd h.symm (hsign n m)
  · exact congrArg Int.negSucc (jsonNumber_injective (List.cons.inj h).2)

/-! ### Strings -/

/-- A character between quotes. -/
def escape (ch : Char) : List Char := if ch = '"' ∨ ch = '\\' then ['\\', ch] else [ch]

/-- The characters of a string, and the quote behind them. -/
def quoted : List Char → List Char
  | [] => ['"']
  | ch :: cs => escape ch ++ quoted cs

theorem quoted_ends (a b x y : List Char) (h : quoted a ++ x = quoted b ++ y) :
    a = b ∧ x = y := by
  have hstart : ∀ ch cs x y, quoted (ch :: cs) ++ x ≠ '"' :: y := by
    intro ch cs x y h
    by_cases hch : ch = '"' ∨ ch = '\\'
    · simp [quoted, escape, hch] at h
    · simp only [quoted, escape, if_neg hch, List.cons_append, List.cons.injEq] at h
      exact hch (Or.inl h.1)
  induction a generalizing b with
  | nil =>
    rcases b with _ | ⟨ch, cs⟩
    · exact ⟨rfl, (List.cons.inj h).2⟩
    · exact absurd h.symm (hstart ch cs y x)
  | cons ch cs ih =>
    rcases b with _ | ⟨ch', cs'⟩
    · exact absurd h (hstart ch cs x y)
    · have hboth : ch = ch' ∧ quoted cs ++ x = quoted cs' ++ y := by
        by_cases hch : ch = '"' ∨ ch = '\\' <;> by_cases hch' : ch' = '"' ∨ ch' = '\\'
        · simpa [quoted, escape, hch, hch'] using h
        · simp only [quoted, escape, if_pos hch, if_neg hch', List.cons_append, List.nil_append,
            List.cons.injEq] at h
          exact absurd (Or.inr h.1.symm) hch'
        · simp only [quoted, escape, if_neg hch, if_pos hch', List.cons_append, List.nil_append,
            List.cons.injEq] at h
          exact absurd (Or.inr h.1) hch
        · simpa [quoted, escape, hch, hch'] using h
      obtain ⟨hrest, htail⟩ := ih _ hboth.2
      exact ⟨by rw [hboth.1, hrest], htail⟩

/-- A string in quotes. -/
def jsonString (s : String) : List Char := '"' :: quoted s.toList

theorem ends_jsonString : Ends jsonString := by
  intro a b x y h
  obtain ⟨hchars, hrest⟩ := quoted_ends _ _ _ _ (List.cons.inj h).2
  exact ⟨String.toList_injective hchars, (List.cons.inj hrest).2⟩

/-- A string in quotes, or `null`. -/
def jsonStringOrNull : Option String → List Char
  | some s => jsonString s
  | none => ['n', 'u', 'l', 'l']

theorem ends_jsonStringOrNull : Ends jsonStringOrNull := by
  intro a b x y h
  rcases a with _ | s <;> rcases b with _ | t
  · simpa [jsonStringOrNull] using h
  · simp [jsonStringOrNull, jsonString] at h
  · simp [jsonStringOrNull, jsonString] at h
  · obtain ⟨hsame, hrest⟩ := ends_jsonString s t x y h
    exact ⟨congrArg some hsame, hrest⟩

/-! ### The array -/

/-- The fields of `JSON_ARRAY`, in the order of `audit_log_row_hash`. -/
def jsonFields (prev_hash : Option String) (chain_seq : ℕ) (e : Entry) : List Char :=
  jsonStringOrNull prev_hash ++ ',' :: (jsonNumber chain_seq ++ ',' ::
    (jsonNumberOrNull e.organization_id ++ ',' :: (jsonNumberOrNull e.user_id ++ ',' ::
    (jsonString e.action ++ ',' :: (jsonString e.entity_type ++ ',' ::
    (jsonNumberOrNull e.entity_id ++ ',' :: (jsonStringOrNull e.summary ++ ',' ::
    (jsonStringOrNull e.old_values ++ ',' :: (jsonStringOrNull e.new_values ++ ',' ::
    (jsonStringOrNull e.ip_address ++ ',' :: (jsonStringOrNull e.user_agent ++ ',' ::
    jsonInt e.created_at)))))))))))

/-- Hashing where a text is its own digest. -/
def plainHashing : Hashing String where
  jsonArray prev_hash chain_seq e :=
    String.ofList ('[' :: (jsonFields prev_hash chain_seq e ++ [']']))
  sha2 := id
  genesis := "0000000000000000000000000000000000000000000000000000000000000000"

/-- **No two rows have one text.** -/
theorem plainHashing_injective : plainHashing.Injective where
  sha2 := Function.injective_id
  jsonArray prev seq e prev' seq' e' h := by
    have hfields : jsonFields prev seq e = jsonFields prev' seq' e' :=
      List.append_cancel_right (List.cons.inj (String.ofList_injective h)).2
    obtain ⟨hprev, h⟩ := ends_jsonStringOrNull _ _ _ _ hfields
    obtain ⟨hseq, h⟩ := ends_jsonNumber _ _ _ _ h
    obtain ⟨horg, h⟩ := ends_jsonNumberOrNull _ _ _ _ h
    obtain ⟨huser, h⟩ := ends_jsonNumberOrNull _ _ _ _ h
    obtain ⟨haction, h⟩ := ends_jsonString _ _ _ _ h
    obtain ⟨htype, h⟩ := ends_jsonString _ _ _ _ h
    obtain ⟨hentity, h⟩ := ends_jsonNumberOrNull _ _ _ _ h
    obtain ⟨hsummary, h⟩ := ends_jsonStringOrNull _ _ _ _ h
    obtain ⟨hold, h⟩ := ends_jsonStringOrNull _ _ _ _ h
    obtain ⟨hnew, h⟩ := ends_jsonStringOrNull _ _ _ _ h
    obtain ⟨hip, h⟩ := ends_jsonStringOrNull _ _ _ _ h
    obtain ⟨hagent, h⟩ := ends_jsonStringOrNull _ _ _ _ h
    have hcreated := jsonInt_injective h
    refine ⟨hprev, hseq, ?_⟩
    cases e
    cases e'
    simp_all

end Vigabss.Audit
