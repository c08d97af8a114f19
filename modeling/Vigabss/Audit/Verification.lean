import Vigabss.Audit.Chain

/-!
# Vigabss.Audit.Verification — what an intact report says

A walk without problems has read a linked chain, and the head fixes its tip, so it has read the rows
inserted.  What it reads are all chained rows but those of place 0 and those that repeat the place
of a row that ends a page, which the next page is asked for behind.
-/

namespace Vigabss.Audit

open Vigabss.Lib

variable {η : Type*} (c : Hashing η)

/-- The digest of a link. -/
abbrev Hashing.digest : Option η → ℕ → Entry → Option η := c.audit_log_row_hash

theorem Hashing.Injective.digest {c : Hashing η} (hc : c.Injective) (h : Option η) (n : ℕ)
    (e : Entry) (h' : Option η) (n' : ℕ) (e' : Entry)
    (heq : c.digest h n e = c.digest h' n' e') : h = h' ∧ n = n' ∧ e = e' :=
  hc.jsonArray _ _ _ _ _ _ (hc.sha2 (Option.some.inj heq))

/-! ### The walk -/

section Walk

variable [DecidableEq η]

theorem Walk.report_problems (w : Walk η) (id : Option ℕ) (seq : ℕ) (problem : String) :
    (w.report id seq problem).problems ≠ [] := by
  unfold Walk.report
  split_ifs with hroom
  · exact List.append_ne_nil_of_right_ne_nil _ (List.cons_ne_nil _ _)
  · intro hnil
    rw [hnil] at hroom
    exact hroom (by decide)

theorem Walk.check_problems (w : Walk η) (row : AuditLog η) (wrong : Bool) (problem : String) :
    (w.check row wrong problem).problems = [] ↔ w.problems = [] ∧ wrong = false := by
  cases wrong with
  | true =>
    refine ⟨fun h => absurd h (w.report_problems _ _ _), fun h => ?_⟩
    cases h.2
  | false => exact ⟨fun h => ⟨h, rfl⟩, fun h => h.1⟩

theorem Walk.row_problems (w : Walk η) (row : AuditLog η) :
    (w.row c row).problems = [] ↔
      w.problems = [] ∧ row.link.Fits c.digest w.previousSeq w.previousHash := by
  simp only [Walk.row, Walk.check_problems, ne_eq, decide_eq_false_iff_not, not_not, and_assoc]
  rfl

/-- **The walk** finds no problem just in a linked chain, and ends at its tip. -/
theorem walk_rows (rows : List (AuditLog η)) (w : Walk η) :
    ((rows.foldl (Walk.row c) w).problems = [] ↔
        w.problems = [] ∧
          Linked c.digest w.previousSeq w.previousHash (rows.map AuditLog.link)) ∧
      ((rows.foldl (Walk.row c) w).previousSeq, (rows.foldl (Walk.row c) w).previousHash) =
        tip w.previousSeq w.previousHash (rows.map AuditLog.link) ∧
      (rows.foldl (Walk.row c) w).checked = w.checked + rows.length := by
  induction rows generalizing w with
  | nil => simp [Linked, tip]
  | cons row rows ih =>
    obtain ⟨hproblems, htip, hchecked⟩ := ih (w.row c row)
    refine ⟨?_, htip, ?_⟩
    · rw [List.foldl_cons, hproblems, Walk.row_problems, and_assoc]
      rfl
    · rw [List.foldl_cons, hchecked, List.length_cons]
      show w.checked + 1 + rows.length = _
      omega

/-- The head agrees with the newest row, or there is neither. -/
def Agrees (head : Option (Head η)) (links : List (Link (Option η) Entry)) : Prop :=
  match head with
  | some head => tip 0 (some c.genesis) links = (head.last_seq, head.last_hash)
  | none => links = []

theorem Walk.head_problems (w : Walk η) (head : Option (Head η)) :
    (w.head head).problems = [] ↔ w.problems = [] ∧
      match head with
      | some head => (w.previousSeq, w.previousHash) = (head.last_seq, head.last_hash)
      | none => w.checked = 0 := by
  cases head with
  | some head =>
    simp only [Walk.head]
    split_ifs with hwrong
    · refine ⟨fun h => absurd h (w.report_problems _ _ _), ?_⟩
      rintro ⟨_, hsame⟩
      rw [Prod.mk.injEq] at hsame
      rcases hwrong with hseq | hhash
      · exact absurd hsame.1.symm hseq
      · exact absurd hsame.2.symm hhash
    · rw [not_or, not_not, not_not] at hwrong
      exact ⟨fun h => ⟨h, by rw [hwrong.1, hwrong.2]⟩, fun h => h.1⟩
  | none =>
    simp only [Walk.head]
    split_ifs with hwrong
    · refine ⟨fun h => absurd h (w.report_problems _ _ _), fun h => ?_⟩
      have hzero := h.2
      omega
    · exact ⟨fun h => ⟨h, by omega⟩, fun h => h.1⟩

/-- What was read of a chain. -/
def readOf (org : Option ℕ) (rows : List (AuditLog η)) : List (AuditLog η) :=
  readPages AuditLog.seq BATCH BATCH_pos (chained org rows) 0

/-- **An intact report**, in terms of what was read. -/
theorem intact_iff (org : Option ℕ) (s : Store η) :
    (verifyAuditChain c org s).intact = true ↔
      Linked c.digest 0 (some c.genesis) ((readOf org s.audit_logs).map AuditLog.link) ∧
        Agrees c (s.audit_log_chain org) ((readOf org s.audit_logs).map AuditLog.link) := by
  obtain ⟨hproblems, htip, hchecked⟩ :=
    walk_rows c (readOf org s.audit_logs) ⟨0, 0, some c.genesis, []⟩
  simp only [verifyAuditChain, decide_eq_true_eq, List.length_eq_zero_iff]
  rw [Walk.head_problems]
  show (((readOf org s.audit_logs).foldl (Walk.row c) ⟨0, 0, some c.genesis, []⟩).problems = [] ∧
    _) ↔ _
  rw [hproblems]
  refine and_congr (by simp) ?_
  cases hhead : s.audit_log_chain org with
  | some head =>
    show (((readOf org s.audit_logs).foldl (Walk.row c) ⟨0, 0, some c.genesis, []⟩).previousSeq,
      _) = _ ↔ _
    exact iff_of_eq (congrArg (· = (head.last_seq, head.last_hash)) htip)
  | none =>
    show ((readOf org s.audit_logs).foldl (Walk.row c) ⟨0, 0, some c.genesis, []⟩).checked = 0 ↔ _
    rw [hchecked]
    simp [Agrees]

end Walk

/-! ### The inserts -/

/-- What the trigger keeps of every chain: its rows are linked, and the head is their tip. -/
structure Kept (s : Store η) : Prop where
  placed : ∀ r ∈ s.audit_logs, r.chain_seq.isSome = true
  linked : ∀ org, Linked c.digest 0 (some c.genesis) (s.rowsOf org)
  agrees : ∀ org, Agrees c (s.audit_log_chain org) (s.rowsOf org)

theorem kept_empty : Kept c (empty : Store η) where
  placed _ hr := absurd hr List.not_mem_nil
  linked _ := trivial
  agrees _ := rfl

variable {c}

theorem Kept.tip {s : Store η} (h : Kept c s) (org : Option ℕ) :
    tip 0 (some c.genesis) (s.rowsOf org) =
      ((s.headOf c org).last_seq, (s.headOf c org).last_hash) := by
  have hagrees := h.agrees org
  unfold Store.headOf
  cases hhead : s.audit_log_chain org with
  | some head =>
    rw [hhead] at hagrees
    exact hagrees
  | none =>
    rw [hhead] at hagrees
    rw [show s.rowsOf org = [] from hagrees]
    rfl

theorem rowsOf_insert_same (s : Store η) (entry : Entry) :
    (s.insert c entry).rowsOf entry.organization_id = s.rowsOf entry.organization_id ++
      [(chainedRow c s.audit_logs.length (s.headOf c entry.organization_id) entry).link] := by
  simp [Store.rowsOf, Store.insert, chainedRow]

theorem rowsOf_insert_other (s : Store η) {entry : Entry} {org : Option ℕ}
    (horg : org ≠ entry.organization_id) : (s.insert c entry).rowsOf org = s.rowsOf org := by
  simp [Store.rowsOf, Store.insert, chainedRow, horg.symm]

/-- **An insert** adds a link to its own chain, and leaves the others. -/
theorem Kept.insert {s : Store η} (h : Kept c s) (entry : Entry) : Kept c (s.insert c entry) where
  placed r hr := by
    rcases List.mem_append.1 hr with hold | hnew
    · exact h.placed r hold
    · rw [List.mem_singleton.1 hnew]
      rfl
  linked org := by
    by_cases horg : org = entry.organization_id
    · subst horg
      rw [rowsOf_insert_same, linked_concat, h.tip]
      exact ⟨h.linked _, rfl, rfl, rfl⟩
    · rw [rowsOf_insert_other s horg]
      exact h.linked org
  agrees org := by
    by_cases horg : org = entry.organization_id
    · subst horg
      rw [rowsOf_insert_same]
      simp only [Store.insert, Function.update_self, Agrees, tip_concat]
      rfl
    · rw [rowsOf_insert_other s horg]
      simp only [Store.insert, Function.update_of_ne horg]
      exact h.agrees org

variable (c)

theorem kept_inserted (entries : List Entry) : Kept c (inserted c entries) :=
  run_invariant (fun _ entry h => h.insert entry) (kept_empty c) entries

/-! ### The law -/

theorem countsUp_of_linked {n : ℕ} {h : Option η} {rows : List (AuditLog η)}
    (hrows : Linked c.digest n h (rows.map AuditLog.link)) : CountsUp AuditLog.seq n rows := by
  induction rows generalizing n h with
  | nil => trivial
  | cons row rows ih => exact ⟨hrows.1.1, ih hrows.2⟩

theorem chained_sorted (org : Option ℕ) (rows : List (AuditLog η)) :
    (chained org rows).Pairwise fun a b => a.seq ≤ b.seq := by
  have htotal : Std.Total fun a b : AuditLog η => a.seq ≤ b.seq := ⟨fun a b => Nat.le_total _ _⟩
  have htrans : IsTrans (AuditLog η) fun a b => a.seq ≤ b.seq := ⟨fun _ _ _ => Nat.le_trans⟩
  exact List.pairwise_insertionSort _ _

theorem read_linked_iff {org : Option ℕ} {rows : List (AuditLog η)}
    {links : List (Link (Option η) Entry)} (hlinks : Linked c.digest 0 (some c.genesis) links) :
    (readOf org rows).map AuditLog.link = links ↔
      (visible AuditLog.seq BATCH 0 (chained org rows)).map AuditLog.link = links := by
  have hsame : CountsUp AuditLog.seq 0 (readOf org rows) ∨
      CountsUp AuditLog.seq 0 (visible AuditLog.seq BATCH 0 (chained org rows)) →
      readOf org rows = visible AuditLog.seq BATCH 0 (chained org rows) :=
    readPages_eq_visible BATCH_pos (chained_sorted org rows)
  constructor
  · intro hread
    rw [← hsame (Or.inl (countsUp_of_linked c (hread ▸ hlinks)))]
    exact hread
  · intro hvisible
    rw [hsame (Or.inr (countsUp_of_linked c (hvisible ▸ hlinks)))]
    exact hvisible

theorem chained_inserted {s : Store η} (h : Kept c s) (org : Option ℕ) :
    chained org s.audit_logs = s.audit_logs.filter fun r => r.entry.organization_id = org := by
  have hplaced : (s.audit_logs.filter fun r => r.entry.organization_id = org ∧ r.chain_seq.isSome) =
      s.audit_logs.filter fun r => r.entry.organization_id = org := by
    refine List.filter_congr fun r hr => ?_
    simp [h.placed r hr]
  have hcounts : CountsUp AuditLog.seq 0
      (s.audit_logs.filter fun r => r.entry.organization_id = org) :=
    countsUp_of_linked c (h.linked org)
  rw [chained, hplaced]
  exact hcounts.sorted.1.insertionSort_eq

variable [DecidableEq η] {c}

theorem intact_iff_read (hc : c.Injective) {s : Store η} (h : Kept c s) (org : Option ℕ)
    (rows : List (AuditLog η)) :
    (verifyAuditChain c org { s with audit_logs := rows }).intact = true ↔
      (readOf org rows).map AuditLog.link = s.rowsOf org := by
  rw [intact_iff]
  constructor
  · rintro ⟨hlinked, hagrees⟩
    have hagrees' := h.agrees org
    cases hhead : s.audit_log_chain org with
    | some head =>
      rw [hhead] at hagrees'
      simp only [hhead] at hagrees
      exact hlinked.eq_of_tip hc.digest (h.linked org) (hagrees.trans hagrees'.symm)
    | none =>
      rw [hhead] at hagrees'
      simp only [hhead] at hagrees
      exact hagrees.trans hagrees'.symm
  · intro hread
    rw [hread]
    exact ⟨h.linked org, h.agrees org⟩

/-- **The verification**: after any run of inserts, it finds the untouched rows intact, and finds
rows intact only if they are the rows inserted, just when they hide none. -/
theorem verification_sound_iff (hc : c.Injective) (entries : List Entry) (org : Option ℕ)
    (rows : List (AuditLog η)) :
    ((verifyAuditChain c org (inserted c entries)).intact = true ∧
        ((verifyAuditChain c org { inserted c entries with audit_logs := rows }).intact = true →
          chainOf org rows = (inserted c entries).rowsOf org)) ↔
      ¬ Hides (inserted c entries) org rows := by
  have hkept := kept_inserted c entries
  have huntouched : (verifyAuditChain c org (inserted c entries)).intact = true := by
    refine (intact_iff_read hc hkept org (inserted c entries).audit_logs).2 ?_
    rw [read_linked_iff c (hkept.linked org), chained_inserted c hkept,
      (countsUp_of_linked c (hkept.linked org)).visible]
    rfl
  have hintact := (intact_iff_read hc hkept org rows).trans
    (read_linked_iff c (hkept.linked org))
  rw [hintact]
  have hsublist : List.Sublist (visible AuditLog.seq BATCH 0 (chained org rows))
      (chained org rows) := visible_sublist 0 _
  constructor
  · rintro ⟨_, hsound⟩ ⟨hvisible, hmore⟩
    have hlength := congrArg List.length (hvisible.trans (hsound hvisible).symm)
    simp only [chainOf, List.length_map] at hlength
    exact hmore (hsublist.eq_of_length hlength)
  · intro hhides
    refine ⟨huntouched, fun hvisible => ?_⟩
    by_cases hmore : visible AuditLog.seq BATCH 0 (chained org rows) = chained org rows
    · rw [hmore] at hvisible
      exact hvisible
    · exact absurd ⟨hvisible, hmore⟩ hhides

/-- A sign-in that is logged. -/
def signIn : Entry :=
  ⟨some 4, some 7, "login", "user", some 7, none, none, none, some "10.0.0.9", none, 1767225600⟩

/-- A row put into the table with place 0. -/
def forgedRow : AuditLog String :=
  ⟨9, { signIn with action := "delete" }, some 0, none, none⟩

theorem verification_sound_sign_in :
    ((verifyAuditChain plainHashing (some 4) (inserted plainHashing [signIn])).intact = true ∧
        ((verifyAuditChain plainHashing (some 4)
            { inserted plainHashing [signIn] with audit_logs := [] }).intact = true →
          chainOf (some 4) [] = (inserted plainHashing [signIn]).rowsOf (some 4))) ↔
      ¬ Hides (inserted plainHashing [signIn]) (some 4) [] :=
  verification_sound_iff plainHashing_injective [signIn] (some 4) []

/-- The forged row is in the chain, and the report says that the chain is intact. -/
theorem forged_row_unread :
    (verifyAuditChain plainHashing (some 4)
        { inserted plainHashing [signIn] with
          audit_logs := (inserted plainHashing [signIn]).audit_logs ++ [forgedRow] }).intact =
      true ∧
    chainOf (some 4) ((inserted plainHashing [signIn]).audit_logs ++ [forgedRow]) ≠
      (inserted plainHashing [signIn]).rowsOf (some 4) := by
  have hkept := kept_inserted plainHashing [signIn]
  constructor
  · rw [intact_iff_read plainHashing_injective hkept, read_linked_iff _ (hkept.linked _)]
    rfl
  · intro h
    exact absurd (congrArg List.length h) (by decide)

end Vigabss.Audit
