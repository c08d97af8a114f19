import Vigabss.Billing.NoteTerms
import Vigabss.Billing.NoteChanges

/-!
# Vigabss.Billing.NoteLedger — the ledger credit of a note is what the note stands for

`Follows` is the law of `creditNoteLedgerService` as an invariant: under a note, its client and its
organization the ledger credits what the note stands for, under any other client nothing, and in
all the note's amount.  `ledger_follows_notes` is the law for every run.
-/

namespace Vigabss.Billing

open Vigabss.Lib

/-! ### The law -/

/-- What a note on these terms stands for. -/
def NoteTerms.credit (t : NoteTerms) : ℤ := if t.counts = true then t.total else 0

/-- The terms of the note under an id. -/
def Db.noteTerms (db : Db) (noteId : ℕ) : Option NoteTerms :=
  (db.creditNotes.find? noteId).map CreditNote.terms

/-- What is due on the account of a client under a note. -/
def dueOn (terms : ℕ → Option NoteTerms) (account : ℕ × ℕ × ℕ) : ℤ :=
  (terms account.1).elim 0 fun t =>
    if t.clientId = account.2.1 ∧ t.organizationId = account.2.2 then t.credit else 0

/-- What is due under a note in all. -/
def dueOf (terms : ℕ → Option NoteTerms) (noteId : ℕ) : ℤ := (terms noteId).elim 0 NoteTerms.credit

/-- **The law of the ledger**, with what the columns of the notes hold to. -/
structure Books.Follows (b : Books) : Prop where
  accounts : creditOf CreditPosting.account b.postings = dueOn b.db.noteTerms
  notes : creditOf CreditPosting.referenceId b.postings = dueOf b.db.noteTerms
  terms : ∀ id, ∀ t ∈ b.db.noteTerms id, |t.total| ≤ decimalMax ∧ t.clientId ≠ 0

/-- The rows under a note's account have been brought to a credit. -/
abbrev Posts (postings postings' : List CreditPosting) (account : ℕ × ℕ × ℕ) (t : ℤ) : Prop :=
  Journal.Brings CreditPosting.account (fun e => -e.signedAmount) postings postings' account t

section Posts

variable {postings postings' : List CreditPosting} {account : ℕ × ℕ × ℕ} {t : ℤ}

theorem Posts.accounts (h : Posts postings postings' account t) :
    creditOf CreditPosting.account postings' =
      Function.update (creditOf CreditPosting.account postings) account t := h.net

theorem Posts.notes (h : Posts postings postings' account t) (id : ℕ) :
    creditOf CreditPosting.referenceId postings' id =
      creditOf CreditPosting.referenceId postings id +
        if account.1 = id then t - creditOf CreditPosting.account postings account else 0 :=
  Journal.Brings.coarse Prod.fst h id

end Posts

theorem NoteTerms.abs_credit_le {t : NoteTerms} (h : |t.total| ≤ decimalMax) :
    |t.credit| ≤ decimalMax := by
  unfold credit
  split_ifs
  · exact h
  · norm_num [decimalMax]

section Follows

variable {b b' : Books} {note : CreditNote}

theorem Books.Follows.abs_due_le (h : b.Follows) (account : ℕ × ℕ × ℕ) :
    |creditOf CreditPosting.account b.postings account| ≤ decimalMax := by
  rw [h.accounts, dueOn]
  cases ht : b.db.noteTerms account.1 with
  | none => norm_num [decimalMax]
  | some t =>
    simp only [Option.elim_some]
    split_ifs
    · exact NoteTerms.abs_credit_le (h.terms _ t ht).1
    · norm_num [decimalMax]

theorem Books.Follows.terms_update (h : b.Follows) {terms : ℕ → Option NoteTerms}
    (hterms : terms = Function.update b.db.noteTerms note.id (some note.terms))
    (hnote : |note.total| ≤ decimalMax ∧ note.clientId ≠ 0) :
    ∀ id, ∀ t ∈ terms id, |t.total| ≤ decimalMax ∧ t.clientId ≠ 0 := by
  intro id t ht
  rw [hterms] at ht
  by_cases hid : id = note.id
  · subst hid
    rw [Function.update_self] at ht
    obtain rfl := Option.some.inj ht
    exact hnote
  · rw [Function.update_of_ne hid] at ht
    exact h.terms id t ht

/-- **A note is written and its account brought to what it stands for**, with its owner as it
was. -/
theorem Books.Follows.posts (h : b.Follows)
    (hterms : b'.db.noteTerms = Function.update b.db.noteTerms note.id (some note.terms))
    (hnote : |note.total| ≤ decimalMax ∧ note.clientId ≠ 0)
    (howner : ∀ t ∈ b.db.noteTerms note.id,
      t.clientId = note.clientId ∧ t.organizationId = note.organizationId)
    (hposts : Posts b.postings b'.postings (note.id, note.clientId, note.organizationId)
      note.terms.credit) : b'.Follows := by
  have hdue : ∀ c o, dueOn b.db.noteTerms (note.id, c, o) =
      if note.clientId = c ∧ note.organizationId = o then dueOf b.db.noteTerms note.id else 0 := by
    intro c o
    rw [dueOn, dueOf]
    cases ht : b.db.noteTerms note.id with
    | none => simp
    | some t =>
      obtain ⟨hc, ho⟩ := howner t ht
      simp only [Option.elim_some, hc, ho]
  refine ⟨?_, ?_, h.terms_update hterms hnote⟩
  · funext ⟨id, c, o⟩
    rw [hposts.accounts, h.accounts, hterms]
    by_cases hid : id = note.id
    · subst hid
      by_cases howned : note.clientId = c ∧ note.organizationId = o
      · obtain ⟨rfl, rfl⟩ := howned
        simp [dueOn, CreditNote.terms]
      · have hne : (note.id, c, o) ≠ (note.id, note.clientId, note.organizationId) := by
          intro heq
          simp only [Prod.mk.injEq, true_and] at heq
          exact howned ⟨heq.1.symm, heq.2.symm⟩
        rw [Function.update_of_ne hne, hdue, if_neg howned]
        simp [dueOn, CreditNote.terms, howned]
    · have hne : (id, c, o) ≠ (note.id, note.clientId, note.organizationId) := fun heq =>
        hid (congrArg Prod.fst heq)
      rw [Function.update_of_ne hne]
      simp [dueOn, Function.update_of_ne hid]
  · funext id
    have hown : dueOn b.db.noteTerms (note.id, note.clientId, note.organizationId) =
        dueOf b.db.noteTerms note.id := by
      rw [hdue, if_pos ⟨rfl, rfl⟩]
    rw [hposts.notes, h.accounts, h.notes, hterms, hown]
    by_cases hid : note.id = id
    · subst hid
      simp [dueOf]
    · simp [dueOf, hid, Function.update_of_ne (Ne.symm hid)]

/-- A note that stood for nothing and stands for nothing has nothing to post. -/
theorem Books.Follows.unposted (h : b.Follows)
    (hterms : b'.db.noteTerms = Function.update b.db.noteTerms note.id (some note.terms))
    (hnote : |note.total| ≤ decimalMax ∧ note.clientId ≠ 0)
    (hpostings : b'.postings = b.postings) (hbefore : ∀ t ∈ b.db.noteTerms note.id, t.credit = 0)
    (hnow : note.terms.credit = 0) : b'.Follows := by
  have hdue : ∀ account, dueOn b'.db.noteTerms account = dueOn b.db.noteTerms account := by
    rintro ⟨id, c, o⟩
    rw [hterms]
    by_cases hid : id = note.id
    · subst hid
      simp only [dueOn, Function.update_self, Option.elim_some, hnow, ite_self]
      cases ht : b.db.noteTerms note.id with
      | none => rfl
      | some t => simp [hbefore t ht]
    · simp [dueOn, Function.update_of_ne hid]
  have hall : ∀ id, dueOf b'.db.noteTerms id = dueOf b.db.noteTerms id := by
    intro id
    rw [hterms]
    by_cases hid : id = note.id
    · subst hid
      simp only [dueOf, Function.update_self, Option.elim_some, hnow]
      cases ht : b.db.noteTerms note.id with
      | none => rfl
      | some t => simp [hbefore t ht]
    · simp [dueOf, Function.update_of_ne hid]
  refine ⟨?_, ?_, h.terms_update hterms hnote⟩
  · rw [hpostings, h.accounts]
    exact (funext hdue).symm
  · rw [hpostings, h.notes]
    exact (funext hall).symm

/-- **A note that has changed clients** leaves the account of the old one, and is then posted to
the new one's. -/
theorem Books.Follows.moves {old : CreditNote} {middle : List CreditPosting} (h : b.Follows)
    (hterms : b'.db.noteTerms = Function.update b.db.noteTerms note.id (some note.terms))
    (hnote : |note.total| ≤ decimalMax ∧ note.clientId ≠ 0)
    (hold : b.db.noteTerms note.id = some old.terms) (horg : old.organizationId =
      note.organizationId) (hclient : old.clientId ≠ note.clientId)
    (hleaves : Posts b.postings middle (note.id, old.clientId, note.organizationId) 0)
    (hposts : Posts middle b'.postings (note.id, note.clientId, note.organizationId)
      note.terms.credit) : b'.Follows := by
  have hne : (note.id, note.clientId, note.organizationId) ≠
      (note.id, old.clientId, note.organizationId) := by
    intro heq
    simp only [Prod.mk.injEq, true_and, and_true] at heq
    exact hclient heq.symm
  have hdue : ∀ c o, dueOn b.db.noteTerms (note.id, c, o) =
      if old.clientId = c ∧ old.organizationId = o then old.terms.credit else 0 := by
    intro c o
    rw [dueOn, hold]
    rfl
  refine ⟨?_, ?_, h.terms_update hterms hnote⟩
  · funext ⟨id, c, o⟩
    rw [hposts.accounts, hleaves.accounts, h.accounts, hterms]
    by_cases hid : id = note.id
    · subst hid
      by_cases hnew : (note.id, c, o) = (note.id, note.clientId, note.organizationId)
      · obtain ⟨rfl, rfl⟩ : c = note.clientId ∧ o = note.organizationId := by
          simpa using hnew
        simp [dueOn, CreditNote.terms]
      · have hnot : ¬ (note.clientId = c ∧ note.organizationId = o) := fun hco =>
          hnew (by rw [hco.1, hco.2])
        have hzero : dueOn (Function.update b.db.noteTerms note.id (some note.terms))
            (note.id, c, o) = 0 := by
          simp [dueOn, CreditNote.terms, hnot]
        rw [Function.update_of_ne hnew, hzero]
        by_cases hleft : (note.id, c, o) = (note.id, old.clientId, note.organizationId)
        · rw [hleft, Function.update_self]
        · rw [Function.update_of_ne hleft, hdue, if_neg]
          rintro ⟨rfl, rfl⟩
          exact hleft (by rw [horg])
    · have hnew : (id, c, o) ≠ (note.id, note.clientId, note.organizationId) := fun heq =>
        hid (congrArg Prod.fst heq)
      have hleft : (id, c, o) ≠ (note.id, old.clientId, note.organizationId) := fun heq =>
        hid (congrArg Prod.fst heq)
      rw [Function.update_of_ne hnew, Function.update_of_ne hleft]
      simp [dueOn, Function.update_of_ne hid]
  · funext id
    have hzero : dueOn b.db.noteTerms (note.id, note.clientId, note.organizationId) = 0 := by
      rw [hdue, if_neg fun hco => hclient hco.1]
    have hleft : dueOn b.db.noteTerms (note.id, old.clientId, note.organizationId) =
        old.terms.credit := by
      rw [hdue, if_pos ⟨rfl, horg⟩]
    rw [hposts.notes, hleaves.notes, hleaves.accounts, Function.update_of_ne hne, h.accounts,
      h.notes, hzero, hleft, hterms]
    by_cases hid : note.id = id
    · subst hid
      simp [dueOf, hold]
    · simp [dueOf, hid, Function.update_of_ne (Ne.symm hid)]

end Follows

/-! ### The statements -/

theorem KeepsTerms.noteTerms {db db' : Db} (h : KeepsTerms db db') :
    db'.noteTerms = db.noteTerms := funext h.find

theorem refuses_ok {note : CreditNote} {u : Unit} (h : Books.refuses note = .ok u) :
    |note.total| ≤ decimalMax ∧ note.clientId ≠ 0 := by
  unfold Books.refuses at h
  split_ifs at h with htotal hclient
  exact ⟨not_lt.1 htotal, hclient⟩

section Statements

variable {b b' : Books} {note : CreditNote} {details : NoteDetails} {orgId today : ℕ}

theorem saveNote_ok (h : b.saveNote note details = .ok b') :
    (|note.total| ≤ decimalMax ∧ note.clientId ≠ 0) ∧ b'.postings = b.postings ∧
      b'.db.noteTerms = Function.update b.db.noteTerms note.id (some note.terms) := by
  obtain ⟨u, hfits, hout⟩ := except_bind_ok.1 h
  cases hout
  refine ⟨refuses_ok hfits, rfl, ?_⟩
  have hkey : Keyed.key note = note.id := rfl
  funext j
  simp only [Db.noteTerms, Table.find?_put, Function.update_apply, hkey]
  split_ifs with hj
  · rfl
  · rfl

theorem insertNote_ok {clientId : ℕ} {invoiceId : Option ℕ} {total : ℤ} {status : CreditNoteStatus}
    (h : b.insertNote orgId clientId invoiceId total status details = .ok (b', note)) :
    (|note.total| ≤ decimalMax ∧ note.clientId ≠ 0) ∧ b'.postings = b.postings ∧
      b'.db.noteTerms = Function.update b.db.noteTerms note.id (some note.terms) ∧
      b.db.noteTerms note.id = none ∧ note.organizationId = orgId := by
  obtain ⟨u, hfits, hout⟩ := except_bind_ok.1 h
  cases hout
  refine ⟨refuses_ok hfits, rfl, ?_, ?_, rfl⟩
  · funext j
    simp only [Db.noteTerms, Table.find?_insert, Function.update_apply]
    split_ifs with hj
    · rfl
    · rfl
  · simp [Db.noteTerms, Table.find?_nextId]

theorem noteTerms_modify {db : Db} {noteId : ℕ} {f : CreditNote → CreditNote}
    (hf : ∀ n, (f n).id = n.id) (hfind : db.creditNotes.find? noteId = some note) :
    Db.noteTerms { db with creditNotes := db.creditNotes.modify noteId f hf } =
      Function.update db.noteTerms noteId (some (f note).terms) := by
  funext j
  simp only [Db.noteTerms, Table.find?_modify, Function.update_apply, hfind]
  split_ifs with hj
  · rfl
  · rfl

theorem syncApplied_ok {release : Bool} (h : b.syncApplied note orgId release = .ok b') :
    b'.postings = b.postings ∧ b'.db.noteTerms = b.db.noteTerms := by
  obtain ⟨db, hsync, hout⟩ := except_bind_ok.1 h
  cases hout
  exact ⟨rfl, (KeepsTerms.syncApplication hsync).noteTerms⟩

theorem syncLedger_ok {target : Option ℚ} {label : String} {t : ℤ} (hclient : note.clientId ≠ 0)
    (htarget : target.elim (ledgerTarget note) round2 = number t) (ht : |t| ≤ decimalMax)
    (hposted : |creditOf CreditPosting.account b.postings (note.id, note.clientId, orgId)| ≤
      decimalMax)
    (h : b.syncLedger note details orgId today target label = .ok b') :
    Posts b.postings b'.postings (note.id, note.clientId, orgId) t ∧ b'.db = b.db := by
  obtain ⟨⟨postings, diff⟩, hsync, hout⟩ := except_bind_ok.1 h
  cases hout
  exact ⟨syncCreditNoteLedger_brings hclient htarget ht hposted (query_ok.1 hsync), rfl⟩

theorem syncLedger_stands (note : CreditNote) {label : String} (h : b.Follows)
    (hnote : |note.total| ≤ decimalMax ∧ note.clientId ≠ 0) {b₁ : Books}
    (hpostings : b₁.postings = b.postings)
    (hok : b₁.syncLedger note details orgId today none label = .ok b') :
    Posts b.postings b'.postings (note.id, note.clientId, orgId) note.terms.credit ∧
      b'.db = b₁.db := by
  have htarget : (none : Option ℚ).elim (ledgerTarget note) round2 = number note.terms.credit :=
    ledgerTarget_eq hnote.1
  have hfits : |note.terms.credit| ≤ decimalMax := NoteTerms.abs_credit_le hnote.1
  obtain ⟨hposts, hdb⟩ := syncLedger_ok hnote.2 htarget hfits (hpostings ▸ h.abs_due_le _) hok
  exact ⟨hpostings ▸ hposts, hdb⟩

theorem syncLedger_clears {label : String} (h : b.Follows) (hclient : note.clientId ≠ 0)
    {b₁ : Books} (hpostings : b₁.postings = b.postings)
    (hok : b₁.syncLedger note details orgId today (some 0) label = .ok b') :
    Posts b.postings b'.postings (note.id, note.clientId, orgId) 0 ∧ b'.db = b₁.db := by
  have htarget : (some (0 : ℚ)).elim (ledgerTarget note) round2 = number 0 := round2_zero
  have hfits : |(0 : ℤ)| ≤ decimalMax := by norm_num [decimalMax]
  obtain ⟨hposts, hdb⟩ := syncLedger_ok hclient htarget hfits (hpostings ▸ h.abs_due_le _) hok
  exact ⟨hpostings ▸ hposts, hdb⟩

end Statements

/-! ### The changes -/

/-- What a change leaves: the law holds, and the earlier rows are in place. -/
structure Kept (b b' : Books) : Prop where
  follows : b'.Follows
  grows : b.postings <+: b'.postings

section Changes

variable {b b' : Books} {orgId today noteId : ℕ} {refusal : Option Failure}

theorem findNote_some {note : CreditNote} :
    b.findNote noteId orgId = some note ↔ b.db.creditNotes.find? noteId = some note ∧
      note.organizationId = orgId ∧ note.deleted = false := by
  simp [Books.findNote, Option.filter_eq_some_iff]

theorem terms_of_find {note : CreditNote} (h : b.db.creditNotes.find? noteId = some note) :
    note.id = noteId ∧ b.db.noteTerms noteId = some note.terms := by
  refine ⟨(Table.find?_eq_some.1 h).2, ?_⟩
  rw [Db.noteTerms, h]
  rfl

theorem fits_of_find {note : CreditNote} (h : b.Follows)
    (hfind : b.db.creditNotes.find? noteId = some note) :
    |note.total| ≤ decimalMax ∧ note.clientId ≠ 0 :=
  h.terms noteId note.terms (terms_of_find hfind).2

theorem kept_inserted {note : CreditNote} {b₁ b₂ : Books} {details : NoteDetails} {clientId : ℕ}
    {invoiceId : Option ℕ} {total : ℤ} {status : CreditNoteStatus} {label : String} (h : b.Follows)
    (hins : b.insertNote orgId clientId invoiceId total status details = .ok (b₁, note))
    (hsync : b₁.syncLedger note details orgId today none label = .ok b₂)
    (hpostings : b'.postings = b₂.postings) (hterms : b'.db.noteTerms = b₂.db.noteTerms) :
    Kept b b' := by
  obtain ⟨hnote, hpost, hset, hnew, rfl⟩ := insertNote_ok hins
  obtain ⟨hposts, hdb⟩ := syncLedger_stands _ h hnote hpost hsync
  rw [← hpostings] at hposts
  refine ⟨h.posts ?_ hnote ?_ hposts, hposts.grows⟩
  · rw [hterms, hdb, hset]
  · rw [hnew]
    simp

theorem kept_create {body : NoteBody} (h : b.Follows)
    (hok : createCreditNote b orgId today body refusal = .ok b') : Kept b b' := by
  unfold createCreditNote at hok
  obtain ⟨-, hok⟩ := check_ok hok
  obtain ⟨u, -, hok⟩ := except_bind_ok.1 hok
  obtain ⟨⟨b₁, note⟩, hins, hok⟩ := except_bind_ok.1 hok
  have hins := query_ok.1 hins
  dsimp only at hok
  by_cases hposted : note.status.posted = true
  · rw [if_pos hposted] at hok
    obtain ⟨b₂, hsync, happlied⟩ := except_bind_ok.1 hok
    obtain ⟨hpost, hterms⟩ := syncApplied_ok happlied
    exact kept_inserted h hins hsync hpost hterms
  · rw [if_neg hposted] at hok
    cases hok
    obtain ⟨hnote, hpost, hset, hnew, -⟩ := insertNote_ok hins
    refine ⟨h.unposted hset hnote hpost ?_ ?_, hpost ▸ List.prefix_rfl⟩
    · rw [hnew]
      simp
    · simp [NoteTerms.credit, CreditNote.terms, CreditNote.counts, hposted]

theorem kept_issue {clientId : ℕ} {invoiceId : Option ℕ} {total : ℤ} {details : NoteDetails}
    (h : b.Follows)
    (hok : insertIssued b orgId clientId today invoiceId total details = .ok b') : Kept b b' := by
  obtain ⟨⟨b₁, note⟩, hins, hsync⟩ := except_bind_ok.1 hok
  exact kept_inserted h (query_ok.1 hins) hsync rfl rfl

theorem kept_addItem {delta : ℤ} (h : b.Follows)
    (hok : addCreditNoteItem b orgId noteId delta refusal = .ok b') : Kept b b' := by
  unfold addCreditNoteItem at hok
  cases hfind : b.findNote noteId orgId with
  | none =>
    rw [hfind] at hok
    cases hok
  | some note =>
    rw [hfind] at hok
    obtain ⟨hdraft, hok⟩ := check_ok hok
    obtain ⟨u, -, hsave⟩ := except_bind_ok.1 hok
    obtain ⟨hnote, hpost, hset⟩ := saveNote_ok (query_ok.1 hsave)
    obtain ⟨hid, hterms⟩ := terms_of_find (findNote_some.1 hfind).1
    -- a draft stands for nothing, whatever its total
    have hzero : ∀ total, ({ note with total } : CreditNote).terms.credit = 0 := by
      intro total
      simp [NoteTerms.credit, CreditNote.terms, CreditNote.counts, not_not.1 hdraft,
        CreditNoteStatus.posted]
    refine ⟨h.unposted hset hnote hpost (fun t ht => ?_) (hzero _), hpost ▸ List.prefix_rfl⟩
    rw [show ({ note with total := note.total + delta } : CreditNote).id = noteId from hid,
      hterms] at ht
    obtain rfl := Option.some.inj ht
    exact hzero note.total

theorem kept_update {edit : NoteEdit} (h : b.Follows)
    (hok : updateCreditNote b orgId today noteId edit refusal = .ok b') : Kept b b' := by
  unfold updateCreditNote at hok
  obtain ⟨-, hok⟩ := check_ok hok
  cases hfind : b.findNote noteId orgId with
  | none =>
    rw [hfind] at hok
    cases hok
  | some old =>
    rw [hfind] at hok
    obtain ⟨u, -, hok⟩ := except_bind_ok.1 hok
    obtain ⟨u', -, hok⟩ := except_bind_ok.1 hok
    obtain ⟨b₁, hsave, hok⟩ := except_bind_ok.1 hok
    obtain ⟨hnote, hpost, hset⟩ := saveNote_ok (query_ok.1 hsave)
    obtain ⟨hstored, horg, -⟩ := findNote_some.1 hfind
    obtain ⟨hid, hterms⟩ := terms_of_find hstored
    unfold afterUpdate at hok
    dsimp only at hok
    have hidrow : (edit.row old).id = noteId := hid
    have horgrow : (edit.row old).organizationId = orgId := horg
    by_cases hmoved : old.clientId ≠ (edit.row old).clientId
    · rw [if_pos hmoved] at hok
      obtain ⟨b₂, hleave, hok⟩ := except_bind_ok.1 hok
      obtain ⟨b₃, hsync, happlied⟩ := except_bind_ok.1 hok
      obtain ⟨hpost', hterms'⟩ := syncApplied_ok happlied
      obtain ⟨hleaves, hdb⟩ := syncLedger_clears h (fits_of_find h hstored).2 hpost hleave
      have hne : ((edit.row old).id, (edit.row old).clientId, orgId) ≠
          (old.id, old.clientId, orgId) := by
        intro heq
        simp only [Prod.mk.injEq] at heq
        exact hmoved heq.2.1.symm
      have hfits : |(edit.row old).terms.credit| ≤ decimalMax := NoteTerms.abs_credit_le hnote.1
      have htarget : (none : Option ℚ).elim (ledgerTarget (edit.row old)) round2 =
          number (edit.row old).terms.credit := ledgerTarget_eq hnote.1
      obtain ⟨hposts, hdb'⟩ := syncLedger_ok hnote.2 htarget hfits (by
        rw [hleaves.accounts, Function.update_of_ne hne]
        exact h.abs_due_le _) hsync
      rw [← hpost'] at hposts
      refine ⟨h.moves ?_ hnote (hidrow ▸ hterms) (horg.trans horgrow.symm) hmoved ?_
        (horgrow ▸ hposts), hleaves.grows.trans hposts.grows⟩
      · rw [hterms', hdb', hdb, hset]
      · rw [hidrow, horgrow, ← hid]
        exact hleaves
    · rw [if_neg hmoved] at hok
      obtain ⟨b₂, hstay, hok⟩ := except_bind_ok.1 hok
      cases hstay
      obtain ⟨b₃, hsync, happlied⟩ := except_bind_ok.1 hok
      obtain ⟨hpost', hterms'⟩ := syncApplied_ok happlied
      obtain ⟨hposts, hdb⟩ := syncLedger_stands _ h hnote hpost hsync
      rw [← hpost'] at hposts
      refine ⟨h.posts ?_ hnote (fun t ht => ?_) (horgrow ▸ hposts), hposts.grows⟩
      · rw [hterms', hdb, hset]
      · rw [hidrow, hterms] at ht
        obtain rfl := Option.some.inj ht
        exact ⟨not_not.1 hmoved, rfl⟩

theorem kept_written {old : CreditNote} (note : CreditNote) (h : b.Follows)
    (hstored : b.db.creditNotes.find? noteId = some old) (hid : note.id = old.id)
    (hclient : note.clientId = old.clientId) (horg : note.organizationId = old.organizationId)
    (htotal : note.total = old.total)
    (hterms : b'.db.noteTerms = Function.update b.db.noteTerms noteId (some note.terms))
    (hposts : Posts b.postings b'.postings (old.id, old.clientId, old.organizationId)
      note.terms.credit) : Kept b b' := by
  obtain ⟨rfl, hown⟩ := terms_of_find hstored
  refine ⟨h.posts (hid ▸ hterms) ?_ (fun t ht => ?_) ?_, hposts.grows⟩
  · rw [htotal, hclient]
    exact fits_of_find h hstored
  · rw [hid, hown] at ht
    obtain rfl := Option.some.inj ht
    exact ⟨hclient.symm, horg.symm⟩
  · rw [hid, hclient, horg]
    exact hposts

theorem noteTerms_deleted {t : NoteTerms} (h : b.db.noteTerms noteId = some t) :
    (b.markNote noteId true).db.noteTerms =
      Function.update b.db.noteTerms noteId (some { t with counts := false }) := by
  obtain ⟨n, hn, rfl⟩ := Option.map_eq_some_iff.1 h
  exact noteTerms_modify (f := fun n => { n with deleted := true }) (fun _ => rfl) hn

theorem kept_delete (h : b.Follows)
    (hok : deleteCreditNote b orgId today noteId refusal = .ok b') : Kept b b' := by
  unfold deleteCreditNote at hok
  cases hfind : b.findNote noteId orgId with
  | none =>
    rw [hfind] at hok
    cases hok
  | some old =>
    rw [hfind] at hok
    obtain ⟨u, -, hok⟩ := except_bind_ok.1 hok
    obtain ⟨b₁, hclear, hok⟩ := except_bind_ok.1 hok
    obtain ⟨b₂, happlied, hout⟩ := except_bind_ok.1 hok
    cases hout
    obtain ⟨hstored, rfl, -⟩ := findNote_some.1 hfind
    obtain ⟨hclears, hdb⟩ := syncLedger_clears h (fits_of_find h hstored).2 rfl hclear
    obtain ⟨hpost, hterms⟩ := syncApplied_ok happlied
    have hkept : b₂.db.noteTerms noteId = some old.terms := by
      rw [hterms, hdb, (terms_of_find hstored).2]
    have hset := noteTerms_deleted hkept
    rw [hterms, hdb] at hset
    rw [← hpost] at hclears
    exact kept_written { old with deleted := true } h hstored rfl rfl rfl rfl hset hclears

theorem kept_restore (h : b.Follows)
    (hok : restoreCreditNote b orgId today noteId refusal = .ok b') : Kept b b' := by
  unfold restoreCreditNote at hok
  obtain ⟨u, -, hok⟩ := except_bind_ok.1 hok
  cases hfind : (b.db.creditNotes.find? noteId).filter fun n =>
      n.organizationId = orgId ∧ n.deleted = true with
  | none =>
    rw [hfind] at hok
    cases hok
  | some note =>
    rw [hfind] at hok
    obtain ⟨b₁, hsync, happlied⟩ := except_bind_ok.1 hok
    obtain ⟨hpost, hterms⟩ := syncApplied_ok happlied
    obtain ⟨hstored, hcond⟩ := Option.filter_eq_some_iff.1 hfind
    obtain ⟨rfl, -⟩ : note.organizationId = orgId ∧ note.deleted = true := by simpa using hcond
    have hfits := fits_of_find h hstored
    have hset : (b.markNote noteId false).db.noteTerms = Function.update b.db.noteTerms noteId
        (some ({ note with deleted := false } : CreditNote).terms) :=
      noteTerms_modify (f := fun n => { n with deleted := false }) (fun _ => rfl) hstored
    have hsame : (b.markNote noteId false).postings = b.postings := rfl
    obtain ⟨hposts, hdb⟩ := syncLedger_stands { note with deleted := false } h hfits hsame hsync
    rw [hdb] at hterms
    rw [← hpost] at hposts
    exact kept_written { note with deleted := false } h hstored rfl rfl rfl rfl (hterms.trans hset)
      hposts

theorem kept_cancelForSat (h : b.Follows)
    (hok : cancelCreditNoteForSat b orgId today noteId = .ok b') : Kept b b' := by
  unfold cancelCreditNoteForSat at hok
  cases hfind : (b.db.creditNotes.find? noteId).filter fun n => n.organizationId = orgId with
  | none =>
    rw [hfind] at hok
    cases hok
    exact ⟨h, List.prefix_rfl⟩
  | some note =>
    simp only [hfind] at hok
    obtain ⟨hstored, hcond⟩ := Option.filter_eq_some_iff.1 hfind
    obtain rfl : note.organizationId = orgId := by simpa using hcond
    by_cases hcancelled : note.status = .cancelled
    · rw [if_pos hcancelled] at hok
      cases hok
      exact ⟨h, List.prefix_rfl⟩
    · rw [if_neg hcancelled] at hok
      obtain ⟨b₁, hsync, happlied⟩ := except_bind_ok.1 hok
      obtain ⟨hpost, hterms⟩ := syncApplied_ok happlied
      have hfits := fits_of_find h hstored
      have hset : (b.db.setNoteStatus noteId fun _ => .cancelled).noteTerms =
          Function.update b.db.noteTerms noteId
            (some ({ note with status := .cancelled } : CreditNote).terms) :=
        noteTerms_modify (f := fun n => { n with status := .cancelled }) (fun _ => rfl) hstored
      have hsame : ({ b with db := b.db.setNoteStatus noteId fun _ => .cancelled } : Books).postings =
          b.postings := rfl
      obtain ⟨hposts, hdb⟩ :=
        syncLedger_stands { note with status := .cancelled } h hfits hsame hsync
      rw [hdb] at hterms
      rw [← hpost] at hposts
      exact kept_written { note with status := .cancelled } h hstored rfl rfl rfl rfl
        (hterms.trans hset) hposts

/-- **A sync of a stored note that follows the law posts nothing.** -/
theorem syncCreditNoteLedger_again (h : b.Follows) {note : CreditNote}
    (hstored : b.db.creditNotes.find? noteId = some note) (details : NoteDetails) (label : String) :
    syncCreditNoteLedger b.postings note details note.organizationId today none label =
      .ok (b.postings, 0) := by
  obtain ⟨rfl, hown⟩ := terms_of_find hstored
  have hnote := fits_of_find h hstored
  have htarget : (none : Option ℚ).elim (ledgerTarget note) round2 = number note.terms.credit :=
    ledgerTarget_eq hnote.1
  have hfits : |note.terms.credit| ≤ decimalMax := NoteTerms.abs_credit_le hnote.1
  have hdue : creditOf CreditPosting.account b.postings
      (note.id, note.clientId, note.organizationId) = note.terms.credit := by
    rw [h.accounts, dueOn, hown]
    simp [CreditNote.terms]
  rw [syncCreditNoteLedger_eq hnote.2 htarget hfits (h.abs_due_le _), hdue, sub_self]
  rfl

theorem kept_resync {label : String} (h : b.Follows)
    (hok : resync b today noteId label = .ok b') : b' = b := by
  unfold resync at hok
  cases hfind : b.db.creditNotes.find? noteId with
  | none =>
    rw [hfind] at hok
    cases hok
    rfl
  | some note =>
    simp only [hfind] at hok
    obtain ⟨⟨postings, diff⟩, hsync, hout⟩ := except_bind_ok.1 hok
    rw [query_ok, syncCreditNoteLedger_again h hfind] at hsync
    cases hsync
    cases hout
    rfl

/-- **Every change keeps the law**, and the rows there were. -/
theorem kept_after (h : b.Follows) (change : Change) : Kept b (b.after change) := by
  have hkept : ∀ b', change.apply b = .ok b' → Kept b b' := by
    intro b' hok
    cases change with
    | create orgId today body refusal => exact kept_create h hok
    | prorate orgId clientId today total details => exact kept_issue h hok
    | refund orgId clientId today invoiceId total details => exact kept_issue h hok
    | addItem orgId noteId delta refusal => exact kept_addItem h hok
    | update orgId today noteId edit refusal => exact kept_update h hok
    | delete orgId today noteId refusal => exact kept_delete h hok
    | restore orgId today noteId refusal => exact kept_restore h hok
    | cancelForSat orgId today noteId => exact kept_cancelForSat h hok
    | resync today noteId label =>
      rw [kept_resync h hok]
      exact ⟨h, List.prefix_rfl⟩
    | billing event =>
      cases hok
      have hterms := (KeepsTerms.after b.db event).noteTerms
      exact ⟨⟨by rw [hterms]; exact h.accounts, by rw [hterms]; exact h.notes,
        by rw [hterms]; exact h.terms⟩, List.prefix_rfl⟩
  unfold Books.after
  cases hok : change.apply b with
  | ok b' => exact hkept b' hok
  | error err => exact ⟨h, List.prefix_rfl⟩

end Changes

/-! ### The result -/

/-- The ledger agrees with a note: in all it credits the note's total while the note is issued or
applied and not deleted, and else nothing; it credits no client but the note's; and another sync
posts nothing. -/
structure Books.Agrees (b : Books) (note : CreditNote) : Prop where
  net : creditOf CreditPosting.referenceId b.postings note.id =
    if (note.status = .issued ∨ note.status = .applied) ∧ note.deleted = false then note.total
    else 0
  others : ∀ clientId, clientId ≠ note.clientId →
    creditOf CreditPosting.account b.postings (note.id, clientId, note.organizationId) = 0
  again : ∀ details today label, syncCreditNoteLedger b.postings note details note.organizationId
    today none label = .ok (b.postings, 0)

theorem CreditNote.credit_eq (note : CreditNote) : note.credit =
    if (note.status = .issued ∨ note.status = .applied) ∧ note.deleted = false then note.total
    else 0 := by
  unfold credit counts
  cases note.status <;> cases note.deleted <;> simp [CreditNoteStatus.posted]

theorem Books.Follows.agrees {b : Books} (h : b.Follows) {note : CreditNote}
    (hmem : note ∈ b.db.creditNotes.rows) : b.Agrees note := by
  have hstored : b.db.creditNotes.find? note.id = some note := Table.find?_key hmem
  obtain ⟨-, hown⟩ := terms_of_find hstored
  refine ⟨?_, fun clientId hne => ?_, fun details today label => ?_⟩
  · rw [h.notes, dueOf, hown, ← note.credit_eq]
    rfl
  · rw [h.accounts, dueOn, hown]
    simp [CreditNote.terms, Ne.symm hne]
  · exact syncCreditNoteLedger_again h hstored details label

theorem follows_of_none {b : Books} (hnotes : b.db.creditNotes.rows = [])
    (hpostings : b.postings = []) : b.Follows := by
  have hnone : ∀ id, b.db.noteTerms id = none := by
    intro id
    simp [Db.noteTerms, Table.find?, hnotes]
  refine ⟨?_, ?_, fun id t ht => ?_⟩
  · funext account
    rw [hpostings, dueOn, hnone]
    rfl
  · funext id
    rw [hpostings, dueOf, hnone]
    rfl
  · rw [hnone] at ht
    cases ht

theorem follows_run {b : Books} (h : b.Follows) (changes : List Change) :
    (run Books.after b changes).Follows :=
  run_invariant (P := Books.Follows) (fun _ change hb => (kept_after hb change).follows) h changes

theorem grows_run {b : Books} (h : b.Follows) (changes : List Change) :
    b.postings <+: (run Books.after b changes).postings := by
  induction changes generalizing b with
  | nil => exact List.prefix_rfl
  | cons change changes ih =>
    have hkept := kept_after h change
    exact hkept.grows.trans (ih hkept.follows)

/-- **The ledger follows the credit notes.**  After any changes from a database without notes, with
any requests on payments and invoices between them, the ledger agrees with every note, and whatever
comes later leaves the rows that are there. -/
theorem ledger_follows_notes (b : Books) (hnotes : b.db.creditNotes.rows = [])
    (hpostings : b.postings = []) (changes later : List Change) :
    (∀ note ∈ (run Books.after b changes).db.creditNotes.rows,
      (run Books.after b changes).Agrees note) ∧
    (run Books.after b changes).postings <+: (run Books.after b (changes ++ later)).postings := by
  have hfollows := follows_run (follows_of_none hnotes hpostings) changes
  refine ⟨fun note hmem => hfollows.agrees hmem, ?_⟩
  rw [run_append]
  exact grows_run hfollows later

/-! ### A note through its life -/

/-- Books with two invoices and nothing credited. -/
def emptyBooks : Books := ⟨twoInvoices, fun _ => ⟨"", ""⟩, []⟩

/-- A note of 100.00 is issued, lowered to 80.00, moved to client 2 and priced in dollars. -/
def movedNote : List Change :=
  [.create 1 100 ⟨1, some 1, 100, .issued, ⟨"NC-1", "MXN"⟩⟩ none,
    .update 1 101 1 ⟨none, none, some 80, none, none, none⟩ none,
    .resync 101 1 "",
    .update 1 102 1 ⟨some 2, some none, none, none, none, some "USD"⟩ none]

/-- It is then cancelled, deleted and restored. -/
def cancelledNote : List Change :=
  [.update 1 103 1 ⟨none, none, none, some .cancelled, none, none⟩ none,
    .delete 1 104 1 none, .restore 1 105 1 none]

theorem ledger_follows_notes_moved :
    ((∀ note ∈ (run Books.after emptyBooks movedNote).db.creditNotes.rows,
        (run Books.after emptyBooks movedNote).Agrees note) ∧
      (run Books.after emptyBooks movedNote).postings <+:
        (run Books.after emptyBooks (movedNote ++ cancelledNote)).postings) ∧
    (run Books.after emptyBooks (movedNote ++ cancelledNote)).postings.map
        (fun e => (e.clientId, e.signedAmount)) =
      [(1, -10000), (1, 2000), (1, 8000), (2, -8000), (2, 8000)] := by
  refine ⟨ledger_follows_notes emptyBooks rfl rfl movedNote cancelledNote, ?_⟩
  decide +kernel

end Vigabss.Billing
