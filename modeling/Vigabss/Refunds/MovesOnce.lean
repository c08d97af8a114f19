import Vigabss.Refunds.Requests

/-!
# Vigabss.Refunds.MovesOnce — money moves at most once for a refund request

Only one processing holds the claim at a time, and while it does the row keeps the figures of its
last approval.  That stands as long as nobody writes over the claim from an old read, and no error
gives the claim back after the money moved.
-/

namespace Vigabss.Refunds

open Vigabss.Lib

/-! ### The invariant -/

/-- The call has the claim of the request. -/
def Stage.holds : Stage → Bool
  | .fetching _ | .paying _ _ | .recording _ _ | .finishing _ _ | .releasing => true
  | .reading _ | .editing _ | .reviewing _ | .writing _ | .claiming _ | .done => false

/-- The row is past its review. -/
def Request.Past (s : Request) : Prop := s.row.status = .processed ∨ s.row.status = .rejected

def Request.Over (s : Request) : Prop := ∃ e ∈ s.history, e.closes = true

/-- The row is claimed, with the figures of its approval, and no money has moved. -/
structure Reserved (s : Request) : Prop where
  past : s.Past
  figures : lastApproval s.history = some s.row.figures
  unpaid : s.history.filter Event.isMove = []
  ongoing : s.row.status = .processed → ¬ s.Over

/-- What a call that holds the claim relies on. -/
def Relies (s : Request) : Stage → Prop
  | .fetching _ | .releasing => Reserved s
  | .paying _ figures => Reserved s ∧ figures = s.row.figures
  | .recording method figures | .finishing method figures =>
    s.Past ∧ (method = .manual → Reserved s ∧ figures = s.row.figures)
  | .reading _ | .editing _ | .reviewing _ | .writing _ | .claiming _ | .done => True

/-- Two calls do not hold the claim at once. -/
def Apart (t u : Stage) : Prop := ¬ (t.holds = true ∧ u.holds = true)

structure RequestInv (s : Request) : Prop where
  lawful : Lawful s
  approved : s.row.status = .approved → lastApproval s.history = some s.row.figures
  past : s.Over → s.Past

theorem relies_of_idle {s : Request} {t : Stage} (h : t.holds = false) : Relies s t := by
  cases t <;> trivial

theorem Relies.past {s : Request} {t : Stage} (h : Relies s t) (ht : t.holds = true) : s.Past := by
  cases t with
  | fetching method => exact Reserved.past h
  | releasing => exact Reserved.past h
  | paying method figures => exact h.1.past
  | recording method figures => exact h.1
  | finishing method figures => exact h.1
  | _ => cases ht

theorem Relies.congr {s s' : Request} {t : Stage} (h : Relies s t) (hpast : s'.Past)
    (hfig : s'.row.figures = s.row.figures) (hres : Reserved s → Reserved s') : Relies s' t := by
  cases t with
  | fetching method => exact hres h
  | releasing => exact hres h
  | paying method figures => exact ⟨hres h.1, h.2.trans hfig.symm⟩
  | recording method figures =>
    exact ⟨hpast, fun hm => ⟨hres (h.2 hm).1, (h.2 hm).2.trans hfig.symm⟩⟩
  | finishing method figures =>
    exact ⟨hpast, fun hm => ⟨hres (h.2 hm).1, (h.2 hm).2.trans hfig.symm⟩⟩
  | _ => trivial

theorem Request.Past.not_approved {s : Request} (h : s.Past) : s.row.status ≠ .approved := by
  rcases h with h | h <;> rw [h] <;> decide

theorem Request.Past.not_open {s : Request} (h : s.Past) : ¬ s.row.status.isOpen = true := by
  rcases h with h | h <;> rw [h] <;> decide

/-! ### The history -/

theorem over_cons {s : Request} {e : Event} :
    (s.log e).Over ↔ e.closes = true ∨ s.Over := by
  simp [Request.Over, Request.log]

theorem Lawful.log {s : Request} {e : Event} (h : Lawful s)
    (hmove : ∀ f, e = .moved f →
      s.history.filter Event.isMove = [] ∧ lastApproval s.history = some f)
    (hclosed : (s.log e).Over → s.row.status ≠ .approved) : Lawful (s.log e) := by
  refine ⟨?_, ?_, hclosed⟩
  · show ((e :: s.history).filter Event.isMove).length ≤ 1
    cases e with
    | moved f =>
      rw [List.filter_cons_of_pos rfl, (hmove f rfl).1]
      exact Nat.le_refl 1
    | approved f => exact h.once
    | rejected => exact h.once
    | processed => exact h.once
  · intro f older hsuffix
    rcases List.suffix_cons_iff.1 hsuffix with heq | hold
    · obtain ⟨rfl, rfl⟩ := List.cons.inj heq
      exact (hmove f rfl).2
    · exact h.asApproved f older hold

/-! ### The statements -/

section Statements

variable {s : Request} (h : RequestInv s)

include h

theorem RequestInv.edit {changes : Changes}
    (hgood : (s.row.edit changes).figures = s.row.figures ∨ s.row.status.isOpen = true) :
    RequestInv (s.edit changes) := by
  refine ⟨⟨h.lawful.once, h.lawful.asApproved, h.lawful.closed⟩, ?_, h.past⟩
  intro happroved
  have hstatus : s.row.status = .approved := happroved
  rcases hgood with hsame | hopen
  · show _ = some (s.row.edit changes).figures
    rw [hsame]
    exact h.approved hstatus
  · rw [hstatus] at hopen
    cases hopen

theorem RequestInv.review {verdict : Verdict}
    (hgood : verdict = .approved → s.row.status.isOpen = true ∨ s.row.status = .approved) :
    RequestInv (review verdict s) := by
  cases verdict with
  | approved =>
    have hnot : ¬ s.Over := by
      intro hover
      rcases hgood rfl with hopen | happ
      · exact (h.past hover).not_open hopen
      · exact (h.past hover).not_approved happ
    have hover : ¬ ((s.setStatus .approved).log (.approved s.row.figures)).Over := by
      rw [over_cons]
      rintro (hc | ho)
      · cases hc
      · exact hnot ho
    have hset : Lawful (s.setStatus .approved) :=
      ⟨h.lawful.once, h.lawful.asApproved, fun ho => absurd ho hnot⟩
    refine ⟨hset.log (by simp) fun ho => absurd ho hover, fun _ => rfl, fun ho => absurd ho hover⟩
  | rejected =>
    have hset : Lawful (s.setStatus .rejected) :=
      ⟨h.lawful.once, h.lawful.asApproved, fun _ => by simp [Request.setStatus]⟩
    refine ⟨hset.log (by simp) fun _ => by simp [Request.setStatus], ?_, fun _ => .inr rfl⟩
    intro happ
    cases happ

theorem RequestInv.claim : RequestInv (s.setStatus .processed) := by
  refine ⟨⟨h.lawful.once, h.lawful.asApproved, fun _ => by simp [Request.setStatus]⟩, ?_,
    fun _ => .inl rfl⟩
  intro happ
  cases happ

theorem RequestInv.move {f : Figures} (hres : Reserved s) (hf : f = s.row.figures) :
    RequestInv (s.log (.moved f)) := by
  refine ⟨h.lawful.log ?_ fun _ => hres.past.not_approved, ?_, fun _ => hres.past⟩
  · intro g hg
    cases hg
    exact ⟨hres.unpaid, by rw [hf]; exact hres.figures⟩
  · intro happ
    exact absurd happ hres.past.not_approved

theorem RequestInv.finish {method : RefundMethod} {f : Figures}
    (hmanual : method = .manual → Reserved s ∧ f = s.row.figures) :
    RequestInv (finish method f s) := by
  -- the row as it is left
  have hset : ∀ s' : Request, s'.history = s.history → s'.row.status = .processed →
      Lawful s' := by
    intro s' hh hs
    refine ⟨?_, ?_, fun _ => by rw [hs]; decide⟩
    · rw [hh]
      exact h.lawful.once
    · rw [hh]
      exact h.lawful.asApproved
  unfold Refunds.finish
  split_ifs with hm
  · obtain ⟨hres, rfl⟩ := hmanual hm
    refine ⟨Lawful.log (Lawful.log (hset _ rfl rfl) ?_ ?_) (by simp) ?_, ?_, fun _ => .inl rfl⟩
    · intro g hg
      cases hg
      exact ⟨hres.unpaid, hres.figures⟩
    · exact fun _ => by simp
    · exact fun _ => by simp [Request.log]
    · intro happ
      cases happ
  · refine ⟨Lawful.log (hset _ rfl rfl) (by simp) fun _ => by simp, ?_, fun _ => .inl rfl⟩
    intro happ
    cases happ

theorem RequestInv.release (hres : Reserved s) (hstatus : s.row.status = .processed) :
    RequestInv (s.setStatus .approved) := by
  have hnot : ¬ (s.setStatus .approved).Over := hres.ongoing hstatus
  refine ⟨⟨h.lawful.once, h.lawful.asApproved, fun ho => absurd ho hnot⟩, fun _ => hres.figures,
    fun ho => absurd ho hnot⟩

end Statements

/-! ### What the other calls see -/

theorem Reserved.congr {s s' : Request} (h : Reserved s) (hrow : s'.row.figures = s.row.figures)
    (hstatus : s'.row.status = s.row.status) (hhistory : s'.history = s.history) :
    Reserved s' := by
  refine ⟨?_, ?_, ?_, ?_⟩
  · unfold Request.Past
    rw [hstatus]
    exact h.past
  · rw [hhistory, hrow]
    exact h.figures
  · rw [hhistory]
    exact h.unpaid
  · unfold Request.Over
    rw [hstatus, hhistory]
    exact h.ongoing

theorem Reserved.reject {s : Request} (h : Reserved s) : Reserved (review .rejected s) where
  past := .inr rfl
  figures := h.figures
  unpaid := h.unpaid
  ongoing hstatus := by cases hstatus

theorem others_idle {s' : Request} {t t' : Stage} (ht : t.holds = true) (u : Stage)
    (hapart : Apart t u) : Relies s' u ∧ Apart t' u := by
  have hu : u.holds = false := by
    rw [← Bool.not_eq_true]
    exact fun hu => hapart ⟨ht, hu⟩
  refine ⟨relies_of_idle hu, ?_⟩
  rintro ⟨-, h⟩
  rw [hu] at h
  cases h

theorem apart_idle {t u : Stage} (ht : t.holds = false) : Apart t u := by
  rintro ⟨h, -⟩
  rw [ht] at h
  cases h

theorem effect_cases (P : Request → Prop) (a : Answer) {f : Request → Request} {s : Request}
    (hs : P s) (hf : P (f s)) : P (effect a f s) := by
  unfold effect
  split_ifs
  · exact hs
  · exact hf

theorem idle_turn {s s' : Request} {t t' : Stage} (hG : RequestInv s') (ht' : t'.holds = false)
    (hother : ∀ u, Relies s u → Relies s' u) :
    RequestInv s' ∧ Relies s' t' ∧ ∀ u, Relies s u → Apart t u → Relies s' u ∧ Apart t' u :=
  ⟨hG, relies_of_idle ht', fun u hu _ => ⟨hother u hu, apart_idle ht'⟩⟩

theorem holder_turn {s s' : Request} {t t' : Stage} (ht : t.holds = true) (hG : RequestInv s')
    (hL : Relies s' t') :
    RequestInv s' ∧ Relies s' t' ∧ ∀ u, Relies s u → Apart t u → Relies s' u ∧ Apart t' u :=
  ⟨hG, hL, fun u _ hapart => others_idle ht u hapart⟩

/-! ### The turns -/

theorem turn_editing {s : Request} {changes : Changes} {a : Answer}
    (hgood : Covered s (.editing changes) a) (u : Stage) (hu : Relies s u) :
    Relies (s.edit changes) u := by
  by_cases hhold : u.holds = true
  · have hpast := hu.past hhold
    have hsame : (s.row.edit changes).figures = s.row.figures :=
      hgood.resolve_right hpast.not_open
    exact hu.congr hpast hsame fun h => h.congr hsame rfl rfl
  · exact relies_of_idle (by simpa using hhold)

theorem turn_writing {s : Request} {verdict : Verdict} {a : Answer}
    (hgood : Covered s (.writing verdict) a) (u : Stage) (hu : Relies s u) :
    Relies (review verdict s) u := by
  by_cases hhold : u.holds = true
  · have hpast := hu.past hhold
    cases verdict with
    | approved =>
      rcases hgood with hopen | happ
      · exact absurd hopen hpast.not_open
      · exact absurd happ hpast.not_approved
    | rejected => exact hu.congr (.inr rfl) rfl fun h => h.reject
  · exact relies_of_idle (by simpa using hhold)

/-- The claim: nobody else has it, since the row is approved. -/
theorem turn_claiming {s : Request} {method : RefundMethod} {a : Answer} (hs : RequestInv s)
    (happ : s.row.status = .approved) :
    RequestInv (next s (.claiming method) a).1 ∧
      Relies (next s (.claiming method) a).1 (next s (.claiming method) a).2 ∧
      ∀ u, Relies s u → Apart (.claiming method) u →
        Relies (next s (.claiming method) a).1 u ∧ Apart (next s (.claiming method) a).2 u := by
  have hnot : ¬ s.Over := fun ho => hs.lawful.closed ho happ
  have hunpaid : s.history.filter Event.isMove = [] := by
    rw [List.filter_eq_nil_iff]
    intro e he hmove
    refine hnot ⟨e, he, ?_⟩
    cases e <;> first | rfl | cases hmove
  have hclaimed : Reserved (s.setStatus .processed) :=
    ⟨.inl rfl, hs.approved happ, hunpaid, fun _ => hnot⟩
  have hidle : ∀ u, Relies s u → u.holds = false := by
    intro u hu
    rw [← Bool.not_eq_true]
    exact fun hhold => (hu.past hhold).not_approved happ
  simp only [next, if_pos happ]
  refine ⟨effect_cases RequestInv a hs hs.claim, ?_, ?_⟩
  · by_cases ha : a = .ok
    · subst ha
      exact hclaimed
    · rw [if_neg ha]
      trivial
  · intro u hu _
    refine ⟨relies_of_idle (hidle u hu), ?_⟩
    rintro ⟨-, h⟩
    rw [hidle u hu] at h
    cases h

theorem turn_paying {s : Request} {method : RefundMethod} {f : Figures} {a : Answer}
    (hs : RequestInv s) (hres : Reserved s) (hf : f = s.row.figures)
    (hgood : Covered s (.paying method f) a) :
    RequestInv (pay method f s a).1 ∧ Relies (pay method f s a).1 (pay method f s a).2 := by
  -- a statement that moves the money, or fails without
  have hmove : method ≠ .manual → RequestInv (effect a (Request.log (.moved f)) s) ∧
      Relies (effect a (Request.log (.moved f)) s)
        (if a = .ok then .recording method f else .releasing) := by
    intro hmanual
    cases a with
    | ok => exact ⟨hs.move hres hf, hres.past, fun hm => absurd hm hmanual⟩
    | failed => exact ⟨hs, hres⟩
    | lost => exact absurd rfl (hgood.resolve_left hmanual)
  cases method with
  | manual => exact ⟨hs, hres.past, fun _ => ⟨hres, hf⟩⟩
  | credit_balance => exact hmove (by decide)
  | credit_note => exact hmove (by decide)
  | original_method =>
    by_cases hnone : f.payment_id = none
    · simp only [pay, if_pos hnone]
      exact ⟨hs, hres⟩
    · simp only [pay, if_neg hnone]
      exact hmove (by decide)

theorem turn_finishing {s : Request} {method : RefundMethod} {f : Figures} {a : Answer}
    (hs : RequestInv s) (hrel : Relies s (.finishing method f))
    (hgood : Covered s (.finishing method f) a) :
    RequestInv (next s (.finishing method f) a).1 ∧
      Relies (next s (.finishing method f) a).1 (next s (.finishing method f) a).2 := by
  have hfinish := hs.finish hrel.2
  show RequestInv (if _ then _ else _ : Request × Stage).1 ∧ _
  by_cases hstored : method.stored = true
  · simp only [next, if_pos hstored]
    refine ⟨effect_cases RequestInv a hs hfinish, ?_⟩
    by_cases ha : a = .ok
    · rw [if_pos ha]
      trivial
    · rw [if_neg ha]
      by_cases horig : method = .original_method
      · rw [afterError, if_pos horig]
        trivial
      · rcases hgood with h | ⟨hm, hlost⟩ | ⟨-, h⟩
        · exact absurd h horig
        · have hfailed : a = .failed := by cases a <;> simp_all
          rw [afterError, if_neg horig, effect, if_pos hfailed]
          exact (hrel.2 hm).1
        · exact absurd h ha
  · simp only [next, if_neg hstored]
    refine ⟨hs, ?_⟩
    have hnote : method = .credit_note := by simpa [RefundMethod.stored] using hstored
    subst hnote
    rcases hgood with h | ⟨h, -⟩ | ⟨h, -⟩ <;> cases h

/-- **One statement**, of any call, keeps the invariant. -/
theorem turn_keeps (s : Request) (t : Stage) (a : Answer) (hs : RequestInv s) (ht : Relies s t)
    (hgood : Covered s t a) :
    RequestInv (next s t a).1 ∧ Relies (next s t a).1 (next s t a).2 ∧
      ∀ u, Relies s u → Apart t u → Relies (next s t a).1 u ∧ Apart (next s t a).2 u := by
  cases t with
  | reading changes =>
    refine idle_turn hs ?_ fun u hu => hu
    simp only [next]
    split_ifs <;> rfl
  | editing changes =>
    exact idle_turn (effect_cases RequestInv a hs (hs.edit hgood)) rfl fun u hu =>
      effect_cases (Relies · u) a hu (turn_editing hgood u hu)
  | reviewing verdict =>
    refine idle_turn hs ?_ fun u hu => hu
    simp only [next]
    split_ifs <;> rfl
  | writing verdict =>
    have hreview : verdict = .approved → s.row.status.isOpen = true ∨ s.row.status = .approved := by
      rintro rfl
      exact hgood
    exact idle_turn (effect_cases RequestInv a hs (hs.review hreview)) rfl fun u hu =>
      effect_cases (Relies · u) a hu (turn_writing hgood u hu)
  | claiming method =>
    by_cases happ : s.row.status = .approved
    · exact turn_claiming hs happ
    · simp only [next, if_neg happ]
      exact idle_turn hs rfl fun u hu => hu
  | fetching method =>
    refine holder_turn rfl hs ?_
    simp only [next]
    split_ifs
    · exact ⟨ht, rfl⟩
    · trivial
  | paying method f =>
    obtain ⟨hG, hL⟩ := turn_paying hs ht.1 ht.2 hgood
    exact holder_turn rfl hG hL
  | recording method f =>
    refine holder_turn rfl hs ?_
    simp only [next]
    split_ifs with ha
    · exact ht
    · by_cases horig : method = .original_method
      · rw [afterError, if_pos horig]
        trivial
      · rw [afterError, if_neg horig]
        rcases hgood with h | h | h
        · exact absurd h horig
        · exact (ht.2 h).1
        · exact absurd h ha
  | finishing method f =>
    obtain ⟨hG, hL⟩ := turn_finishing hs ht hgood
    exact holder_turn rfl hG hL
  | releasing =>
    refine holder_turn rfl ?_ trivial
    simp only [next]
    split_ifs with hstatus
    · exact effect_cases RequestInv a hs (hs.release ht hstatus)
    · exact hs
  | done => exact idle_turn hs rfl fun u hu => hu

/-! ### The law -/

theorem requestInv_created (amount : ℤ) (payment_id invoice_id : Option ℕ) (reason : RefundReason) :
    RequestInv (createRequest amount payment_id invoice_id reason) := by
  have hnot : ¬ (createRequest amount payment_id invoice_id reason).Over := by
    rintro ⟨e, he, -⟩
    cases he
  refine ⟨⟨Nat.zero_le 1, ?_, fun ho => absurd ho hnot⟩, ?_, fun ho => absurd ho hnot⟩
  · intro f older hsuffix
    cases List.suffix_nil.1 hsuffix
  · intro happ
    cases happ

/-- **Money moves at most once** for a refund request, after an approval and with its figures, and
a request that is over is not approved again, in every run whose statements are covered. -/
theorem refund_moves_once (amount : ℤ) (payment_id invoice_id : Option ℕ) (reason : RefundReason)
    (is : List (Turn Call Answer))
    (h : StepsMeet step (Threads.Meets Covered)
      (Threads.idle (createRequest amount payment_id invoice_id reason)) is) :
    Always step (fun s => Lawful s.shared)
      (Threads.idle (createRequest amount payment_id invoice_id reason)) is := by
  have hinv : RequestInv (createRequest amount payment_id invoice_id reason) :=
    requestInv_created amount payment_id invoice_id reason
  have hkept := @Threads.always_holds _ _ _ _ start next RequestInv Relies Apart Covered
    (fun t u htu hut => htu hut.symm) (fun s c => relies_of_idle (by cases c <;> rfl))
    (fun c u => apart_idle (by cases c <;> rfl)) turn_keeps _ (Threads.Holds.idle hinv) is h
  exact hkept.mono fun s hs => hs.lawful

/-- One review and one processing, to the end. -/
def processedOnce : List (Turn Call Answer) :=
  [.call (.reviewRequest .approved), .turn 0 .ok, .turn 0 .ok,
    .call (.processRequest .credit_balance), .turn 1 .ok, .turn 1 .ok, .turn 1 .ok, .turn 1 .ok,
    .turn 1 .ok]

/-- The law at a run of one review and one processing. -/
theorem refund_moves_once_processed :
    StepsMeet step (Threads.Meets Covered) (Threads.idle (createRequest 10000 none none .overcharge))
        processedOnce ∧
      Always step (fun s => Lawful s.shared)
        (Threads.idle (createRequest 10000 none none .overcharge)) processedOnce := by
  have hgood : StepsMeet step (Threads.Meets Covered)
      (Threads.idle (createRequest 10000 none none .overcharge)) processedOnce := by decide
  exact ⟨hgood, refund_moves_once 10000 none none .overcharge processedOnce hgood⟩

/-- Two reviewers read the open request; the second writes its approval after the refund that
followed the first. -/
def approvedTwice : List (Turn Call Answer) :=
  [.call (.reviewRequest .approved), .call (.reviewRequest .approved), .turn 0 .ok, .turn 1 .ok,
    .turn 0 .ok, .call (.processRequest .credit_balance), .turn 2 .ok, .turn 2 .ok, .turn 2 .ok,
    .turn 2 .ok, .turn 2 .ok, .turn 1 .ok, .call (.processRequest .credit_balance), .turn 3 .ok,
    .turn 3 .ok, .turn 3 .ok]

/-- The late approval lets the request be paid twice. -/
theorem late_approval_pays_twice :
    ¬ Always step (fun s => Lawful s.shared)
      (Threads.idle (createRequest 10000 none none .overcharge)) approvedTwice := by
  intro h
  have honce := h.last.once
  revert honce
  decide

end Vigabss.Refunds
