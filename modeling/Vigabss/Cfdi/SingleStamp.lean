import Vigabss.Cfdi.Stamping

/-!
# Vigabss.Cfdi.SingleStamp — an invoice is registered once

An attempt whose outcome is not known must be settled by the same request to the same PAC.  `stamp`
does not remember which request that was, so the law holds in a run just when every `stamp` of the
run happens to repeat it (`one_stamp_iff`).
-/

namespace Vigabss.Cfdi

open Vigabss.Lib

/-! ### The law -/

/-- At most one CFDI is registered; while an attempt is not settled the document can not be
discarded, and every request that reached a PAC then was that attempt. -/
structure OneStamp (s : State) : Prop where
  single : s.pacs.registered.length ≤ 1
  kept : s.pacs.unsettled ≠ [] → ∃ doc, s.doc = some doc ∧ discardRefusal (some doc) ≠ none
  same : ∀ sub ∈ s.pacs.submissions, ∀ a ∈ sub.unsettled, sub.attempt = a

/-- The first PAC that a stamp call reaches, and what it is sent. -/
inductive Reach where
  | nobody
  | sealError
  | reaches (a : Attempt)

variable (sealXml : Csd → String → Except AppError String)

/-- The first PAC whose circuit is closed and one of whose attempts is not unreachable, unless a
PAC before it, whose circuit is closed, can not be sealed for. -/
def firstReached (cfg : Setting) (xml : String) : List Pac → (ℕ → Breaker) → Reach
  | [], _ => .nobody
  | pac :: rest, breakers =>
    if (breakers pac.id).isOpen (cfg.now pac.id) then firstReached cfg xml rest breakers
    else
      match sealXmlForProvider sealXml cfg.csd (cfg.now pac.id) pac xml with
      | .error _ => .sealError
      | .ok xmlToStamp =>
        if ∀ n ∈ attemptNumbers, cfg.outcome pac.id n = .unreachable then
          firstReached cfg xml rest
            (Function.update breakers pac.id ((breakers pac.id).recordFailure (cfg.now pac.id)))
        else .reaches ⟨pac.id, xmlToStamp⟩

/-- The call repeats `a`, submits nothing because of the seal, or reaches nobody and does not
record that. -/
def Repeats (cfg : Setting) (a : Attempt) : Reach → Prop
  | .nobody => cfg.saved = false
  | .sealError => True
  | .reaches b => b = a

/-- A stamp call while attempts are not settled repeats them. -/
def Retries (s : State) : Event → Prop
  | .stamp cfg => ∀ r, stampChecks cfg s.doc = .ok r → ∀ a ∈ s.pacs.unsettled,
      Repeats cfg a (firstReached sealXml cfg r.1 r.2 s.breakers)
  | _ => True

/-! ### One request -/

theorem Pacs.register_registered (w : Pacs) (a : Attempt) :
    (w.register a).registered = if a ∈ w.registered then w.registered
      else w.registered ++ [a] := by
  unfold Pacs.register
  split_ifs <;> rfl

theorem Pacs.register_unsettled (w : Pacs) (a : Attempt) :
    (w.register a).unsettled = w.unsettled := by
  unfold Pacs.register
  split_ifs <;> rfl

theorem Pacs.register_submissions (w : Pacs) (a : Attempt) :
    (w.register a).submissions = w.submissions := by
  unfold Pacs.register
  split_ifs <;> rfl

theorem callPacStamp_submissions {w w' : Pacs} {a : Attempt} {o : Outcome}
    {r : Except StampError Uuid} (ho : o ≠ .unreachable) (h : callPacStamp w a o = (w', r)) :
    w'.submissions = ⟨a, w.unsettled⟩ :: w.submissions := by
  cases o with
  | unreachable => exact absurd rfl ho
  | stamped =>
    obtain ⟨rfl, -⟩ := Prod.mk.inj h
    show ((w.log a).register a).submissions = _
    rw [Pacs.register_submissions]
    rfl
  | refused =>
    simp only [callPacStamp] at h
    split_ifs at h <;> obtain ⟨rfl, -⟩ := Prod.mk.inj h <;> rfl
  | lost took =>
    obtain ⟨rfl, -⟩ := Prod.mk.inj h
    cases took with
    | true =>
      show ((w.log a).register a).submissions = _
      rw [Pacs.register_submissions]
      rfl
    | false => rfl

/-- Nothing is registered or unsettled except possibly `a`, which is unsettled if registered. -/
def Only (a : Attempt) (w : Pacs) : Prop :=
  w.unsettled = [] ∧ w.registered = [] ∨
    w.unsettled = [a] ∧ (w.registered = [] ∨ w.registered = [a])

theorem Only.filter_unsettled {a : Attempt} {w : Pacs} (h : Only a w) :
    w.unsettled.filter (· ≠ a) = [] := by
  rcases h with ⟨hu, -⟩ | ⟨hu, -⟩ <;> simp [hu]

theorem Only.registered {a : Attempt} {w : Pacs} (h : Only a w) :
    w.registered = [] ∨ w.registered = [a] := by
  rcases h with ⟨-, hr⟩ | ⟨-, hr⟩
  · exact .inl hr
  · exact hr

theorem Only.register_registered {a : Attempt} {w : Pacs} (h : Only a w) :
    (w.register a).registered = [a] := by
  rw [Pacs.register_registered]
  rcases h.registered with hr | hr <;> simp [hr]

/-- What the PACs hold after `a` is submitted once more. -/
inductive Answered (a : Attempt) (w : Pacs) : Except StampError Uuid → Prop
  | stamped (uuid : Uuid) (hu : w.unsettled = []) (hr : w.registered = [a]) :
    Answered a w (.ok uuid)
  | refused (hu : w.unsettled = []) (hr : w.registered = []) : Answered a w (.error .refused)
  | noAnswer (hu : w.unsettled = [a]) (hr : w.registered = [] ∨ w.registered = [a]) :
    Answered a w (.error .noAnswer)

theorem callPacStamp_answered {w w' : Pacs} {a : Attempt} {o : Outcome}
    {r : Except StampError Uuid} (hw : Only a w) (ho : o ≠ .unreachable)
    (h : callPacStamp w a o = (w', r)) : Answered a w' r := by
  have hlog : Only a (w.log a) := hw
  cases o with
  | unreachable => exact absurd rfl ho
  | stamped =>
    obtain ⟨rfl, rfl⟩ := Prod.mk.inj h
    refine .stamped _ ?_ hlog.register_registered
    show ((w.log a).register a).unsettled.filter (· ≠ a) = []
    rw [Pacs.register_unsettled]
    exact hlog.filter_unsettled
  | refused =>
    simp only [callPacStamp] at h
    split_ifs at h with ha
    · obtain ⟨rfl, rfl⟩ := Prod.mk.inj h
      refine .stamped _ hlog.filter_unsettled ?_
      show w.registered = [a]
      rcases hw.registered with hr | hr
      · rw [hr] at ha
        exact absurd ha List.not_mem_nil
      · exact hr
    · obtain ⟨rfl, rfl⟩ := Prod.mk.inj h
      refine .refused hlog.filter_unsettled ?_
      show w.registered = []
      rcases hw.registered with hr | hr
      · exact hr
      · exact absurd (hr ▸ List.mem_singleton_self a) ha
  | lost took =>
    obtain ⟨rfl, rfl⟩ := Prod.mk.inj h
    cases took with
    | true =>
      refine .noAnswer ?_ (.inr hlog.register_registered)
      show a :: ((w.log a).register a).unsettled.filter (· ≠ a) = [a]
      rw [Pacs.register_unsettled, hlog.filter_unsettled]
    | false =>
      refine .noAnswer ?_ hw.registered
      show a :: (w.log a).unsettled.filter (· ≠ a) = [a]
      rw [hlog.filter_unsettled]

/-! ### The loop over the PACs -/

theorem tryProvider_unreachable {a : Attempt} {outcome : ℕ → Outcome} {ns : List ℕ}
    (h : ∀ n ∈ ns, outcome n = .unreachable) (w : Pacs) :
    tryProvider a outcome ns w = (w, .error .unreachable) := by
  induction ns with
  | nil => rfl
  | cons n ns ih =>
    simp only [tryProvider, h n List.mem_cons_self, callPacStamp]
    exact ih fun m hm => h m (List.mem_cons_of_mem n hm)

theorem callPacStamp_reached {w w' : Pacs} {a : Attempt} {o : Outcome} {err : StampError}
    (ho : o ≠ .unreachable) (h : callPacStamp w a o = (w', .error err)) :
    err.isUnreachable = false := by
  cases o with
  | unreachable => exact absurd rfl ho
  | stamped => cases (Prod.mk.inj h).2
  | refused =>
    simp only [callPacStamp] at h
    split_ifs at h
    · cases (Prod.mk.inj h).2
    · cases (Prod.mk.inj h).2
      rfl
  | lost took =>
    cases (Prod.mk.inj h).2
    rfl

theorem tryProvider_reached {a : Attempt} {outcome : ℕ → Outcome} {ns : List ℕ}
    (h : ¬ ∀ n ∈ ns, outcome n = .unreachable) (w : Pacs) :
    ∃ o, o ≠ .unreachable ∧ tryProvider a outcome ns w = callPacStamp w a o := by
  induction ns with
  | nil => exact absurd (fun n hn => absurd hn List.not_mem_nil) h
  | cons n ns ih =>
    by_cases hn : outcome n = .unreachable
    · obtain ⟨o, ho, heq⟩ := ih fun hns => h fun m hm => by
        rcases List.mem_cons.1 hm with rfl | hm
        · exact hn
        · exact hns m hm
      refine ⟨o, ho, ?_⟩
      simp only [tryProvider, hn, callPacStamp]
      exact heq
    · refine ⟨outcome n, hn, ?_⟩
      simp only [tryProvider]
      split
      · next w' hcall => exact absurd (callPacStamp_reached hn hcall) (by decide)
      · rfl

/-- How the loop ends, by the first PAC it reaches. -/
inductive Looped (w : Pacs) : Reach → Pacs → Ending → Prop
  | nobody (err : StampError) (h : err.isDefiniteRefusal = true) :
    Looped w .nobody w (.failed (some err))
  | sealError (err : AppError) : Looped w .sealError w (.thrown err)
  | stamped (a : Attempt) (o : Outcome) (pac : Pac) (uuid : Uuid) (w' : Pacs)
    (ho : o ≠ .unreachable) (h : callPacStamp w a o = (w', .ok uuid)) (hpac : pac.id = a.pacId) :
    Looped w (.reaches a) w' (.stamped pac uuid a.xml)
  | failed (a : Attempt) (o : Outcome) (err : StampError) (w' : Pacs) (ho : o ≠ .unreachable)
    (h : callPacStamp w a o = (w', .error err)) :
    Looped w (.reaches a) w' (.failed (some err))

variable {sealXml}

variable (sealXml) in
theorem tryPacs_looped (cfg : Setting) (xml : String) (lastErr : Option StampError)
    (pacs : List Pac) (t : Tried)
    (hlast : pacs ≠ [] ∨ ∃ err, lastErr = some err ∧ err.isDefiniteRefusal = true) :
    Looped t.pacs (firstReached sealXml cfg xml pacs t.breakers)
      (tryPacs sealXml cfg xml lastErr pacs t).1.pacs
      (tryPacs sealXml cfg xml lastErr pacs t).2 := by
  induction pacs generalizing lastErr t with
  | nil =>
    obtain ⟨err, rfl, herr⟩ := hlast.resolve_left fun h => h rfl
    exact .nobody err herr
  | cons pac rest ih =>
    by_cases hopen : (t.breakers pac.id).isOpen (cfg.now pac.id)
    · simp only [tryPacs, firstReached, if_pos hopen]
      exact ih (some .circuitOpen) t (.inr ⟨_, rfl, rfl⟩)
    simp only [tryPacs, firstReached, if_neg hopen]
    cases hseal : sealXmlForProvider sealXml cfg.csd (cfg.now pac.id) pac xml with
    | error err => exact .sealError err
    | ok xmlToStamp =>
      by_cases hun : ∀ n ∈ attemptNumbers, cfg.outcome pac.id n = .unreachable
      · simp only [if_pos hun, tryProvider_unreachable hun]
        exact ih (some .unreachable) ({ t with pacs := t.pacs }.setBreaker pac.id
          ((t.breakers pac.id).recordFailure (cfg.now pac.id))) (.inr ⟨_, rfl, rfl⟩)
      · simp only [if_neg hun]
        obtain ⟨o, ho, htry⟩ := tryProvider_reached (a := ⟨pac.id, xmlToStamp⟩) hun t.pacs
        rw [htry]
        rcases hcall : callPacStamp t.pacs ⟨pac.id, xmlToStamp⟩ o with ⟨w', err | uuid⟩
        · have hreached := callPacStamp_reached ho hcall
          simp only [hreached]
          have hw : (if err.isPacTransportFailure = true then
              Tried.setBreaker { t with pacs := w' } pac.id
                ((t.breakers pac.id).recordFailure (cfg.now pac.id))
              else { t with pacs := w' }).pacs = w' := by
            split_ifs <;> rfl
          rw [if_neg Bool.false_ne_true, hw]
          exact .failed _ o err w' ho hcall
        · exact .stamped ⟨pac.id, xmlToStamp⟩ o pac uuid w' ho hcall rfl

/-! ### The invariant -/

/-- An unstamped draft. -/
def Unstamped (doc : CfdiDocument) : Prop := doc.sat_status = .draft ∧ doc.uuid = none

/-- What the PACs hold for the document. -/
inductive Holds : Option CfdiDocument → Pacs → Prop
  | nothing (w : Pacs) (hu : w.unsettled = []) (hr : w.registered = []) : Holds none w
  | clean (doc : CfdiDocument) (w : Pacs) (hdoc : Unstamped doc) (hu : w.unsettled = [])
    (hr : w.registered = []) : Holds (some doc) w
  | pending (a : Attempt) (doc : CfdiDocument) (w : Pacs) (hdoc : Unstamped doc)
    (hflag : doc.stamp_ambiguous = true) (hu : w.unsettled = [a])
    (hr : w.registered = [] ∨ w.registered = [a]) : Holds (some doc) w
  | stamped (a : Attempt) (doc : CfdiDocument) (w : Pacs) (hdoc : doc.sat_status = .vigente)
    (hu : w.unsettled = []) (hr : w.registered = [a]) : Holds (some doc) w

structure Inv (s : State) : Prop where
  holds : Holds s.doc s.pacs
  same : ∀ sub ∈ s.pacs.submissions, ∀ a ∈ sub.unsettled, sub.attempt = a

theorem Holds.single {d : Option CfdiDocument} {w : Pacs} (h : Holds d w) :
    w.registered.length ≤ 1 := by
  cases h with
  | nothing _ hu hr => simp [hr]
  | clean doc _ hdoc hu hr => simp [hr]
  | pending a doc _ hdoc hflag hu hr => rcases hr with hr | hr <;> simp [hr]
  | stamped a doc _ hdoc hu hr => simp [hr]

theorem Holds.kept {d : Option CfdiDocument} {w : Pacs} (h : Holds d w) (hne : w.unsettled ≠ []) :
    ∃ doc, d = some doc ∧ discardRefusal (some doc) ≠ none := by
  cases h with
  | nothing _ hu hr => exact absurd hu hne
  | clean doc _ hdoc hu hr => exact absurd hu hne
  | pending a doc _ hdoc hflag hu hr =>
    refine ⟨doc, rfl, ?_⟩
    simp [discardRefusal, hdoc.1, hdoc.2, hflag]
  | stamped a doc _ hdoc hu hr => exact absurd hu hne

theorem Inv.oneStamp {s : State} (h : Inv s) : OneStamp s :=
  ⟨h.holds.single, h.holds.kept, h.same⟩

theorem inv_start (breakers : ℕ → Breaker) : Inv (State.start breakers) :=
  ⟨.nothing _ rfl rfl, fun _ h => absurd h List.not_mem_nil⟩

theorem stampChecks_ok {cfg : Setting} {d : Option CfdiDocument} {r : String × List Pac}
    (h : stampChecks cfg d = .ok r) : (∃ doc, d = some doc ∧ Unstamped doc) ∧ r.2 ≠ [] := by
  unfold stampChecks at h
  split at h
  · cases h
  · next doc =>
    split at h
    · cases h
    · next xml hxml =>
      split_ifs at h with hdraft hterm hpacs
      cases h
      have hdoc := not_or.1 hdraft
      exact ⟨⟨doc, rfl, not_not.1 hdoc.1, not_not.1 hdoc.2⟩, hpacs⟩

theorem saveStamp_of_unstamped {doc : CfdiDocument} (h : Unstamped doc) (pac : Pac) (uuid : Uuid)
    (xml : String) : (saveStamp pac uuid xml doc).sat_status = .vigente := by
  have hdraft : doc.sat_status = .draft ∧ doc.uuid = none := h
  rw [saveStamp, if_pos hdraft]

theorem recordFailedAttempt_of_unstamped {doc : CfdiDocument} (h : Unstamped doc) (b : Bool) :
    recordFailedAttempt b doc = { doc with stamp_ambiguous := b } := if_pos h.1

/-- What `finish` leaves, when the PAC that was reached was sent the one attempt that may be
open. -/
theorem holds_finish_answered {cfg : Setting} {doc : CfdiDocument} {a : Attempt} {t : Tried}
    {pac : Pac} {uuid : Uuid} (hdoc : Unstamped doc) (hflag : doc.stamp_ambiguous = true)
    (hpac : pac.id = a.pacId) (h : Answered a t.pacs (.ok uuid)) :
    Holds (finish cfg doc t (.stamped pac uuid a.xml)).doc
      (finish cfg doc t (.stamped pac uuid a.xml)).pacs := by
  obtain ⟨_, hu, hr⟩ := h
  by_cases hs : cfg.saved = true
  · simp only [finish, if_pos hs]
    exact .stamped a _ _ (saveStamp_of_unstamped hdoc pac uuid a.xml) hu hr
  · simp only [finish, if_neg hs, hpac]
    refine .pending a doc _ hdoc hflag ?_ (.inr hr)
    show a :: t.pacs.unsettled.filter (· ≠ a) = [a]
    rw [hu, List.filter_nil]

theorem holds_finish_failed {cfg : Setting} {doc : CfdiDocument} {a : Attempt} {t : Tried}
    {err : StampError} (hdoc : Unstamped doc) (hflag : doc.stamp_ambiguous = true)
    (h : Answered a t.pacs (.error err)) :
    Holds (finish cfg doc t (.failed (some err))).doc
      (finish cfg doc t (.failed (some err))).pacs := by
  have hrec : ∀ b : Bool, Unstamped { doc with stamp_ambiguous := b } := fun _ => hdoc
  cases h with
  | refused hu hr =>
    by_cases hs : cfg.saved = true
    · simp only [finish, if_pos hs, recordFailedAttempt_of_unstamped hdoc]
      exact .clean _ _ (hrec _) hu hr
    · simp only [finish, if_neg hs]
      exact .clean doc _ hdoc hu hr
  | noAnswer hu hr =>
    by_cases hs : cfg.saved = true
    · simp only [finish, if_pos hs, recordFailedAttempt_of_unstamped hdoc]
      exact .pending a _ _ (hrec _) rfl hu hr
    · simp only [finish, if_neg hs]
      exact .pending a doc _ hdoc hflag hu hr

theorem finish_submissions (cfg : Setting) (doc : CfdiDocument) (t : Tried) (e : Ending) :
    (finish cfg doc t e).pacs.submissions = t.pacs.submissions := by
  cases e with
  | thrown err => rfl
  | failed lastErr => rfl
  | stamped pac uuid xml =>
    simp only [finish]
    split_ifs <;> rfl

theorem Holds.only {doc : CfdiDocument} {w : Pacs} (h : Holds (some doc) w) (hdoc : Unstamped doc)
    {a : Attempt} (ha : ∀ b ∈ w.unsettled, a = b) : Only a w := by
  cases h with
  | clean _ _ _ hu hr => exact .inl ⟨hu, hr⟩
  | pending b _ _ _ _ hu hr =>
    have hab : a = b := ha b (by simp [hu])
    subst hab
    exact .inr ⟨hu, hr⟩
  | stamped _ _ _ hv _ _ =>
    have hdraft := hdoc.1
    rw [hv] at hdraft
    cases hdraft

theorem Holds.flag {doc : CfdiDocument} {w : Pacs} (h : Holds (some doc) w) (hdoc : Unstamped doc) :
    Holds (some { doc with stamp_ambiguous := true }) w := by
  cases h with
  | clean _ _ _ hu hr => exact .clean { doc with stamp_ambiguous := true } w hdoc hu hr
  | pending b _ _ _ _ hu hr =>
    exact .pending b { doc with stamp_ambiguous := true } w hdoc rfl hu hr
  | stamped _ _ _ hv _ _ =>
    have hdraft := hdoc.1
    rw [hv] at hdraft
    cases hdraft

/-! ### The steps -/

variable (sealXml) in
theorem stamp_cases (cfg : Setting) (s : State) :
    stamp sealXml cfg s = s ∧ (∀ r, stampChecks cfg s.doc ≠ .ok r) ∨
      ∃ doc r t e, s.doc = some doc ∧ Unstamped doc ∧ stampChecks cfg s.doc = .ok r ∧
        Looped s.pacs (firstReached sealXml cfg r.1 r.2 s.breakers) t.pacs e ∧
        stamp sealXml cfg s = finish cfg { doc with stamp_ambiguous := true } t e := by
  cases hchecks : stampChecks cfg s.doc with
  | error err =>
    refine .inl ⟨?_, fun r h => by cases h⟩
    unfold stamp
    rw [hchecks]
    split
    · next h => cases h
    · rfl
  | ok r =>
    obtain ⟨⟨doc, hdoc, hun⟩, hpacs⟩ := stampChecks_ok hchecks
    have hlooped := tryPacs_looped sealXml cfg r.1 none r.2 ⟨s.breakers, s.pacs⟩
      (.inl hpacs)
    refine .inr ⟨doc, r, _, _, hdoc, hun, rfl, hlooped, ?_⟩
    unfold stamp
    rw [hchecks, hdoc]

theorem inv_stamp {cfg : Setting} {s : State} (hs : Inv s)
    (hretries : Retries sealXml s (.stamp cfg)) : Inv (stamp sealXml cfg s) := by
  rcases stamp_cases sealXml cfg s with
    ⟨heq, -⟩ | ⟨doc, r, t, e, hdoc, hun, hr, hl, heq⟩
  · rw [heq]
    exact hs
  have hholds : Holds (some doc) s.pacs := hdoc ▸ hs.holds
  have hrepeats := hretries r hr
  have hflagged : Unstamped { doc with stamp_ambiguous := true } := hun
  have hlogged : ∀ (a : Attempt) (w : Pacs), (∀ b ∈ s.pacs.unsettled, a = b) →
      w.submissions = ⟨a, s.pacs.unsettled⟩ :: s.pacs.submissions →
      ∀ sub ∈ w.submissions, ∀ b ∈ sub.unsettled, sub.attempt = b := by
    intro a w ha hw sub hsub
    rw [hw] at hsub
    rcases List.mem_cons.1 hsub with rfl | hsub
    · exact ha
    · exact hs.same sub hsub
  rw [heq]
  generalize hreach : firstReached sealXml cfg r.1 r.2 s.breakers = reach at hl hrepeats
  obtain ⟨breakers, w⟩ := t
  cases hl with
  | nobody err herr =>
    refine ⟨?_, hs.same⟩
    by_cases hsaved : cfg.saved = true
    · have hu : s.pacs.unsettled = [] := by
        by_contra hne
        obtain ⟨a, ha⟩ := List.exists_mem_of_ne_nil _ hne
        exact absurd hsaved (by rw [show cfg.saved = false from hrepeats a ha]; decide)
      obtain ⟨-, hreg⟩ | ⟨hua, -⟩ := hholds.only hun (a := ⟨0, ""⟩) (by simp [hu])
      · simp only [finish, if_pos hsaved, recordFailedAttempt_of_unstamped hflagged]
        exact .clean _ _ hun hu hreg
      · rw [hu] at hua
        cases hua
    · simp only [finish, if_neg hsaved]
      exact hholds.flag hun
  | sealError err => exact ⟨hholds.flag hun, hs.same⟩
  | stamped a o pac uuid _ ho hcall hpac =>
    have ha : ∀ b ∈ s.pacs.unsettled, a = b := hrepeats
    refine ⟨?_, ?_⟩
    · exact holds_finish_answered hflagged rfl hpac
        (callPacStamp_answered (hholds.only hun ha) ho hcall)
    · rw [finish_submissions]
      exact hlogged a w ha (callPacStamp_submissions ho hcall)
  | failed a o err _ ho hcall =>
    have ha : ∀ b ∈ s.pacs.unsettled, a = b := hrepeats
    refine ⟨?_, ?_⟩
    · exact holds_finish_failed hflagged rfl
        (callPacStamp_answered (hholds.only hun ha) ho hcall)
    · rw [finish_submissions]
      exact hlogged a w ha (callPacStamp_submissions ho hcall)

/-- A stamp call that does not repeat what is not settled breaks the law. -/
theorem not_oneStamp_stamp {cfg : Setting} {s : State}
    (hretries : ¬ Retries sealXml s (.stamp cfg)) : ¬ OneStamp (stamp sealXml cfg s) := by
  intro hlaw
  apply hretries
  intro r hr a ha
  rcases stamp_cases sealXml cfg s with
    ⟨-, hno⟩ | ⟨doc, r', t, e, hdoc, hun, hr', hl, heq⟩
  · exact absurd hr (hno r)
  rw [hr] at hr'
  cases hr'
  rw [heq] at hlaw
  have hflagged : Unstamped { doc with stamp_ambiguous := true } := hun
  generalize hreach : firstReached sealXml cfg r.1 r.2 s.breakers = reach at hl ⊢
  have hsame : ∀ b, t.pacs.submissions = ⟨b, s.pacs.unsettled⟩ :: s.pacs.submissions → b = a := by
    intro b hb
    refine hlaw.same ⟨b, s.pacs.unsettled⟩ ?_ a ha
    rw [finish_submissions, hb]
    exact List.mem_cons_self
  obtain ⟨breakers, w⟩ := t
  cases hl with
  | nobody err herr =>
    show cfg.saved = false
    by_contra hsaved
    rw [Bool.not_eq_false] at hsaved
    obtain ⟨d, hd, hkept⟩ := hlaw.kept (List.ne_nil_of_mem ha)
    simp only [finish, if_pos hsaved, recordFailedAttempt_of_unstamped hflagged] at hd
    cases hd
    simp [discardRefusal, hun.1, hun.2, herr] at hkept
  | sealError err => trivial
  | stamped b o pac uuid _ ho hcall hpac => exact hsame b (callPacStamp_submissions ho hcall)
  | failed b o err _ ho hcall => exact hsame b (callPacStamp_submissions ho hcall)

theorem inv_generateXml {s : State} (hs : Inv s) (built : Except AppError String) :
    Inv (generateXml built s) := by
  unfold generateXml
  split
  · next doc xml hdoc =>
    split_ifs with hdraft
    · exact hs
    · have hholds : Holds (some doc) s.pacs := hdoc ▸ hs.holds
      have hd : doc.sat_status = .draft := not_not.1 hdraft
      refine ⟨?_, hs.same⟩
      cases hholds with
      | clean _ _ hun hu hr => exact .clean _ _ ⟨rfl, hun.2⟩ hu hr
      | pending a _ _ hun hflag hu hr => exact .pending a _ _ ⟨rfl, hun.2⟩ hflag hu hr
      | stamped a _ _ hv hu hr =>
        rw [hv] at hd
        cases hd
  · exact hs

theorem generateXml_pacs (built : Except AppError String) (s : State) :
    (generateXml built s).pacs = s.pacs := by
  unfold generateXml
  split
  · split_ifs <;> rfl
  · rfl

theorem retries_of_settled {s : State} (h : s.pacs.unsettled = []) (cfg : Setting) :
    Retries sealXml s (.stamp cfg) := by
  intro r _ a ha
  rw [h] at ha
  exact absurd ha List.not_mem_nil

theorem inv_stampInvoice {s : State} (hs : Inv s) (built : Except AppError String)
    (cfg : Setting) : Inv (stampInvoice sealXml built cfg s) := by
  unfold stampInvoice
  split
  · exact hs
  · next hdoc =>
    have hholds : Holds none s.pacs := hdoc ▸ hs.holds
    obtain ⟨_, hu, hr⟩ := hholds
    have hnew : Inv { s with doc := some newDraft } :=
      ⟨.clean newDraft s.pacs ⟨rfl, rfl⟩ hu hr, hs.same⟩
    have hgen := inv_generateXml hnew built
    cases built with
    | error err => exact hgen
    | ok xml => exact inv_stamp hgen (retries_of_settled (by rw [generateXml_pacs]; exact hu) cfg)

theorem inv_discardDraft {s s' : State} (hs : Inv s) (h : discardDraft s = .ok s') : Inv s' := by
  unfold discardDraft at h
  split at h
  · cases h
  · next hnone =>
    cases h
    refine ⟨?_, hs.same⟩
    have hu : s.pacs.unsettled = [] := by
      by_contra hne
      obtain ⟨doc, hdoc, hkept⟩ := hs.holds.kept hne
      rw [hdoc] at hnone
      exact hkept hnone
    obtain ⟨doc, breakers, w⟩ := s
    cases hs.holds with
    | nothing _ _ hr => exact .nothing w hu hr
    | clean _ _ _ _ hr => exact .nothing w hu hr
    | pending a _ _ _ _ hua _ => rw [hua] at hu; cases hu
    | stamped a d _ hv _ _ => simp [discardRefusal, hv] at hnone

theorem inv_step {s : State} {e : Event} (hs : Inv s) (hgood : Retries sealXml s e) :
    Inv (step sealXml s e) := by
  cases e with
  | stampInvoice built cfg => exact inv_stampInvoice hs built cfg
  | generateXml built => exact inv_generateXml hs built
  | stamp cfg => exact inv_stamp hs hgood
  | discardDraft =>
    simp only [step]
    split
    · next s' h => exact inv_discardDraft hs h
    · exact hs
  | rebuildDraft built cfg =>
    simp only [step, rebuildDraft]
    split
    · exact hs
    · next s' h => exact inv_stampInvoice (inv_discardDraft hs h) built cfg
  | circuits breakers => exact ⟨hs.holds, hs.same⟩

theorem not_oneStamp_step {s : State} {e : Event} (hbad : ¬ Retries sealXml s e) :
    ¬ OneStamp (step sealXml s e) := by
  cases e with
  | stamp cfg => exact not_oneStamp_stamp hbad
  | stampInvoice built cfg => exact absurd trivial hbad
  | generateXml built => exact absurd trivial hbad
  | discardDraft => exact absurd trivial hbad
  | rebuildDraft built cfg => exact absurd trivial hbad
  | circuits breakers => exact absurd trivial hbad

/-- **One stamp.**  In a run of calls on one invoice's CFDI, every state satisfies the law just
when every stamp call made while an attempt is not settled repeats that attempt. -/
theorem one_stamp_iff (sealXml : Csd → String → Except AppError String) (breakers : ℕ → Breaker)
    (events : List Event) :
    Always (step sealXml) OneStamp (State.start breakers) events ↔
      StepsMeet (step sealXml) (Retries sealXml) (State.start breakers) events :=
  always_iff_stepsMeet (I := Inv) (fun _ hs => hs.oneStamp) (fun _ _ hs hgood => inv_step hs hgood)
    (fun _ _ _ hbad => not_oneStamp_step hbad) (inv_start breakers) events

/-! ### A retry after the XML was generated again -/

/-- A PAC that seals with its own copy of the certificate. -/
def swSapien : Pac := ⟨1, .sw_sapien, .pac, .sandbox, true, 1, false⟩

/-- A call that meets that PAC alone. -/
def meets (o : Outcome) : Setting :=
  ⟨.issued, .sandbox, [swSapien], none, fun _ => 0, fun _ _ => o, true⟩

/-- The answer to the first attempt is lost, the XML is generated again and sent. -/
def regeneratedRetry : List Event :=
  [.stampInvoice (.ok "<cfdi Fecha='10:00'/>") (meets (.lost true)),
    .generateXml (.ok "<cfdi Fecha='10:05'/>"), .stamp (meets .stamped)]

theorem regenerated_draft_registered_twice :
    ¬ Always (step fun _ xml => .ok xml) OneStamp (State.start fun _ => ⟨0, 0⟩)
      regeneratedRetry := by
  intro h
  have hlength : (run (step fun _ xml => .ok xml) (State.start fun _ => ⟨0, 0⟩)
      regeneratedRetry).pacs.registered.length = 2 := by decide
  have hsingle := h.last.single
  omega

end Vigabss.Cfdi
