import Vigabss.Cfdi.Cancelling

/-!
# Vigabss.Cfdi.Cancellations — the document follows SAT

A document is `cancelado` only after an acceptance, and stays so (`cancelled_for_good`).  A request
that may be registered leaves the document where the poll task looks, unless it got no answer and no
later PAC of the same call answered for it (`cancellation_followed_iff`).
-/

namespace Vigabss.Cfdi

open Vigabss.Lib

/-! ### The law -/

/-- The document is cancelled only if SAT accepted, and while a request may be registered that SAT
has not refused, it is cancelled or among those the poll task resolves. -/
structure FollowsSat (s : Cancellable) : Prop where
  accepted : s.doc.sat_status = .cancelado → s.told.accepted = true
  followed : s.told.open_ = true →
    s.doc.sat_status = .cancel_pending ∧ polled s ≠ [] ∨ s.doc.sat_status = .cancelado

/-- After a request without an answer, a later PAC answers, and not with a refusal of its own
request alone. -/
def AnsweredLater : List CancelOutcome → Prop
  | [] => False
  | .configError _ :: _ => False
  | .notSent _ :: rest => AnsweredLater rest
  | .lost _ :: rest => AnsweredLater rest
  | .answered a :: _ => a.classified.status ≠ .rejected ∨ a.words = .rejected

/-- Every request of the call without an answer is made up for by a later PAC's answer. -/
def LossCovered : List CancelOutcome → Prop
  | [] => True
  | .configError _ :: _ => True
  | .notSent _ :: rest => LossCovered rest
  | .lost _ :: rest => AnsweredLater rest
  | .answered _ :: _ => True

/-- A cancellation of a vigente document covers its losses. -/
def Covers (s : Cancellable) : CancelEvent → Prop
  | .cancel cfg reason replacementUuid => s.doc.sat_status = .vigente →
      ∀ pacs, cancelChecks cfg reason replacementUuid s.doc = .ok pacs →
        LossCovered (pacs.map fun p => cfg.outcome p.id)
  | _ => True

/-! ### One call of `cancel` -/

theorem registered_pending (code cancellationStatus estado : Option String)
    (h : (classifyCancellation code cancellationStatus estado).registered = true) :
    (classifyCancellation code cancellationStatus estado).status = .pending := by
  unfold classifyCancellation at h ⊢
  dsimp only at h ⊢
  split_ifs at h ⊢ with h1 h2 h3
  split at h
  · cases h
  · next n hn =>
    split_ifs at h ⊢ with hr hx
    · rfl
    · rfl

theorem CancelAnswer.registered_pending (a : CancelAnswer)
    (h : a.classified.registered = true) : a.classified.status = .pending := by
  cases a with
  | finkok code status => exact Cfdi.registered_pending _ _ _ h
  | swSapien code => exact Cfdi.registered_pending _ _ _ h
  | simulated => cases h

theorem Told.report_open {t : Told} (h : t.open_ = false) (status : CancelStatus) :
    (t.report status).open_ = false := by
  cases status with
  | pending => exact h
  | accepted => exact h
  | rejected => rfl

theorem Told.report_accepted {t : Told} (h : t.accepted = true) (status : CancelStatus) :
    (t.report status).accepted = true := by
  cases status with
  | pending => exact h
  | accepted => rfl
  | rejected => exact h

/-- The call leaves a request behind that may be registered, and no answer that is not a refusal. -/
def Unfollowed (e : CancelEnding) (told : Told) : Prop :=
  told.open_ = true ∧ ∀ pac c, e = .answered pac c → c.status = .rejected

theorem unfollowed_answer {a : CancelAnswer} {pac : Pac} {t : Told} (ht : t.open_ = true) :
    Unfollowed (.answered pac a.classified) (a.heard t) ↔
      ¬ (a.classified.status ≠ .rejected ∨ a.words = .rejected) := by
  unfold Unfollowed CancelAnswer.heard
  rw [not_or, not_not]
  constructor
  · rintro ⟨hopen, hrejected⟩
    have hr := hrejected pac a.classified rfl
    refine ⟨hr, fun hwords => ?_⟩
    rw [if_pos hr, hwords] at hopen
    cases hopen
  · rintro ⟨hr, hwords⟩
    refine ⟨?_, fun _ _ h => by cases h; exact hr⟩
    rw [if_pos hr]
    cases hw : a.words with
    | pending => exact ht
    | accepted => exact ht
    | rejected => exact absurd hw hwords

theorem unfollowed_of_open {outcome : ℕ → CancelOutcome} (pacs : List Pac) {m : String} {t : Told}
    (ht : t.open_ = true) :
    Unfollowed (tryCancel outcome m pacs) (heardFrom outcome pacs t) ↔
      ¬ AnsweredLater (pacs.map fun p => outcome p.id) := by
  induction pacs generalizing m t with
  | nil => exact ⟨fun _ h => h, fun _ => ⟨ht, fun _ _ h => by cases h⟩⟩
  | cons pac rest ih =>
    simp only [List.map_cons, tryCancel, heardFrom]
    cases outcome pac.id with
    | configError err => exact ⟨fun _ h => h, fun _ => ⟨ht, fun _ _ h => by cases h⟩⟩
    | notSent message => exact ih ht
    | lost message => exact ih rfl
    | answered a => exact unfollowed_answer ht

theorem unfollowed_iff {outcome : ℕ → CancelOutcome} (pacs : List Pac) {m : String} {t : Told}
    (ht : t.open_ = false) :
    Unfollowed (tryCancel outcome m pacs) (heardFrom outcome pacs t) ↔
      ¬ LossCovered (pacs.map fun p => outcome p.id) := by
  have hclosed : ∀ e, ¬ Unfollowed e t := by
    intro e h
    rw [h.1] at ht
    cases ht
  induction pacs generalizing m with
  | nil => exact ⟨fun h => absurd h (hclosed _), fun h => absurd trivial h⟩
  | cons pac rest ih =>
    simp only [List.map_cons, tryCancel, heardFrom]
    cases outcome pac.id with
    | configError err => exact ⟨fun h => absurd h (hclosed _), fun h => absurd trivial h⟩
    | notSent message => exact ih
    | lost message => exact unfollowed_of_open rest rfl
    | answered a =>
      refine ⟨fun h => ?_, fun h => absurd trivial h⟩
      obtain ⟨hopen, hrejected⟩ := h
      have hr := hrejected pac a.classified rfl
      have hopen' : (a.heard t).open_ = true := hopen
      rw [CancelAnswer.heard, if_pos hr, Told.report_open ht] at hopen'
      cases hopen'

theorem accepted_of_words {code cancellationStatus estado : Option String}
    (h : (classifyCancellation code cancellationStatus estado).status = .accepted)
    (code' : Option String) :
    (classifyCancellation code' cancellationStatus estado).status = .accepted := by
  unfold classifyCancellation at h ⊢
  dsimp only at h ⊢
  split_ifs at h ⊢ with h1 h2 h3
  · rfl
  · split at h
    · cases h
    · split_ifs at h

theorem CancelAnswer.heard_accepted {a : CancelAnswer} {t : Told}
    (h : t.accepted = true ∨ a.classified.status = .accepted) :
    (a.heard t).accepted = true := by
  unfold CancelAnswer.heard
  rcases h with h | h
  · refine Told.report_accepted ?_ _
    split_ifs <;> exact h
  · have hw : a.words = .accepted := by
      cases a with
      | finkok code status => exact accepted_of_words h none
      | swSapien code => exact absurd (accepted_of_words h none) (by decide)
      | simulated => rfl
    rw [hw]
    rfl

theorem heardFrom_accepted {outcome : ℕ → CancelOutcome} {pacs : List Pac} {t : Told}
    (h : t.accepted = true) : (heardFrom outcome pacs t).accepted = true := by
  induction pacs generalizing t with
  | nil => exact h
  | cons pac rest ih =>
    simp only [heardFrom]
    cases outcome pac.id with
    | configError err => exact h
    | notSent message => exact ih h
    | lost message => exact ih (show t.sent.accepted = true from h)
    | answered a => exact CancelAnswer.heard_accepted (.inl h)

theorem tryCancel_answered {outcome : ℕ → CancelOutcome} {pacs : List Pac} {m : String}
    {pac : Pac} {c : Classified} (h : tryCancel outcome m pacs = .answered pac c) (t : Told) :
    ∃ a t', c = CancelAnswer.classified a ∧ heardFrom outcome pacs t = a.heard t' := by
  induction pacs generalizing m t with
  | nil => cases h
  | cons p rest ih =>
    simp only [tryCancel] at h
    simp only [heardFrom]
    cases ho : outcome p.id with
    | configError err => rw [ho] at h; cases h
    | notSent message => rw [ho] at h; exact ih h t
    | lost message => rw [ho] at h; exact ih h t.sent
    | answered a =>
      rw [ho] at h
      cases h
      exact ⟨a, t, rfl, rfl⟩

theorem afterConsulta_cases (consulta : StatusOutcome) (c : Classified) (t : Told) :
    afterConsulta consulta c = c ∧ heardConsulta consulta c t = t ∨
      c.registered = true ∧ ∃ status, status ≠ .pending ∧
        (afterConsulta consulta c).status = status ∧
        heardConsulta consulta c t = t.report status := by
  unfold afterConsulta heardConsulta
  by_cases hr : c.registered = true
  · rw [if_pos hr, if_pos hr]
    cases consulta.answer with
    | none => exact .inl ⟨rfl, rfl⟩
    | some r =>
      obtain ⟨status, error⟩ := r
      cases status with
      | pending => exact .inl ⟨rfl, rfl⟩
      | accepted => exact .inr ⟨hr, .accepted, by decide, rfl, rfl⟩
      | rejected => exact .inr ⟨hr, .rejected, by decide, rfl, rfl⟩
  · rw [if_neg hr, if_neg hr]
    exact .inl ⟨rfl, rfl⟩

/-! ### The records -/

/-- Some cancellation of the document waits for SAT. -/
def Waiting (t : Table Cancellation) : Prop := ∃ c ∈ t.rows, c.cancellation_status = .pending

theorem Waiting.polled {s : Cancellable} (h : Waiting s.cancellations)
    (hdoc : s.doc.sat_status = .cancel_pending) : polled s ≠ [] := by
  obtain ⟨c, hc, hpending⟩ := h
  have hmem : c.id ∈ Cfdi.polled s := by
    rw [Cfdi.polled, if_pos hdoc]
    exact List.mem_map_of_mem (List.mem_filter.2 ⟨hc, by simp [hpending]⟩)
  exact List.ne_nil_of_mem hmem

theorem Waiting.other {t : Table Cancellation} (h : Waiting t) {mk : ℕ → Cancellation}
    {hmk : ∀ n, Keyed.key (mk n) = n} {f : Cancellation → Cancellation}
    (hf : ∀ c, Keyed.key (f c) = Keyed.key c) :
    Waiting ((t.insert mk hmk).modify t.nextId f hf) := by
  obtain ⟨c, hc, hpending⟩ := h
  refine ⟨c, Table.mem_modify.2 (.inl ⟨Table.mem_insert.2 (.inl hc), ?_⟩), hpending⟩
  exact (Table.key_lt_nextId hc).ne

theorem waiting_respond {t : Table Cancellation} {mk : ℕ → Cancellation}
    {hmk : ∀ n, Keyed.key (mk n) = n} {pacId : ℕ} {r : Classified} (hr : r.status = .pending) :
    Waiting ((t.insert mk hmk).modify t.nextId (Cancellation.respond pacId r)
      (Cancellation.key_respond pacId r)) := by
  refine ⟨(mk t.nextId).respond pacId r, Table.mem_modify.2 (.inr ⟨mk t.nextId, ?_, rfl⟩), hr⟩
  rw [Table.find?_insert, if_pos rfl]

/-! ### The invariant -/

structure FollowInv (s : Cancellable) : Prop where
  accepted : s.doc.sat_status = .cancelado → s.told.accepted = true
  followed : s.told.open_ = true →
    s.doc.sat_status = .cancel_pending ∨ s.doc.sat_status = .cancelado
  waiting : s.doc.sat_status = .cancel_pending → Waiting s.cancellations

theorem FollowInv.followsSat {s : Cancellable} (h : FollowInv s) : FollowsSat s :=
  ⟨h.accepted, fun hopen => (h.followed hopen).imp
    (fun hdoc => ⟨hdoc, (h.waiting hdoc).polled hdoc⟩) id⟩

/-- What a call of `cancel` does: nothing, a record of the failure, or the move to what the PAC's
answer and the consulta say. -/
theorem cancel_cases (cfg : CancelSetting) (reason : String) (replacementUuid : Option String)
    (s : Cancellable) :
    cancel cfg reason replacementUuid s = s ∧
        (∀ pacs, cancelChecks cfg reason replacementUuid s.doc ≠ .ok pacs) ∨
      ∃ pacs, cancelChecks cfg reason replacementUuid s.doc = .ok pacs ∧
        ((cancel cfg reason replacementUuid s).doc = s.doc ∧
            (cancel cfg reason replacementUuid s).told = heardFrom cfg.outcome pacs s.told ∧
            (∀ pac c, tryCancel cfg.outcome "" pacs ≠ .answered pac c) ∧
            (Waiting s.cancellations →
              Waiting (cancel cfg reason replacementUuid s).cancellations) ∨
          ∃ pac c, tryCancel cfg.outcome "" pacs = .answered pac c ∧
            (cancel cfg reason replacementUuid s).doc =
              moveDoc (afterConsulta cfg.consulta c).status reason replacementUuid s.doc ∧
            (cancel cfg reason replacementUuid s).told =
              heardConsulta cfg.consulta c (heardFrom cfg.outcome pacs s.told) ∧
            ((afterConsulta cfg.consulta c).status = .pending ∨ Waiting s.cancellations →
              Waiting (cancel cfg reason replacementUuid s).cancellations)) := by
  unfold cancel
  cases hchecks : cancelChecks cfg reason replacementUuid s.doc with
  | error err => exact .inl ⟨rfl, fun _ h => by cases h⟩
  | ok pacs =>
    refine .inr ⟨pacs, rfl, ?_⟩
    simp only
    cases htry : tryCancel cfg.outcome "" pacs with
    | failed message =>
      refine .inl ⟨rfl, rfl, ?_, fun h => h.other (Cancellation.key_noteError _)⟩
      intro pac c h
      cases h
    | thrown err =>
      refine .inl ⟨rfl, rfl, ?_, fun h => h.other (Cancellation.key_noteError _)⟩
      intro pac c h
      cases h
    | answered pac c =>
      refine .inr ⟨pac, c, rfl, rfl, rfl, ?_⟩
      rintro (hp | hw)
      · exact waiting_respond hp
      · exact hw.other (Cancellation.key_respond _ _)

theorem cancelChecks_ok {cfg : CancelSetting} {reason : String} {replacementUuid : Option String}
    {doc : StampedCfdi} {pacs : List Pac}
    (h : cancelChecks cfg reason replacementUuid doc = .ok pacs) :
    doc.sat_status = .vigente ∨ doc.sat_status = .cancel_pending := by
  unfold cancelChecks at h
  split_ifs at h with h1 h2
  by_contra hno
  exact h2 (not_or.1 hno)

theorem moveDoc_status (status : CancelStatus) (reason : String) (replacementUuid : Option String)
    {doc : StampedCfdi} (h : doc.sat_status = .vigente ∨ doc.sat_status = .cancel_pending) :
    (moveDoc status reason replacementUuid doc).sat_status =
      match status with
      | .accepted => .cancelado
      | .pending => .cancel_pending
      | .rejected => doc.sat_status := by
  cases status with
  | accepted => simp only [moveDoc, if_pos h]
  | pending =>
    simp only [moveDoc]
    split_ifs with hv
    · rfl
    · exact h.resolve_left hv
  | rejected => rfl

theorem followInv_cancel {cfg : CancelSetting} {reason : String} {replacementUuid : Option String}
    {s : Cancellable} (hs : FollowInv s) (hcov : Covers s (.cancel cfg reason replacementUuid)) :
    FollowInv (cancel cfg reason replacementUuid s) := by
  rcases cancel_cases cfg reason replacementUuid s with ⟨heq, -⟩ | ⟨pacs, hchecks, h⟩
  · rw [heq]
    exact hs
  have hstatus := cancelChecks_ok hchecks
  -- A vigente document has no open request before the call.
  have hun : s.doc.sat_status = .vigente →
      ¬ Unfollowed (tryCancel cfg.outcome "" pacs) (heardFrom cfg.outcome pacs s.told) := by
    intro hv hbad
    have hclosed : s.told.open_ = false := by
      rw [← Bool.not_eq_true]
      intro hopen
      rcases hs.followed hopen with hd | hd <;> rw [hv] at hd <;> cases hd
    exact (unfollowed_iff pacs hclosed).1 hbad (hcov hv pacs hchecks)
  rcases h with ⟨hdoc, htold, hno, hwait⟩ | ⟨pac, c, htry, hdoc, htold, hwait⟩
  · refine ⟨fun hd => ?_, fun hopen => ?_, fun hd => ?_⟩
    · rw [hdoc] at hd
      rw [htold]
      exact heardFrom_accepted (hs.accepted hd)
    · rw [hdoc]
      rcases hstatus with hv | hp
      · rw [htold] at hopen
        exact absurd ⟨hopen, fun pac c h => absurd h (hno pac c)⟩ (hun hv)
      · exact .inl hp
    · rw [hdoc] at hd
      exact hwait (hs.waiting hd)
  · obtain ⟨a, t', ha, hheard⟩ := tryCancel_answered htry s.told
    have hmoved : (cancel cfg reason replacementUuid s).doc.sat_status =
        match (afterConsulta cfg.consulta c).status with
        | .accepted => .cancelado
        | .pending => .cancel_pending
        | .rejected => s.doc.sat_status := by
      rw [hdoc]
      exact moveDoc_status _ _ _ hstatus
    cases hfinal : (afterConsulta cfg.consulta c).status with
    | accepted =>
      rw [hfinal] at hmoved
      refine ⟨fun _ => ?_, fun _ => .inr hmoved, fun hd => ?_⟩
      · rw [htold]
        rcases afterConsulta_cases cfg.consulta c (heardFrom cfg.outcome pacs s.told) with
          ⟨hc, ht⟩ | ⟨-, status, -, hst, ht⟩
        · rw [ht, hheard]
          rw [hc, ha] at hfinal
          exact CancelAnswer.heard_accepted (.inr hfinal)
        · rw [ht, ← hst, hfinal]
          rfl
      · rw [hmoved] at hd
        cases hd
    | pending =>
      rw [hfinal] at hmoved
      refine ⟨fun hd => ?_, fun _ => .inl hmoved, fun _ => hwait (.inl hfinal)⟩
      rw [hmoved] at hd
      cases hd
    | rejected =>
      rw [hfinal] at hmoved
      have hmoved' : (cancel cfg reason replacementUuid s).doc.sat_status = s.doc.sat_status :=
        hmoved
      refine ⟨fun hd => ?_, fun hopen => ?_, fun hd => ?_⟩
      · rw [hmoved'] at hd
        rcases hstatus with hst | hst <;> rw [hst] at hd <;> cases hd
      · rw [hmoved']
        rcases hstatus with hv | hp
        · rw [htold] at hopen
          rcases afterConsulta_cases cfg.consulta c (heardFrom cfg.outcome pacs s.told) with
            ⟨hc, ht⟩ | ⟨-, status, -, hst, ht⟩
          · rw [ht] at hopen
            rw [hc] at hfinal
            refine absurd ⟨hopen, fun pac' c' h => ?_⟩ (hun hv)
            rw [htry] at h
            cases h
            exact hfinal
          · rw [ht, ← hst, hfinal] at hopen
            cases hopen
        · exact .inl hp
      · rw [hmoved'] at hd
        exact hwait (.inr (hs.waiting hd))

/-- A call that leaves a request unfollowed leaves the document vigente. -/
theorem not_followsSat_cancel {cfg : CancelSetting} {reason : String}
    {replacementUuid : Option String} {s : Cancellable} (hs : FollowInv s)
    (hcov : ¬ Covers s (.cancel cfg reason replacementUuid)) :
    ¬ FollowsSat (cancel cfg reason replacementUuid s) := by
  intro hlaw
  apply hcov
  intro hv pacs hchecks
  by_contra hbad
  have hclosed : s.told.open_ = false := by
    rw [← Bool.not_eq_true]
    intro hopen
    rcases hs.followed hopen with hd | hd <;> rw [hv] at hd <;> cases hd
  obtain ⟨hopen, hrejected⟩ := (unfollowed_iff pacs (m := "") hclosed).2 hbad
  rcases cancel_cases cfg reason replacementUuid s with ⟨-, hno⟩ | ⟨pacs', hchecks', h⟩
  · exact absurd hchecks (hno pacs)
  rw [hchecks] at hchecks'
  cases hchecks'
  rcases h with ⟨hdoc, htold, -, -⟩ | ⟨pac, c, htry, hdoc, htold, -⟩
  · rcases hlaw.followed (by rw [htold]; exact hopen) with ⟨hd, -⟩ | hd <;>
      rw [hdoc, hv] at hd <;> cases hd
  · have hr := hrejected pac c htry
    obtain ⟨a, -, ha, -⟩ := tryCancel_answered htry s.told
    rcases afterConsulta_cases cfg.consulta c (heardFrom cfg.outcome pacs s.told) with
      ⟨hc, ht⟩ | ⟨hreg, -⟩
    · rw [hc, hr] at hdoc
      have hdoc' : (cancel cfg reason replacementUuid s).doc = s.doc := hdoc
      rcases hlaw.followed (by rw [htold, ht]; exact hopen) with ⟨hd, -⟩ | hd <;>
        rw [hdoc', hv] at hd <;> cases hd
    · rw [ha] at hreg hr
      rw [a.registered_pending hreg] at hr
      cases hr

/-! ### Status checks -/

theorem getCancellationStatus_cases (id : ℕ) (outcome : StatusOutcome) (s : Cancellable) :
    getCancellationStatus id outcome s = s ∨
      ∃ status, status ≠ .pending ∧
        (getCancellationStatus id outcome s).doc = settleDoc status s.doc ∧
        (getCancellationStatus id outcome s).told = s.told.report status := by
  unfold getCancellationStatus
  split
  · exact .inl rfl
  · split_ifs
    · exact .inl rfl
    · split
      · exact .inl rfl
      · exact .inl rfl
      · next status error hne _ => exact .inr ⟨status, fun h => hne h, rfl, rfl⟩

theorem settleDoc_cancelado {status : CancelStatus} {doc : StampedCfdi}
    (h : doc.sat_status = .cancelado) : settleDoc status doc = doc := by
  cases status <;> simp [settleDoc, h]

theorem followInv_status {s : Cancellable} (hs : FollowInv s) (id : ℕ) (outcome : StatusOutcome) :
    FollowInv (getCancellationStatus id outcome s) := by
  rcases getCancellationStatus_cases id outcome s with heq | ⟨status, hne, hdoc, htold⟩
  · rw [heq]
    exact hs
  cases status with
  | pending => exact absurd rfl hne
  | accepted =>
    refine ⟨fun _ => by rw [htold]; rfl, fun hopen => ?_, fun hd => ?_⟩
    · rw [htold] at hopen
      rw [hdoc]
      rcases hs.followed hopen with hp | hc
      · exact .inr (by simp [settleDoc, hp])
      · exact .inr (by rw [settleDoc_cancelado hc, hc])
    · rw [hdoc] at hd
      simp only [settleDoc] at hd
      split_ifs at hd with hlive
      exact absurd (.inr hd) hlive
  | rejected =>
    refine ⟨fun hd => ?_, fun hopen => ?_, fun hd => ?_⟩
    · rw [hdoc] at hd
      rw [htold]
      simp only [settleDoc] at hd
      split_ifs at hd with hp
      exact hs.accepted hd
    · rw [htold] at hopen
      cases hopen
    · rw [hdoc] at hd
      simp only [settleDoc] at hd
      split_ifs at hd with hp
      exact absurd hd hp

theorem foldl_status_induction {P : Cancellable → Prop} (outcome : ℕ → StatusOutcome)
    (hstep : ∀ s id o, P s → P (getCancellationStatus id o s)) (ids : List ℕ) {s : Cancellable}
    (hs : P s) : P (ids.foldl (fun s id => getCancellationStatus id (outcome id) s) s) := by
  induction ids generalizing s with
  | nil => exact hs
  | cons id ids ih => exact ih (hstep s id (outcome id) hs)

theorem followInv_step {s : Cancellable} {e : CancelEvent} (hs : FollowInv s) (hcov : Covers s e) :
    FollowInv (cancelStep s e) := by
  cases e with
  | cancel cfg reason replacementUuid => exact followInv_cancel hs hcov
  | status id outcome => exact followInv_status hs id outcome
  | poll outcome =>
    exact foldl_status_induction (P := FollowInv) outcome
      (fun _ id o h => followInv_status h id o) _ hs

theorem not_followsSat_step {s : Cancellable} {e : CancelEvent} (hs : FollowInv s)
    (hcov : ¬ Covers s e) : ¬ FollowsSat (cancelStep s e) := by
  cases e with
  | cancel cfg reason replacementUuid => exact not_followsSat_cancel hs hcov
  | status id outcome => exact absurd trivial hcov
  | poll outcome => exact absurd trivial hcov

theorem followInv_start (uuid : String) : FollowInv (Cancellable.start uuid) :=
  ⟨nofun, nofun, nofun⟩

/-! ### Cancelled for good -/

theorem status_cancelado {s : Cancellable} (h : s.doc.sat_status = .cancelado) (id : ℕ)
    (outcome : StatusOutcome) :
    (getCancellationStatus id outcome s).doc.sat_status = .cancelado := by
  rcases getCancellationStatus_cases id outcome s with heq | ⟨status, -, hdoc, -⟩
  · rw [heq, h]
  · rw [hdoc, settleDoc_cancelado h, h]

theorem cancelStep_cancelado {s : Cancellable} (h : s.doc.sat_status = .cancelado)
    (e : CancelEvent) : (cancelStep s e).doc.sat_status = .cancelado := by
  cases e with
  | cancel cfg reason replacementUuid =>
    rcases cancel_cases cfg reason replacementUuid s with ⟨heq, -⟩ | ⟨pacs, hchecks, -⟩
    · show (cancel cfg reason replacementUuid s).doc.sat_status = .cancelado
      rw [heq, h]
    · rcases cancelChecks_ok hchecks with hst | hst <;> rw [h] at hst <;> cases hst
  | status id outcome => exact status_cancelado h id outcome
  | poll outcome =>
    exact foldl_status_induction (P := fun s : Cancellable => s.doc.sat_status = .cancelado) outcome
      (fun _ id o h => status_cancelado h id o) _ h

/-- **Following SAT.**  Over any calls on a stamped CFDI, once it is cancelled it stays so, and
every state of the run follows SAT just when every cancellation of the vigente document covers the
requests that got no answer. -/
theorem cancellation_followed_iff (uuid : String) (events : List CancelEvent) :
    (∀ more, (run cancelStep (Cancellable.start uuid) events).doc.sat_status = .cancelado →
        (run cancelStep (Cancellable.start uuid) (events ++ more)).doc.sat_status = .cancelado) ∧
      (Always cancelStep FollowsSat (Cancellable.start uuid) events ↔
        StepsMeet cancelStep Covers (Cancellable.start uuid) events) := by
  refine ⟨fun more h => ?_, ?_⟩
  · rw [run_append]
    exact run_invariant (P := fun s : Cancellable => s.doc.sat_status = .cancelado)
      (fun _ e h => cancelStep_cancelado h e) h more
  · exact always_iff_stepsMeet (I := FollowInv) (fun _ hs => hs.followsSat)
      (fun _ _ hs hcov => followInv_step hs hcov)
      (fun _ _ hs hcov => not_followsSat_step hs hcov) (followInv_start uuid) events

/-- The one PAC registers the request, and its answer is lost. -/
def timedOut : CancelSetting where
  pac_providers := [⟨1, .finkok, .csd, .production, true, 1, false⟩]
  pac_environment := .production
  liveRep := none
  outcome _ := .lost "PAC request timed out"
  consulta := .failed

theorem timed_out_cancellation_left_vigente :
    ¬ Always cancelStep FollowsSat (Cancellable.start "6F1C2C70-0000-4000-8000-000000000001")
      [.cancel timedOut "02" none] := by
  intro h
  have hopen : (run cancelStep (Cancellable.start "6F1C2C70-0000-4000-8000-000000000001")
      [.cancel timedOut "02" none]).told.open_ = true := by decide
  have hvigente : (run cancelStep (Cancellable.start "6F1C2C70-0000-4000-8000-000000000001")
      [.cancel timedOut "02" none]).doc.sat_status = .vigente := by decide
  rcases h.last.followed hopen with ⟨hd, -⟩ | hd <;> rw [hvigente] at hd <;> cases hd

end Vigabss.Cfdi
