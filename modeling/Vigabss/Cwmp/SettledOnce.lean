import Vigabss.Cwmp.Tasks

/-!
# Vigabss.Cwmp.SettledOnce — which sessions carry each task once

A task leaves `queued` by its dispatch alone, and a task that is done or failed was settled.  So a
run is lawful exactly when each of its statements finds the task in a status in which the law lets
the statement write (`settled_once_iff`).
-/

namespace Vigabss.Cwmp.Tasks

open Vigabss.Lib

/-! ### The invariant -/

/-- What holds of the tasks and their history between statements. -/
structure Sound (s : Acs) : Prop where
  queued : ∀ id task, s.tasks[id]? = some task →
    (task.status = .queued ↔ id ∉ dispatches s.history)
  known : ∀ id ∈ dispatches s.history, id < s.tasks.length
  earned : ∀ id ∈ settlements s.history, id ∈ dispatches s.history
  settled : ∀ id task, s.tasks[id]? = some task → task.status.isSettled = true →
    id ∈ settlements s.history
  unsettled : ∀ id task, s.tasks[id]? = some task → id ∈ settlements s.history →
    task.status.isSettled = true ∨ ¬ (dispatches s.history).Nodup

/-- The task with the id is in progress. -/
def InProgress (s : Acs) (id : ℕ) : Prop :=
  ∃ task, s.tasks[id]? = some task ∧ task.status = .in_progress

/-- A task that has been awaiting its transfer is in progress only if it was dispatched again. -/
def Waited (s : Acs) (id : ℕ) : Prop :=
  id ∈ dispatches s.history ∧ (InProgress s id → ¬ (dispatches s.history).Nodup)

/-- What a statement may rely on about the tasks it was chosen for. -/
def Ready (s : Acs) (t : Stage) : Prop :=
  match t with
  | .marking id => id < s.tasks.length
  | .faulting _ active | .completing _ active => active ∈ dispatches s.history
  | .confirming _ status => status.isSettled = true
  | .reading waiting | .applying _ waiting => ∀ row ∈ waiting, Waited s row.2
  | _ => True

/-- How the tasks move on: none goes, and one comes to be in progress by its dispatch. -/
structure Grows (s s' : Acs) : Prop where
  length : s.tasks.length ≤ s'.tasks.length
  history : s.history <:+ s'.history
  inProgress : ∀ id, InProgress s' id →
    InProgress s id ∨ dispatches s'.history = id :: dispatches s.history

theorem Grows.refl (s : Acs) : Grows s s := ⟨le_rfl, List.suffix_rfl, fun _ h => .inl h⟩

theorem Grows.dispatches {s s' : Acs} (h : Grows s s') :
    dispatches s.history <:+ dispatches s'.history := h.history.filterMap _

theorem Lawful.of_suffix {older history : List Event} (h : Lawful history)
    (hsuffix : older <:+ history) : Lawful older where
  dispatchedOnce := h.dispatchedOnce.sublist (hsuffix.filterMap _).sublist
  moved id writer hmem := h.moved id writer (hsuffix.subset hmem)
  settledOnce := h.settledOnce.sublist (hsuffix.filterMap _).sublist

theorem Waited.grows {s s' : Acs} {id : ℕ} (h : Waited s id) (hgrows : Grows s s') :
    Waited s' id := by
  refine ⟨hgrows.dispatches.subset h.1, fun hprogress hnodup => ?_⟩
  rcases hgrows.inProgress id hprogress with hold | hagain
  · exact h.2 hold (hnodup.sublist hgrows.dispatches.sublist)
  · rw [hagain, List.nodup_cons] at hnodup
    exact hnodup.1 h.1

theorem Ready.grows {s s' : Acs} {t : Stage} (h : Ready s t) (hgrows : Grows s s') :
    Ready s' t := by
  unfold Ready at h ⊢
  split <;> simp only at h
  · exact h.trans_le hgrows.length
  · exact hgrows.dispatches.subset h
  · exact hgrows.dispatches.subset h
  · exact h
  · exact fun row hrow => (h row hrow).grows hgrows
  · exact fun row hrow => (h row hrow).grows hgrows
  · trivial

/-! ### The statements -/

theorem mem_rowsWhere {condition : Task → Bool} {s : Acs} {row : Task × ℕ}
    (h : row ∈ s.rowsWhere condition) :
    s.tasks[row.2]? = some row.1 ∧ condition row.1 = true := by
  rw [Acs.rowsWhere, List.mem_filter] at h
  exact ⟨List.mem_zipIdx_iff_getElem?.1 h.1, h.2⟩

theorem mem_of_firstOf {before : Task → Task → Bool} {rows : List (Task × ℕ)} {pick : ℕ}
    {row : Task × ℕ} (h : firstOf before rows pick = some row) : row ∈ rows :=
  List.mem_of_mem_filter (List.mem_of_getElem? h)

theorem dispatches_append (new old : List Event) :
    dispatches (new ++ old) = dispatches new ++ dispatches old := List.filterMap_append

theorem settlements_append (new old : List Event) :
    settlements (new ++ old) = settlements new ++ settlements old := List.filterMap_append

theorem dispatches_trace (id : ℕ) (old new : TaskStatus) (writer : Writer) :
    dispatches (Acs.trace id old new writer) = [] := by
  unfold Acs.trace
  split_ifs <;> rfl

theorem settlements_trace (id : ℕ) (old new : TaskStatus) (writer : Writer) :
    settlements (Acs.trace id old new writer) = if new.isSettled then [id] else [] := by
  unfold Acs.trace
  split_ifs <;> rfl

theorem write_cases (id : ℕ) (condition : TaskStatus → Bool) (task' : Task → Task)
    (writer : Writer) (s : Acs) :
    s.write id condition task' writer = s ∨
      ∃ task, s.tasks[id]? = some task ∧ condition task.status = true ∧
        s.write id condition task' writer =
          { s with
            tasks := s.tasks.set id (task' task)
            history := Acs.trace id task.status (task' task).status writer ++ s.history } := by
  unfold Acs.write
  split
  · exact .inl rfl
  · next task htask =>
    split_ifs with hcondition
    · exact .inr ⟨task, htask, hcondition, rfl⟩
    · exact .inl rfl

theorem getElem?_set_cases {tasks : List Task} {id j : ℕ} {task' task : Task}
    (h : (tasks.set id task')[j]? = some task) :
    j = id ∧ task = task' ∨ j ≠ id ∧ tasks[j]? = some task := by
  by_cases hj : j = id
  · subst hj
    have hlt := (List.getElem?_eq_some_iff.1 h).1
    rw [List.length_set] at hlt
    rw [List.getElem?_set_self hlt] at h
    exact .inl ⟨rfl, (Option.some.inj h).symm⟩
  · rw [List.getElem?_set_ne (Ne.symm hj)] at h
    exact .inr ⟨hj, h⟩

/-- A write to a status that a task under way may take. -/
theorem Sound.write {s : Acs} (h : Sound s) {id : ℕ} {condition : TaskStatus → Bool}
    {task' : Task → Task} (writer : Writer)
    (hsent : ∀ task, s.tasks[id]? = some task → condition task.status = true →
      id ∈ dispatches s.history)
    (hnew : ∀ task, condition task.status = true → (task' task).status.isSettled = true ∨
      (task' task).status = .awaiting_transfer ∧ task.status = .in_progress) :
    Sound (s.write id condition task' writer) ∧ Grows s (s.write id condition task' writer) := by
  rcases write_cases id condition task' writer s with hsame | ⟨task, htask, hcondition, hwrite⟩
  · rw [hsame]
    exact ⟨h, Grows.refl s⟩
  · have hid := hsent task htask hcondition
    have hstatus := hnew task hcondition
    have hdispatches : dispatches (s.write id condition task' writer).history =
        dispatches s.history := by
      rw [hwrite]
      show dispatches (_ ++ _) = _
      rw [dispatches_append, dispatches_trace, List.nil_append]
    have hsettlements : settlements (s.write id condition task' writer).history =
        (if (task' task).status.isSettled then [id] else []) ++ settlements s.history := by
      rw [hwrite]
      show settlements (_ ++ _) = _
      rw [settlements_append, settlements_trace]
    have htasks : (s.write id condition task' writer).tasks = s.tasks.set id (task' task) := by
      rw [hwrite]
    have hold : ∀ j ∈ settlements s.history,
        j ∈ settlements (s.write id condition task' writer).history := fun j hj => by
      rw [hsettlements]
      exact List.mem_append_right _ hj
    refine ⟨⟨?_, ?_, ?_, ?_, ?_⟩, ?_, ?_, ?_⟩
    · intro j row hrow
      rw [htasks] at hrow
      rw [hdispatches]
      rcases getElem?_set_cases hrow with ⟨rfl, rfl⟩ | ⟨-, hrow⟩
      · refine iff_of_false (fun hqueued => ?_) (not_not_intro hid)
        rcases hstatus with hdone | ⟨hawait, -⟩
        · rw [hqueued] at hdone
          cases hdone
        · rw [hqueued] at hawait
          cases hawait
      · exact h.queued j row hrow
    · intro j hj
      rw [hdispatches] at hj
      rw [htasks, List.length_set]
      exact h.known j hj
    · intro j hj
      rw [hsettlements, List.mem_append] at hj
      rw [hdispatches]
      rcases hj with hj | hj
      · split_ifs at hj
        · rw [List.mem_singleton.1 hj]
          exact hid
        · cases hj
      · exact h.earned j hj
    · intro j row hrow hsettled
      rw [htasks] at hrow
      rcases getElem?_set_cases hrow with ⟨rfl, rfl⟩ | ⟨-, hrow⟩
      · rw [hsettlements, if_pos hsettled]
        exact List.mem_cons_self
      · exact hold j (h.settled j row hrow hsettled)
    · intro j row hrow hj
      rw [htasks] at hrow
      rw [hdispatches]
      rcases getElem?_set_cases hrow with ⟨rfl, rfl⟩ | ⟨hne, hrow⟩
      · rcases hstatus with hdone | ⟨hawait, hprogress⟩
        · exact .inl hdone
        · rw [hsettlements, hawait] at hj
          refine .inr ((h.unsettled j task htask hj).resolve_left ?_)
          rw [hprogress]
          decide
      · refine h.unsettled j row hrow ?_
        rw [hsettlements, List.mem_append] at hj
        rcases hj with hj | hj
        · split_ifs at hj
          · exact absurd (List.mem_singleton.1 hj) hne
          · cases hj
        · exact hj
    · rw [htasks, List.length_set]
    · rw [hwrite]
      exact List.suffix_append _ _
    · rintro j ⟨row, hrow, hprogress⟩
      rw [htasks] at hrow
      rcases getElem?_set_cases hrow with ⟨rfl, rfl⟩ | ⟨-, hrow⟩
      · rcases hstatus with hdone | ⟨hawait, -⟩
        · rw [hprogress] at hdone
          cases hdone
        · rw [hprogress] at hawait
          cases hawait
      · exact .inl ⟨row, hrow, hprogress⟩

/-- **When a write keeps the law.** -/
theorem lawful_write {s : Acs} {id : ℕ} {condition : TaskStatus → Bool} {task' : Task → Task}
    {writer : Writer} (h : Lawful s.history) :
    Lawful (s.write id condition task' writer).history ↔
      ∀ task, s.tasks[id]? = some task → condition task.status = true →
        (task.status = .in_progress → writer.mayMove id) ∧
        ((task' task).status.isSettled = true → id ∉ settlements s.history) := by
  unfold Acs.write
  split
  · next hnone =>
    refine iff_of_true h fun task htask => ?_
    rw [hnone] at htask
    cases htask
  · next task htask =>
    split_ifs with hcondition
    · constructor
      · intro hlaw row hrow _
        rw [htask] at hrow
        cases hrow
        refine ⟨fun hprogress => ?_, fun hsettled => ?_⟩
        · refine hlaw.moved id writer (List.mem_append_left _ ?_)
          rw [Acs.trace, if_pos hprogress]
          exact List.mem_append_right _ (List.mem_singleton.2 rfl)
        · have honce := hlaw.settledOnce
          dsimp only at honce
          rw [settlements_append, settlements_trace, if_pos hsettled] at honce
          exact (List.nodup_cons.1 honce).1
      · intro hgood
        obtain ⟨hmove, hfresh⟩ := hgood task htask hcondition
        refine ⟨?_, ?_, ?_⟩
        · show (dispatches (_ ++ _)).Nodup
          rw [dispatches_append, dispatches_trace, List.nil_append]
          exact h.dispatchedOnce
        · intro j other hmem
          rcases List.mem_append.1 hmem with hnew | hold
          · rw [Acs.trace, List.mem_append] at hnew
            rcases hnew with hnew | hnew
            · split_ifs at hnew
              · cases List.mem_singleton.1 hnew
              · cases hnew
            · split_ifs at hnew with hprogress
              · cases List.mem_singleton.1 hnew
                exact hmove hprogress
              · cases hnew
          · exact h.moved j other hold
        · show (settlements (_ ++ _)).Nodup
          rw [settlements_append, settlements_trace]
          split_ifs with hsettled
          · exact List.nodup_cons.2 ⟨hfresh hsettled, h.settledOnce⟩
          · exact h.settledOnce
    · refine iff_of_true h fun row hrow hrowcondition => ?_
      rw [htask] at hrow
      cases hrow
      exact absurd hrowcondition hcondition

theorem Sound.dispatch {s : Acs} (h : Sound s) (id : ℕ) :
    Sound (s.dispatch id) ∧ Grows s (s.dispatch id) := by
  unfold Acs.dispatch
  split
  · exact ⟨h, Grows.refl s⟩
  · next task htask =>
    have hlt : id < s.tasks.length := (List.getElem?_eq_some_iff.1 htask).1
    refine ⟨⟨?_, ?_, ?_, ?_, ?_⟩, ?_, ?_, ?_⟩
    · intro j row hrow
      show row.status = .queued ↔ j ∉ id :: dispatches s.history
      rcases getElem?_set_cases hrow with ⟨rfl, rfl⟩ | ⟨hne, hrow⟩
      · exact iff_of_false (by simp) (not_not_intro List.mem_cons_self)
      · rw [h.queued j row hrow, List.mem_cons, not_or, and_iff_right hne]
    · intro j hj
      show j < (s.tasks.set id _).length
      rw [List.length_set]
      rcases List.mem_cons.1 hj with rfl | hj
      · exact hlt
      · exact h.known j hj
    · exact fun j hj => List.mem_cons_of_mem _ (h.earned j hj)
    · intro j row hrow hsettled
      rcases getElem?_set_cases hrow with ⟨rfl, rfl⟩ | ⟨-, hrow⟩
      · cases hsettled
      · exact h.settled j row hrow hsettled
    · intro j row hrow hj
      show _ ∨ ¬ (id :: dispatches s.history).Nodup
      rcases getElem?_set_cases hrow with ⟨rfl, rfl⟩ | ⟨-, hrow⟩
      · exact .inr fun hnodup => (List.nodup_cons.1 hnodup).1 (h.earned _ hj)
      · exact (h.unsettled j row hrow hj).imp_right fun hdup hnodup =>
          hdup (List.nodup_cons.1 hnodup).2
    · rw [List.length_set]
    · exact List.suffix_cons _ _
    · rintro j ⟨row, hrow, hprogress⟩
      rcases getElem?_set_cases hrow with ⟨rfl, rfl⟩ | ⟨-, hrow⟩
      · exact .inr rfl
      · exact .inl ⟨row, hrow, hprogress⟩

/-- **When a dispatch keeps the law.** -/
theorem Sound.lawful_dispatch {s : Acs} (h : Sound s) (hlaw : Lawful s.history) {id : ℕ}
    (hid : id < s.tasks.length) :
    Lawful (s.dispatch id).history ↔ ∀ task ∈ s.tasks[id]?, task.status = .queued := by
  have htask : s.tasks[id]? = some s.tasks[id] := List.getElem?_eq_getElem hid
  have hhistory : (s.dispatch id).history = .dispatched id :: s.history := by
    rw [Acs.dispatch, htask]
  have hqueued := h.queued id _ htask
  rw [hhistory, htask]
  constructor
  · intro hnew task hmem
    cases hmem
    exact hqueued.2 (List.nodup_cons.1 hnew.dispatchedOnce).1
  · intro hall
    refine ⟨List.nodup_cons.2 ⟨hqueued.1 (hall _ rfl), hlaw.dispatchedOnce⟩, ?_, hlaw.settledOnce⟩
    intro j writer hmem
    rcases List.mem_cons.1 hmem with habs | hold
    · cases habs
    · exact hlaw.moved j writer hold

theorem Sound.queueing {s : Acs} (h : Sound s) {task : Task} (htask : task.status = .queued) :
    Sound { s with tasks := s.tasks ++ [task] } ∧
      Grows s { s with tasks := s.tasks ++ [task] } := by
  have hcases : ∀ {j : ℕ} {row}, (s.tasks ++ [task])[j]? = some row →
      s.tasks[j]? = some row ∨ j = s.tasks.length ∧ row = task := by
    intro j row hrow
    rw [List.getElem?_append] at hrow
    split_ifs at hrow with hj
    · exact .inl hrow
    · have hget := List.getElem?_eq_some_iff.1 hrow
      obtain ⟨hlt, hval⟩ := hget
      rw [List.length_singleton] at hlt
      refine .inr ⟨by omega, ?_⟩
      rw [← hval, List.getElem_singleton]
  have hunknown : s.tasks.length ∉ dispatches s.history := fun hmem =>
    absurd (h.known _ hmem) (lt_irrefl _)
  refine ⟨⟨?_, ?_, h.earned, ?_, ?_⟩, ?_, List.suffix_rfl, ?_⟩
  · intro j row hrow
    rcases hcases hrow with hrow | ⟨rfl, rfl⟩
    · exact h.queued j row hrow
    · exact iff_of_true htask hunknown
  · intro j hj
    show j < (s.tasks ++ [task]).length
    rw [List.length_append, List.length_singleton]
    exact Nat.lt_succ_of_lt (h.known j hj)
  · intro j row hrow hsettled
    rcases hcases hrow with hrow | ⟨rfl, rfl⟩
    · exact h.settled j row hrow hsettled
    · rw [htask] at hsettled
      cases hsettled
  · intro j row hrow hj
    rcases hcases hrow with hrow | ⟨rfl, rfl⟩
    · exact h.unsettled j row hrow hj
    · exact absurd (h.earned _ hj) hunknown
  · show s.tasks.length ≤ (s.tasks ++ [task]).length
    rw [List.length_append]
    omega
  · rintro j ⟨row, hrow, hprogress⟩
    rcases hcases hrow with hrow | ⟨rfl, rfl⟩
    · exact .inl ⟨row, hrow, hprogress⟩
    · rw [htask] at hprogress
      cases hprogress

theorem Sound.sent {s : Acs} (h : Sound s) {id : ℕ} {task : Task}
    (htask : s.tasks[id]? = some task) (hstatus : task.status ≠ .queued) :
    id ∈ dispatches s.history := by
  by_contra hnot
  exact hstatus ((h.queued id task htask).2 hnot)

theorem Sound.fail {s : Acs} (h : Sound s) {id : ℕ} (hid : id ∈ dispatches s.history)
    (writer : Writer) : Sound (s.fail id writer) ∧ Grows s (s.fail id writer) :=
  h.write writer (fun _ _ _ => hid) fun _ _ => .inl rfl

theorem Sound.complete {s : Acs} (h : Sound s) {id : ℕ} (hid : id ∈ dispatches s.history)
    (writer : Writer) : Sound (s.complete id writer) ∧ Grows s (s.complete id writer) :=
  h.write writer (fun _ _ _ => hid) fun _ _ => .inl rfl

theorem ne_queued_of_isUnderWay {status : TaskStatus} (h : status.isUnderWay = true) :
    status ≠ .queued := by
  rintro rfl
  cases h

theorem Sound.settleDownload {s : Acs} (h : Sound s) (id : ℕ) {status : TaskStatus}
    (hstatus : status.isSettled = true) (writer : Writer) :
    Sound (s.settleDownload id status writer) ∧ Grows s (s.settleDownload id status writer) :=
  h.write writer (fun _ htask hway => h.sent htask (ne_queued_of_isUnderWay hway))
    fun _ _ => .inl hstatus

theorem Sound.settleAnswered {s : Acs} (h : Sound s) (id : ℕ) (downloadStatus : ℤ)
    (writer : Writer) : Sound (s.settleAnswered id downloadStatus writer) ∧
      Grows s (s.settleAnswered id downloadStatus writer) :=
  h.write writer (fun _ htask hway => h.sent htask (ne_queued_of_isUnderWay hway))
    fun _ _ => .inl rfl

theorem Sound.await {s : Acs} (h : Sound s) (id : ℕ) (downloadStatus : ℤ) (writer : Writer) :
    Sound (s.await id downloadStatus writer) ∧ Grows s (s.await id downloadStatus writer) :=
  h.write writer
    (fun _ htask hprogress => h.sent htask (by rw [of_decide_eq_true hprogress]; decide))
    fun _ hprogress => .inr ⟨rfl, of_decide_eq_true hprogress⟩

theorem Sound.reap {s : Acs} (h : Sound s) (id : ℕ) (writer : Writer) :
    Sound (s.reap id writer) ∧ Grows s (s.reap id writer) :=
  h.write writer
    (fun _ htask hprogress => h.sent htask (by rw [of_decide_eq_true hprogress]; decide))
    fun _ _ => .inl rfl

/-! ### The calls -/

theorem Sound.waited {s : Acs} (h : Sound s) {task : Task} {id : ℕ}
    (htask : s.tasks[id]? = some task) (hstatus : task.status = .awaiting_transfer) :
    Waited s id := by
  refine ⟨h.sent htask (by rw [hstatus]; decide), ?_⟩
  rintro ⟨row, hrow, hprogress⟩
  rw [htask] at hrow
  cases hrow
  rw [hstatus] at hprogress
  cases hprogress

theorem ready_answered {s : Acs} {rpc active : ℕ} {reply : Reply} {task : Task}
    (hactive : active ∈ dispatches s.history) : Ready s (answered rpc reply task active) := by
  unfold answered
  cases reply with
  | fault => exact hactive
  | response status =>
    dsimp only
    split_ifs
    · exact trivial
    · split <;> exact trivial
    · exact hactive

/-- **One statement**: it keeps the invariant, and what its call and the others rely on. -/
theorem next_sound {s : Acs} {t : Stage} (a : Answer) (h : Sound s) (hready : Ready s t) :
    Sound (next s t a).1 ∧ Ready (next s t a).1 (next s t a).2 ∧ Grows s (next s t a).1 := by
  have hkeep : ∀ t', Ready s t' → Sound s ∧ Ready s t' ∧ Grows s s := fun t' ht' =>
    ⟨h, ht', Grows.refl s⟩
  have hwrite : ∀ {s'}, Sound s' ∧ Grows s s' → ∀ t', Ready s' t' →
      Sound s' ∧ Ready s' t' ∧ Grows s s' := fun hs' t' ht' => ⟨hs'.1, ht', hs'.2⟩
  cases t with
  | choosing =>
    refine hkeep _ ?_
    unfold next
    dsimp only
    split
    · trivial
    · next task id hpick =>
      have hrow := (mem_rowsWhere (mem_of_firstOf hpick)).1
      exact (List.getElem?_eq_some_iff.1 hrow).1
  | marking id =>
    refine hwrite (h.dispatch id) _ ?_
    unfold next
    dsimp only
    split_ifs <;> trivial
  | holding id =>
    refine hkeep _ ?_
    unfold next
    dsimp only
    split_ifs <;> trivial
  | matching rpc reply =>
    refine hkeep _ ?_
    unfold next
    dsimp only
    split
    · trivial
    · next task active hpick =>
      obtain ⟨hrow, hstatus⟩ := mem_rowsWhere (mem_of_firstOf hpick)
      refine ready_answered (h.sent hrow ?_)
      rw [of_decide_eq_true hstatus]
      decide
  | faulting rpc active => exact hwrite (h.fail hready _) _ trivial
  | completing rpc active => exact hwrite (h.complete hready _) _ trivial
  | comparing rpc active status target =>
    refine hkeep _ ?_
    unfold next
    dsimp only
    split_ifs <;> trivial
  | settling rpc active status => exact hwrite (h.settleAnswered active status _) _ trivial
  | deferring rpc active status => exact hwrite (h.await active status _) _ trivial
  | finding id fault =>
    refine hkeep _ ?_
    unfold next
    dsimp only
    split
    · trivial
    · split_ifs
      · exact rfl
      · trivial
      · trivial
  | checking id target =>
    refine hkeep _ ?_
    show TaskStatus.isSettled (if _ then _ else _) = true
    split_ifs <;> rfl
  | confirming id status => exact hwrite (h.settleDownload id hready _) _ trivial
  | identifying version => exact hkeep _ trivial
  | reporting version =>
    exact ⟨⟨h.queued, h.known, h.earned, h.settled, h.unsettled⟩, trivial,
      ⟨le_rfl, List.suffix_rfl, fun _ hprogress => .inl hprogress⟩⟩
  | listing =>
    refine hkeep _ fun row hrow => ?_
    obtain ⟨htask, hcondition⟩ := mem_rowsWhere hrow
    rw [Bool.and_eq_true, decide_eq_true_eq] at hcondition
    exact h.waited htask hcondition.2
  | reading waiting => exact hkeep _ hready
  | applying reported waiting =>
    cases waiting with
    | nil => exact hkeep _ trivial
    | cons row waiting =>
      have hrest : Ready s (.applying reported waiting) := fun other hother =>
        hready other (List.mem_cons_of_mem _ hother)
      have hsettle : Sound (s.settleDownload row.2 .done .inform) ∧
          Grows s (s.settleDownload row.2 .done .inform) := h.settleDownload row.2 rfl .inform
      unfold next
      dsimp only
      split_ifs
      · exact hwrite hsettle _ (hrest.grows hsettle.2)
      · exact hkeep _ hrest
  | listingStuck olderThanMinutes hours => exact hkeep _ trivial
  | reaping stuck hours =>
    cases stuck with
    | nil => exact hkeep _ trivial
    | cons id stuck => exact hwrite (h.reap id _) _ trivial
  | listingStale hours => exact hkeep _ trivial
  | expiring stale =>
    cases stale with
    | nil => exact hkeep _ trivial
    | cons id stale => exact hwrite (h.settleDownload id rfl _) _ trivial
  | queueing isDownload targetVersion priority => exact hwrite (h.queueing rfl) _ trivial
  | waiting seconds =>
    exact ⟨⟨h.queued, h.known, h.earned, h.settled, h.unsettled⟩, trivial,
      ⟨le_rfl, List.suffix_rfl, fun _ hprogress => .inl hprogress⟩⟩
  | closed => exact hkeep _ trivial

theorem Sound.fresh {s : Acs} (h : Sound s) (hlaw : Lawful s.history) {id : ℕ} {task : Task}
    (htask : s.tasks[id]? = some task) :
    task.status.isSettled = false ↔ id ∉ settlements s.history := by
  constructor
  · intro hstatus hmem
    rcases h.unsettled id task htask hmem with hsettled | hdup
    · rw [hsettled] at hstatus
      cases hstatus
    · exact hdup hlaw.dispatchedOnce
  · intro hmem
    rw [← Bool.not_eq_true]
    exact fun hsettled => hmem (h.settled id task htask hsettled)

theorem not_isSettled_of_isUnderWay {status : TaskStatus} (h : status.isUnderWay = true) :
    status.isSettled = false := by
  cases status <;> first | rfl | cases h

theorem mayMove_answer {id rpc : ℕ} : (Writer.answer rpc).mayMove id ↔ id = rpc := by
  simp [Writer.mayMove, eq_comm]

theorem not_mayMove_transferComplete (id : ℕ) : ¬ Writer.transferComplete.mayMove id := by
  simp [Writer.mayMove]

/-- **When the next statement keeps the law**: just when it is covered. -/
theorem lawful_next {s : Acs} {t : Stage} (a : Answer) (h : Sound s) (hready : Ready s t)
    (hlaw : Lawful s.history) : Lawful (next s t a).1.history ↔ Covered s t a := by
  have hanswer : ∀ {rpc active : ℕ} {task' : Task → Task},
      (∀ task, (task' task).status.isSettled = true) →
      (Lawful (s.write active (fun _ => true) task' (.answer rpc)).history ↔
        ∀ task ∈ s.tasks[active]?,
          (task.status = .in_progress → active = rpc) ∧ task.status.isSettled = false) := by
    intro rpc active task' hsettles
    rw [lawful_write hlaw]
    refine forall_congr' fun task => imp_congr_right fun htask => ?_
    rw [mayMove_answer, h.fresh hlaw htask]
    simp [hsettles]
  have hconditional : ∀ {id : ℕ} {condition : TaskStatus → Bool} {task' : Task → Task}
      {writer : Writer}, (∀ status, condition status = true → status.isUnderWay = true) →
      (condition .in_progress = true) →
      (Lawful (s.write id condition task' writer).history ↔
        ∀ task ∈ s.tasks[id]?, task.status = .in_progress → writer.mayMove id) := by
    intro id condition task' writer hway hprogress
    rw [lawful_write hlaw]
    refine forall_congr' fun task => imp_congr_right fun htask => ?_
    constructor
    · intro hall hstatus
      exact (hall (by rw [hstatus, hprogress])).1 hstatus
    · intro hmove hcondition
      exact ⟨hmove, fun _ => (h.fresh hlaw htask).1
        (not_isSettled_of_isUnderWay (hway _ hcondition))⟩
  have hin : ∀ status : TaskStatus, (decide (status = .in_progress)) = true →
      status.isUnderWay = true := by
    intro status hstatus
    rw [of_decide_eq_true hstatus]
    rfl
  cases t with
  | marking id => exact h.lawful_dispatch hlaw hready
  | faulting rpc active => exact hanswer fun _ => rfl
  | completing rpc active => exact hanswer fun _ => rfl
  | settling rpc active status =>
    refine (hconditional (fun _ hway => hway) rfl).trans ?_
    simp only [mayMove_answer]
    exact Iff.rfl
  | deferring rpc active status =>
    refine (hconditional hin rfl).trans ?_
    simp only [mayMove_answer]
    exact Iff.rfl
  | confirming id status =>
    refine (hconditional (fun _ hway => hway) rfl).trans ?_
    simp only [not_mayMove_transferComplete, imp_false]
    exact Iff.rfl
  | applying reported waiting =>
    refine iff_of_true ?_ trivial
    cases waiting with
    | nil => exact hlaw
    | cons row waiting =>
      unfold next
      dsimp only
      split_ifs
      · refine (hconditional (fun _ hway => hway) rfl).2 fun task htask hprogress => ?_
        exact absurd hlaw.dispatchedOnce
          ((hready row List.mem_cons_self).2 ⟨task, htask, hprogress⟩)
      · exact hlaw
  | reaping stuck hours =>
    refine iff_of_true ?_ trivial
    cases stuck with
    | nil => exact hlaw
    | cons id stuck => exact (hconditional hin rfl).2 fun _ _ _ => .inr rfl
  | expiring stale =>
    refine iff_of_true ?_ trivial
    cases stale with
    | nil => exact hlaw
    | cons id stale => exact (hconditional (fun _ hway => hway) rfl).2 fun _ _ _ => .inr rfl
  | choosing | holding _ | matching _ _ | comparing _ _ _ _ | finding _ _ | checking _ _
  | identifying _ | reporting _ | listing | reading _ | listingStuck _ _ | listingStale _
  | queueing _ _ _ | waiting _ | closed => exact iff_of_true hlaw trivial

/-! ### The runs -/

theorem always_sound (s : Threads Acs Stage) (is : List (Turn Call Answer))
    (hs : s.Holds Sound Ready fun _ _ => True) :
    Always step (fun s => s.Holds Sound Ready fun _ _ => True) s is := by
  refine @Threads.holds_always _ _ _ _ start next Sound Ready (fun _ _ => True)
    (fun _ _ _ => True) (fun _ _ _ => trivial) ?_ (fun _ _ => trivial) ?_ s hs is
    (stepsMeet_meets s is)
  · intro s c
    cases c <;> trivial
  · intro s t a h hready _
    obtain ⟨hsound, hown, hgrows⟩ := next_sound a h hready
    exact ⟨hsound, hown, fun u hu _ => ⟨hu.grows hgrows, trivial⟩⟩

theorem sound_registered (version : Option String) (now : ℤ) : Sound (registered version now) where
  queued id task htask := by cases htask
  known id hid := by cases hid
  earned id hid := by cases hid
  settled id task htask := by cases htask
  unsettled id task htask := by cases htask

/-- **Which runs are lawful**: every task is dispatched once at most, leaves `in_progress` by its
own answer or the reaper, and is settled once at most, in just the runs whose statements are all
covered. -/
theorem settled_once_iff (version : Option String) (now : ℤ) (is : List (Turn Call Answer)) :
    Always step (fun s => Lawful s.shared.history) (Threads.idle (registered version now)) is ↔
      StepsMeet step (Threads.Meets Covered) (Threads.idle (registered version now)) is := by
  refine @Threads.always_iff_meets _ _ _ _ start next Sound Ready (fun _ _ => True) Covered
    (fun s => Lawful s.history) always_sound ?_ ?_ _
    (Threads.Holds.idle (sound_registered version now)) ?_ is
  · exact fun s t a h hready hlaw hcovered => (lawful_next a h hready hlaw).2 hcovered
  · intro s t a h hready hcovered hlaw
    obtain ⟨-, -, hgrows⟩ := next_sound a h hready
    exact hcovered ((lawful_next a h hready (hlaw.of_suffix hgrows.history)).1 hlaw)
  · exact ⟨List.nodup_nil, fun _ _ hmem => absurd hmem List.not_mem_nil, List.nodup_nil⟩

/-- Two sessions of a device with one task: both select it before either marks it. -/
def overlapping : List (Turn Call Answer) :=
  let up : Answer := ⟨0, true, .response 0⟩
  [.call (.queue false none 5), .turn 0 up, .call .emptyPost, .call .emptyPost, .turn 1 up,
    .turn 2 up, .turn 1 up, .turn 2 up]

theorem dispatched_twice : ¬ ∀ version now is,
    Always step (fun s => Lawful s.shared.history) (Threads.idle (registered version now)) is := by
  intro h
  have honce := (h none 0 overlapping).last.dispatchedOnce
  exact absurd honce (by decide)

end Vigabss.Cwmp.Tasks
