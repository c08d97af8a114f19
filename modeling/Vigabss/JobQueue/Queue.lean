import Mathlib.Algebra.BigOperators.Group.Finset.Piecewise
import Vigabss.Lib.JsMap
import Vigabss.Lib.JsText
import Vigabss.Lib.Run

/-!
# Vigabss.JobQueue.Queue — the in-process job queue

`InProcessQueue` of `jobQueueService.js`: jobs are accepted into `pending`, `drain` starts them while
fewer than `maxConcurrency` run, and the callback of a job that has settled counts it out and
schedules the next `drain`.  What happens to the queue comes as events, in any order.
-/

namespace Vigabss.JobQueue

open Vigabss.Lib

variable {δ η : Type}

/-! ### The limits -/

/-- The environment variables that the constructor reads. -/
structure Config where
  JOB_QUEUE_CONCURRENCY : Option (List Char)
  JOB_QUEUE_MAX_PENDING : Option (List Char)
  SNMP_TRAP_LOCAL_QUEUE_CAPACITY : Option (List Char)

/-- `parseInt(value || standard, 10)`; `none` is not a number. -/
def parseVar (value : Option (List Char)) (standard : List Char) : Option ℤ :=
  JsText.parseInt 10 (if value.getD [] = [] then standard else value.getD [])

/-- `Math.max(10, Math.min(high, parsed || standard))`. -/
def clamped (parsed : Option ℤ) (high standard : ℤ) : ℤ :=
  max 10 (min high (if parsed.getD 0 = 0 then standard else parsed.getD 0))

def Config.maxConcurrency (c : Config) : Option ℤ := parseVar c.JOB_QUEUE_CONCURRENCY ['5']

def Config.maxPending (c : Config) : ℤ :=
  clamped (parseVar c.JOB_QUEUE_MAX_PENDING "1000".toList) 10000 1000

def Config.trapForwardingCapacity (c : Config) : ℤ :=
  clamped (parseVar c.SNMP_TRAP_LOCAL_QUEUE_CAPACITY "100".toList) 1000 100

/-! ### The queue -/

/-- A job, with the handler that was registered when it was accepted. -/
structure Job (δ η : Type) where
  id : String
  name : String
  data : δ
  handler : η

/-- The queue, the jobs whose handlers run, and the jobs that were accepted and started so far. -/
structure Queue (δ η : Type) where
  handlers : JsMap String η
  running : ℤ
  pending : List (Job δ η)
  activeByName : JsMap String ℕ
  knownJobIds : Finset String
  drainScheduled : Bool
  active : List (Job δ η)
  accepted : List (Job δ η)
  started : List (Job δ η)

/-- `new InProcessQueue()`. -/
def Queue.init : Queue δ η := ⟨.empty, 0, [], .empty, ∅, false, [], [], []⟩

namespace Queue

def process (s : Queue δ η) (name : String) (handler : η) : Queue δ η :=
  { s with handlers := s.handlers.set name handler }

def scheduleDrain (s : Queue δ η) : Queue δ η := { s with drainScheduled := true }

/-- One pass of the loop of `drain`: the first pending job is started. -/
def start (s : Queue δ η) (job : Job δ η) (rest : List (Job δ η)) : Queue δ η :=
  { s with
    pending := rest
    running := s.running + 1
    activeByName := s.activeByName.set job.name ((s.activeByName.get job.name).getD 0 + 1)
    active := s.active ++ [job]
    started := s.started ++ [job] }

/-- `this.running < this.maxConcurrency`. -/
def hasRoom (c : Config) (s : Queue δ η) : Bool := c.maxConcurrency.any fun max => s.running < max

def drainFrom (c : Config) : List (Job δ η) → Queue δ η → Queue δ η
  | [], s => s
  | job :: rest, s => if s.hasRoom c then drainFrom c rest (s.start job rest) else s

def drain (c : Config) (s : Queue δ η) : Queue δ η := drainFrom c s.pending s

/-- The callback of `setImmediate`. -/
def immediate (c : Config) (s : Queue δ η) : Queue δ η :=
  if s.drainScheduled then drain c { s with drainScheduled := false } else s

/-- `(this.activeByName.get(job.name) || 1) - 1`. -/
def remaining (s : Queue δ η) (name : String) : ℕ :=
  (if (s.activeByName.get name).getD 0 = 0 then 1 else (s.activeByName.get name).getD 0) - 1

/-- The last callback of the `i`-th running job, completed or failed. -/
def settle (s : Queue δ η) (i : ℕ) : Queue δ η :=
  match s.active[i]? with
  | none => s
  | some job =>
    { s with
      knownJobIds := s.knownJobIds.erase job.id
      running := s.running - 1
      activeByName :=
        if 0 < s.remaining job.name then s.activeByName.set job.name (s.remaining job.name)
        else s.activeByName.delete job.name
      active := s.active.eraseIdx i }.scheduleDrain

/-- What `add` returns. -/
structure Answer where
  id : Option String
  name : String
  status : String
  deduplicated : Bool
  deriving DecidableEq, Repr

/-- An error's `code` and `message`. -/
structure Failure where
  code : String
  message : String
  deriving DecidableEq, Repr

/-- The id of a job for which none was requested. -/
def localId (now random : String) : String := "local-" ++ now ++ "-" ++ random

/-- A requested id counts when it is not empty. -/
def requested (jobId : Option String) : Option String := jobId.filter (· ≠ "")

def capacity (c : Config) (name : String) : ℤ :=
  if name = "trap-forwarding-delivery" then c.trapForwardingCapacity else c.maxPending

/-- The pending and running jobs of a name. -/
def pendingForName (s : Queue δ η) (name : String) : ℕ :=
  s.pending.foldl (fun count job => count + if job.name = name then 1 else 0)
    ((s.activeByName.get name).getD 0)

/-- `add(name, data, { jobId })`; `now` is `Date.now()` and `random` the random suffix. -/
def add (c : Config) (s : Queue δ η) (name : String) (data : δ) (jobId : Option String)
    (now random : String) : Queue δ η × Except Failure Answer :=
  match s.handlers.get name with
  | none => (s, .ok ⟨some ("local-" ++ now), name, "no-handler", false⟩)
  | some handler =>
    if ∃ id ∈ requested jobId, id ∈ s.knownJobIds then
      (s, .ok ⟨requested jobId, name, "queued", true⟩)
    else if c.maxPending ≤ s.pending.length ∨ capacity c name ≤ s.pendingForName name then
      if name = "trap-forwarding-delivery" ∨ name = "webhook-delivery" then
        (s, .ok ⟨none, name, "durable-pending", false⟩)
      else
        (s, .error ⟨"JOB_QUEUE_CAPACITY", "In-process queue capacity reached for " ++ name⟩)
    else
      let id := (requested jobId).getD (localId now random)
      let job : Job δ η := ⟨id, name, data, handler⟩
      ({ s with
          knownJobIds := insert id s.knownJobIds
          pending := s.pending ++ [job]
          accepted := s.accepted ++ [job] }.scheduleDrain,
        .ok ⟨some id, name, "queued", false⟩)

end Queue

/-! ### Events -/

/-- What happens to the queue. -/
inductive Event (δ η : Type) where
  | process (name : String) (handler : η)
  | add (name : String) (data : δ) (jobId : Option String) (now random : String)
  | immediate
  | drain
  | settle (i : ℕ)

def step (c : Config) (s : Queue δ η) : Event δ η → Queue δ η
  | .process name handler => s.process name handler
  | .add name data jobId now random => (s.add c name data jobId now random).1
  | .immediate => s.immediate c
  | .drain => s.drain c
  | .settle i => s.settle i

end Vigabss.JobQueue

/-!
## The counters of the queue tell what runs

In every run, whatever the order of adds, drains and completions: the counters are those of the jobs
that run, no more run than may, jobs start in the order in which they were accepted and each once,
and the queue does not rest with a job left.  It takes a concurrency of at least one, and ids that
are not drawn twice.
-/

namespace Vigabss.JobQueue

open Vigabss.Lib

variable {δ η : Type}

/-! ### The property -/

/-- The ids of the jobs that are pending or running. -/
def Queue.ids (s : Queue δ η) : List String := (s.pending ++ s.active).map Job.id

/-- What holds of the queue between any two events. -/
structure Holds (c : Config) (s : Queue δ η) : Prop where
  atMost : ∀ max, c.maxConcurrency = some max → (s.active.length : ℤ) ≤ max
  inOrder : s.started ++ s.pending = s.accepted
  atRest : s.active = [] → s.drainScheduled = false → s.started = s.accepted
  unique : s.ids.Nodup
  running : s.running = s.active.length
  sum : (s.activeByName.total fun _ (n : ℕ) => n : ℕ) = s.running

/-- A job for which no id was requested gets one that no job has. -/
def Fresh (s : Queue δ η) : Event δ η → Prop
  | .add _ _ jobId now random =>
    Queue.requested jobId = none → Queue.localId now random ∉ s.knownJobIds
  | _ => True

/-! ### The invariant -/

/-- How many jobs of a name run. -/
def Queue.activeOf (s : Queue δ η) (name : String) : ℕ :=
  s.active.countP fun job => job.name = name

/-- The counters are those of the jobs, and no more jobs run than may. -/
structure Counted (max : ℤ) (s : Queue δ η) : Prop where
  running : s.running = s.active.length
  limit : (s.active.length : ℤ) ≤ max
  inOrder : s.started ++ s.pending = s.accepted
  unique : s.ids.Nodup
  known : ∀ id, id ∈ s.knownJobIds ↔ id ∈ s.ids
  counts : ∀ name, s.activeByName.get name =
    if s.activeOf name = 0 then none else some (s.activeOf name)

/-- And a drain is to come where there is something to do. -/
structure Steady (max : ℤ) (s : Queue δ η) : Prop extends Counted max s where
  scheduled : s.drainScheduled = false → s.pending = [] ∨ (s.active.length : ℤ) = max

theorem getD_counts {s : Queue δ η} {max : ℤ} (h : Counted max s) (name : String) :
    (s.activeByName.get name).getD 0 = s.activeOf name := by
  rw [h.counts]
  split_ifs with hzero
  · exact hzero.symm
  · rfl

/-- The counts by name add up to the number that runs. -/
theorem sum_counts {active : List (Job δ η)} {m : JsMap String ℕ}
    (h : ∀ name, (m.get name).getD 0 = active.countP fun job => job.name = name) :
    m.total (fun _ n => n) = active.length := by
  have hkeys : ∀ name n, m.get name = some n →
      name ∈ (m.entries.map Prod.fst).toFinset ∪ (active.map Job.name).toFinset := fun name n hn =>
    Finset.mem_union_left _ (List.mem_toFinset.2
      (List.mem_map_of_mem (f := Prod.fst) (JsMap.mem_entries.2 hn)))
  have hpart : ∀ name, m.part (fun _ n => n) name =
      active.countP fun job => job.name = name := by
    intro name
    rw [← h, JsMap.part]
    cases m.get name <;> rfl
  have hcount : ∀ names : Finset String, (∀ job ∈ active, job.name ∈ names) →
      ∑ name ∈ names, active.countP (fun job => job.name = name) = active.length := by
    intro names hnames
    clear h hkeys hpart
    induction active with
    | nil => simp
    | cons job active ih =>
      have hone : ∑ name ∈ names, (if job.name = name then 1 else 0) = 1 := by
        rw [Finset.sum_ite_eq, if_pos (hnames job List.mem_cons_self)]
      simp only [List.countP_cons, decide_eq_true_eq, Finset.sum_add_distrib, hone,
        List.length_cons, ih fun j hj => hnames j (List.mem_cons_of_mem job hj)]
  rw [JsMap.total_eq_sum _ _ hkeys, Finset.sum_congr rfl fun name _ => hpart name, hcount]
  exact fun job hjob =>
    Finset.mem_union_right _ (List.mem_toFinset.2 (List.mem_map_of_mem hjob))

theorem Steady.holds {c : Config} {max : ℤ} (hc : c.maxConcurrency = some max) (hmax : 1 ≤ max)
    {s : Queue δ η} (h : Steady max s) : Holds c s where
  atMost := fun m hm => by
    rw [hc] at hm
    cases hm
    exact h.limit
  inOrder := h.inOrder
  atRest := fun hactive hscheduled => by
    rcases h.scheduled hscheduled with hpending | hfull
    · rw [← h.inOrder, hpending, List.append_nil]
    · rw [hactive, List.length_nil] at hfull
      omega
  unique := h.unique
  running := h.running
  sum := by rw [sum_counts (getD_counts h.toCounted), h.running]

theorem steady_init {max : ℤ} (hmax : 1 ≤ max) : Steady max (Queue.init : Queue δ η) where
  running := rfl
  limit := by
    show (0 : ℤ) ≤ max
    omega
  inOrder := rfl
  unique := List.nodup_nil
  known := fun id => by simp [Queue.init, Queue.ids]
  counts := fun name => rfl
  scheduled := fun _ => .inl rfl

/-! ### The events -/

theorem Counted.start {max : ℤ} {s : Queue δ η} (h : Counted max s) {job : Job δ η}
    {rest : List (Job δ η)} (hpending : s.pending = job :: rest) (hroom : s.running < max) :
    Counted max (s.start job rest) := by
  have hids : ((s.start job rest).ids).Perm s.ids := by
    show ((rest ++ (s.active ++ [job])).map Job.id).Perm ((s.pending ++ s.active).map Job.id)
    rw [hpending, ← List.append_assoc]
    exact (List.perm_append_singleton job _).map _
  have hactive : ∀ name, (s.start job rest).activeOf name =
      s.activeOf name + if job.name = name then 1 else 0 := by
    intro name
    show (s.active ++ [job]).countP _ = _
    rw [List.countP_append, List.countP_singleton]
    simp only [decide_eq_true_eq]
    rfl
  have hcount : (s.activeByName.get job.name).getD 0 = s.activeOf job.name := by
    rw [h.counts]
    split_ifs with hzero
    · exact hzero.symm
    · rfl
  have hlength : (s.active ++ [job]).length = s.active.length + 1 := List.length_append
  refine ⟨?_, ?_, ?_, hids.nodup_iff.2 h.unique, fun id => ?_, fun name => ?_⟩
  · show s.running + 1 = ((s.active ++ [job]).length : ℤ)
    rw [hlength, h.running]
    rfl
  · show ((s.active ++ [job]).length : ℤ) ≤ max
    have := h.running
    rw [hlength]
    push_cast
    omega
  · show s.started ++ [job] ++ rest = s.accepted
    rw [List.append_assoc, List.singleton_append, ← hpending, h.inOrder]
  · exact (h.known id).trans hids.mem_iff.symm
  · show (s.activeByName.set job.name _).get name = _
    rw [JsMap.get_set, hactive, hcount]
    by_cases hname : name = job.name
    · subst hname
      rw [if_pos rfl, if_pos rfl, if_neg (Nat.succ_ne_zero _)]
    · rw [if_neg hname, if_neg (Ne.symm hname), Nat.add_zero, h.counts]

/-- **A drain** starts jobs until none is pending or as many run as may. -/
theorem steady_drainFrom {c : Config} {max : ℤ} (hc : c.maxConcurrency = some max)
    (jobs : List (Job δ η)) {s : Queue δ η} (hpending : s.pending = jobs) (h : Counted max s) :
    Steady max (Queue.drainFrom c jobs s) := by
  induction jobs generalizing s with
  | nil =>
    exact ⟨h, fun _ => .inl hpending⟩
  | cons job rest ih =>
    have hroom : s.hasRoom c = decide (s.running < max) := by rw [Queue.hasRoom, hc]; rfl
    rw [Queue.drainFrom, hroom]
    by_cases hlt : s.running < max
    · rw [if_pos (decide_eq_true hlt)]
      exact ih rfl (h.start hpending hlt)
    · rw [if_neg (by simpa using hlt)]
      have hlimit := h.limit
      have hrunning := h.running
      exact ⟨h, fun _ => .inr (by omega)⟩

theorem steady_drain {c : Config} {max : ℤ} (hc : c.maxConcurrency = some max) {s : Queue δ η}
    (h : Counted max s) : Steady max (s.drain c) := steady_drainFrom hc _ rfl h

/-- **A job that settles** is counted out. -/
theorem steady_settle {max : ℤ} {s : Queue δ η} (h : Steady max s) (i : ℕ) :
    Steady max (s.settle i) := by
  rw [Queue.settle]
  cases hjob : s.active[i]? with
  | none => exact h
  | some job =>
    obtain ⟨hi, hget⟩ := List.getElem?_eq_some_iff.1 hjob
    have hperm : (job :: s.active.eraseIdx i).Perm s.active := by
      rw [← hget]
      exact List.getElem_cons_eraseIdx_perm hi
    have hids : (job.id :: (s.pending ++ s.active.eraseIdx i).map Job.id).Perm s.ids := by
      have hmiddle : (s.pending ++ job :: s.active.eraseIdx i).Perm
          (job :: (s.pending ++ s.active.eraseIdx i)) := List.perm_middle
      exact ((hmiddle.symm.trans (hperm.append_left s.pending)).map Job.id)
    obtain ⟨hnot, hnodup⟩ := List.nodup_cons.1 (hids.nodup_iff.2 h.unique)
    have hlength : (s.active.eraseIdx i).length + 1 = s.active.length := hperm.length_eq
    have hcount : ∀ name, s.activeOf name = (s.active.eraseIdx i).countP
        (fun job => job.name = name) + if job.name = name then 1 else 0 := by
      intro name
      have hcountP := hperm.countP_eq fun job => decide (job.name = name)
      rw [List.countP_cons] at hcountP
      simp only [decide_eq_true_eq] at hcountP
      exact hcountP.symm
    have hrunning := h.running
    have hlimit := h.limit
    refine ⟨⟨?_, ?_, h.inOrder, hnodup, fun id => ?_, fun name => ?_⟩, fun hfalse => by
      cases hfalse⟩
    · show s.running - 1 = ((s.active.eraseIdx i).length : ℤ)
      omega
    · show ((s.active.eraseIdx i).length : ℤ) ≤ max
      omega
    · show id ∈ s.knownJobIds.erase job.id ↔ id ∈ (s.pending ++ s.active.eraseIdx i).map Job.id
      rw [Finset.mem_erase, h.known, ← hids.mem_iff, List.mem_cons]
      constructor
      · rintro ⟨hne, heq | hmem⟩
        · exact absurd heq hne
        · exact hmem
      · exact fun hmem => ⟨fun heq => hnot (heq ▸ hmem), .inr hmem⟩
    · show (if 0 < s.remaining job.name then s.activeByName.set job.name (s.remaining job.name)
        else s.activeByName.delete job.name).get name =
          if (s.active.eraseIdx i).countP (fun job => job.name = name) = 0 then none
          else some ((s.active.eraseIdx i).countP fun job => job.name = name)
      have hremaining : s.remaining job.name =
          (s.active.eraseIdx i).countP fun j => j.name = job.name := by
        have hself := hcount job.name
        rw [if_pos rfl] at hself
        rw [Queue.remaining, getD_counts h.toCounted, hself, if_neg (Nat.succ_ne_zero _)]
        rfl
      have hother : name ≠ job.name → s.activeByName.get name =
          if (s.active.eraseIdx i).countP (fun job => job.name = name) = 0 then none
          else some ((s.active.eraseIdx i).countP fun job => job.name = name) := by
        intro hne
        rw [h.counts, hcount, if_neg (Ne.symm hne), Nat.add_zero]
      rw [hremaining]
      by_cases hname : name = job.name
      · subst hname
        split_ifs with hpos hzero hzero
        · omega
        · rw [JsMap.get_set, if_pos rfl]
        · rw [JsMap.get_delete, if_pos rfl]
        · omega
      · rw [← hother hname]
        split_ifs
        · rw [JsMap.get_set, if_neg hname]
        · rw [JsMap.get_delete, if_neg hname]

/-- **An add** accepts a job under an id that no other has, or changes nothing. -/
theorem steady_add {c : Config} {max : ℤ} {s : Queue δ η} (h : Steady max s) (name : String)
    (data : δ) {jobId : Option String} {now random : String}
    (hfresh : Queue.requested jobId = none → Queue.localId now random ∉ s.knownJobIds) :
    Steady max (s.add c name data jobId now random).1 := by
  unfold Queue.add
  cases s.handlers.get name with
  | none => exact h
  | some handler =>
    simp only
    split_ifs with hdup hcapacity hdurable
    · exact h
    · exact h
    · exact h
    · have hnew : (Queue.requested jobId).getD (Queue.localId now random) ∉ s.knownJobIds := by
        cases hrequested : Queue.requested jobId with
        | none => exact hfresh hrequested
        | some id => exact fun hmem => hdup ⟨id, hrequested, hmem⟩
      generalize (Queue.requested jobId).getD (Queue.localId now random) = id at hnew
      have hids : ((s.pending ++ [(⟨id, name, data, handler⟩ : Job δ η)] ++ s.active).map
          Job.id).Perm (id :: s.ids) := by
        rw [List.append_assoc]
        exact (List.perm_middle.map Job.id)
      refine ⟨⟨h.running, h.limit, ?_, ?_, fun id' => ?_, h.counts⟩, fun hfalse => by cases hfalse⟩
      · show s.started ++ (s.pending ++ [_]) = s.accepted ++ [_]
        rw [← List.append_assoc, h.inOrder]
      · exact hids.nodup_iff.2 (List.nodup_cons.2 ⟨fun hmem => hnew ((h.known id).2 hmem),
          h.unique⟩)
      · show id' ∈ insert id s.knownJobIds ↔ _
        rw [Finset.mem_insert, h.known, ← List.mem_cons]
        exact hids.mem_iff.symm

/-- **Every event keeps the counters right.** -/
theorem steady_step {c : Config} {max : ℤ} (hc : c.maxConcurrency = some max) (s : Queue δ η)
    (e : Event δ η) (h : Steady max s) (hfresh : Fresh s e) : Steady max (step c s e) := by
  cases e with
  | process name handler =>
    exact ⟨⟨h.running, h.limit, h.inOrder, h.unique, h.known, h.counts⟩, h.scheduled⟩
  | add name data jobId now random => exact steady_add h name data hfresh
  | drain => exact steady_drain hc h.toCounted
  | settle i => exact steady_settle h i
  | immediate =>
    show Steady max (s.immediate c)
    rw [Queue.immediate]
    split_ifs with hscheduled
    · refine steady_drain hc ?_
      exact ⟨h.running, h.limit, h.inOrder, h.unique, h.known, h.counts⟩
    · exact h

/-- **In every run the queue keeps to its limit and loses no job**, where the concurrency is at
least one and ids are not drawn twice. -/
theorem queue_holds {c : Config} {max : ℤ} (hc : c.maxConcurrency = some max) (hmax : 1 ≤ max)
    {events : List (Event δ η)} (hfresh : StepsMeet (step c) Fresh Queue.init events) :
    Always (step c) (Holds c) Queue.init events :=
  (always_of_step (P := Steady max) (steady_step hc) (steady_init hmax) hfresh).mono
    fun _ h => h.holds hc hmax

/-! ### The queue comes to rest -/

/-- What is left to do without another add. -/
def Queue.work (s : Queue δ η) : ℕ :=
  2 * (s.pending.length + s.active.length) + if s.drainScheduled then 1 else 0

theorem work_drainFrom (c : Config) (jobs : List (Job δ η)) {s : Queue δ η}
    (hpending : s.pending = jobs) : (Queue.drainFrom c jobs s).work = s.work := by
  induction jobs generalizing s with
  | nil => rfl
  | cons job rest ih =>
    have hstart : (s.start job rest).work = s.work := by
      simp [Queue.work, Queue.start, hpending, add_assoc, add_left_comm, add_comm]
    rw [Queue.drainFrom]
    split_ifs
    · rw [ih rfl, hstart]
    · rfl

/-- A scheduled drain runs, or a job that runs settles. -/
def Busy (s : Queue δ η) : Event δ η → Prop
  | .immediate => s.drainScheduled = true
  | .settle i => i < s.active.length
  | _ => False

theorem work_lt (c : Config) {s : Queue δ η} {e : Event δ η} (h : Busy s e) :
    (step c s e).work < s.work := by
  cases e with
  | process | add | drain => exact h.elim
  | immediate =>
    have hscheduled : s.drainScheduled = true := h
    show (s.immediate c).work < s.work
    rw [Queue.immediate, if_pos hscheduled, Queue.drain, work_drainFrom c _ rfl]
    simp [Queue.work, hscheduled]
  | settle i =>
    show (s.settle i).work < s.work
    rw [Queue.settle, List.getElem?_eq_getElem h]
    show 2 * (s.pending.length + (s.active.eraseIdx i).length) + 1 <
      2 * (s.pending.length + s.active.length) + _
    have hlength := List.length_eraseIdx_add_one h
    omega

theorem length_le_work {c : Config} {s : Queue δ η} {more : List (Event δ η)}
    (h : StepsMeet (step c) Busy s more) :
    more.length + (run (step c) s more).work ≤ s.work := by
  induction more generalizing s with
  | nil => exact (Nat.zero_add _).le
  | cons e more ih =>
    have hlt := work_lt c h.1
    have hrest := ih h.2
    rw [run_cons, List.length_cons]
    omega

section Example

/-- `JOB_QUEUE_CONCURRENCY` is set, and nothing else is. -/
def concurrency (value : List Char) : Config := ⟨some value, none, none⟩

theorem maxConcurrency_of_digit {d : Char} (h : JsText.isDigit 10 d = true) :
    (concurrency [d]).maxConcurrency = some (JsText.digitValue d : ℤ) := by
  have hlt : JsText.digitValue d < 10 := of_decide_eq_true h
  have hvalue : JsText.digitsValue 10 [d] = JsText.digitValue d := by
    simp [JsText.digitsValue]
  have hparse := @JsText.parseInt_digits 10 (by decide) _ (List.cons_ne_nil d [])
    (by simp [h]) (by rw [hvalue]; omega)
  rw [hvalue] at hparse
  exact hparse

/-- A job is added, and the scheduled drain runs. -/
def oneJob : List (Event Unit Unit) :=
  [.process "batch-job" (), .add "batch-job" () (some "job-7") "1700000000000" "k3f9x2",
    .immediate]

/-- The queue with the job that was accepted. -/
def afterAdd : Queue Unit Unit :=
  { (Queue.init : Queue Unit Unit).process "batch-job" () with
    knownJobIds := {"job-7"}
    pending := [⟨"job-7", "batch-job", (), ()⟩]
    accepted := [⟨"job-7", "batch-job", (), ()⟩]
    drainScheduled := true }

/-- What `oneJob` leaves behind. -/
theorem run_oneJob {c : Config} (hmax : c.maxConcurrency = some 0) :
    run (step c) Queue.init oneJob = { afterAdd with drainScheduled := false } := by
  have hcapacity : ¬ (c.maxPending ≤ ((0 : ℕ) : ℤ) ∨
      Queue.capacity c "batch-job" ≤ ((0 : ℕ) : ℤ)) := by
    have hpending : 10 ≤ c.maxPending := le_max_left _ _
    rw [Queue.capacity, if_neg (by decide)]
    omega
  have hadd : step c ((Queue.init : Queue Unit Unit).process "batch-job" ())
      (.add "batch-job" () (some "job-7") "1700000000000" "k3f9x2") = afterAdd := by
    show (Queue.add c _ _ _ _ _ _).1 = _
    rw [Queue.add]
    show (if _ then _ else if c.maxPending ≤ ((0 : ℕ) : ℤ) ∨
      Queue.capacity c "batch-job" ≤ ((0 : ℕ) : ℤ) then _ else _ : _ × _).1 = _
    rw [if_neg (by decide), if_neg hcapacity]
    rfl
  have hdrain : step c afterAdd .immediate = { afterAdd with drainScheduled := false } := by
    have hroom : Queue.hasRoom c { afterAdd with drainScheduled := false } = false := by
      rw [Queue.hasRoom, hmax]
      rfl
    show Queue.drainFrom c [⟨"job-7", "batch-job", (), ()⟩]
      { afterAdd with drainScheduled := false } = _
    rw [Queue.drainFrom, hroom]
    rfl
  rw [oneJob, run_cons, run_cons, run_cons, run_nil]
  show step c (step c ((Queue.init : Queue Unit Unit).process "batch-job" ()) _) _ = _
  rw [hadd, hdrain]

/-- Where the concurrency is none, an accepted job is never started. -/
theorem job_never_started : ¬ ∀ (c : Config) (events : List (Event Unit Unit)),
    StepsMeet (step c) Fresh Queue.init events → Always (step c) (Holds c) Queue.init events := by
  intro h
  have hrun := run_oneJob (maxConcurrency_of_digit (d := '0') (by decide))
  have hfresh : StepsMeet (step (concurrency ['0'])) Fresh (Queue.init : Queue Unit Unit) oneJob :=
    ⟨trivial, by refine ⟨fun hnone => ?_, trivial, trivial⟩; cases hnone⟩
  have hlast := (h _ _ hfresh).last
  rw [hrun] at hlast
  cases hlast.atRest rfl rfl

/-- With a concurrency of one it is. -/
theorem queue_holds_one : Always (step (concurrency ['1'])) (Holds (concurrency ['1']))
    (Queue.init : Queue Unit Unit) oneJob :=
  queue_holds (maxConcurrency_of_digit (d := '1') (by decide)) (by decide)
    ⟨trivial, by refine ⟨fun hnone => ?_, trivial, trivial⟩; cases hnone⟩

end Example

end Vigabss.JobQueue
