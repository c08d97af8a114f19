import Mathlib.Data.List.Nodup
import Vigabss.Lib.Threads

/-!
# Vigabss.Cwmp.Tasks — the tasks of a CPE and the sessions that carry them

`acsService` and `cpeFirmwareCampaignService` on the `cpe_tasks` of one device: the sessions in
which its tasks are dispatched and answered, its TransferComplete and Inform messages and the
reaper, one SQL statement at a turn.  The id of a task is its place in the table; times are in
seconds.
-/

namespace Vigabss.Cwmp.Tasks

open Vigabss.Lib

/-! ### The rows -/

inductive TaskStatus where
  | queued | in_progress | awaiting_transfer | done | failed
  deriving DecidableEq, Repr

/-- A task; `isDownload` is `task_type = 'download'`, `targetVersion` the `_targetVersion` of its
parameters and `download_status` that of its result. -/
structure Task where
  isDownload : Bool
  targetVersion : Option String
  priority : ℕ
  queued_at : ℤ
  status : TaskStatus
  started_at : Option ℤ
  download_status : Option ℤ
  deriving DecidableEq, Repr

/-- Who moves a task on: the answer to an RPC, by the task of that RPC, another message of the CPE,
or the reaper. -/
inductive Writer where
  | answer (rpc : ℕ)
  | transferComplete
  | inform
  | reaper
  deriving DecidableEq, Repr

/-- What happened to a task: its RPC was sent, it left `in_progress`, or it was settled. -/
inductive Event where
  | dispatched (id : ℕ)
  | left (id : ℕ) (writer : Writer)
  | settled (id : ℕ)
  deriving DecidableEq, Repr

/-- The tasks of the device, the version it reported, the clock and the history, the newest
first. -/
structure Acs where
  tasks : List Task
  software_version : Option String
  now : ℤ
  history : List Event
  deriving DecidableEq, Repr

def TaskStatus.isSettled (status : TaskStatus) : Bool := status = .done ∨ status = .failed

/-- `status IN ('in_progress','awaiting_transfer')`. -/
def TaskStatus.isUnderWay (status : TaskStatus) : Bool :=
  status = .in_progress ∨ status = .awaiting_transfer

/-! ### The statements -/

/-- `ORDER BY priority ASC, queued_at ASC`. -/
def Task.moreUrgent (a b : Task) : Bool :=
  a.priority < b.priority ∨ a.priority = b.priority ∧ a.queued_at < b.queued_at

/-- `ORDER BY started_at DESC`, with `NULL` last. -/
def Task.startedLater (a b : Task) : Bool :=
  match a.started_at, b.started_at with
  | some x, some y => y < x
  | some _, none => true
  | none, _ => false

/-- `LIMIT 1` of rows in an order: one of the rows that no other comes before. -/
def firstOf (before : Task → Task → Bool) (rows : List (Task × ℕ)) (pick : ℕ) :
    Option (Task × ℕ) :=
  let first := rows.filter fun row => rows.all fun other => !before other.1 row.1
  first[pick % first.length]?

namespace Acs

/-- The rows that meet a condition, with their ids. -/
def rowsWhere (condition : Task → Bool) (s : Acs) : List (Task × ℕ) :=
  s.tasks.zipIdx.filter fun row => condition row.1

/-- `getNextTask`. -/
def getNextTask (pick : ℕ) (s : Acs) : Option (Task × ℕ) :=
  firstOf Task.moreUrgent (s.rowsWhere fun task => task.status = .queued) pick

/-- The active task: the one that was started last of those in progress. -/
def activeTask (pick : ℕ) (s : Acs) : Option (Task × ℕ) :=
  firstOf Task.startedLater (s.rowsWhere fun task => task.status = .in_progress) pick

/-- `UPDATE cpe_tasks SET status = 'in_progress', started_at = NOW() WHERE id = ?`, and the RPC that
is sent next. -/
def dispatch (id : ℕ) (s : Acs) : Acs :=
  match s.tasks[id]? with
  | none => s
  | some task =>
    { s with
      tasks := s.tasks.set id { task with status := .in_progress, started_at := some s.now }
      history := .dispatched id :: s.history }

/-- What a write of a status leaves in the history. -/
def trace (id : ℕ) (old new : TaskStatus) (writer : Writer) : List Event :=
  (if new.isSettled then [.settled id] else []) ++
    (if old = .in_progress then [.left id writer] else [])

/-- `UPDATE cpe_tasks SET status = ? WHERE id = ?` and a condition on the status. -/
def write (id : ℕ) (condition : TaskStatus → Bool) (task' : Task → Task) (writer : Writer)
    (s : Acs) : Acs :=
  match s.tasks[id]? with
  | none => s
  | some task =>
    if condition task.status then
      { s with
        tasks := s.tasks.set id (task' task)
        history := trace id task.status (task' task).status writer ++ s.history }
    else s

/-- The update of a Fault. -/
def fail (id : ℕ) : Writer → Acs → Acs :=
  write id (fun _ => true) fun task => { task with status := .failed }

/-- The update of `processTaskResponse`. -/
def complete (id : ℕ) : Writer → Acs → Acs :=
  write id (fun _ => true) fun task => { task with status := .done }

/-- The update of `settleDownload`, to `done` or to `failed`. -/
def settleDownload (id : ℕ) (status : TaskStatus) : Writer → Acs → Acs :=
  write id TaskStatus.isUnderWay fun task => { task with status := status }

/-- The update of `settleDownload` that `onDownloadResponse` makes, with its result. -/
def settleAnswered (id : ℕ) (downloadStatus : ℤ) : Writer → Acs → Acs :=
  write id TaskStatus.isUnderWay fun task =>
    { task with status := .done, download_status := some downloadStatus }

/-- The other update of `onDownloadResponse`. -/
def await (id : ℕ) (downloadStatus : ℤ) : Writer → Acs → Acs :=
  write id (fun status => status = .in_progress) fun task =>
    { task with status := .awaiting_transfer, download_status := some downloadStatus }

/-- The update of `reapStuckTasks`. -/
def reap (id : ℕ) : Writer → Acs → Acs :=
  write id (fun status => status = .in_progress) fun task => { task with status := .failed }

/-- A row that was started before a time and has the status. -/
def startedBefore (status : TaskStatus) (time : ℤ) (s : Acs) : List ℕ :=
  (s.rowsWhere fun task => task.status = status ∧ (task.started_at.any fun t => t < time)).map
    Prod.snd

end Acs

/-! ### The messages and the calls -/

/-- The answer of the CPE to an RPC: a Fault, or the response of the matching type with its
`Status`. -/
inductive Reply where
  | fault
  | response (status : ℤ)
  deriving DecidableEq, Repr

/-- What a turn meets: the choice among rows that the order of a `SELECT` leaves open, whether the
session is still up, and the answer of the CPE. -/
structure Answer where
  pick : ℕ
  connected : Bool
  reply : Reply
  deriving DecidableEq, Repr

/-- An empty POST that opens the exchange of RPCs, a TransferComplete with its CommandKey, the
Inform of a version, the reaper with its timeout, a task that is queued, and time. -/
inductive Call where
  | emptyPost
  | transferComplete (id : ℕ) (fault : Bool)
  | inform (version : Option String)
  | reapStuckTasks (olderThanMinutes hours : ℕ)
  | queue (isDownload : Bool) (targetVersion : Option String) (priority : ℕ)
  | wait (seconds : ℕ)
  deriving DecidableEq, Repr

/-- The statement a call stands before; `holding` is the CPE that has an RPC. -/
inductive Stage where
  | choosing
  | marking (id : ℕ)
  | holding (id : ℕ)
  | matching (rpc : ℕ) (reply : Reply)
  | faulting (rpc active : ℕ)
  | completing (rpc active : ℕ)
  | comparing (rpc active : ℕ) (status : ℤ) (target : String)
  | settling (rpc active : ℕ) (status : ℤ)
  | deferring (rpc active : ℕ) (status : ℤ)
  | finding (id : ℕ) (fault : Bool)
  | checking (id : ℕ) (target : Option String)
  | confirming (id : ℕ) (status : TaskStatus)
  | identifying (version : Option String)
  | reporting (version : Option String)
  | listing
  | reading (waiting : List (Task × ℕ))
  | applying (reported : Option String) (waiting : List (Task × ℕ))
  | listingStuck (olderThanMinutes hours : ℕ)
  | reaping (stuck : List ℕ) (hours : ℕ)
  | listingStale (hours : ℕ)
  | expiring (stale : List ℕ)
  | queueing (isDownload : Bool) (targetVersion : Option String) (priority : ℕ)
  | waiting (seconds : ℕ)
  | closed
  deriving DecidableEq, Repr

def start : Call → Stage
  | .emptyPost => .choosing
  | .transferComplete id fault => .finding id fault
  | .inform version => .identifying version
  | .reapStuckTasks olderThanMinutes hours => .listingStuck olderThanMinutes hours
  | .queue isDownload targetVersion priority => .queueing isDownload targetVersion priority
  | .wait seconds => .waiting seconds

/-- What the answer to the RPC of `rpc` does with the active task. -/
def answered (rpc : ℕ) (reply : Reply) (task : Task) (active : ℕ) : Stage :=
  match reply with
  | .fault => .faulting rpc active
  | .response status =>
    if task.isDownload then
      if status ≠ 0 then .deferring rpc active status
      else match task.targetVersion with
        | none => .settling rpc active status
        | some target => .comparing rpc active status target
    else .completing rpc active

/-- A download of the list is done: the CPE said it applied it, and reports the target. -/
def Task.applied (task : Task) (reported : Option String) : Bool :=
  task.download_status = some 0 ∧ (task.targetVersion = none ∨ reported = task.targetVersion)

/-- The next statement of a call. -/
def next (s : Acs) (t : Stage) (a : Answer) : Acs × Stage :=
  match t with
  | .choosing =>
    (s, match s.getNextTask a.pick with
      | none => .closed
      | some (_, id) => .marking id)
  | .marking id => (s.dispatch id, if a.connected then .holding id else .closed)
  | .holding id => (s, if a.connected then .matching id a.reply else .closed)
  | .matching rpc reply =>
    (s, match s.activeTask a.pick with
      | none => .choosing
      | some (task, active) => answered rpc reply task active)
  | .faulting rpc active => (s.fail active (.answer rpc), .choosing)
  | .completing rpc active => (s.complete active (.answer rpc), .choosing)
  | .comparing rpc active status target =>
    (s, if s.software_version = some target then .settling rpc active status
      else .deferring rpc active status)
  | .settling rpc active status => (s.settleAnswered active status (.answer rpc), .choosing)
  | .deferring rpc active status => (s.await active status (.answer rpc), .choosing)
  | .finding id fault =>
    (s, match s.tasks[id]? with
      | none => .closed
      | some task =>
        if task.isDownload && task.status.isUnderWay then
          if fault then .confirming id .failed else .checking id task.targetVersion
        else .closed)
  | .checking id target =>
    (s, .confirming id (if target = none ∨ s.software_version = target then .done else .failed))
  | .confirming id status => (s.settleDownload id status .transferComplete, .closed)
  | .identifying version => (s, .reporting (version.or s.software_version))
  | .reporting version =>
    ({ s with software_version := version.or s.software_version }, .listing)
  | .listing =>
    (s, .reading (s.rowsWhere fun task => task.isDownload && task.status = .awaiting_transfer))
  | .reading waiting => (s, .applying s.software_version waiting)
  | .applying _ [] => (s, .closed)
  | .applying reported ((task, id) :: waiting) =>
    (if task.applied reported then s.settleDownload id .done .inform else s,
      .applying reported waiting)
  | .listingStuck olderThanMinutes hours =>
    (s, .reaping (s.startedBefore .in_progress (s.now - olderThanMinutes * 60)) hours)
  | .reaping [] hours => (s, .listingStale hours)
  | .reaping (id :: stuck) hours => (s.reap id .reaper, .reaping stuck hours)
  | .listingStale hours =>
    (s, .expiring (s.startedBefore .awaiting_transfer (s.now - hours * 3600)))
  | .expiring [] => (s, .closed)
  | .expiring (id :: stale) => (s.settleDownload id .failed .reaper, .expiring stale)
  | .queueing isDownload targetVersion priority =>
    ({ s with tasks := s.tasks ++
        [⟨isDownload, targetVersion, priority, s.now, .queued, none, none⟩] }, .closed)
  | .waiting seconds => ({ s with now := s.now + seconds }, .closed)
  | .closed => (s, .closed)

/-- The system of a device and everyone who works on its tasks. -/
abbrev step : Threads Acs Stage → Turn Call Answer → Threads Acs Stage :=
  Threads.step start next

/-- A device without tasks. -/
def registered (version : Option String) (now : ℤ) : Acs := ⟨[], version, now, []⟩

/-! ### The law -/

def Event.dispatched? : Event → Option ℕ
  | .dispatched id => some id
  | .left _ _ | .settled _ => none

def Event.settled? : Event → Option ℕ
  | .settled id => some id
  | .left _ _ | .dispatched _ => none

/-- The tasks whose RPC was sent, the newest first. -/
def dispatches (history : List Event) : List ℕ := history.filterMap Event.dispatched?

/-- The tasks that were settled, the newest first. -/
def settlements (history : List Event) : List ℕ := history.filterMap Event.settled?

/-- The answer to the task's own RPC, or the reaper. -/
def Writer.mayMove (id : ℕ) (writer : Writer) : Prop := writer = .answer id ∨ writer = .reaper

/-- Every task is dispatched once at most, leaves `in_progress` by the answer to its own RPC or by
the reaper, and is settled once at most. -/
structure Lawful (history : List Event) : Prop where
  dispatchedOnce : (dispatches history).Nodup
  moved : ∀ id writer, .left id writer ∈ history → writer.mayMove id
  settledOnce : (settlements history).Nodup

/-- What the code would have to make sure of: a dispatch finds its task still queued, what an answer
finds in progress is the task of its RPC, an answer that is written without a condition finds its
task not settled, and no TransferComplete finds its download in progress. -/
def Covered (s : Acs) (t : Stage) (_ : Answer) : Prop :=
  match t with
  | .marking id => ∀ task ∈ s.tasks[id]?, task.status = .queued
  | .faulting rpc active | .completing rpc active => ∀ task ∈ s.tasks[active]?,
    (task.status = .in_progress → active = rpc) ∧ task.status.isSettled = false
  | .settling rpc active _ | .deferring rpc active _ => ∀ task ∈ s.tasks[active]?,
    task.status = .in_progress → active = rpc
  | .confirming id _ => ∀ task ∈ s.tasks[id]?, task.status ≠ .in_progress
  | _ => True

end Vigabss.Cwmp.Tasks
