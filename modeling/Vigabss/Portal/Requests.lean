import Vigabss.Lib.Threads

/-!
# Vigabss.Portal.Requests — a portal service request

The calls of `portalServiceRequestService` on one request of its client and organization, one SQL
statement at a time; the transaction of a plan change is one step, as it holds the row's lock from
its first statement.  A Wi-Fi password is handed to the router with the task that is queued.
-/

namespace Vigabss.Portal

open Vigabss.Lib

/-! ### The request -/

inductive RequestType where
  | plan_upgrade | pppoe_password_change | wifi_password_change | static_ip_request
  | cancellation | visit_schedule
  deriving DecidableEq, Repr

inductive RequestStatus where
  | pending | approved | completed | rejected | cancelled
  deriving DecidableEq, Repr

/-- A row of `portal_service_requests`, with the fields of its payload. -/
structure ServiceRequest where
  request_type : RequestType
  status : RequestStatus
  contract_id : Option ℕ
  new_plan_id : Option ℕ
  new_password : Option String
  cpe_task_id : Option ℕ
  cpe_error : Option String
  proration_net : ℤ
  deriving DecidableEq, Repr

/-- What happened to the request: its action was applied, or it was turned down. -/
inductive Entry where
  | applied | refused
  deriving DecidableEq, Repr

/-- How far an approval has come with the action of the request. -/
inductive Claim where
  | free | held | done
  deriving DecidableEq, Repr

/-- The request with what its action touches, and its history. -/
structure PortalDb where
  request : ServiceRequest
  plan_id : ℕ
  prorations : List ℤ
  radius_password : Option String
  cpe_tasks : List String
  claim : Claim
  log : List Entry
  deriving DecidableEq, Repr

def PortalDb.setStatus (db : PortalDb) (status : RequestStatus) : PortalDb :=
  { db with request := { db.request with status } }

/-- The client or the staff turn the request down. -/
def PortalDb.refuse (db : PortalDb) (status : RequestStatus) : PortalDb :=
  { db with request := { db.request with status }, log := db.log ++ [.refused] }

/-- The transaction of `approvePlanUpgrade`, after its first statement found the request. -/
def PortalDb.changePlan (db : PortalDb) (req : ServiceRequest) : PortalDb :=
  { db with
    request := { db.request with status := .completed }
    plan_id := if req.contract_id.isSome then req.new_plan_id.getD db.plan_id else db.plan_id
    prorations := if req.proration_net = 0 then db.prorations
      else db.prorations ++ [req.proration_net]
    claim := .done
    log := db.log ++ [.applied] }

/-- An approval claims the request, and with it the action. -/
def PortalDb.approve (db : PortalDb) : PortalDb :=
  { db with request := { db.request with status := .approved }, claim := .held }

/-- It has found nothing to apply the action to. -/
def PortalDb.release (db : PortalDb) : PortalDb := { db with claim := .free }

/-- `UPDATE radius SET password = ?`. -/
def PortalDb.setRadius (db : PortalDb) (password : String) : PortalDb :=
  { db with
    radius_password := some password
    claim := .done
    log := db.log ++ [.applied] }

/-- `CpeTask.create` of the task that sets the Wi-Fi password. -/
def PortalDb.queueTask (db : PortalDb) (password : String) : PortalDb :=
  { db with
    cpe_tasks := db.cpe_tasks ++ [password]
    claim := .done
    log := db.log ++ [.applied] }

/-- `String(error).slice(0, 500)` in the payload. -/
def PortalDb.setCpeError (db : PortalDb) (reason : String) : PortalDb :=
  { db with
    request := { db.request with cpe_error := some (String.ofList (reason.toList.take 500)) } }

/-- `JSON_REMOVE` of the requested password. -/
def PortalDb.clearPassword (db : PortalDb) : PortalDb :=
  { db with request := { db.request with new_password := none } }

/-- The Wi-Fi request is linked to the task that applies it. -/
def PortalDb.link (db : PortalDb) (taskId : ℕ) : PortalDb :=
  { db with request := { db.request with status := .approved, cpe_task_id := some taskId } }

/-! ### Calls -/

inductive RequestCall where
  | approveRequest
  | rejectRequest
  | cancelRequest
  | completeRequest
  | settleWifiRequestForTask (taskId : ℕ) (applied : Bool) (reason : String)

/-- A call and the statement it is at; `req` is the row its first statement read. -/
inductive RequestTask where
  | approve
  | findUpgradePlan (req : ServiceRequest)
  | approvePlanUpgrade (req : ServiceRequest)
  | claim (req : ServiceRequest)
  | loadRequest
  | setRadiusPassword (password : String)
  | completeApplied
  | findCpe (req : ServiceRequest)
  | createCpeTask (password : String)
  | clearRequestedPassword (taskId : Option ℕ)
  | linkWifiRequestToTask (taskId : ℕ)
  | reject
  | writeRejected
  | cancel
  | writeCancelled
  | complete
  | writeCompleted
  | settle (taskId : ℕ) (applied : Bool) (reason : String)
  | finished
  deriving DecidableEq, Repr

def RequestCall.start : RequestCall → RequestTask
  | approveRequest => .approve
  | rejectRequest => .reject
  | cancelRequest => .cancel
  | completeRequest => .complete
  | settleWifiRequestForTask taskId applied reason => .settle taskId applied reason

/-- The statement of a task.  The answer says whether a plan or a device is found, or the
transaction commits. -/
def RequestTask.next (db : PortalDb) (task : RequestTask) (answer : Bool) :
    PortalDb × RequestTask :=
  match task with
  | approve =>
    if db.request.status ≠ .pending then (db, .finished)
    else if db.request.request_type = .plan_upgrade then
      if db.request.new_plan_id.isSome then (db, .findUpgradePlan db.request)
      else (db, .approvePlanUpgrade db.request)
    else (db, .claim db.request)
  | findUpgradePlan req => if answer then (db, .approvePlanUpgrade req) else (db, .finished)
  | approvePlanUpgrade req =>
    if answer ∧ db.request.status = .pending then (db.changePlan req, .finished)
    else (db, .finished)
  | claim req =>
    if db.request.status ≠ .pending then (db, .finished)
    else if req.request_type = .pppoe_password_change then
      (db.approve, .loadRequest)
    else if req.request_type = .wifi_password_change then
      (db.approve, .findCpe req)
    else (db.setStatus .approved, .finished)
  | loadRequest =>
    match db.request.new_password with
    | none => (db.release, .finished)
    | some password => (db, .setRadiusPassword password)
  | setRadiusPassword password =>
    (db.setRadius password, .completeApplied)
  | completeApplied => (db.setStatus .completed, .clearRequestedPassword none)
  | findCpe req =>
    match req.new_password with
    | none => (db.release, .finished)
    | some password =>
      if req.contract_id.isSome ∧ answer then (db, .createCpeTask password)
      else (db.release, .finished)
  | createCpeTask password =>
    (db.queueTask password, .clearRequestedPassword (some db.cpe_tasks.length))
  | clearRequestedPassword taskId =>
    match taskId with
    | none => (db.clearPassword, .finished)
    | some taskId => (db.clearPassword, .linkWifiRequestToTask taskId)
  | linkWifiRequestToTask taskId =>
    if db.request.status = .pending ∨ db.request.status = .approved then
      (db.link taskId, .finished)
    else (db, .finished)
  | reject => if db.request.status ≠ .pending then (db, .finished) else (db, .writeRejected)
  | writeRejected => (db.refuse .rejected, .finished)
  | cancel => if db.request.status ≠ .pending then (db, .finished) else (db, .writeCancelled)
  | writeCancelled =>
    if db.request.status = .pending then (db.refuse .cancelled, .finished) else (db, .finished)
  | complete => if db.request.status ≠ .approved then (db, .finished) else (db, .writeCompleted)
  | writeCompleted => (db.setStatus .completed, .finished)
  | settle taskId applied reason =>
    if db.request.request_type = .wifi_password_change ∧ db.request.status = .approved ∧
        db.request.cpe_task_id = some taskId then
      if applied then (db.setStatus .completed, .finished)
      else (db.setCpeError reason, .finished)
    else (db, .finished)
  | finished => (db, .finished)

end Vigabss.Portal

/-!
## The action of a request, and its refusal

An approval claims the request while it is pending, so its action is applied at most once.  The
refusal of the staff is written without looking again; while it finds no claim, what is applied is
never refused and what is refused is never applied.
-/

namespace Vigabss.Portal

open Vigabss.Lib

/-! ### The property -/

/-- The statuses of a request that was turned down. -/
def RequestStatus.refused : RequestStatus → Bool
  | rejected | cancelled => true
  | _ => false

/-- The action is applied at most once, never after the request was turned down, and a request whose
action was applied is not turned down. -/
structure PortalDb.Consistent (db : PortalDb) : Prop where
  once : db.log.count .applied ≤ 1
  late : db.log.Pairwise fun a b => a = .refused → b ≠ .applied
  kept : .applied ∈ db.log → db.request.status.refused = false

/-- The staff's refusal is written while no approval has claimed the action of the request. -/
def Unclaimed (db : PortalDb) (task : RequestTask) (_ : Bool) : Prop :=
  task = .writeRejected → db.claim = .free

instance (db : PortalDb) (task : RequestTask) (answer : Bool) :
    Decidable (Unclaimed db task answer) := inferInstanceAs (Decidable (_ → _))

/-! ### The invariant -/

/-- What the claim says of the status and the history. -/
structure PortalDb.Sound (db : PortalDb) : Prop where
  pending : db.request.status = .pending → db.claim = .free ∧ db.log = []
  free : db.claim = .free → .applied ∉ db.log
  held : db.claim = .held → db.log = [] ∧ db.request.status.refused = false
  done : db.claim = .done → db.log = [.applied] ∧ db.request.status.refused = false

/-- The statements between an approval's claim and its action. -/
def RequestTask.holds : RequestTask → Bool
  | loadRequest | setRadiusPassword _ | findCpe _ | createCpeTask _ => true
  | _ => false

/-- What a task knows of the request. -/
def RequestTask.Knows (db : PortalDb) (task : RequestTask) : Prop :=
  match task with
  | loadRequest | setRadiusPassword _ | findCpe _ | createCpeTask _ => db.claim = .held
  | completeApplied => db.claim = .done
  | writeCompleted => db.request.status ≠ .pending
  | _ => True

section Invariant

variable {db : PortalDb} {task : RequestTask} {answer : Bool}

theorem PortalDb.Sound.consistent (h : db.Sound) : db.Consistent := by
  cases hclaim : db.claim with
  | free =>
    have hnone := h.free hclaim
    refine ⟨?_, ?_, fun hmem => absurd hmem hnone⟩
    · rw [List.count_eq_zero_of_not_mem hnone]
      exact Nat.zero_le 1
    · refine List.pairwise_of_forall_mem_list fun a _ b hb _ heq => hnone (heq ▸ hb)
  | held =>
    obtain ⟨hlog, hstatus⟩ := h.held hclaim
    refine ⟨?_, ?_, fun _ => hstatus⟩
    · rw [hlog]
      exact Nat.zero_le 1
    · rw [hlog]
      exact List.Pairwise.nil
  | done =>
    obtain ⟨hlog, hstatus⟩ := h.done hclaim
    refine ⟨?_, ?_, fun _ => hstatus⟩
    · rw [hlog]
      exact le_rfl
    · rw [hlog]
      exact List.pairwise_singleton _ _

/-- What a statement leaves to its own call and to the others. -/
structure Keeps (db : PortalDb) (task : RequestTask) (db' : PortalDb) (task' : RequestTask) :
    Prop where
  sound : db'.Sound
  knows : task'.Knows db'
  held : db.claim = .held → task.holds = false → db'.claim = .held
  done : db.claim = .done → db'.claim = .done
  started : db.request.status ≠ .pending → db'.request.status ≠ .pending
  claims : task'.holds = true → task.holds = true ∨ db.claim = .free

theorem held_of_holds (hknows : task.Knows db) (h : task.holds = true) : db.claim = .held := by
  cases task <;> first | exact hknows | cases h

/-! ### The statements -/

theorem Keeps.read {task' : RequestTask} (h : db.Sound) (hknows : task'.Knows db)
    (hclaims : task'.holds = true → task.holds = true) : Keeps db task db task' :=
  ⟨h, hknows, fun hheld _ => hheld, id, id, fun hholds => .inl (hclaims hholds)⟩

theorem Keeps.finish (h : db.Sound) : Keeps db task db .finished :=
  .read h trivial nofun

theorem Keeps.quiet {db' : PortalDb} {task' : RequestTask} (h : db.Sound)
    (hstatus : db'.request.status = db.request.status) (hclaim : db'.claim = db.claim)
    (hlog : db'.log = db.log) (hknows : task'.Knows db')
    (hclaims : task'.holds = true → task.holds = true) : Keeps db task db' task' where
  sound := by
    refine ⟨?_, ?_, ?_, ?_⟩ <;> rw [hclaim, hlog]
    · exact hstatus ▸ h.pending
    · exact h.free
    · exact hstatus ▸ h.held
    · exact hstatus ▸ h.done
  knows := hknows
  held := fun hheld _ => hclaim.trans hheld
  done := fun hdone => hclaim.trans hdone
  started := fun hstarted => hstatus ▸ hstarted
  claims := fun hholds => .inl (hclaims hholds)

theorem Keeps.status {db' : PortalDb} {task' : RequestTask} (h : db.Sound)
    (hclaim : db'.claim = db.claim) (hlog : db'.log = db.log) (hstatus : db'.request.status ≠ .pending)
    (hkept : db'.request.status.refused = false) (hknows : task'.Knows db')
    (hclaims : task'.holds = true → task.holds = true) : Keeps db task db' task' where
  sound :=
    { pending := fun hpending => absurd hpending hstatus
      free := fun hfree => hlog ▸ h.free (hclaim ▸ hfree)
      held := fun hheld => ⟨hlog.trans (h.held (hclaim ▸ hheld)).1, hkept⟩
      done := fun hdone => ⟨hlog.trans (h.done (hclaim ▸ hdone)).1, hkept⟩ }
  knows := hknows
  held := fun hheld _ => hclaim.trans hheld
  done := fun hdone => hclaim.trans hdone
  started := fun _ => hstatus
  claims := fun hholds => .inl (hclaims hholds)

theorem Keeps.refuse (h : db.Sound) (hfree : db.claim = .free) {status : RequestStatus}
    (hstatus : status ≠ .pending) : Keeps db task (db.refuse status) .finished where
  sound :=
    { pending := fun hpending => absurd hpending hstatus
      free := fun _ hmem => by
        rcases List.mem_append.1 hmem with hmem | hmem
        · exact h.free hfree hmem
        · cases List.mem_singleton.1 hmem
      held := fun hheld => by
        cases hfree.symm.trans hheld
      done := fun hdone => by
        cases hfree.symm.trans hdone }
  knows := trivial
  held := fun hheld _ => hheld
  done := id
  started := fun _ => hstatus
  claims := nofun

theorem Keeps.approve (h : db.Sound) (hpending : db.request.status = .pending)
    {task' : RequestTask} (hknows : task'.Knows db.approve) : Keeps db task db.approve task' where
  sound :=
    { pending := nofun
      free := nofun
      held := fun _ => ⟨(h.pending hpending).2, rfl⟩
      done := nofun }
  knows := hknows
  held := fun _ _ => rfl
  done := fun hdone => by
    cases (h.pending hpending).1.symm.trans hdone
  started := fun _ => nofun
  claims := fun _ => .inr (h.pending hpending).1

theorem Keeps.changePlan (h : db.Sound) (hpending : db.request.status = .pending)
    (req : ServiceRequest) : Keeps db task (db.changePlan req) .finished where
  sound :=
    { pending := nofun
      free := nofun
      held := nofun
      done := fun _ => by
        rw [show (db.changePlan req).log = db.log ++ [.applied] from rfl, (h.pending hpending).2]
        exact ⟨rfl, rfl⟩ }
  knows := trivial
  held := fun hheld => by
    cases (h.pending hpending).1.symm.trans hheld
  done := fun _ => rfl
  started := fun _ => nofun
  claims := nofun

theorem Keeps.apply (h : db.Sound) (hheld : db.claim = .held) (hholds : task.holds = true)
    {db' : PortalDb} {task' : RequestTask} (hrequest : db'.request = db.request)
    (hclaim : db'.claim = .done) (hlog : db'.log = db.log ++ [.applied])
    (hknows : task'.Knows db') : Keeps db task db' task' where
  sound :=
    { pending := fun hpending => by
        cases (h.pending (hrequest ▸ hpending)).1.symm.trans hheld
      free := fun hfree => by
        cases hclaim.symm.trans hfree
      held := fun hheld' => by
        cases hclaim.symm.trans hheld'
      done := fun _ => by
        rw [hlog, (h.held hheld).1, hrequest]
        exact ⟨rfl, (h.held hheld).2⟩ }
  knows := hknows
  held := fun _ hnot => by
    rw [hholds] at hnot
    cases hnot
  done := fun _ => hclaim
  started := fun hstarted => hrequest ▸ hstarted
  claims := fun _ => .inl hholds

theorem Keeps.release (h : db.Sound) (hheld : db.claim = .held) (hholds : task.holds = true) :
    Keeps db task db.release .finished where
  sound :=
    { pending := fun hpending => ⟨rfl, (h.pending hpending).2⟩
      free := fun _ => by
        rw [show db.release.log = [] from (h.held hheld).1]
        exact List.not_mem_nil
      held := nofun
      done := nofun }
  knows := trivial
  held := fun _ hnot => by
    rw [hholds] at hnot
    cases hnot
  done := fun hdone => by
    cases hheld.symm.trans hdone
  started := id
  claims := nofun

/-- **Every statement of every call** keeps what the claim says. -/
theorem next_keeps (h : db.Sound) (hknows : task.Knows db) (hgood : Unclaimed db task answer) :
    Keeps db task (task.next db answer).1 (task.next db answer).2 := by
  cases task with
  | approve =>
    simp only [RequestTask.next]
    split_ifs
    · exact .finish h
    all_goals exact .read h trivial nofun
  | findUpgradePlan req =>
    simp only [RequestTask.next]
    split_ifs
    all_goals exact .read h trivial nofun
  | approvePlanUpgrade req =>
    simp only [RequestTask.next]
    split_ifs with hopen
    · exact .changePlan h hopen.2 req
    · exact .finish h
  | claim req =>
    simp only [RequestTask.next]
    split_ifs with hclosed hpppoe hwifi
    · exact .finish h
    · exact .approve h (not_not.1 hclosed) rfl
    · exact .approve h (not_not.1 hclosed) rfl
    · exact .status h rfl rfl nofun rfl trivial nofun
  | loadRequest =>
    simp only [RequestTask.next]
    split
    · exact .release h hknows rfl
    · exact .read h hknows fun _ => rfl
  | setRadiusPassword password => exact .apply h hknows rfl rfl rfl rfl rfl
  | completeApplied => exact .status h rfl rfl nofun rfl trivial nofun
  | findCpe req =>
    simp only [RequestTask.next]
    split
    · exact .release h hknows rfl
    · split_ifs
      · exact .read h hknows fun _ => rfl
      · exact .release h hknows rfl
  | createCpeTask password => exact .apply h hknows rfl rfl rfl rfl trivial
  | clearRequestedPassword taskId =>
    simp only [RequestTask.next]
    split
    all_goals exact .quiet h rfl rfl rfl trivial nofun
  | linkWifiRequestToTask taskId =>
    simp only [RequestTask.next]
    split_ifs
    · exact .status h rfl rfl nofun rfl trivial nofun
    · exact .finish h
  | reject =>
    simp only [RequestTask.next]
    split_ifs
    · exact .finish h
    · exact .read h trivial nofun
  | writeRejected => exact .refuse h (hgood rfl) nofun
  | cancel =>
    simp only [RequestTask.next]
    split_ifs
    · exact .finish h
    · exact .read h trivial nofun
  | writeCancelled =>
    simp only [RequestTask.next]
    split_ifs with hpending
    · exact .refuse h (h.pending hpending).1 nofun
    · exact .finish h
  | complete =>
    simp only [RequestTask.next]
    split_ifs with happroved
    · exact .finish h
    · refine .read h ?_ nofun
      rw [RequestTask.Knows, not_not.1 happroved]
      nofun
  | writeCompleted => exact .status h rfl rfl nofun rfl trivial nofun
  | settle taskId applied reason =>
    simp only [RequestTask.next]
    split_ifs
    · exact .status h rfl rfl nofun rfl trivial nofun
    · exact .quiet h rfl rfl rfl trivial nofun
    · exact .finish h
  | finished => exact .finish h

theorem Keeps.others {db' : PortalDb} {task' : RequestTask} (h : Keeps db task db' task')
    {u : RequestTask} (hu : u.Knows db) (hapart : task.holds = true → u.holds = false) :
    u.Knows db' ∧ (task'.holds = true → u.holds = false) := by
  refine ⟨?_, fun hholds => ?_⟩
  · have hheld : u.holds = true → db.claim = .held → db'.claim = .held := by
      intro huholds hclaim
      refine h.held hclaim ?_
      by_contra hholds
      rw [hapart (by simpa using hholds)] at huholds
      cases huholds
    cases u <;> first | exact trivial | exact hheld rfl hu | exact h.done hu | exact h.started hu
  · rcases h.claims hholds with hholds | hfree
    · exact hapart hholds
    · by_contra huholds
      cases hfree.symm.trans (held_of_holds hu (by simpa using huholds))

end Invariant

/-! ### Runs -/

abbrev RequestTurn := Turn RequestCall Bool

def requestStep : Threads PortalDb RequestTask → RequestTurn → Threads PortalDb RequestTask :=
  Threads.step RequestCall.start fun db task answer => task.next db answer

/-- A request as it is created. -/
structure PortalDb.Fresh (db : PortalDb) : Prop where
  pending : db.request.status = .pending
  unclaimed : db.claim = .free ∧ db.log = []

theorem PortalDb.Fresh.sound {db : PortalDb} (h : db.Fresh) : db.Sound where
  pending _ := h.unclaimed
  free _ := by
    rw [h.unclaimed.2]
    exact List.not_mem_nil
  held hheld := by
    cases h.unclaimed.1.symm.trans hheld
  done hdone := by
    cases h.unclaimed.1.symm.trans hdone

/-- **An action is applied once, and not to a request that is turned down**, in every run in which
the staff's refusals are written while no approval has claimed the action. -/
theorem consistent_always {db : PortalDb} (h : db.Fresh) {is : List RequestTurn}
    (hgood : StepsMeet requestStep (Threads.Meets Unclaimed) (Threads.idle db) is) :
    Always requestStep (fun s => s.shared.Consistent) (Threads.idle db) is := by
  refine (Threads.always_holds (G := PortalDb.Sound) (L := fun db task => task.Knows db)
    (X := fun t u => t.holds = true → u.holds = false) ?_ ?_ ?_ ?_ (.idle h.sound) hgood).mono
    fun s hs => hs.consistent
  · intro t u htu hu
    by_contra ht
    rw [htu (by simpa using ht)] at hu
    cases hu
  · intro s c
    cases c <;> trivial
  · intro c u
    cases c <;> nofun
  · intro s t e hG hL hmeets
    have hkeeps := next_keeps hG hL hmeets
    exact ⟨hkeeps.sound, hkeeps.knows, fun u hu hX => hkeeps.others hu hX⟩

/-! ### A refusal that comes late -/

/-- A request for a new PPPoE password. -/
def passwordRequest : PortalDb where
  request := ⟨.pppoe_password_change, .pending, some 1, none, some "secret-1", none, none, 0⟩
  plan_id := 1
  prorations := []
  radius_password := some "old"
  cpe_tasks := []
  claim := .free
  log := []

theorem passwordRequest_fresh : passwordRequest.Fresh := ⟨rfl, rfl, rfl⟩

/-- The staff approve it, and a refusal that read it before is written. -/
def lateRefusal : List RequestTurn :=
  [.call .rejectRequest, .call .approveRequest, .turn 0 true] ++
    List.replicate 6 (.turn 1 true) ++ [.turn 0 true]

/-- The approval alone, from its first statement to its last. -/
theorem consistent_always_approval :
    Always requestStep (fun s => s.shared.Consistent) (Threads.idle passwordRequest)
      (.call .approveRequest :: List.replicate 6 (.turn 0 true)) := by
  refine consistent_always passwordRequest_fresh ?_
  show StepsMeet (Threads.step RequestCall.start fun db task answer => task.next db answer) _ _ _
  decide

/-- **A request is rejected though its password is changed**: `rejectRequest` checks the status in
one statement and writes it in another. -/
theorem not_consistent_always : ¬ ∀ (db : PortalDb) (is : List RequestTurn), db.Fresh →
    Always requestStep (fun s => s.shared.Consistent) (Threads.idle db) is := by
  intro h
  have hlast := (h passwordRequest lateRefusal passwordRequest_fresh).last.kept
  revert hlast
  decide

end Vigabss.Portal
