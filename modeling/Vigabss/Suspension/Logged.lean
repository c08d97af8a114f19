import Vigabss.Suspension.Contracts

/-!
# Vigabss.Suspension.Logged — the log says which contracts are suspended

`restored_at IS NULL` is to mean "still suspended".  A reconnect that commits between a suspension
and its log row leaves the row open for good; apart from that the log, the status, the throttle and
the RADIUS accounts agree once every call has returned.
-/

namespace Vigabss.Suspension

open Vigabss.Lib

/-! ### What the rows say -/

/-- The contract is suspended or still carries a soft suspension's throttle. -/
def SuspensionDb.Restricted (db : SuspensionDb) : Prop :=
  db.contract.status = .suspended ∨ db.contract.hasThrottle = true

/-- An open row stands in the log. -/
def SuspensionDb.HasOpen (db : SuspensionDb) : Prop := ∃ l ∈ db.logs, l.isOpen = true

/-- Every account that is not switched off is suspended just when the contract is. -/
def SuspensionDb.AccountsFollow (db : SuspensionDb) : Prop :=
  ∀ r ∈ db.accounts, r ≠ .inactive → (r = .suspended ↔ db.contract.status = .suspended)

/-- The log, the contract and the accounts agree. -/
structure SuspensionDb.Agrees (db : SuspensionDb) : Prop where
  logs : db.HasOpen ↔ db.Restricted
  accounts : db.AccountsFollow

/-- An open row stands for a restriction in force. -/
def SuspensionDb.Stands (db : SuspensionDb) : Prop := db.HasOpen → db.Restricted

/-- A restriction in force that the log does not show. -/
def SuspensionDb.Unlogged (db : SuspensionDb) : Prop := db.Restricted ∧ ¬ db.HasOpen

/-- The call is about to log a suspension. -/
def SuspensionTask.logs : SuspensionTask → Prop
  | logging .. => True
  | _ => False

/-- The rates of a throttle are positive, and the reason of a row is not the walled garden's. -/
def SuspensionTask.Sound : SuspensionTask → Prop
  | softSuspending _ _ _ dl ul => 0 < dl ∧ 0 < ul
  | logging reason .. => ∀ sent, walledGarden (reason sent) = false
  | _ => True

/-- A log row is written while its restriction is still in force. -/
def Timely (db : SuspensionDb) (t : SuspensionTask) (_ : Answer) : Prop := t.logs → db.Restricted

/-- Every call has returned. -/
def Returned (s : Threads SuspensionDb SuspensionTask) : Prop := ∀ t ∈ s.threads, t = .done

def suspensionStep (s : Threads SuspensionDb SuspensionTask) (e : Turn SuspensionCall Answer) :
    Threads SuspensionDb SuspensionTask :=
  s.step SuspensionCall.start next e

/-! ### Reasons -/

/-- The first character of a text. -/
def Begins (c : Char) (s : String) : Prop := ∃ cs, s.toList = c :: cs

theorem Begins.append {c : Char} {s : String} (h : Begins c s) (t : String) :
    Begins c (s ++ t) := by
  obtain ⟨cs, hcs⟩ := h
  exact ⟨cs ++ t.toList, by rw [String.toList_append, hcs, List.cons_append]⟩

theorem not_walledGarden {reason : String} {c : Char} (h : Begins c reason) (hc : c.toLower ≠ 'w') :
    walledGarden reason = false := by
  have hprefix : WALLED_GARDEN_REASON_PREFIX.toList =
      'w' :: ['a', 'l', 'l', 'e', 'd', '_', 'g', 'a', 'r', 'd', 'e', 'n', ':'] := by
    rw [WALLED_GARDEN_REASON_PREFIX, String.toList_ofList]
  obtain ⟨cs, hcs⟩ := h
  rw [walledGarden, hprefix, hcs, List.map_cons, List.isPrefixOf]
  simp [Ne.symm hc]

theorem begins_suspension : Begins 's' "suspension" :=
  ⟨['u', 's', 'p', 'e', 'n', 's', 'i', 'o', 'n'], by rw [String.toList_ofList]⟩

theorem begins_softSuspend : Begins 's' SOFT_SUSPEND_REASON_PREFIX :=
  ⟨['o', 'f', 't', '_', 's', 'u', 's', 'p', 'e', 'n', 'd', ':'], by
    rw [SOFT_SUSPEND_REASON_PREFIX, String.toList_ofList]⟩

theorem begins_triggeredBy (t : TriggeredBy) : Begins 's' t.name ∨ Begins 'm' t.name := by
  cases t with
  | system => exact .inl ⟨['y', 's', 't', 'e', 'm'], by rw [TriggeredBy.name, String.toList_ofList]⟩
  | manual => exact .inr ⟨['a', 'n', 'u', 'a', 'l'], by rw [TriggeredBy.name, String.toList_ofList]⟩

theorem plain_describe (ruleId userId invoiceId : Option ℕ) :
    walledGarden (describeTrigger "suspension" ruleId userId invoiceId) = false := by
  unfold describeTrigger
  cases ruleId with
  | some rule =>
    exact not_walledGarden ((((begins_suspension.append _).append _).append _).append _) (by decide)
  | none =>
    rcases begins_triggeredBy (triggeredBy userId) with h | h
    · exact not_walledGarden ((((h.append _).append _).append _).append _) (by decide)
    · exact not_walledGarden ((((h.append _).append _).append _).append _) (by decide)

theorem plain_soft (ruleId userId invoiceId : Option ℕ) (dl ul : ℕ) (sent : Bool) :
    walledGarden (softReason ruleId userId invoiceId dl ul sent) = false := by
  unfold softReason
  exact not_walledGarden (((((((((begins_softSuspend.append _).append _).append _).append
    _).append _).append _).append _).append _).append _) (by decide)

/-! ### What a statement does -/

section Statements

variable {db db' : SuspensionDb} {ruleId userId invoiceId orgId : Option ℕ} {a : Answer}

theorem suspendTransaction_some (h : suspendTransaction db ruleId a = some db') :
    db.contract.status = .active ∧ db' = { db with
      contract := { db.contract with status := .suspended }
      accounts := db.accounts.map fun r => if r = .active then .suspended else r } := by
  unfold suspendTransaction at h
  split_ifs at h with hactive howed hthrows
  push Not at hactive
  exact ⟨hactive.2, (Option.some.inj h).symm⟩

theorem softSuspendTransaction_some {dl ul : ℕ} (h : softSuspendTransaction db dl ul a = some db') :
    db.contract.status = .active ∧ db' = { db with
      contract := { db.contract with
        soft_suspend_download_kbps := some dl, soft_suspend_upload_kbps := some ul } } := by
  unfold softSuspendTransaction at h
  split_ifs at h with hactive hsame hthrows
  push Not at hactive
  exact ⟨hactive.2, (Option.some.inj h).symm⟩

theorem liftThrottle_spec (db : SuspensionDb) : db.liftThrottle.contract.hasThrottle = false ∧
    db.liftThrottle.contract.status = db.contract.status ∧
    db.liftThrottle.accounts = db.accounts := by
  unfold SuspensionDb.liftThrottle
  split_ifs with h
  · exact ⟨rfl, rfl, rfl⟩
  · exact ⟨by simpa using h, rfl, rfl⟩

theorem reconnectTransaction_some
    (h : reconnectTransaction db userId invoiceId orgId a = some db') :
    (db.contract.status = .suspended ∨ db.contract.status = .active) ∧
    db'.contract.status = .active ∧ db'.contract.hasThrottle = false ∧
      db'.accounts = db.reactivate.accounts ∧
      db'.logs = closeOpenSuspension db.logs ++ [unsuspendedLog userId invoiceId a.coaSent] := by
  unfold reconnectTransaction at h
  split_ifs at h with horg hstatus hthrows
  obtain rfl := Option.some.inj h
  obtain ⟨hthrottle, hkept, haccounts⟩ := liftThrottle_spec db.reactivate
  have hfrom : db.contract.status = .suspended ∨ db.contract.status = .active := by
    by_contra hneither
    exact hstatus (not_or.1 hneither)
  refine ⟨hfrom, hkept.trans ?_, hthrottle, haccounts, rfl⟩
  unfold SuspensionDb.reactivate
  rcases hfrom with hsus | hactive
  · rw [if_pos hsus]
  · rw [if_neg (by rw [hactive]; exact ContractStatus.noConfusion), hactive]

/-! ### The accounts follow -/

theorem accountsFollow_suspend (db : SuspensionDb) :
    SuspensionDb.AccountsFollow { db with
      contract := { db.contract with status := .suspended }
      accounts := db.accounts.map fun r => if r = .active then .suspended else r } := by
  intro r hr hne
  obtain ⟨r, hr, rfl⟩ := List.mem_map.1 hr
  refine ⟨fun _ => rfl, fun _ => ?_⟩
  split_ifs with hractive
  · rfl
  · rw [if_neg hractive] at hne
    cases r with
    | active => exact absurd rfl hractive
    | inactive => exact absurd rfl hne
    | suspended => rfl

theorem ne_suspended_of_reactivate (h : db.AccountsFollow) {r : RadiusStatus}
    (hr : r ∈ db.reactivate.accounts) (hne : r ≠ .inactive) : r ≠ .suspended := by
  unfold SuspensionDb.reactivate at hr
  split_ifs at hr with hsus
  · obtain ⟨r, hr, rfl⟩ := List.mem_map.1 hr
    split_ifs with hrsus
    · exact RadiusStatus.noConfusion
    · exact hrsus
  · rw [Ne, h r hr hne]
    exact hsus

/-! ### Open rows -/

theorem hasOpen_logSuspended {reason : String} (hplain : walledGarden reason = false)
    (sent : Bool) : (logSuspended db reason ruleId userId invoiceId sent).HasOpen := by
  refine ⟨_, List.mem_append_right _ List.mem_cons_self, ?_⟩
  simp [SuspensionLog.isOpen, hplain]

theorem not_hasOpen_closed (hlogs : db'.logs = closeOpenSuspension db.logs ++
    [unsuspendedLog userId invoiceId a.coaSent]) : ¬ db'.HasOpen := by
  rintro ⟨l, hl, hopen⟩
  rw [hlogs, List.mem_append, List.mem_singleton] at hl
  rcases hl with hl | rfl
  · obtain ⟨l, hl, rfl⟩ := List.mem_map.1 hl
    split_ifs at hopen with h
    · simp [SuspensionLog.isOpen] at hopen
    · exact h hopen
  · simp [SuspensionLog.isOpen, unsuspendedLog] at hopen

theorem hasOpen_walledGardenReconnect : (walledGardenReconnect db).HasOpen ↔ db.HasOpen := by
  have hopen : ∀ l : SuspensionLog, (if l.action = .suspended ∧ l.restored = false ∧
      l.reason.any walledGarden = true then { l with restored := true } else l).isOpen =
        l.isOpen := by
    intro l
    split_ifs with h
    · simp [SuspensionLog.isOpen, h.2.2]
    · rfl
  simp only [SuspensionDb.HasOpen, walledGardenReconnect, List.mem_map, exists_exists_and_eq_and,
    hopen]

end Statements

/-! ### One statement -/

/-- What a statement keeps: the accounts follow, a restriction that the log does not show is about
to be logged, and an open row stands for a restriction unless it is written too late. -/
structure Keeps (db : SuspensionDb) (t : SuspensionTask) (a : Answer) (db' : SuspensionDb)
    (t' : SuspensionTask) : Prop where
  accounts : db'.AccountsFollow
  sound : t'.Sound
  logged : db'.Unlogged → t'.logs ∨ db.Unlogged ∧ ¬ t.logs
  stands : Timely db t a → db.Stands → db'.Stands
  late : ¬ Timely db t a → ¬ db'.Stands

theorem Keeps.read {db : SuspensionDb} {t t' : SuspensionTask} {a : Answer} (h : db.AccountsFollow)
    (ht : ¬ t.logs) (ht' : t'.Sound) : Keeps db t a db t' where
  accounts := h
  sound := ht'
  logged hdebt := .inr ⟨hdebt, ht⟩
  stands _ := id
  late hlate := absurd (fun hlogs => absurd hlogs ht) hlate

theorem Keeps.restrict {db db' : SuspensionDb} {t t' : SuspensionTask} {a : Answer}
    (haccounts : db'.AccountsFollow) (ht : ¬ t.logs) (hsound : t'.Sound) (hlogs : t'.logs)
    (hrestricted : db'.Restricted) : Keeps db t a db' t' where
  accounts := haccounts
  sound := hsound
  logged _ := .inl hlogs
  stands _ _ _ := hrestricted
  late hlate := absurd (fun hlogs => absurd hlogs ht) hlate

theorem sound_proceed (call : SuspensionCall) : call.proceed.Sound := by
  cases call with
  | suspendContract ruleId userId invoiceId => trivial
  | softSuspendContract ruleId userId invoiceId downloadKbps uploadKbps =>
    rw [SuspensionCall.proceed]
    split_ifs with hrates
    · exact hrates
    · trivial
  | reconnectContract userId invoiceId orgId => trivial

theorem next_keeps {db : SuspensionDb} {t : SuspensionTask} (a : Answer) (h : db.AccountsFollow)
    (hsound : t.Sound) : Keeps db t a (next db t a).1 (next db t a).2 := by
  cases t with
  | checking call =>
    refine Keeps.read h id ?_
    simp only [next]
    split_ifs
    · trivial
    · exact sound_proceed call
  | suspending ruleId userId invoiceId =>
    simp only [next]
    cases hs : suspendTransaction db ruleId a with
    | none => exact Keeps.read h id trivial
    | some db' =>
      obtain ⟨-, rfl⟩ := suspendTransaction_some hs
      exact Keeps.restrict (accountsFollow_suspend db) id
        (fun _ => plain_describe ruleId userId invoiceId) trivial (.inl rfl)
  | softSuspending ruleId userId invoiceId dl ul =>
    simp only [next]
    cases hs : softSuspendTransaction db dl ul a with
    | none => exact Keeps.read h id trivial
    | some db' =>
      obtain ⟨-, rfl⟩ := softSuspendTransaction_some hs
      exact Keeps.restrict h id (plain_soft ruleId userId invoiceId dl ul) trivial
        (.inr (by simp [Contract.hasThrottle, hsound.1, hsound.2]))
  | logging reason ruleId userId invoiceId =>
    have hopen : (logSuspended db (reason a.coaSent) ruleId userId invoiceId a.coaSent).HasOpen :=
      hasOpen_logSuspended (hsound a.coaSent) a.coaSent
    exact {
      accounts := h
      sound := trivial
      logged := fun hdebt => absurd hopen hdebt.2
      stands := fun htimely _ _ => htimely trivial
      late := fun hlate hstands => hlate fun _ => hstands hopen }
  | reconnecting userId invoiceId orgId =>
    simp only [next]
    cases hr : reconnectTransaction db userId invoiceId orgId a with
    | none => exact Keeps.read h id trivial
    | some db' =>
      obtain ⟨-, hactive, hthrottle, haccounts, hlogs⟩ := reconnectTransaction_some hr
      have hclosed : ¬ db'.HasOpen := not_hasOpen_closed hlogs
      have hfree : ¬ db'.Restricted := by
        rintro (hsus | hthrottled)
        · rw [hactive] at hsus
          cases hsus
        · rw [hthrottle] at hthrottled
          cases hthrottled
      exact {
        accounts := fun r hmem hne => by
          rw [haccounts] at hmem
          refine ⟨fun hsus => absurd hsus (ne_suspended_of_reactivate h hmem hne), fun hsus => ?_⟩
          rw [hactive] at hsus
          cases hsus
        sound := trivial
        logged := fun hdebt => absurd hdebt.1 hfree
        stands := fun _ _ hopen => absurd hopen hclosed
        late := fun hlate => absurd (fun hlogs => absurd hlogs id) hlate }
  | lifting =>
    exact {
      accounts := h
      sound := trivial
      logged := fun hdebt => .inr ⟨⟨hdebt.1, fun hopen =>
        hdebt.2 (hasOpen_walledGardenReconnect.2 hopen)⟩, id⟩
      stands := fun _ hstands hopen => hstands (hasOpen_walledGardenReconnect.1 hopen)
      late := fun hlate => absurd (fun hlogs => absurd hlogs id) hlate }
  | done => exact Keeps.read h id trivial

/-! ### Runs -/

theorem suspension_always (s : Threads SuspensionDb SuspensionTask)
    (turns : List (Turn SuspensionCall Answer))
    (hs : s.Holds SuspensionDb.AccountsFollow (fun _ t => t.Sound) fun _ _ => True) :
    Always suspensionStep
      (fun s => s.Holds SuspensionDb.AccountsFollow (fun _ t => t.Sound) fun _ _ => True) s
        turns := by
  refine Threads.holds_always (fun _ _ _ => trivial) ?_ (fun _ _ => trivial) ?_ hs
    (stepsMeet_meets s turns)
  · intro db c
    cases c <;> trivial
  · intro db t a h hsound _
    have hkeeps := next_keeps a h hsound
    exact ⟨hkeeps.accounts, hkeeps.sound, fun u hu _ => ⟨hu, trivial⟩⟩

theorem owed_always {db : SuspensionDb} (h : db.Agrees)
    (turns : List (Turn SuspensionCall Answer)) :
    Always suspensionStep (fun s => s.shared.AccountsFollow ∧
      (s.shared.Unlogged → ∃ t ∈ s.threads, t.logs)) (.idle db) turns := by
  have hall := suspension_always (.idle db) turns (Threads.Holds.idle h.accounts)
  refine (Threads.always_owed ?_ hall (stepsMeet_meets _ turns) ?_).mono
    fun s hs => ⟨hs.1.shared, hs.2⟩
  · intro db t a haccounts hsound _ hdebt
    exact (next_keeps a haccounts hsound).logged hdebt
  · exact fun hdebt => absurd (h.logs.2 hdebt.1) hdebt.2

/-- In a run the open rows stand for restrictions in force just when each of them is written in
time. -/
theorem stands_iff {db : SuspensionDb} (h : db.Agrees) (turns : List (Turn SuspensionCall Answer)) :
    Always suspensionStep (fun s => s.shared.Stands) (.idle db) turns ↔
      StepsMeet suspensionStep (Threads.Meets Timely) (.idle db) turns := by
  refine Threads.always_iff_meets suspension_always ?_ ?_ (Threads.Holds.idle h.accounts)
    (fun hopen => h.logs.1 hopen) turns
  · exact fun db t a haccounts hsound hstands htimely =>
      (next_keeps a haccounts hsound).stands htimely hstands
  · exact fun db t a haccounts hsound hlate => (next_keeps a haccounts hsound).late hlate

theorem agrees_of_returned {s : Threads SuspensionDb SuspensionTask}
    (haccounts : s.shared.AccountsFollow) (howed : s.shared.Unlogged → ∃ t ∈ s.threads, t.logs)
    (hstands : s.shared.Stands) (hreturned : Returned s) : s.shared.Agrees where
  logs := by
    refine ⟨hstands, fun hrestricted => ?_⟩
    by_contra hopen
    obtain ⟨t, ht, hlogs⟩ := howed ⟨hrestricted, hopen⟩
    rw [hreturned t ht] at hlogs
    exact hlogs
  accounts := haccounts

/-- **The log says which contracts are suspended, just when it is written in time.**  In a run in
which every suspension is logged while it is still in force, and only in one, each open row stands
for a restriction in force all along; and whenever all calls have returned, the open rows, the
status, the throttle and the RADIUS accounts agree. -/
theorem suspension_logged_iff {db : SuspensionDb} (h : db.Agrees)
    (turns : List (Turn SuspensionCall Answer)) :
    Always suspensionStep (fun s => s.shared.Stands ∧ (Returned s → s.shared.Agrees)) (.idle db)
        turns ↔
      StepsMeet suspensionStep (Threads.Meets Timely) (.idle db) turns := by
  rw [← stands_iff h turns]
  refine ⟨fun hall => hall.mono fun s hs => hs.1, fun hstands => ?_⟩
  refine (hstands.and (owed_always h turns)).mono ?_
  rintro s ⟨hstands, haccounts, howed⟩
  exact ⟨hstands, agrees_of_returned haccounts howed hstands⟩

/-! ### A reconnect between a suspension and its row -/

/-- An active contract in service. -/
def inService : SuspensionDb := ⟨⟨some 1, .active, none, none, false⟩, [.active], []⟩

theorem inService_agrees : inService.Agrees where
  logs := by
    refine ⟨?_, ?_⟩
    · rintro ⟨l, hl, -⟩
      cases hl
    · rintro (h | h) <;> cases h
  accounts := by
    intro r hr _
    rw [List.mem_singleton.1 hr]
    decide

/-- A client that owes, and no failure. -/
def owing : Answer := ⟨false, true, false, true⟩

/-- A rule suspends the contract, a payment reconnects it, and then the suspension is logged. -/
def reconnectedBetween : List (Turn SuspensionCall Answer) :=
  [.call (.suspendContract (some 1) none (some 7)), .turn 0 owing, .turn 0 owing,
    .call (.reconnectContract none (some 7) (some 1)), .turn 1 owing, .turn 1 owing, .turn 0 owing]

/-- A run that is logged in time. -/
theorem suspension_logged_iff_in_turn :
    Always suspensionStep (fun s => s.shared.Stands ∧ (Returned s → s.shared.Agrees))
      (.idle inService) [.call (.suspendContract (some 1) none (some 7)), .turn 0 owing,
        .turn 0 owing, .turn 0 owing] := by
  refine (suspension_logged_iff inService_agrees _).2 ⟨trivial, ?_, ?_, ?_, trivial⟩
  · rintro t ⟨⟩ ⟨⟩
  · rintro t ⟨⟩ ⟨⟩
  · rintro t ⟨⟩ -
    exact .inl rfl

/-- **A contract in service is logged as suspended**: the row is written after the reconnect that
should have closed it. -/
theorem suspension_logged_late :
    ¬ ∀ (db : SuspensionDb) (turns : List (Turn SuspensionCall Answer)), db.Agrees →
      Always suspensionStep (fun s => Returned s → s.shared.Agrees) (.idle db) turns := by
  intro h
  have hlast := (h inService reconnectedBetween inService_agrees).last
  have hreturned : Returned (run suspensionStep (.idle inService) reconnectedBetween) := by
    intro t ht
    have hthreads : (run suspensionStep (.idle inService) reconnectedBetween).threads =
        [.done, .done] := rfl
    rw [hthreads] at ht
    simpa using ht
  have hopen : (run suspensionStep (.idle inService) reconnectedBetween).shared.HasOpen :=
    hasOpen_logSuspended (plain_describe (some 1) none (some 7)) true
  rcases (hlast hreturned).logs.1 hopen with hsuspended | hthrottled
  · cases hsuspended
  · cases hthrottled

end Vigabss.Suspension
