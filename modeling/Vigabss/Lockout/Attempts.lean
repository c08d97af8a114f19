import Vigabss.Lib.Threads

/-!
# Vigabss.Lockout.Attempts — the sign-in attempts on one account

`authService.login` and `completeMfaLogin` on one user: the row is read, the guess compared, and a
wrong one counted by one update, each at a turn of its own.  Times are in seconds; the policy of the
home organization is fixed.
-/

namespace Vigabss.Lockout

open Vigabss.Lib

/-! ### The account -/

/-- The policy, with the bounds its route checks. -/
structure Policy where
  lockout_attempts : ℕ
  lockout_duration_minutes : ℕ
  duration_pos : 0 < lockout_duration_minutes

/-- `DEFAULT_POLICY`. -/
def DEFAULT_POLICY : Policy := ⟨5, 15, Nat.succ_pos _⟩

structure User where
  failed_login_attempts : ℕ
  locked_until : Option ℤ
  totp_enabled : Bool
  deriving DecidableEq, Repr

/-- What happened: a wrong guess was compared; it was counted; a lock began; the counter was reset;
a sign-in succeeded; a lock expired. -/
inductive Event where
  | compared
  | counted
  | locked (until_ : ℤ)
  | reset
  | succeeded
  | expired
  deriving DecidableEq, Repr

/-- The row, the clock, and the history, the newest first. -/
structure Account where
  row : User
  now : ℤ
  history : List Event
  deriving DecidableEq, Repr

/-- An account without failures. -/
def fresh (totpEnabled : Bool) (now : ℤ) : Account := ⟨⟨0, none, totpEnabled⟩, now, []⟩

/-- What the hash comparison or the check of the code says; it may fail for another reason. -/
inductive Guess where
  | right | wrong | refused
  deriving DecidableEq, Repr

/-- What a turn meets: whether the account is active and the challenge good, and the guess. -/
structure Answer where
  admitted : Bool
  guess : Guess
  deriving DecidableEq, Repr

/-! ### The statements -/

/-- `isLocked`. -/
def User.isLocked (user : User) (now : ℤ) : Bool := user.locked_until.any fun t => now < t

/-- `locked_until IS NOT NULL AND locked_until <= NOW()`. -/
def User.lockExpired (user : User) (now : ℤ) : Bool := user.locked_until.any fun t => t ≤ now

namespace Account

def log (e : Event) (s : Account) : Account := { s with history := e :: s.history }

/-- The counter as the update of `recordFailedLoginAttempt` sets it. -/
def raised (s : Account) : ℕ :=
  if s.row.lockExpired s.now then 1 else s.row.failed_login_attempts + 1

/-- The update, left to right: the lock sees the new counter. -/
def recordFailedLoginAttempt (policy : Policy) (s : Account) : Account :=
  let counted := { s with
    row := { s.row with failed_login_attempts := s.raised }
    history := .counted :: s.history }
  if s.row.isLocked s.now then counted
  else if policy.lockout_attempts ≤ s.raised then
    { counted with
      row := { counted.row with
        locked_until := some (s.now + policy.lockout_duration_minutes * 60) }
      history := .locked (s.now + policy.lockout_duration_minutes * 60) :: counted.history }
  else { counted with row := { counted.row with locked_until := none } }

/-- `SET failed_login_attempts = 0, locked_until = NULL`. -/
def resetAttempts (s : Account) : Account :=
  { s with
    row := { s.row with failed_login_attempts := 0, locked_until := none }
    history := .reset :: s.history }

/-- The end of a sign-in, which resets what its copy of the row shows. -/
def succeed (user : User) (s : Account) : Account :=
  if 0 < user.failed_login_attempts ∨ user.locked_until.isSome then s.resetAttempts.log .succeeded
  else s.log .succeeded

/-- Time goes by, and with it a lock. -/
def wait (seconds : ℕ) (s : Account) : Account :=
  let later := { s with now := s.now + seconds }
  if s.row.isLocked s.now ∧ ¬ s.row.isLocked later.now then later.log .expired else later

end Account

/-! ### The calls -/

inductive Call where
  | login
  | completeMfaLogin
  | wait (seconds : ℕ)
  deriving DecidableEq, Repr

/-- The statement a call stands before; an attempt has the row it read. -/
inductive Stage where
  | reading
  | comparing (user : User)
  | readingMfa
  | verifying (user : User)
  | recording
  | succeeding (user : User)
  | waiting (seconds : ℕ)
  | done
  deriving DecidableEq, Repr

def start : Call → Stage
  | .login => .reading
  | .completeMfaLogin => .readingMfa
  | .wait seconds => .waiting seconds

/-- The next statement of a call. -/
def next (policy : Policy) (s : Account) (t : Stage) (a : Answer) : Account × Stage :=
  match t with
  | .reading =>
    (s, if a.admitted = true ∧ ¬ s.row.isLocked s.now then .comparing s.row else .done)
  | .comparing user =>
    match a.guess with
    | .right => (s, if user.totp_enabled then .done else .succeeding user)
    | .wrong => (s.log .compared, .recording)
    | .refused => (s, .done)
  | .readingMfa =>
    (s, if a.admitted = true ∧ s.row.totp_enabled ∧ ¬ s.row.isLocked s.now then .verifying s.row
      else .done)
  | .verifying user =>
    match a.guess with
    | .right => (s, .succeeding user)
    | .wrong => (s.log .compared, .recording)
    | .refused => (s, .done)
  | .recording => (s.recordFailedLoginAttempt policy, .done)
  | .succeeding user => (s.succeed user, .done)
  | .waiting seconds => (s.wait seconds, .done)
  | .done => (s, .done)

/-- The system of an account and its attempts. -/
abbrev step (policy : Policy) : Threads Account Stage → Turn Call Answer → Threads Account Stage :=
  Threads.step start (next policy)

/-! ### The law -/

/-- Whether a lock has expired that no failure has seen yet. -/
def unseenExpiry : List Event → Bool
  | [] => false
  | .expired :: _ => true
  | .compared :: older | .succeeded :: older => unseenExpiry older
  | .counted :: _ | .locked _ :: _ | .reset :: _ => false

/-- The failures since the counter was reset, or since the first after a lock that expired. -/
def tally : List Event → ℕ
  | [] => 0
  | .counted :: older => if unseenExpiry older then 1 else tally older + 1
  | .reset :: _ => 0
  | .compared :: older | .locked _ :: older | .succeeded :: older | .expired :: older => tally older

/-- The lock that was begun last and neither reset nor restarted from. -/
def lockOf : List Event → Option ℤ
  | [] => none
  | .locked t :: _ => some t
  | .counted :: older => if unseenExpiry older then none else lockOf older
  | .reset :: _ => none
  | .compared :: older | .succeeded :: older | .expired :: older => lockOf older

/-- The wrong guesses that were compared since the last success or the last expiry of a lock. -/
def wrongSince : List Event → ℕ
  | [] => 0
  | .compared :: older => wrongSince older + 1
  | .succeeded :: _ | .expired :: _ => 0
  | .counted :: older | .locked _ :: older | .reset :: older => wrongSince older

/-- The wrong guesses that were compared and not counted yet. -/
def uncounted (history : List Event) : ℤ :=
  (history.count .compared : ℤ) - history.count .counted

/-- One wrong guess that waits to be counted. -/
def Stage.uncounted : Stage → ℤ
  | .recording => 1
  | _ => 0

/-- Every wrong guess is counted once or about to be; the counter restarts at one after a lock; a
lock begins only where none is in force, and stays as it began; and the guesses are bounded. -/
structure Lawful (policy : Policy) (s : Threads Account Stage) : Prop where
  counted : uncounted s.shared.history = s.total Stage.uncounted
  tally : s.shared.row.failed_login_attempts = tally s.shared.history
  lock : s.shared.row.locked_until = lockOf s.shared.history
  notExtended : ∀ t older, .locked t :: older <:+ s.shared.history → lockOf older = none
  bounded : wrongSince s.shared.history ≤ policy.lockout_attempts

/-- What the code would have to make sure of: a wrong guess is compared while the account is not
locked, and the failures counted with those still to be counted leave room for one more. -/
def Covered (policy : Policy) (s : Account) (t : Stage) (a : Answer) : Prop :=
  match t with
  | .comparing _ | .verifying _ => a.guess = .wrong → s.row.isLocked s.now = false ∧
    (if s.row.lockExpired s.now then 0 else (s.row.failed_login_attempts : ℤ)) +
      uncounted s.history < policy.lockout_attempts
  | _ => True

instance (policy : Policy) (s : Account) (t : Stage) (a : Answer) :
    Decidable (Covered policy s t a) :=
  match t with
  | .comparing _ | .verifying _ => inferInstanceAs (Decidable (a.guess = .wrong →
      s.row.isLocked s.now = false ∧
        (if s.row.lockExpired s.now then 0 else (s.row.failed_login_attempts : ℤ)) +
          uncounted s.history < policy.lockout_attempts))
  | .reading | .readingMfa | .recording | .succeeding _ | .waiting _ | .done => .isTrue trivial

end Vigabss.Lockout

/-!
## What the failure counter counts

The counter is one update, so no failure is lost, and the lock that it sets sees the new count.
What it bounds are the failures counted: guesses that read the row before the lock are compared all
the same.  Where a guess is compared with room left for it and for those still to be counted, the
wrong ones between two successes or expiries are at most `lockout_attempts`.
-/

namespace Vigabss.Lockout

open Vigabss.Lib

variable {policy : Policy} {s : Account}

/-! ### The invariant -/

structure Sound (policy : Policy) (s : Account) : Prop where
  tally : s.row.failed_login_attempts = tally s.history
  lock : s.row.locked_until = lockOf s.history
  notExtended : ∀ t older, .locked t :: older <:+ s.history → lockOf older = none
  seen : s.row.lockExpired s.now = unseenExpiry s.history
  few : uncounted s.history ≤ policy.lockout_attempts
  /-- Without a lock, the counter and the guesses yet to be counted have all of them. -/
  open_ : s.row.locked_until = none →
    wrongSince s.history ≤ s.row.failed_login_attempts + uncounted s.history ∧
      s.row.failed_login_attempts + uncounted s.history ≤ policy.lockout_attempts
  closed : s.row.isLocked s.now = true → wrongSince s.history ≤ policy.lockout_attempts
  /-- Behind a lock, only guesses that were not counted yet are new. -/
  behind : s.row.lockExpired s.now = true → wrongSince s.history ≤ uncounted s.history

theorem lock_cases (user : User) (now : ℤ) :
    (user.locked_until = none ∧ user.isLocked now = false ∧ user.lockExpired now = false) ∨
      (user.isLocked now = true ∧ user.lockExpired now = false) ∨
      (user.isLocked now = false ∧ user.lockExpired now = true) := by
  cases hlock : user.locked_until with
  | none => exact Or.inl ⟨rfl, by simp [User.isLocked, hlock], by simp [User.lockExpired, hlock]⟩
  | some t =>
    right
    by_cases hlt : now < t
    · exact Or.inl ⟨by simpa [User.isLocked, hlock] using hlt,
        by simpa [User.lockExpired, hlock] using hlt⟩
    · exact Or.inr ⟨by simpa [User.isLocked, hlock] using hlt,
        by simpa [User.lockExpired, hlock] using hlt⟩

theorem Sound.bounded (h : Sound policy s) : wrongSince s.history ≤ policy.lockout_attempts := by
  rcases lock_cases s.row s.now with ⟨hnone, _⟩ | ⟨hlocked, _⟩ | ⟨_, hexpired⟩
  · have hopen := h.open_ hnone
    omega
  · exact h.closed hlocked
  · have hbehind := h.behind hexpired
    have hfew := h.few
    omega

theorem sound_fresh (policy : Policy) (totpEnabled : Bool) (now : ℤ) :
    Sound policy (fresh totpEnabled now) where
  tally := rfl
  lock := rfl
  notExtended t older h := by cases List.suffix_nil.1 h
  seen := rfl
  few := Int.natCast_nonneg _
  open_ _ := ⟨Int.le_refl _, Int.natCast_nonneg _⟩
  closed := nofun
  behind := nofun

/-! ### The history -/

@[simp] theorem uncounted_compared (history : List Event) :
    uncounted (.compared :: history) = uncounted history + 1 := by
  simp [uncounted]
  omega

@[simp] theorem uncounted_counted (history : List Event) :
    uncounted (.counted :: history) = uncounted history - 1 := by
  simp [uncounted]
  omega

@[simp] theorem uncounted_locked (t : ℤ) (history : List Event) :
    uncounted (.locked t :: history) = uncounted history := by
  simp [uncounted]

@[simp] theorem uncounted_reset (history : List Event) :
    uncounted (.reset :: history) = uncounted history := by
  simp [uncounted]

@[simp] theorem uncounted_succeeded (history : List Event) :
    uncounted (.succeeded :: history) = uncounted history := by
  simp [uncounted]

@[simp] theorem uncounted_expired (history : List Event) :
    uncounted (.expired :: history) = uncounted history := by
  simp [uncounted]

theorem notExtended_cons {e : Event} {history : List Event}
    (h : ∀ t older, .locked t :: older <:+ history → lockOf older = none)
    (he : ∀ t, e = .locked t → lockOf history = none) :
    ∀ t older, .locked t :: older <:+ e :: history → lockOf older = none := by
  intro t older hsuffix
  rcases List.suffix_cons_iff.1 hsuffix with heq | hold
  · rw [List.cons.injEq] at heq
    rw [heq.2]
    exact he t heq.1.symm
  · exact h t older hold

/-! ### The statements -/

/-- A wrong guess that finds room. -/
theorem Sound.compare (h : Sound policy s) (hunlocked : s.row.isLocked s.now = false)
    (hroom : (if s.row.lockExpired s.now then 0 else (s.row.failed_login_attempts : ℤ)) +
      uncounted s.history < policy.lockout_attempts) : Sound policy (s.log .compared) := by
  have hnonneg : (0 : ℤ) ≤ s.row.failed_login_attempts := Int.natCast_nonneg _
  refine ⟨h.tally, h.lock, notExtended_cons h.notExtended nofun, h.seen, ?_, ?_, ?_, ?_⟩
  · show uncounted (.compared :: s.history) ≤ _
    rw [uncounted_compared]
    split_ifs at hroom <;> omega
  · intro hnone
    obtain ⟨hall, _⟩ := h.open_ hnone
    have hunexpired : s.row.lockExpired s.now = false := by
      have hnone' : s.row.locked_until = none := hnone
      simp [User.lockExpired, hnone']
    rw [hunexpired] at hroom
    simp only [Bool.false_eq_true, if_false] at hroom
    show (((wrongSince s.history + 1 : ℕ) : ℤ) ≤
        s.row.failed_login_attempts + uncounted (.compared :: s.history)) ∧
      s.row.failed_login_attempts + uncounted (.compared :: s.history) ≤ policy.lockout_attempts
    rw [uncounted_compared]
    omega
  · intro hlocked
    have hlocked' : s.row.isLocked s.now = true := hlocked
    rw [hunlocked] at hlocked'
    cases hlocked'
  · intro hexpired
    have hbehind := h.behind hexpired
    show ((wrongSince s.history + 1 : ℕ) : ℤ) ≤ uncounted (.compared :: s.history)
    rw [uncounted_compared]
    omega

theorem Sound.takesOver (h : Sound policy s) (hunlocked : s.row.isLocked s.now = false) :
    wrongSince s.history ≤ s.raised + (uncounted s.history - 1) ∧
      s.raised + (uncounted s.history - 1) ≤ policy.lockout_attempts ∧
      lockOf (.counted :: s.history) = none := by
  unfold Account.raised
  rcases lock_cases s.row s.now with ⟨hnone, _, hunexpired⟩ | ⟨hlocked, _⟩ | ⟨_, hexpired⟩
  · have hopen := h.open_ hnone
    rw [hunexpired]
    refine ⟨?_, ?_, ?_⟩
    · simp only [Bool.false_eq_true, if_false]
      omega
    · simp only [Bool.false_eq_true, if_false]
      omega
    · have hunseen := h.seen
      rw [hunexpired] at hunseen
      simp only [lockOf, ← hunseen, Bool.false_eq_true, if_false]
      rw [← h.lock, hnone]
  · rw [hunlocked] at hlocked
    cases hlocked
  · have hbehind := h.behind hexpired
    have hfew := h.few
    rw [hexpired]
    refine ⟨?_, ?_, ?_⟩
    · simp only [if_true]
      omega
    · simp only [if_true]
      omega
    · simp only [lockOf, ← h.seen, hexpired, if_true]

theorem tally_counted (h : Sound policy s) : s.raised = tally (.counted :: s.history) := by
  simp only [Account.raised, tally, h.seen, h.tally]

/-- **A failure that is counted**, during a lock, at its beginning or without one. -/
theorem Sound.recordFailedLoginAttempt (h : Sound policy s) :
    Sound policy (s.recordFailedLoginAttempt policy) := by
  have htally := tally_counted h
  have hfew := h.few
  have hcounted := notExtended_cons (e := .counted) h.notExtended nofun
  unfold Account.recordFailedLoginAttempt
  simp only
  split_ifs with hlocked hmany
  · -- a lock in force stays as it is
    have hunexpired : s.row.lockExpired s.now = false := by
      rcases lock_cases s.row s.now with ⟨_, _, hno⟩ | ⟨_, hno⟩ | ⟨hno, _⟩
      · exact hno
      · exact hno
      · rw [hno] at hlocked
        cases hlocked
    have hunseen : unseenExpiry s.history = false := h.seen ▸ hunexpired
    refine ⟨htally, ?_, hcounted, hunexpired, ?_, ?_, ?_, ?_⟩
    · simp only [lockOf, hunseen, Bool.false_eq_true, if_false]
      exact h.lock
    · show uncounted (.counted :: s.history) ≤ _
      rw [uncounted_counted]
      omega
    · intro hnone
      have hnone' : s.row.locked_until = none := hnone
      rw [User.isLocked, hnone'] at hlocked
      cases hlocked
    · exact fun _ => h.closed hlocked
    · intro hexpired
      have hexpired' : s.row.lockExpired s.now = true := hexpired
      rw [hunexpired] at hexpired'
      cases hexpired'
  · -- the lock begins
    obtain ⟨hall, hbound, hlockOf⟩ := h.takesOver (Bool.eq_false_iff.2 hlocked)
    have hlater : s.now < s.now + policy.lockout_duration_minutes * 60 := by
      have hpos := policy.duration_pos
      omega
    refine ⟨htally, rfl, notExtended_cons hcounted fun _ _ => hlockOf, ?_, ?_, nofun, ?_, ?_⟩
    · show decide (s.now + policy.lockout_duration_minutes * 60 ≤ s.now) = false
      exact decide_eq_false (by omega)
    · show uncounted (.locked _ :: .counted :: s.history) ≤ _
      rw [uncounted_locked, uncounted_counted]
      omega
    · intro _
      show wrongSince s.history ≤ policy.lockout_attempts
      omega
    · intro hexpired
      have hle : s.now + policy.lockout_duration_minutes * 60 ≤ s.now :=
        of_decide_eq_true hexpired
      omega
  · -- the count goes on
    obtain ⟨hall, hbound, hlockOf⟩ := h.takesOver (Bool.eq_false_iff.2 hlocked)
    refine ⟨htally, hlockOf.symm, hcounted, rfl, ?_, ?_, nofun, nofun⟩
    · show uncounted (.counted :: s.history) ≤ _
      rw [uncounted_counted]
      omega
    · intro _
      show wrongSince s.history ≤ s.raised + uncounted (.counted :: s.history) ∧
        s.raised + uncounted (.counted :: s.history) ≤ policy.lockout_attempts
      rw [uncounted_counted]
      exact ⟨hall, hbound⟩

theorem Sound.resetAttempts (h : Sound policy s) (hpending : 0 ≤ uncounted s.history) :
    Sound policy (s.resetAttempts.log .succeeded) := by
  have hreset := notExtended_cons (e := .reset) h.notExtended nofun
  refine ⟨rfl, rfl, notExtended_cons hreset nofun, rfl, ?_, ?_, nofun, nofun⟩
  · show uncounted (.succeeded :: .reset :: s.history) ≤ _
    rw [uncounted_succeeded, uncounted_reset]
    exact h.few
  · intro _
    show ((0 : ℕ) : ℤ) ≤ (0 : ℕ) + uncounted (.succeeded :: .reset :: s.history) ∧
      ((0 : ℕ) : ℤ) + uncounted (.succeeded :: .reset :: s.history) ≤ policy.lockout_attempts
    rw [uncounted_succeeded, uncounted_reset]
    have hfew := h.few
    omega

theorem Sound.succeed (h : Sound policy s) (hpending : 0 ≤ uncounted s.history) (user : User) :
    Sound policy (s.succeed user) := by
  unfold Account.succeed
  split_ifs
  · exact h.resetAttempts hpending
  · refine ⟨h.tally, h.lock, notExtended_cons h.notExtended nofun, h.seen, ?_, ?_, ?_, ?_⟩
    · show uncounted (.succeeded :: s.history) ≤ _
      rw [uncounted_succeeded]
      exact h.few
    · intro hnone
      obtain ⟨_, hall⟩ := h.open_ hnone
      show ((0 : ℕ) : ℤ) ≤ s.row.failed_login_attempts + uncounted (.succeeded :: s.history) ∧
        s.row.failed_login_attempts + uncounted (.succeeded :: s.history) ≤ policy.lockout_attempts
      rw [uncounted_succeeded]
      omega
    · exact fun _ => Nat.zero_le _
    · intro _
      show ((0 : ℕ) : ℤ) ≤ uncounted (.succeeded :: s.history)
      rw [uncounted_succeeded]
      exact hpending

/-- Time that passes no end of a lock leaves the row's lock what it was. -/
theorem Sound.wait (h : Sound policy s) (hpending : 0 ≤ uncounted s.history) (seconds : ℕ) :
    Sound policy (s.wait seconds) := by
  unfold Account.wait
  simp only
  split_ifs with hpassed
  · -- the lock expires
    obtain ⟨hlocked, hunlocked⟩ := hpassed
    have hexpired : s.row.lockExpired (s.now + seconds) = true := by
      rcases lock_cases s.row (s.now + seconds) with ⟨hnone, _⟩ | ⟨hno, _⟩ | ⟨_, hyes⟩
      · rw [User.isLocked, hnone] at hlocked
        cases hlocked
      · exact absurd hno hunlocked
      · exact hyes
    refine ⟨h.tally, h.lock, notExtended_cons h.notExtended nofun, hexpired, ?_, ?_, ?_, ?_⟩
    · show uncounted (.expired :: s.history) ≤ _
      rw [uncounted_expired]
      exact h.few
    · intro hnone
      have hnone' : s.row.locked_until = none := hnone
      rw [User.isLocked, hnone'] at hlocked
      cases hlocked
    · exact fun hstill => absurd hstill hunlocked
    · intro _
      show ((0 : ℕ) : ℤ) ≤ uncounted (.expired :: s.history)
      rw [uncounted_expired]
      exact hpending
  · have hsame : s.row.isLocked (s.now + seconds) = s.row.isLocked s.now ∧
        s.row.lockExpired (s.now + seconds) = s.row.lockExpired s.now := by
      cases hlock : s.row.locked_until with
      | none => simp [User.isLocked, User.lockExpired, hlock]
      | some t =>
        simp only [User.isLocked, hlock, Option.any_some, decide_eq_true_eq, not_and] at hpassed
        simp only [User.isLocked, User.lockExpired, hlock, Option.any_some, decide_eq_decide]
        omega
    refine ⟨h.tally, h.lock, h.notExtended, ?_, h.few, h.open_, ?_, ?_⟩
    · exact hsame.2.trans h.seen
    · exact fun hlocked => h.closed (hsame.1 ▸ hlocked)
    · exact fun hexpired => h.behind (hsame.2 ▸ hexpired)

/-! ### The law -/

theorem Stage.uncounted_nonneg (t : Stage) : 0 ≤ t.uncounted := by
  cases t with
  | recording => exact Int.zero_le_ofNat 1
  | _ => exact Int.le_refl 0

theorem uncounted_record (policy : Policy) (s : Account) :
    uncounted (s.recordFailedLoginAttempt policy).history = uncounted s.history - 1 := by
  unfold Account.recordFailedLoginAttempt
  simp only
  split_ifs
  · exact uncounted_counted _
  · rw [uncounted_locked]
    exact uncounted_counted _
  · exact uncounted_counted _

theorem uncounted_succeed (user : User) (s : Account) :
    uncounted (s.succeed user).history = uncounted s.history := by
  unfold Account.succeed
  split_ifs
  · show uncounted (.succeeded :: .reset :: s.history) = _
    rw [uncounted_succeeded, uncounted_reset]
  · exact uncounted_succeeded _

theorem uncounted_wait (seconds : ℕ) (s : Account) :
    uncounted (s.wait seconds).history = uncounted s.history := by
  unfold Account.wait
  simp only
  split_ifs
  · exact uncounted_expired _
  · rfl

theorem turn_counts (policy : Policy) (s : Account) (t : Stage) (a : Answer) :
    uncounted (next policy s t a).1.history =
      uncounted s.history - t.uncounted + (next policy s t a).2.uncounted := by
  cases t with
  | reading =>
    simp only [next]
    split_ifs <;> simp [Stage.uncounted]
  | comparing user =>
    cases hguess : a.guess with
    | right =>
      simp only [next, hguess]
      split_ifs <;> simp [Stage.uncounted]
    | wrong => simp [next, hguess, Stage.uncounted, Account.log]
    | refused => simp [next, hguess, Stage.uncounted]
  | readingMfa =>
    simp only [next]
    split_ifs <;> simp [Stage.uncounted]
  | verifying user => cases hguess : a.guess <;> simp [next, hguess, Stage.uncounted, Account.log]
  | recording => simp [next, Stage.uncounted, uncounted_record]
  | succeeding user => simp [next, Stage.uncounted, uncounted_succeed]
  | waiting seconds => simp [next, Stage.uncounted, uncounted_wait]
  | done => simp [next, Stage.uncounted]

/-- **One statement** of an attempt. -/
theorem turn_keeps (s : Account) (t : Stage) (a : Answer) (h : Sound policy s)
    (hpending : 0 ≤ uncounted s.history) (hgood : Covered policy s t a) :
    Sound policy (next policy s t a).1 := by
  cases t with
  | reading => exact h
  | comparing user =>
    cases hguess : a.guess with
    | right => simpa [next, hguess] using h
    | wrong =>
      obtain ⟨hunlocked, hroom⟩ := hgood hguess
      simpa [next, hguess] using h.compare hunlocked hroom
    | refused => simpa [next, hguess] using h
  | readingMfa => exact h
  | verifying user =>
    cases hguess : a.guess with
    | right => simpa [next, hguess] using h
    | wrong =>
      obtain ⟨hunlocked, hroom⟩ := hgood hguess
      simpa [next, hguess] using h.compare hunlocked hroom
    | refused => simpa [next, hguess] using h
  | recording => exact h.recordFailedLoginAttempt
  | succeeding user => exact h.succeed hpending user
  | waiting seconds => exact h.wait hpending seconds
  | done => exact h

/-- The account is active, and the guess is wrong. -/
def misses : Answer := ⟨true, .wrong⟩

/-- Thread `i` runs a call to its end. -/
def runs (i : ℕ) (c : Call) (a : Answer) : List (Turn Call Answer) :=
  .call c :: List.replicate 3 (.turn i a)

/-- Two failures, a sign-in, and one failure more. -/
def missedTwice : List (Turn Call Answer) :=
  runs 0 .login misses ++ runs 1 .login misses ++ runs 2 .login ⟨true, .right⟩ ++
    runs 3 .login misses

/-- Six attempts read the row before the first is compared. -/
def sixAtOnce : List (Turn Call Answer) :=
  List.replicate 6 (.call .login) ++ (List.range 6).map (Turn.turn · misses) ++
    (List.range 6).map (Turn.turn · misses)

end Vigabss.Lockout
