import Mathlib.Data.List.Nodup
import Vigabss.Lib.Threads

/-!
# Vigabss.TwoFactor.Accounts — the second factor of one account

`twoFactorService` on the columns of one user: the setup of a TOTP secret, its verification, the
check of a code and the backup codes, one SQL statement at a turn.  Secrets and backup codes are
numbers, each new when it is drawn; the keyed hash of RFC 6238 is a parameter.  Times are in
seconds.
-/

namespace Vigabss.TwoFactor

open Vigabss.Lib

/-! ### TOTP -/

def TOTP_DIGITS : ℕ := 6

def TOTP_PERIOD : ℤ := 30

def TOTP_WINDOW : ℤ := 1

def BACKUP_CODE_COUNT : ℕ := 10

section Totp

-- the bytes of the HMAC-SHA1 of a time step under a secret
variable (hmac : ℕ → ℤ → List ℕ)

/-- `generateTOTP`, before it is padded. -/
def generateOtp (secret : ℕ) (timeStep : ℤ) : ℕ :=
  let hash := hmac secret timeStep
  let offset := hash.getD (hash.length - 1) 0 &&& 0x0f
  let binary := ((hash.getD offset 0 &&& 0x7f) <<< 24) |||
    ((hash.getD (offset + 1) 0 &&& 0xff) <<< 16) |||
    ((hash.getD (offset + 2) 0 &&& 0xff) <<< 8) ||| (hash.getD (offset + 3) 0 &&& 0xff)
  binary % 10 ^ TOTP_DIGITS

/-- `generateTOTP`. -/
def generateTOTP (secret : ℕ) (timeStep : ℤ) : List Char :=
  List.leftpad TOTP_DIGITS '0' (toString (generateOtp hmac secret timeStep)).toList

/-- `matchTOTPStep`: the first step of the window whose code it is. -/
def matchTOTPStep (now : ℤ) (secret : ℕ) (code : List Char) : Option ℤ :=
  [now / TOTP_PERIOD - TOTP_WINDOW, now / TOTP_PERIOD, now / TOTP_PERIOD + TOTP_WINDOW].find?
    fun step => generateTOTP hmac secret step = code

end Totp

/-! ### The account -/

structure Account where
  totp_secret : Option ℕ
  totp_enabled : Bool
  totp_backup_codes : List ℕ
  totp_last_used_step : Option ℤ
  deriving DecidableEq, Repr

/-- A code was accepted: the TOTP code of a secret and step, or a backup code. -/
inductive Event where
  | accepted (secret : ℕ) (step : ℤ)
  | redeemed (code : ℕ)
  deriving DecidableEq, Repr

/-- The row, the secrets and backup codes drawn so far, the clock, and the history, the newest
first. -/
structure User where
  row : Account
  secrets : ℕ
  codes : ℕ
  now : ℤ
  history : List Event
  deriving DecidableEq, Repr

/-- A user who never set up a second factor. -/
def registered (now : ℤ) : User := ⟨⟨none, false, [], none⟩, 0, 0, now, []⟩

/-- A typed code: a text, or the text of a backup code, which is no six digits. -/
inductive Code where
  | text (code : List Char)
  | backup (code : ℕ)
  deriving DecidableEq, Repr

/-- How a statement ends: it takes effect, it fails without one, or it takes effect and fails all
the same. -/
inductive SqlEnd where
  | ok | failed | lost
  deriving DecidableEq, Repr

/-- What a turn meets: the end of its statement, and whether the password that was given is
right. -/
structure Answer where
  sql : SqlEnd
  password : Bool
  deriving DecidableEq, Repr

/-! ### The statements -/

namespace User

/-- `SET totp_secret = ?, totp_enabled = FALSE, totp_last_used_step = NULL`. -/
def storeSecret (u : User) : User :=
  { u with
    row := { u.row with
      totp_secret := some u.secrets
      totp_enabled := false
      totp_last_used_step := none }
    secrets := u.secrets + 1 }

/-- `generateBackupCodes`. -/
def generateBackupCodes (u : User) : List ℕ := List.range' u.codes BACKUP_CODE_COUNT

/-- The update of `verifyAndEnable`, for the secret that the code was matched with. -/
def enable (secret : ℕ) (step : ℤ) (u : User) : User :=
  { u with
    row := { u.row with
      totp_enabled := true
      totp_backup_codes := u.generateBackupCodes
      totp_last_used_step := some step }
    codes := u.codes + BACKUP_CODE_COUNT
    history := .accepted secret step :: u.history }

/-- `totp_enabled = TRUE AND (totp_last_used_step IS NULL OR totp_last_used_step < ?)`. -/
def advances (step : ℤ) (u : User) : Bool :=
  u.row.totp_enabled = true ∧ ∀ last ∈ u.row.totp_last_used_step, last < step

/-- The update that claims a step, for the secret that the code was matched with. -/
def advance (secret : ℕ) (step : ℤ) (u : User) : User :=
  if u.advances step then
    { u with
      row := { u.row with totp_last_used_step := some step }
      history := .accepted secret step :: u.history }
  else u

/-- The update that removes a backup code. -/
def redeem (code : ℕ) (u : User) : User :=
  if u.row.totp_enabled = true ∧ code ∈ u.row.totp_backup_codes then
    { u with
      row := { u.row with totp_backup_codes := u.row.totp_backup_codes.erase code }
      history := .redeemed code :: u.history }
  else u

/-- The update of `regenerateBackupCodes`. -/
def regenerate (u : User) : User :=
  { u with
    row := { u.row with totp_backup_codes := u.generateBackupCodes }
    codes := u.codes + BACKUP_CODE_COUNT }

/-- The update of `disable`. -/
def disable (u : User) : User := { u with row := ⟨none, false, [], none⟩ }

/-- Time goes by. -/
def wait (seconds : ℕ) (u : User) : User := { u with now := u.now + seconds }

end User

/-- The effect of a statement, unless it failed without one. -/
def effect (e : SqlEnd) (f : User → User) (u : User) : User := if e = .failed then u else f u

/-! ### The calls -/

/-- What was given to replace a secret in use. -/
inductive Reauth where
  | code (code : Code)
  | password
  | nothing
  deriving DecidableEq, Repr

inductive Call where
  | generateSecret (reauth : Reauth)
  | verifyAndEnable (code : Code)
  | verifyCode (code : Code)
  | regenerateBackupCodes (code : Code)
  | disable
  | wait (seconds : ℕ)
  deriving DecidableEq, Repr

/-- What a code is verified for. -/
inductive Purpose where
  | verify | replace | regenerate
  deriving DecidableEq, Repr

/-- The statement a call stands before; a call that matched a code knows the secret and the step. -/
inductive Stage where
  | settingUp (reauth : Reauth)
  | storing
  | enrolling (code : Code)
  | enabling (secret : ℕ) (step : ℤ)
  | reading (purpose : Purpose) (code : Code)
  | advancing (purpose : Purpose) (secret : ℕ) (step : ℤ)
  | redeeming (purpose : Purpose) (code : ℕ)
  | regenerating
  | disabling
  | waiting (seconds : ℕ)
  | done
  deriving DecidableEq, Repr

def start : Call → Stage
  | .generateSecret reauth => .settingUp reauth
  | .verifyAndEnable code => .enrolling code
  | .verifyCode code => .reading .verify code
  | .regenerateBackupCodes code => .reading .regenerate code
  | .disable => .disabling
  | .wait seconds => .waiting seconds

/-- What follows a code that was accepted. -/
def Purpose.accepted : Purpose → Stage
  | .verify => .done
  | .replace => .storing
  | .regenerate => .regenerating

section Next

variable (hmac : ℕ → ℤ → List ℕ)

/-- The secret of the row and the step whose code it is. -/
def User.match? (u : User) : Code → Option (ℕ × ℤ)
  | .text code => u.row.totp_secret.bind fun secret =>
    (matchTOTPStep hmac u.now secret code).map (secret, ·)
  | .backup _ => none

/-- `verifyCode`, once it has read the row. -/
def check (u : User) (purpose : Purpose) (code : Code) : Stage :=
  if u.row.totp_enabled then
    match u.match? hmac code with
    | some (secret, step) =>
      if ∀ last ∈ u.row.totp_last_used_step, last < step then .advancing purpose secret step
      else .done
    | none =>
      match code with
      | .text _ => .done
      | .backup code => if code ∈ u.row.totp_backup_codes then .redeeming purpose code else .done
  else .done

/-- `generateSecret`, once it has read the row. -/
def reauthenticate (u : User) (reauth : Reauth) (password : Bool) : Stage :=
  if u.row.totp_enabled then
    match reauth with
    | .code code => .reading .replace code
    | .password => if password then .storing else .done
    | .nothing => .done
  else .storing

/-- The next statement of a call. -/
def next (u : User) (t : Stage) (a : Answer) : User × Stage :=
  match t with
  | .settingUp reauth => (u, if a.sql = .ok then reauthenticate u reauth a.password else .done)
  | .storing => (effect a.sql User.storeSecret u, .done)
  | .enrolling code =>
    (u, if a.sql = .ok then
      ((u.match? hmac code).map fun e => Stage.enabling e.1 e.2).getD .done else .done)
  | .enabling secret step => (effect a.sql (User.enable secret step) u, .done)
  | .reading purpose code => (u, if a.sql = .ok then check hmac u purpose code else .done)
  | .advancing purpose secret step =>
    (effect a.sql (User.advance secret step) u,
      if a.sql = .ok ∧ u.advances step then purpose.accepted else .done)
  | .redeeming purpose code =>
    (effect a.sql (User.redeem code) u,
      if a.sql = .ok ∧ u.row.totp_enabled = true ∧ code ∈ u.row.totp_backup_codes then
        purpose.accepted else .done)
  | .regenerating => (effect a.sql User.regenerate u, .done)
  | .disabling => (effect a.sql User.disable u, .done)
  | .waiting seconds => (u.wait seconds, .done)
  | .done => (u, .done)

/-- The system of an account and its calls. -/
abbrev step : Threads User Stage → Turn Call Answer → Threads User Stage :=
  Threads.step start (next hmac)

end Next

/-! ### The law -/

def Event.accepted? : Event → Option (ℕ × ℤ)
  | .accepted secret step => some (secret, step)
  | .redeemed _ => none

def Event.redeemed? : Event → Option ℕ
  | .accepted _ _ => none
  | .redeemed code => some code

/-- The steps that were accepted, each with its secret. -/
def accepted (history : List Event) : List (ℕ × ℤ) := history.filterMap Event.accepted?

/-- The backup codes that were accepted. -/
def redeemed (history : List Event) : List ℕ := history.filterMap Event.redeemed?

/-- Every step of a secret, and every backup code, is accepted at most once. -/
structure SingleUse (u : User) : Prop where
  steps : (accepted u.history).Nodup
  codes : (redeemed u.history).Nodup

/-- What the code would have to make sure of: an update that accepts a code finds the secret that
the code was matched with, and no step at or past its own. -/
def Covered (u : User) (t : Stage) (_ : Answer) : Prop :=
  match t with
  | .enabling secret step =>
    u.row.totp_secret = some secret ∧ ∀ last ∈ u.row.totp_last_used_step, last < step
  | .advancing _ secret step => u.advances step = true → u.row.totp_secret = some secret
  | _ => True

instance (u : User) (t : Stage) (a : Answer) : Decidable (Covered u t a) :=
  match t with
  | .enabling secret step => inferInstanceAs (Decidable
      (u.row.totp_secret = some secret ∧ ∀ last ∈ u.row.totp_last_used_step, last < step))
  | .advancing _ secret step => inferInstanceAs (Decidable
      (u.advances step = true → u.row.totp_secret = some secret))
  | .settingUp _ | .storing | .enrolling _ | .reading _ _ | .redeeming _ _ | .regenerating
  | .disabling | .waiting _ | .done => .isTrue trivial

end Vigabss.TwoFactor

/-!
## A code is accepted once

The last step used only grows while its secret stays, where the update that accepts a code asks for
it: `verifyCode` asks for the step and not for the secret, `verifyAndEnable` for neither.
-/

namespace Vigabss.TwoFactor

open Vigabss.Lib

/-! ### The invariant -/

structure Sound (u : User) : Prop where
  steps : (accepted u.history).Nodup
  /-- A step that was accepted is not past the last one of its secret. -/
  reached : ∀ secret step, (secret, step) ∈ accepted u.history → secret < u.secrets ∧
    (u.row.totp_secret = some secret → ∃ last ∈ u.row.totp_last_used_step, step ≤ last)
  drawn : ∀ secret ∈ u.row.totp_secret, secret < u.secrets
  once : (redeemed u.history).Nodup
  distinct : u.row.totp_backup_codes.Nodup
  unspent : ∀ code ∈ u.row.totp_backup_codes, code < u.codes ∧ code ∉ redeemed u.history
  spent : ∀ code ∈ redeemed u.history, code < u.codes

theorem Sound.singleUse {u : User} (h : Sound u) : SingleUse u := ⟨h.steps, h.once⟩

theorem sound_registered (now : ℤ) : Sound (registered now) where
  steps := List.nodup_nil
  reached := nofun
  drawn := nofun
  once := List.nodup_nil
  distinct := List.nodup_nil
  unspent := nofun
  spent := nofun

/-! ### The statements -/

theorem effect_cases (P : User → Prop) (e : SqlEnd) {f : User → User} {u : User} (hu : P u)
    (hf : P (f u)) : P (effect e f u) := by
  unfold effect
  split_ifs
  · exact hu
  · exact hf

theorem Sound.storeSecret {u : User} (h : Sound u) : Sound u.storeSecret where
  steps := h.steps
  reached secret step hmem := by
    have hlt := (h.reached secret step hmem).1
    refine ⟨Nat.lt_succ_of_lt hlt, ?_⟩
    rintro ⟨⟩
    exact absurd hlt (Nat.lt_irrefl _)
  drawn secret hsecret := by
    cases hsecret
    exact Nat.lt_succ_self _
  once := h.once
  distinct := h.distinct
  unspent := h.unspent
  spent := h.spent

theorem Sound.disable {u : User} (h : Sound u) : Sound u.disable where
  steps := h.steps
  reached secret step hmem := ⟨(h.reached secret step hmem).1, nofun⟩
  drawn := nofun
  once := h.once
  distinct := List.nodup_nil
  unspent := nofun
  spent := h.spent

theorem Sound.regenerate {u : User} (h : Sound u) : Sound u.regenerate where
  steps := h.steps
  reached := h.reached
  drawn := h.drawn
  once := h.once
  distinct := List.nodup_range'
  unspent code hcode := by
    obtain ⟨i, hi, rfl⟩ := List.mem_range'.1 hcode
    refine ⟨?_, fun hmem => ?_⟩
    · show u.codes + 1 * i < u.codes + BACKUP_CODE_COUNT
      omega
    · have hlt := h.spent _ hmem
      omega
  spent code hcode := Nat.lt_add_right _ (h.spent code hcode)

theorem Sound.accept {u : User} (h : Sound u) {secret : ℕ} {step : ℤ}
    (hsecret : u.row.totp_secret = some secret)
    (hlater : ∀ last ∈ u.row.totp_last_used_step, last < step) (enabled : Bool) :
    Sound { u with
      row := { u.row with totp_enabled := enabled, totp_last_used_step := some step }
      history := .accepted secret step :: u.history } where
  steps := by
    refine List.nodup_cons.2 ⟨fun hmem => ?_, h.steps⟩
    obtain ⟨last, hlast, hle⟩ := (h.reached secret step hmem).2 hsecret
    have hlt := hlater last hlast
    omega
  reached secret' step' hmem := by
    rcases List.mem_cons.1 hmem with heq | hold
    · cases heq
      exact ⟨h.drawn secret hsecret, fun _ => ⟨step, rfl, Int.le_refl _⟩⟩
    · obtain ⟨hlt, hreached⟩ := h.reached secret' step' hold
      refine ⟨hlt, fun hrow => ⟨step, rfl, ?_⟩⟩
      obtain ⟨last, hlast, hle⟩ := hreached hrow
      have hlt' := hlater last hlast
      omega
  drawn := h.drawn
  once := h.once
  distinct := h.distinct
  unspent := h.unspent
  spent := h.spent

theorem Sound.advance {u : User} (h : Sound u) {secret : ℕ} {step : ℤ}
    (hsecret : u.advances step = true → u.row.totp_secret = some secret) :
    Sound (u.advance secret step) := by
  unfold User.advance
  split_ifs with hadvances
  · exact h.accept (hsecret hadvances) (of_decide_eq_true hadvances).2 u.row.totp_enabled
  · exact h

theorem Sound.enable {u : User} (h : Sound u) {secret : ℕ} {step : ℤ}
    (hsecret : u.row.totp_secret = some secret)
    (hlater : ∀ last ∈ u.row.totp_last_used_step, last < step) :
    Sound (u.enable secret step) := by
  have haccepted := h.regenerate.accept hsecret hlater true
  exact haccepted

theorem Sound.redeem {u : User} (h : Sound u) (code : ℕ) : Sound (u.redeem code) := by
  unfold User.redeem
  split_ifs with hcode
  · refine ⟨h.steps, h.reached, h.drawn, ?_, h.distinct.erase _, ?_, ?_⟩
    · exact List.nodup_cons.2 ⟨(h.unspent code hcode.2).2, h.once⟩
    · intro other hother
      obtain ⟨hne, hmem⟩ := h.distinct.mem_erase_iff.1 hother
      obtain ⟨hlt, hnew⟩ := h.unspent other hmem
      refine ⟨hlt, ?_⟩
      rintro (_ | ⟨_, hold⟩)
      · exact hne rfl
      · exact hnew hold
    · intro other hother
      rcases List.mem_cons.1 hother with rfl | hold
      · exact (h.unspent _ hcode.2).1
      · exact h.spent other hold
  · exact h

theorem Sound.wait {u : User} (h : Sound u) (seconds : ℕ) : Sound (u.wait seconds) :=
  ⟨h.steps, h.reached, h.drawn, h.once, h.distinct, h.unspent, h.spent⟩

/-! ### The law -/

variable (hmac : ℕ → ℤ → List ℕ)

/-- **One statement** of a setup, a verification or a change of the codes. -/
theorem turn_keeps (u : User) (t : Stage) (a : Answer) (h : Sound u) (hgood : Covered u t a) :
    Sound (next hmac u t a).1 := by
  cases t with
  | settingUp reauth => exact h
  | storing => exact effect_cases Sound a.sql h h.storeSecret
  | enrolling code => exact h
  | enabling secret step => exact effect_cases Sound a.sql h (h.enable hgood.1 hgood.2)
  | reading purpose code => exact h
  | advancing purpose secret step => exact effect_cases Sound a.sql h (h.advance hgood)
  | redeeming purpose code => exact effect_cases Sound a.sql h (h.redeem code)
  | regenerating => exact effect_cases Sound a.sql h h.regenerate
  | disabling => exact effect_cases Sound a.sql h h.disable
  | waiting seconds => exact h.wait seconds
  | done => exact h

/-- **Single use**: in every run whose accepting updates find the secret their code was matched
with and no step at or past its own, each step and each backup code is accepted at most once. -/
theorem codes_single_use (now : ℤ) (is : List (Turn Call Answer))
    (h : StepsMeet (step hmac) (Threads.Meets Covered) (Threads.idle (registered now)) is) :
    Always (step hmac) (fun s => SingleUse s.shared) (Threads.idle (registered now)) is := by
  have hall := @Threads.always_grows _ _ _ _ start (next hmac) Sound (fun _ _ => True) Covered
    (fun _ _ => True) (fun _ _ _ _ _ => trivial) (fun _ _ => trivial)
    (fun u t a hu _ hgood => ⟨turn_keeps hmac u t a hu hgood, trivial, trivial⟩) _
    (sound_registered now) is h
  exact hall.mono fun s hs => hs.1.singleUse

/-! ### Runs -/

/-- A hash that tells the first steps apart. -/
def someHash (secret : ℕ) (step : ℤ) : List ℕ := [0, 0, secret, step.toNat, 0]

/-- The statement takes effect. -/
def goesWell : Answer := ⟨.ok, false⟩

/-- The code of step `n` under the first secret. -/
def codeOf (n : ℤ) : Code := .text (generateTOTP someHash 0 n)

/-- Thread `i` runs a call to its end. -/
def runs (i : ℕ) (c : Call) : List (Turn Call Answer) :=
  .call c :: List.replicate 3 (.turn i goesWell)

/-- A setup with the code of one step and a sign-in with that of the next. -/
def enrolledAndUsed : List (Turn Call Answer) :=
  runs 0 (.generateSecret .nothing) ++ runs 1 (.verifyAndEnable (codeOf 100)) ++
    runs 2 (.verifyCode (codeOf 101)) ++ runs 3 (.verifyCode (.backup 4))

theorem codes_single_use_enrolled :
    StepsMeet (step someHash) (Threads.Meets Covered) (Threads.idle (registered 3000))
        enrolledAndUsed ∧
      Always (step someHash) (fun s => SingleUse s.shared) (Threads.idle (registered 3000))
        enrolledAndUsed := by
  have hgood : StepsMeet (step someHash) (Threads.Meets Covered)
      (Threads.idle (registered 3000)) enrolledAndUsed := by decide
  exact ⟨hgood, codes_single_use someHash 3000 enrolledAndUsed hgood⟩

/-- The code of a sign-in is given to `verifyAndEnable` next. -/
def enabledAgain : List (Turn Call Answer) :=
  enrolledAndUsed ++ runs 4 (.verifyAndEnable (codeOf 101))

theorem step_accepted_twice :
    ¬ Always (step someHash) (fun s => SingleUse s.shared) (Threads.idle (registered 3000))
      enabledAgain := by
  intro h
  have hsteps := h.last.steps
  revert hsteps
  decide

end Vigabss.TwoFactor
