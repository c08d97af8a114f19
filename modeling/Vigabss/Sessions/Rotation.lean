import Mathlib.Data.List.Nodup
import Mathlib.Data.List.Range
import Vigabss.Lib.Threads

/-!
# Vigabss.Sessions.Rotation — refresh tokens and their families

`authService` on `user_sessions`: sign-in, the rotation that refresh and organization switch share,
the answer to a replayed token, logout and the revocations, one statement or one transaction at a
turn.  A row's number stands for its refresh token too: both are new with the row.  Times are in
seconds.
-/

namespace Vigabss.Sessions

open Vigabss.Lib

/-! ### The table -/

/-- A row; rows of before the families have none. -/
structure Session where
  id : ℕ
  user_id : ℕ
  token_family : Option ℕ
  expires_at : ℤ
  consumed_at : Option ℤ
  deriving DecidableEq, Repr

/-- What happened: a sign-in, a token looked up for a rotation, a token exchanged for its
successor, and a family whose rows were deleted. -/
inductive Event where
  | signedIn (id family : ℕ)
  | presented (id : ℕ)
  | exchanged (old new : ℕ) (family : Option ℕ)
  | closed (family : ℕ)
  deriving DecidableEq, Repr

/-- The table, the owners of the families so far, the clock, and the history, the newest first. -/
structure UserSessions where
  rows : List Session
  nextId : ℕ
  owners : List ℕ
  refresh_seconds : ℕ
  now : ℤ
  history : List Event
  deriving DecidableEq, Repr

/-- The table before the first sign-in with a family: rows of before, of these users and with these
ends. -/
def opened (legacy : List (ℕ × ℤ)) (refreshSeconds : ℕ) (now : ℤ) : UserSessions where
  rows := legacy.zipIdx.map fun e => ⟨e.2, e.1.1, none, e.1.2, none⟩
  nextId := legacy.length
  owners := []
  refresh_seconds := refreshSeconds
  now := now
  history := []

/-! ### The environment -/

/-- How a statement or transaction ends: it takes effect, it fails without one, or it takes effect
and fails all the same. -/
inductive SqlEnd where
  | ok | failed | lost
  deriving DecidableEq, Repr

/-- What a turn meets: the end of its statement, and whether the user is active and may enter the
organization. -/
structure Answer where
  sql : SqlEnd
  admitted : Bool
  deriving DecidableEq, Repr

/-! ### The statements -/

namespace UserSessions

def log (e : Event) (s : UserSessions) : UserSessions := { s with history := e :: s.history }

/-- `issueSession`. -/
def issueSession (user : ℕ) (s : UserSessions) : UserSessions :=
  { s with
    rows := s.rows ++ [⟨s.nextId, user, some s.owners.length, s.now + s.refresh_seconds, none⟩]
    nextId := s.nextId + 1
    owners := s.owners ++ [user]
    history := .signedIn s.nextId s.owners.length :: s.history }

/-- `SELECT … WHERE token_hash = ?`. -/
def find (id : ℕ) (s : UserSessions) : Option Session := s.rows.find? fun r => r.id = id

/-- The row that a rotation puts in the session's place. -/
def successor (session : Session) (s : UserSessions) : Session :=
  ⟨s.nextId, session.user_id, session.token_family, s.now + s.refresh_seconds, none⟩

/-- `SET consumed_at = NOW() WHERE id = ? AND consumed_at IS NULL`, on one row. -/
def stamp (id : ℕ) (now : ℤ) (r : Session) : Session :=
  if r.id = id ∧ r.consumed_at = none then { r with consumed_at := some now } else r

/-- `token_family = ? AND consumed_at IS NOT NULL AND expires_at <= NOW()`. -/
def outlived (family : Option ℕ) (now : ℤ) (r : Session) : Bool :=
  family.isSome ∧ r.token_family = family ∧ r.consumed_at.isSome ∧ r.expires_at ≤ now

/-- `consumeAndReplaceSession`. -/
def consumeAndReplace (session : Session) (s : UserSessions) : UserSessions :=
  if s.rows.any fun r => r.id = session.id ∧ r.consumed_at = none then
    { s with
      rows := (s.rows.map (stamp session.id s.now) ++ [s.successor session]).filter fun r =>
        !outlived session.token_family s.now r
      nextId := s.nextId + 1
      history := .exchanged session.id s.nextId session.token_family :: s.history }
  else s

/-- `DELETE … WHERE token_family = ?`. -/
def endFamily (family : ℕ) (s : UserSessions) : UserSessions :=
  { s with
    rows := s.rows.filter fun r => r.token_family ≠ some family
    history := .closed family :: s.history }

/-- `DELETE … WHERE id = ?`. -/
def endSession (id : ℕ) (s : UserSessions) : UserSessions :=
  { s with rows := s.rows.filter fun r => r.id ≠ id }

/-- The family of a session that has one, else the session. -/
def endSignIn (session : Session) (s : UserSessions) : UserSessions :=
  match session.token_family with
  | some family => s.endFamily family
  | none => s.endSession session.id

/-- The deletion of `revokeSession`, in the rows of the user. -/
def endOwnSignIn (session : Session) (user : ℕ) (s : UserSessions) : UserSessions :=
  match session.token_family with
  | some family =>
    { s with
      rows := s.rows.filter fun r => ¬ (r.token_family = some family ∧ r.user_id = user)
      history := .closed family :: s.history }
  | none => s.endSession session.id

/-- `revokeUserSessions`, which ends every family that has rows of the user. -/
def endUser (user : ℕ) (s : UserSessions) : UserSessions :=
  { s with
    rows := s.rows.filter fun r => r.user_id ≠ user
    history := ((s.rows.filter fun r => r.user_id = user).filterMap Session.token_family).map
      Event.closed ++ s.history }

/-- Time goes by. -/
def wait (seconds : ℕ) (s : UserSessions) : UserSessions := { s with now := s.now + seconds }

end UserSessions

/-- The effect of a statement, unless it failed without one. -/
def effect (e : SqlEnd) (f : UserSessions → UserSessions) (s : UserSessions) : UserSessions :=
  if e = .failed then s else f s

/-! ### The calls -/

inductive Call where
  | login (user : ℕ)
  | refreshToken (token : ℕ)
  | switchOrganization (user token : ℕ)
  | logout (token : ℕ)
  | revokeSession (user id : ℕ)
  | revokeUserSessions (user : ℕ)
  | wait (seconds : ℕ)
  deriving DecidableEq, Repr

/-- The statement a call stands before; an `answered` call found its token replayed, has ended the
family and says so. -/
inductive Stage where
  | issuing (user : ℕ)
  | authorizing (user token : ℕ)
  | looking (token : ℕ) (user : Option ℕ)
  | reusing (session : Session)
  | expiring (id : ℕ)
  | checking (session : Session)
  | rotating (session : Session)
  | leaving (token : ℕ)
  | ending (session : Session)
  | revoking (user id : ℕ)
  | endingOwn (session : Session) (user : ℕ)
  | endingUser (user : ℕ)
  | waiting (seconds : ℕ)
  | answered (family : Option ℕ)
  | done
  deriving DecidableEq, Repr

def start : Call → Stage
  | .login user => .issuing user
  | .refreshToken token => .looking token none
  | .switchOrganization user token => .authorizing user token
  | .logout token => .leaving token
  | .revokeSession user id => .revoking user id
  | .revokeUserSessions user => .endingUser user
  | .wait seconds => .waiting seconds

/-- What `refreshToken` and `switchOrganization` do with the row of the token. -/
def examine (s : UserSessions) (user : Option ℕ) (session : Session) : Stage :=
  if user.isSome ∧ user ≠ some session.user_id then .done
  else if session.consumed_at.isSome then .reusing session
  else if session.expires_at ≤ s.now then .expiring session.id
  else if user.isSome then .rotating session
  else .checking session

/-- The next statement of a call. -/
def next (s : UserSessions) (t : Stage) (a : Answer) : UserSessions × Stage :=
  match t with
  | .issuing user => (effect a.sql (UserSessions.issueSession user) s, .done)
  | .authorizing user token =>
    (s, if a.sql = .ok ∧ a.admitted then .looking token (some user) else .done)
  | .looking token user =>
    if a.sql = .ok then (s.log (.presented token), ((s.find token).map (examine s user)).getD .done)
    else (s, .done)
  | .reusing session =>
    (effect a.sql (UserSessions.endSignIn session) s,
      if a.sql = .ok then .answered session.token_family else .done)
  | .expiring id => (effect a.sql (UserSessions.endSession id) s, .done)
  | .checking session => (s, if a.sql = .ok ∧ a.admitted then .rotating session else .done)
  | .rotating session => (effect a.sql (UserSessions.consumeAndReplace session) s, .done)
  | .leaving token =>
    (s, if a.sql = .ok then ((s.find token).map Stage.ending).getD .done else .done)
  | .ending session => (effect a.sql (UserSessions.endSignIn session) s, .done)
  | .revoking user id =>
    (s, if a.sql = .ok then
      (((s.find id).filter fun r => r.user_id = user ∧ r.consumed_at = none).map
        (Stage.endingOwn · user)).getD .done
      else .done)
  | .endingOwn session user => (effect a.sql (UserSessions.endOwnSignIn session user) s, .done)
  | .endingUser user => (effect a.sql (UserSessions.endUser user) s, .done)
  | .waiting seconds => (s.wait seconds, .done)
  | .answered family => (s, .answered family)
  | .done => (s, .done)

/-- The system of the table and its clients. -/
abbrev step : Threads UserSessions Stage → Turn Call Answer → Threads UserSessions Stage :=
  Threads.step start next

/-! ### The law -/

def Event.exchanged? : Event → Option ℕ
  | .exchanged old _ _ => some old
  | .signedIn _ _ | .presented _ | .closed _ => none

/-- The tokens that were exchanged, the newest first. -/
def exchangedTokens (history : List Event) : List ℕ := history.filterMap Event.exchanged?

/-- The live rows of a family. -/
def UserSessions.live (family : ℕ) (s : UserSessions) : List Session :=
  s.rows.filter fun r => r.token_family = some family ∧ r.consumed_at = none

/-- No token of a family is accepted after the family was closed. -/
def ClosedForGood (history : List Event) : Prop :=
  ∀ old new family older, .exchanged old new (some family) :: older <:+ history →
    .closed family ∉ older

/-- No token of a family is accepted after one that had been exchanged was presented again. -/
def NoneAfterReplay (history : List Event) : Prop :=
  ∀ old new family older, .exchanged old new (some family) :: older <:+ history →
    ∀ token before, .presented token :: before <:+ older →
      ∀ new', .exchanged token new' (some family) ∉ before

/-- A family has one live token at most, a token one successor, a call that has answered a replay
has closed the family, and a closed family accepts no token. -/
structure Lawful (s : Threads UserSessions Stage) : Prop where
  oneLive : ∀ family, (s.shared.live family).length ≤ 1
  oneSuccessor : (exchangedTokens s.shared.history).Nodup
  answered : ∀ family, .answered (some family) ∈ s.threads → .closed family ∈ s.shared.history
  closedForGood : ClosedForGood s.shared.history

end Vigabss.Sessions
