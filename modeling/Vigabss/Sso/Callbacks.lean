import Vigabss.Lib.JsText
import Vigabss.Lib.Threads

/-!
# Vigabss.Sso.Callbacks — the callbacks of the identity providers

`processOidcCallback` and `processSamlAssertion`, one SQL statement at a time.  What `node-saml`
makes of a post is the signed element it accepts; the ID that is recorded is read from the text of
the whole post.
-/

namespace Vigabss.Sso

open Vigabss.Lib

/-! ### The text of a post -/

/-- `[A-Za-z0-9_]`. -/
def isWord (c : Char) : Bool :=
  'a' ≤ c ∧ c ≤ 'z' ∨ 'A' ≤ c ∧ c ≤ 'Z' ∨ '0' ≤ c ∧ c ≤ '9' ∨ c = '_'

/-- The rest of a text behind a word it begins with. -/
def afterWord (word text : List Char) : Option (List Char) :=
  if word.isPrefixOf text then some (text.drop word.length) else none

/-- How many UTF-16 units a text has. -/
def utf16Length (text : List Char) : ℕ := (text.map fun c => if c.toNat < 0x10000 then 1 else 2).sum

/-- `"([^"]{1,255})"` behind an attribute's name, or `"([^"]+)"`, and what is behind it. -/
def quoted (limit : Option ℕ) (text : List Char) : Option (String × List Char) :=
  let value := text.takeWhile (· ≠ '"')
  match text.dropWhile (· ≠ '"') with
  | [] => none
  | _ :: rest =>
    if value ≠ [] ∧ ∀ n ∈ limit, utf16Length value ≤ n then some (String.ofList value, rest)
    else none

/-- `[^>]*?\sID="([^"]{1,255})"`. -/
def idAttribute : List Char → Option String
  | [] => none
  | c :: text =>
    (if JsText.isSpace c then
      ((afterWord "ID=\"".toList text).bind (quoted (some 255))).map Prod.fst else none) <|>
    (if c = '>' then none else idAttribute text)

/-- `Response\b` and its ID. -/
def responseTag (text : List Char) : Option String :=
  (afterWord "Response".toList text).bind fun rest =>
    if rest.head?.any isWord then none else idAttribute rest

/-- `(?:[A-Za-z0-9_]+:)?Response\b…` behind a `<`. -/
def openTag (text : List Char) : Option String :=
  (match text.takeWhile isWord, text.dropWhile isWord with
    | _ :: _, ':' :: rest => responseTag rest
    | _, _ => none) <|> responseTag text

/-- The ID `recordSamlResponseOnce` reads: the first match in the text. -/
def responseId : List Char → Option String
  | [] => none
  | c :: text => (if c = '<' then openTag text else none) <|> responseId text

/-- `xml.matchAll(/\sNotOnOrAfter="([^"]+)"/g)`, with fuel for the text's length. -/
def notOnOrAfters : ℕ → List Char → List String
  | 0, _ => []
  | _, [] => []
  | fuel + 1, c :: text =>
    match if JsText.isSpace c then
        (afterWord "NotOnOrAfter=\"".toList text).bind (quoted none) else none with
    | some (value, rest) => value :: notOnOrAfters fuel rest
    | none => notOnOrAfters fuel text

/-! ### The state -/

/-- The signed `Response` element of a post: its ID, the latest `NotOnOrAfter` it carries, and whom
it is about. -/
structure SignedResponse where
  id : String
  notOnOrAfter : Option ℤ
  subject : String
  deriving DecidableEq, Repr

/-- What is not part of the repository: `validatePostResponseAsync` for an organization at a time,
and `Date.parse`. -/
structure Outside where
  validatePostResponse : ℕ → ℤ → String → Option SignedResponse
  dateParse : String → Option ℤ

structure AuthState where
  state : ℕ
  organization_id : ℕ
  expires_at : ℤ
  deriving DecidableEq, Repr

structure SeenAssertion where
  organization_id : ℕ
  assertion_id : String
  expires_at : ℤ
  deriving DecidableEq, Repr

/-- A callback that has accepted its profile. -/
inductive SignIn where
  | oidc (state : ℕ)
  | saml (organizationId : ℕ) (response : SignedResponse) (at_ : ℤ)
  deriving DecidableEq, Repr

/-- The tables, the clock in milliseconds, and the sign-ins that were completed. -/
structure SsoDb where
  now : ℤ
  states : List AuthState
  nextState : ℕ
  seen : List SeenAssertion
  signIns : List SignIn

/-- `NOW()`, in whole seconds. -/
def SsoDb.NOW (db : SsoDb) : ℤ := db.now / 1000

/-- What a `DATETIME` column stores for a time, in seconds: the nearest second, or nothing behind
the year 9999. -/
def datetime (ms : ℤ) : ℤ := if ms < 253402300799500 then (ms + 500) / 1000 else 0

def SAML_SEEN_DEFAULT_MS : ℤ := 24 * 60 * 60 * 1000

/-- When the record of a post may be purged. -/
def expires (outside : Outside) (now : ℤ) (xml : String) : ℤ :=
  let times := (notOnOrAfters xml.toList.length xml.toList).filterMap outside.dateParse
  match times with
  | [] => now + SAML_SEEN_DEFAULT_MS
  | t :: times => times.foldl max t

/-- `DELETE … WHERE … LIMIT n`. -/
def deleteLimit {α : Type} (cond : α → Bool) : ℕ → List α → List α
  | 0, rows => rows
  | _, [] => []
  | n + 1, a :: rows =>
    if cond a then deleteLimit cond n rows else a :: deleteLimit cond (n + 1) rows

/-! ### Calls -/

inductive SsoCall where
  | generateOidcLoginUrl (orgId : ℕ)
  | processOidcCallback (orgId state : ℕ)
  | processSamlAssertion (orgId : ℕ) (xml : String)

inductive SsoTask where
  | purgeStates (orgId : ℕ)
  | insertState (orgId : ℕ)
  | selectState (orgId state : ℕ)
  | deleteState (row : AuthState)
  | exchangeCode (row : AuthState)
  | validate (orgId : ℕ) (xml : String)
  | purgeSeen (orgId : ℕ) (xml id : String) (response : SignedResponse)
  | insertSeen (orgId : ℕ) (xml id : String) (response : SignedResponse)
  | finished

def SsoCall.start : SsoCall → SsoTask
  | generateOidcLoginUrl orgId => .purgeStates orgId
  | processOidcCallback orgId state => .selectState orgId state
  | processSamlAssertion orgId xml => .validate orgId xml

/-- What time passes before a statement, and whether the provider accepts the code. -/
structure Answer where
  elapsed : ℕ
  accepted : Bool

/-- The clock at a statement. -/
def SsoDb.tick (db : SsoDb) (answer : Answer) : SsoDb := { db with now := db.now + answer.elapsed }

/-- A new login state, valid for ten minutes. -/
def SsoDb.addState (db : SsoDb) (orgId : ℕ) : SsoDb :=
  { db with
    states := ⟨db.nextState, orgId, db.NOW + 600⟩ :: db.states
    nextState := db.nextState + 1 }

/-- A post that is recorded signs someone in. -/
def SsoDb.recordOnce (db : SsoDb) (outside : Outside) (orgId : ℕ) (xml id : String)
    (response : SignedResponse) : SsoDb :=
  { db with
    seen := ⟨orgId, id, datetime (expires outside db.now xml)⟩ :: db.seen
    signIns := .saml orgId response db.now :: db.signIns }

/-- A statement, at its time. -/
def SsoTask.run (outside : Outside) (db : SsoDb) (task : SsoTask) (accepted : Bool) :
    SsoDb × SsoTask :=
  match task with
  | purgeStates orgId =>
    ({ db with states := deleteLimit (fun s => s.expires_at ≤ db.NOW) 500 db.states },
      .insertState orgId)
  | insertState orgId => (db.addState orgId, .finished)
  | selectState orgId state =>
    match db.states.find? fun s => s.state = state ∧ db.NOW < s.expires_at with
    | none => (db, .finished)
    | some row => if row.organization_id ≠ orgId then (db, .finished) else (db, .deleteState row)
  | deleteState row =>
    ({ db with states := db.states.filter fun s => s.state ≠ row.state }, .exchangeCode row)
  | exchangeCode row =>
    if accepted then ({ db with signIns := .oidc row.state :: db.signIns }, .finished)
    else (db, .finished)
  | validate orgId xml =>
    match outside.validatePostResponse orgId db.now xml with
    | none => (db, .finished)
    | some response =>
      match responseId xml.toList with
      | none => (db, .finished)
      | some id => (db, .purgeSeen orgId xml id response)
  | purgeSeen orgId xml id response =>
    ({ db with seen := deleteLimit (fun s => s.expires_at < db.NOW) 500 db.seen },
      .insertSeen orgId xml id response)
  | insertSeen orgId xml id response =>
    if db.seen.any fun s => s.organization_id = orgId ∧ s.assertion_id = id then (db, .finished)
    else (db.recordOnce outside orgId xml id response, .finished)
  | finished => (db, .finished)

/-- The next statement of a task. -/
def SsoTask.next (outside : Outside) (db : SsoDb) (task : SsoTask) (answer : Answer) :
    SsoDb × SsoTask := task.run outside (db.tick answer) answer.accepted

end Vigabss.Sso

/-!
## A state and a signed response are good for one sign-in

A state is used up by the callback whose `DELETE` finds it, a signed response by the first record of
its ID.  The callback does not look what its `DELETE` found, and the ID is the first in the text,
which need not be the signed element's.
-/

namespace Vigabss.Sso

open Vigabss.Lib

/-! ### The property -/

/-- A sign-in of an organization by a signed response, before a time. -/
def SignIn.isUse (orgId : ℕ) (response : SignedResponse) (n : ℤ) : SignIn → Bool
  | oidc _ => false
  | saml orgId' response' at_ => orgId' = orgId ∧ response' = response ∧ at_ < n

/-- Each state and each signed response has signed in at most once, the response until its
`NotOnOrAfter`. -/
structure SsoDb.SingleUse (db : SsoDb) : Prop where
  oidc : ∀ state, db.signIns.count (.oidc state) ≤ 1
  saml : ∀ orgId response, ∀ n ∈ response.notOnOrAfter,
    db.signIns.countP (SignIn.isUse orgId response n) ≤ 1

/-- The callback's `DELETE` finds the state, and a post is recorded with the ID of its signed
element, to be purged no sooner than it expires. -/
def Faithful (outside : Outside) (db : SsoDb) (task : SsoTask) (answer : Answer) : Prop :=
  match task with
  | .deleteState row => ∃ s ∈ db.states, s.state = row.state
  | .insertSeen _ xml id response => id = response.id ∧ ∀ n ∈ response.notOnOrAfter,
      n / 1000 ≤ datetime (expires outside (db.tick answer).now xml)
  | _ => True

/-! ### The invariant -/

/-- What the tables say of the sign-ins. -/
structure SsoDb.Sound (db : SsoDb) : Prop where
  fresh : ∀ s ∈ db.states, s.state < db.nextState
  used : ∀ state, .oidc state ∈ db.signIns →
    state < db.nextState ∧ ∀ s ∈ db.states, s.state ≠ state
  single : db.SingleUse
  seen : ∀ orgId response at_, .saml orgId response at_ ∈ db.signIns →
    ∀ n ∈ response.notOnOrAfter, db.now < n →
      ∃ row ∈ db.seen, row.organization_id = orgId ∧ row.assertion_id = response.id ∧
        n / 1000 ≤ row.expires_at

/-- What a task knows: the state of a code that is exchanged is gone, and not used. -/
def SsoTask.Knows (db : SsoDb) : SsoTask → Prop
  | deleteState row => row.state < db.nextState
  | exchangeCode row => row.state < db.nextState ∧ (∀ s ∈ db.states, s.state ≠ row.state) ∧
      .oidc row.state ∉ db.signIns
  | _ => True

/-- The state whose code a task exchanges. -/
def SsoTask.exchanges : SsoTask → Option ℕ
  | exchangeCode row => some row.state
  | _ => none

/-- What a statement leaves to its own call and to the others. -/
structure Keeps (db : SsoDb) (task : SsoTask) (db' : SsoDb) (task' : SsoTask) : Prop where
  sound : db'.Sound
  knows : task'.Knows db'
  next : db.nextState ≤ db'.nextState
  states : ∀ s ∈ db'.states, s ∈ db.states ∨ s.state = db.nextState
  signIns : ∀ state, .oidc state ∈ db'.signIns →
    .oidc state ∈ db.signIns ∨ task.exchanges = some state
  claims : ∀ state, task'.exchanges = some state → ∃ s ∈ db.states, s.state = state

section Statements

variable {db : SsoDb} {task task' : SsoTask}

theorem mem_deleteLimit {α : Type} {cond : α → Bool} {n : ℕ} {rows : List α} {a : α}
    (h : a ∈ deleteLimit cond n rows) : a ∈ rows := by
  induction rows generalizing n with
  | nil => cases n <;> exact h
  | cons b rows ih =>
    cases n with
    | zero => exact h
    | succ n =>
      rw [deleteLimit] at h
      split_ifs at h
      · exact List.mem_cons_of_mem _ (ih h)
      · rcases List.mem_cons.1 h with rfl | h
        · exact List.mem_cons_self
        · exact List.mem_cons_of_mem _ (ih h)

theorem mem_deleteLimit_of_not {α : Type} {cond : α → Bool} {n : ℕ} {rows : List α} {a : α}
    (ha : a ∈ rows) (h : cond a = false) : a ∈ deleteLimit cond n rows := by
  induction rows generalizing n with
  | nil => cases ha
  | cons b rows ih =>
    cases n with
    | zero => exact ha
    | succ n =>
      rw [deleteLimit]
      rcases List.mem_cons.1 ha with rfl | ha
      · rw [if_neg (by simp [h])]
        exact List.mem_cons_self
      · split_ifs
        · exact ih ha
        · exact List.mem_cons_of_mem _ (ih ha)

/-- A statement after which there are fewer states, and the same sign-ins that are still seen. -/
theorem Keeps.shrink {db' : SsoDb} (h : db.Sound) (hnext : db'.nextState = db.nextState)
    (hstates : ∀ s ∈ db'.states, s ∈ db.states) (hsign : db'.signIns = db.signIns)
    (hnow : db'.now = db.now)
    (hseen : ∀ row ∈ db.seen, db.NOW ≤ row.expires_at → row ∈ db'.seen)
    (hknows : task'.Knows db')
    (hclaims : ∀ state, task'.exchanges = some state → ∃ s ∈ db.states, s.state = state) :
    Keeps db task db' task' where
  sound :=
    { fresh := fun s hs => hnext ▸ h.fresh s (hstates s hs)
      used := fun state hstate => by
        rw [hsign] at hstate
        exact ⟨hnext ▸ (h.used state hstate).1,
          fun s hs => (h.used state hstate).2 s (hstates s hs)⟩
      single := ⟨fun state => hsign ▸ h.single.oidc state,
        fun orgId response n hn => hsign ▸ h.single.saml orgId response n hn⟩
      seen := fun orgId response at_ hmem n hn hlt => by
        rw [hsign] at hmem
        rw [hnow] at hlt
        obtain ⟨row, hrow, horg, hid, hexp⟩ := h.seen orgId response at_ hmem n hn hlt
        refine ⟨row, hseen row hrow ?_, horg, hid, hexp⟩
        rw [SsoDb.NOW]
        exact (Int.ediv_le_ediv (by omega) hlt.le).trans hexp }
  knows := hknows
  next := hnext.ge
  states := fun s hs => .inl (hstates s hs)
  signIns := fun state hstate => .inl (hsign ▸ hstate)
  claims := hclaims

theorem Keeps.finish (h : db.Sound) : Keeps db task db .finished :=
  .shrink h rfl (fun _ hs => hs) rfl rfl (fun _ hrow _ => hrow) trivial nofun

theorem Keeps.addState (h : db.Sound) (orgId : ℕ) :
    Keeps db task (db.addState orgId) .finished where
  sound :=
    { fresh := fun s hs => by
        rcases List.mem_cons.1 hs with rfl | hs
        · exact Nat.lt_succ_self _
        · exact (h.fresh s hs).trans (Nat.lt_succ_self _)
      used := fun state hstate => by
        obtain ⟨hlt, hnone⟩ := h.used state hstate
        refine ⟨hlt.trans (Nat.lt_succ_self _), fun s hs => ?_⟩
        rcases List.mem_cons.1 hs with rfl | hs
        · exact hlt.ne'
        · exact hnone s hs
      single := ⟨h.single.oidc, h.single.saml⟩
      seen := h.seen }
  knows := trivial
  next := Nat.le_succ _
  states := fun s hs => by
    rcases List.mem_cons.1 hs with rfl | hs
    · exact .inr rfl
    · exact .inl hs
  signIns := fun _ hstate => .inl hstate
  claims := nofun

theorem Keeps.exchange (h : db.Sound) {row : AuthState}
    (hknows : (SsoTask.exchangeCode row).Knows db) :
    Keeps db (.exchangeCode row) { db with signIns := .oidc row.state :: db.signIns }
      .finished where
  sound := by
    obtain ⟨hlt, hgone, hunused⟩ := hknows
    refine ⟨h.fresh, fun state hstate => ?_, ⟨fun state => ?_, fun orgId response n hn => ?_⟩,
      fun orgId response at_ hmem => ?_⟩
    · rcases List.mem_cons.1 hstate with hstate | hstate
      · cases hstate
        exact ⟨hlt, hgone⟩
      · exact h.used state hstate
    · rw [List.count_cons]
      split_ifs with hsame
      · cases beq_iff_eq.1 hsame
        rw [List.count_eq_zero_of_not_mem hunused]
      · exact h.single.oidc state
    · rw [List.countP_cons_of_neg (by simp [SignIn.isUse])]
      exact h.single.saml orgId response n hn
    · rcases List.mem_cons.1 hmem with hmem | hmem
      · cases hmem
      · exact h.seen orgId response at_ hmem
  knows := trivial
  next := le_rfl
  states := fun _ hs => .inl hs
  signIns := fun state hstate => by
    rcases List.mem_cons.1 hstate with hstate | hstate
    · cases hstate
      exact .inr rfl
    · exact .inl hstate
  claims := nofun

/-- A post whose ID was not seen, recorded under the ID of its signed element. -/
theorem Keeps.record {outside : Outside} {orgId : ℕ} {xml : String} {response : SignedResponse}
    (h : db.Sound) (hnew : ∀ s ∈ db.seen, ¬ (s.organization_id = orgId ∧
      s.assertion_id = response.id))
    (hlasts : ∀ n ∈ response.notOnOrAfter, n / 1000 ≤ datetime (expires outside db.now xml)) :
    Keeps db task (db.recordOnce outside orgId xml response.id response) .finished where
  sound := by
    refine ⟨h.fresh, fun state hstate => ?_, ⟨fun state => ?_, fun orgId' response' n hn => ?_⟩,
      fun orgId' response' at_ hmem n hn hlt => ?_⟩
    · rcases List.mem_cons.1 hstate with hstate | hstate
      · cases hstate
      · exact h.used state hstate
    · show List.count (.oidc state) (.saml orgId response db.now :: db.signIns) ≤ 1
      rw [List.count_cons_of_ne (by simp)]
      exact h.single.oidc state
    · show List.countP _ (.saml orgId response db.now :: db.signIns) ≤ 1
      rw [List.countP_cons]
      split_ifs with huse
      · obtain ⟨rfl, rfl, hlt⟩ := of_decide_eq_true huse
        rw [List.countP_eq_zero.2 fun use hmem hold => ?_]
        cases use with
        | oidc state => cases hold
        | saml orgId'' response'' at_ =>
          obtain ⟨rfl, rfl, -⟩ := of_decide_eq_true hold
          obtain ⟨row, hrow, horg, hid, -⟩ := h.seen _ _ _ hmem n hn hlt
          exact hnew row hrow ⟨horg, hid⟩
      · exact h.single.saml orgId' response' n hn
    · rcases List.mem_cons.1 hmem with hmem | hmem
      · cases hmem
        exact ⟨_, List.mem_cons_self, rfl, rfl, hlasts n hn⟩
      · obtain ⟨row, hrow, hrest⟩ := h.seen orgId' response' at_ hmem n hn hlt
        exact ⟨row, List.mem_cons_of_mem _ hrow, hrest⟩
  knows := trivial
  next := le_rfl
  states := fun _ hs => .inl hs
  signIns := fun state hstate => by
    rcases List.mem_cons.1 hstate with hstate | hstate
    · cases hstate
    · exact .inl hstate
  claims := nofun

theorem SsoDb.Sound.tick (h : db.Sound) (answer : Answer) : (db.tick answer).Sound where
  fresh := h.fresh
  used := h.used
  single := ⟨h.single.oidc, h.single.saml⟩
  seen orgId response at_ hmem n hn hlt := by
    refine h.seen orgId response at_ hmem n hn (lt_of_le_of_lt ?_ hlt)
    exact Int.le_add_of_nonneg_right (Int.natCast_nonneg _)

theorem knows_tick {answer : Answer} : task.Knows (db.tick answer) ↔ task.Knows db := by
  cases task <;> exact Iff.rfl

/-- **Every statement of every call** keeps what is used apart from what is still good. -/
theorem run_keeps {outside : Outside} {answer : Answer} (h : db.Sound) (hknows : task.Knows db)
    (hgood : Faithful outside db task answer) :
    Keeps (db.tick answer) task (task.next outside db answer).1
      (task.next outside db answer).2 := by
  have h' := h.tick answer
  cases task with
  | purgeStates orgId =>
    exact .shrink h' rfl (fun _ hs => mem_deleteLimit hs) rfl rfl (fun _ hrow _ => hrow) trivial
      nofun
  | insertState orgId => exact .addState h' orgId
  | selectState orgId state =>
    simp only [SsoTask.next, SsoTask.run]
    split
    · exact .finish h'
    · rename_i row hfind
      split_ifs
      · exact .finish h'
      · exact .shrink h' rfl (fun _ hs => hs) rfl rfl (fun _ hrow _ => hrow)
          (h.fresh row (List.mem_of_find?_eq_some hfind)) nofun
  | deleteState row =>
    obtain ⟨s, hs, hstate⟩ := hgood
    refine .shrink h' rfl (fun _ hs => List.mem_of_mem_filter hs) rfl rfl (fun _ hrow _ => hrow)
      ⟨hknows, fun s hs => by simpa using (List.mem_filter.1 hs).2, fun hused => ?_⟩ ?_
    · exact (h.used row.state hused).2 s hs hstate
    · rintro state hstate'
      cases hstate'
      exact ⟨s, hs, hstate⟩
  | exchangeCode row =>
    simp only [SsoTask.next, SsoTask.run]
    split_ifs
    · exact .exchange h' hknows
    · exact .finish h'
  | validate orgId xml =>
    simp only [SsoTask.next, SsoTask.run]
    split
    · exact .finish h'
    · split
      · exact .finish h'
      · exact .shrink h' rfl (fun _ hs => hs) rfl rfl (fun _ hrow _ => hrow) trivial nofun
  | purgeSeen orgId xml id response =>
    refine .shrink h' rfl (fun _ hs => hs) rfl rfl (fun row hrow hkept => ?_) trivial nofun
    exact mem_deleteLimit_of_not hrow (decide_eq_false (not_lt.2 hkept))
  | insertSeen orgId xml id response =>
    obtain ⟨rfl, hlasts⟩ := hgood
    simp only [SsoTask.next, SsoTask.run]
    split_ifs with hseen
    · exact .finish h'
    · refine .record h' (fun s hs hsame => hseen ?_) hlasts
      exact List.any_eq_true.2 ⟨s, hs, decide_eq_true hsame⟩
  | finished => exact .finish h'

theorem Keeps.others {db' : SsoDb} (h : Keeps db task db' task') {u : SsoTask} (hu : u.Knows db)
    (hapart : ∀ state, task.exchanges = some state → u.exchanges ≠ some state) :
    u.Knows db' ∧ ∀ state, task'.exchanges = some state → u.exchanges ≠ some state := by
  constructor
  · cases u with
    | deleteState row => exact lt_of_lt_of_le hu h.next
    | exchangeCode row =>
      obtain ⟨hlt, hgone, hunused⟩ := hu
      refine ⟨hlt.trans_le h.next, fun s hs => ?_, fun hused => ?_⟩
      · rcases h.states s hs with hs | hs
        · exact hgone s hs
        · exact hs ▸ hlt.ne'
      · rcases h.signIns row.state hused with hused | hmine
        · exact hunused hused
        · exact hapart row.state hmine rfl
    | _ => trivial
  · intro state hstate hother
    obtain ⟨s, hs, rfl⟩ := h.claims state hstate
    cases u with
    | exchangeCode row =>
      exact hu.2.1 s hs (Option.some.inj hother).symm
    | _ => cases hother

end Statements

/-! ### Runs -/

abbrev SsoTurn := Turn SsoCall Answer

def ssoStep (outside : Outside) : Threads SsoDb SsoTask → SsoTurn → Threads SsoDb SsoTask :=
  Threads.step SsoCall.start (SsoTask.next outside)

/-- No logins yet. -/
def SsoDb.empty : SsoDb := ⟨0, [], 0, [], []⟩

theorem sound_empty : SsoDb.empty.Sound where
  fresh _ hs := absurd hs List.not_mem_nil
  used _ hs := absurd hs List.not_mem_nil
  single := ⟨fun _ => Nat.zero_le 1, fun _ _ _ _ => Nat.zero_le 1⟩
  seen _ _ _ hs := absurd hs List.not_mem_nil

/-- **A state and a signed response are good for one sign-in**, in every run in which the callback's
`DELETE` finds the state, and posts are recorded by the ID and the time of their signed element. -/
theorem singleUse_always (outside : Outside) {is : List SsoTurn}
    (hgood : StepsMeet (ssoStep outside) (Threads.Meets (Faithful outside))
      (Threads.idle .empty) is) :
    Always (ssoStep outside) (fun s => s.shared.SingleUse) (Threads.idle .empty) is := by
  refine (Threads.always_holds (G := SsoDb.Sound) (L := fun db task => task.Knows db)
    (X := fun t u => ∀ state, t.exchanges = some state → u.exchanges ≠ some state) ?_ ?_ ?_ ?_
    (.idle sound_empty) hgood).mono fun s hs => hs.single
  · exact fun t u htu state hu ht => htu state ht hu
  · intro s c
    cases c <;> trivial
  · intro c u
    cases c <;> nofun
  · intro s t e hG hL hmeets
    have hkeeps := run_keeps hG hL hmeets
    exact ⟨hkeeps.sound, hkeeps.knows, fun u hu hX => hkeeps.others (knows_tick.2 hu) hX⟩

/-! ### A comment before the signed element -/

/-- A signed element, as it stands in a post. -/
def signedText : String :=
  "<samlp:Response ID=\"_1\"><saml:Conditions NotOnOrAfter=\"2026-01-01T00:00:00Z\"/>" ++
    "</samlp:Response>"

def signedResponse : SignedResponse := ⟨"_1", some 1767225600000, "ana"⟩

/-- A provider that has signed one element, and accepts a post that ends with it. -/
def oneResponse : Outside where
  validatePostResponse _ _ xml :=
    if signedText.toList.isSuffixOf xml.toList then some signedResponse else none
  dateParse text := if text = "2026-01-01T00:00:00Z" then some 1767225600000 else none

def anAnswer : Answer := ⟨1, true⟩

/-- The post once, and a login. -/
def postedOnce : List SsoTurn :=
  [.call (.processSamlAssertion 1 signedText), .turn 0 anAnswer, .turn 0 anAnswer,
    .turn 0 anAnswer, .call (.generateOidcLoginUrl 1), .turn 1 anAnswer, .turn 1 anAnswer,
    .call (.processOidcCallback 1 0), .turn 2 anAnswer, .turn 2 anAnswer, .turn 2 anAnswer]

instance (outside : Outside) (db : SsoDb) (task : SsoTask) (answer : Answer) :
    Decidable (Faithful outside db task answer) :=
  match task with
  | .purgeStates _ | .insertState _ | .selectState .. | .exchangeCode _ | .validate ..
  | .purgeSeen .. | .finished => .isTrue trivial
  | .deleteState row => inferInstanceAs (Decidable (∃ s ∈ db.states, s.state = row.state))
  | .insertSeen _ xml id response => inferInstanceAs (Decidable (id = response.id ∧
      ∀ n ∈ response.notOnOrAfter, n / 1000 ≤ datetime (expires outside (db.tick answer).now xml)))

theorem singleUse_always_postedOnce :
    Always (ssoStep oneResponse) (fun s => s.shared.SingleUse) (Threads.idle .empty)
      postedOnce := by
  refine singleUse_always oneResponse ?_
  show StepsMeet (Threads.step SsoCall.start (SsoTask.next oneResponse)) _ _ _
  decide

/-- The same element behind a comment. -/
def commentedText : String := "<!-- <Response ID=\"_2\"> -->" ++ signedText

def postedTwice : List SsoTurn :=
  [.call (.processSamlAssertion 1 signedText), .turn 0 anAnswer, .turn 0 anAnswer,
    .turn 0 anAnswer, .call (.processSamlAssertion 1 commentedText), .turn 1 anAnswer,
    .turn 1 anAnswer, .turn 1 anAnswer]

/-- **A signed response signs in twice**: the ID is read from a comment before the element. -/
theorem not_singleUse_always : ¬ ∀ (outside : Outside) (is : List SsoTurn),
    Always (ssoStep outside) (fun s => s.shared.SingleUse) (Threads.idle .empty) is := by
  intro h
  have hlast := (h oneResponse postedTwice).last.saml 1 signedResponse 1767225600000 rfl
  revert hlast
  decide

end Vigabss.Sso
