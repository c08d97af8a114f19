import Vigabss.Lib.Money
import Vigabss.Lib.Threads

/-!
# Vigabss.Support.Conversations — the escalation of a support conversation

`sendMessage` and `escalate` of `supportConversationService` on one conversation of its
organization, one SQL statement at a time.  The change of its status decides who escalates it; the
ticket comes later, and a call that finds an escalated conversation without a ticket makes one too.
-/

namespace Vigabss.Support

open Vigabss.Lib

/-! ### What a message asks for -/

/-- A character of `\w`. -/
def isWord (c : Char) : Bool := c.isAlphanum || c == '_'

/-- A character under the flag `i`, as far as the letters of the expressions go. -/
def foldCase (c : Char) : Char := if c = 'É' then 'é' else c.toLower

/-- Whether one of the words begins here and ends at `\b`; `previous` is the character before. -/
def wordHere (words : List String) (previous : Option Char) (text : List Char) : Bool :=
  !previous.any isWord && words.any fun word =>
    (text.take word.length).map foldCase == word.toList && !(text[word.length]?).any isWord

/-- `/\b(..|..)\b/i.test(text)`. -/
def testWords (words : List String) : Option Char → List Char → Bool
  | previous, [] => wordHere words previous []
  | previous, c :: text => wordHere words previous (c :: text) || testWords words (some c) text

def HUMAN_REQUEST_RE : List String :=
  ["agent", "humano", "human", "hablar con", "speak to", "talk to", "representative",
    "representante"]

def NEGATIVE_SENTIMENT_RE : List String :=
  ["molesto", "enojado", "pésimo", "horrible", "furious", "angry", "frustrated", "terrible",
    "disgusting", "pesimo"]

def BILLING_DISPUTE_RE : List String :=
  ["dispute", "disputa", "refund", "reembolso", "cobro incorrecto", "cargo incorrecto", "fraud",
    "fraude"]

def LOW_CONFIDENCE_THRESHOLD : ℚ := 6 / 10

def MAX_LOW_CONFIDENCE_MESSAGES : ℕ := 2

/-- The reason that the text itself gives. -/
def textReason (sanitized : String) : Option String :=
  if testWords HUMAN_REQUEST_RE none sanitized.toList then some "human_requested"
  else if testWords NEGATIVE_SENTIMENT_RE none sanitized.toList then some "negative_sentiment"
  else if testWords BILLING_DISPUTE_RE none sanitized.toList then some "billing_dispute"
  else none

/-! ### The conversation -/

inductive ConversationStatus where
  | opened | escalated | closed
  deriving DecidableEq, Repr

inductive Role where
  | customer | assistant | system
  deriving DecidableEq, Repr

/-- A row of `support_messages`; the confidence is in thousandths, as its column keeps it. -/
structure Message where
  role : Role
  content : String
  confidence : Option ℤ
  deriving DecidableEq, Repr

/-- A row of `tickets` that an escalation inserts. -/
structure Ticket where
  subject : String
  description : String
  deriving DecidableEq, Repr

/-- The conversation with its messages and tickets; the id of a ticket is its place in the list,
counted from one. -/
structure SupportDb where
  status : ConversationStatus
  intent : Option String
  escalation_reason : Option String
  ticket_id : Option ℕ
  messages : List Message
  tickets : List Ticket
  deriving DecidableEq, Repr

def handoffText : String :=
  "Tu conversación ha sido escalada a un agente humano. Por favor espera."

def handoff : Message := ⟨.system, handoffText, none⟩

/-- How often the customer was told that an agent takes over. -/
def SupportDb.handoffs (db : SupportDb) : ℕ := db.messages.count handoff

def SupportDb.insertMessage (db : SupportDb) (message : Message) : SupportDb :=
  { db with messages := db.messages ++ [message] }

/-- The claim of `escalate`. -/
def SupportDb.escalate (db : SupportDb) (reason : String) : SupportDb :=
  { db with status := .escalated, escalation_reason := some reason }

/-- `INSERT INTO tickets .. SELECT .. FROM support_conversations`. -/
def SupportDb.insertTicket (db : SupportDb) (reason : String) : SupportDb :=
  { db with
    tickets := db.tickets ++ [⟨"AI Support Escalation: " ++ db.intent.getD "general",
      "Escalated from AI support conversation. Reason: " ++ reason⟩] }

/-- `UPDATE support_conversations SET ticket_id = ?`. -/
def SupportDb.linkTicket (db : SupportDb) (ticketId : ℕ) : SupportDb :=
  { db with ticket_id := some ticketId }

/-- The count of the customer's messages of low confidence. -/
def SupportDb.lowConfidence (db : SupportDb) : ℕ :=
  db.messages.countP fun m =>
    m.role == .customer &&
      m.confidence.any fun c => decide ((c : ℚ) / 1000 < LOW_CONFIDENCE_THRESHOLD)

/-! ### Calls -/

/-- The calls; the text of a message is as `sanitize` leaves it. -/
inductive SupportCall where
  | sendMessage (sanitized : String)
  | escalate (reason : Option String)

/-- What a statement meets: it goes through or fails, the message is classified, or the engine
answers it. -/
inductive Answer where
  | done
  | fails
  | classified (confidence : ℚ)
  | reply (text : String) (escalate : Bool) (escalationReason : Option String)
  deriving DecidableEq, Repr

/-- A call and the statement it is at; `winner` is the call whose claim changed the status, and
`clean` an escalation that has met no failing insert. -/
inductive SupportTask where
  | find (sanitized : String)
  | insertCustomer (sanitized : String) (status : ConversationStatus)
  | countLow (status : ConversationStatus)
  | insertAssistant
  | claim (reason : Option String)
  | readTicket (reason : Option String)
  | createTicket (winner : Bool) (reason : Option String)
  | linkTicket (winner : Bool) (ticketId : ℕ)
  | insertHandoff (clean : Bool)
  | returned (clean : Bool)
  deriving DecidableEq, Repr

def SupportCall.start : SupportCall → SupportTask
  | sendMessage sanitized => .find sanitized
  | escalate reason => .claim reason

/-- A conversation that is escalated already is not answered. -/
def respond (status : ConversationStatus) : SupportTask :=
  if status = .escalated then .claim (some "already_escalated") else .insertAssistant

/-- `_createEscalationTicket` is over: the winner goes on to the handoff message. -/
def SupportTask.ticketDone (winner clean : Bool) : SupportTask :=
  if winner then .insertHandoff clean else .returned clean

/-- The statement of a task.  A message insert that fails ends its call; a failing ticket insert is
caught, and so is a failing count. -/
def SupportTask.next (db : SupportDb) (task : SupportTask) (answer : Answer) :
    SupportDb × SupportTask :=
  match task with
  | find sanitized => (db, .insertCustomer sanitized db.status)
  | insertCustomer sanitized status =>
    match answer with
    | .classified confidence =>
      (db.insertMessage ⟨.customer, sanitized, some (roundAway (confidence * 1000))⟩,
        match textReason sanitized with
        | some reason => .claim (some reason)
        | none =>
          if confidence < LOW_CONFIDENCE_THRESHOLD then .countLow status else respond status)
    | _ => (db, .returned false)
  | countLow status =>
    if answer ≠ .fails ∧ MAX_LOW_CONFIDENCE_MESSAGES ≤ db.lowConfidence then
      (db, .claim (some "low_confidence_repeated"))
    else (db, respond status)
  | insertAssistant =>
    match answer with
    | .reply text escalate reason =>
      (db.insertMessage ⟨.assistant, text, none⟩,
        if escalate then .claim (some (reason.getD "diagnostic_escalation"))
        else .returned false)
    | _ => (db, .returned false)
  | claim reason =>
    if db.status ≠ .escalated then
      (db.escalate (reason.getD "manual"), .createTicket true reason)
    else (db, .readTicket reason)
  | readTicket reason =>
    match db.ticket_id with
    | none => (db, .createTicket false reason)
    | some _ => (db, .returned true)
  | createTicket winner reason =>
    if answer = .fails then (db, .ticketDone winner false)
    else (db.insertTicket (reason.getD "manual"), .linkTicket winner (db.tickets.length + 1))
  | linkTicket winner ticketId => (db.linkTicket ticketId, .ticketDone winner true)
  | insertHandoff clean =>
    if answer = .fails then (db, .returned clean)
    else (db.insertMessage handoff, .returned clean)
  | returned clean => (db, .returned clean)

/-! ### The property -/

/-- The ticket of the conversation is there. -/
def SupportDb.Linked (db : SupportDb) : Prop :=
  ∃ id ∈ db.ticket_id, 1 ≤ id ∧ id ≤ db.tickets.length

/-- `ticket_id` is a foreign key. -/
def SupportDb.Refers (db : SupportDb) : Prop :=
  ∀ id ∈ db.ticket_id, 1 ≤ id ∧ id ≤ db.tickets.length

def SupportTask.isReturned : SupportTask → Bool
  | returned _ => true
  | _ => false

/-- Since the beginning at most one ticket and one handoff message have come to the conversation;
when all calls have returned, an escalation that met no failing insert leaves it linked. -/
structure EscalatedOnce (before : SupportDb) (s : Threads SupportDb SupportTask) : Prop where
  ticket : s.shared.tickets.length ≤ before.tickets.length + 1
  handoff : s.shared.handoffs ≤ before.handoffs + 1
  linked : (∀ t ∈ s.threads, t.isReturned = true) → .returned true ∈ s.threads → s.shared.Linked

/-- A ticket insert that goes through finds no ticket that another call has inserted. -/
def FindsNone (before db : SupportDb) (task : SupportTask) (answer : Answer) : Prop :=
  ∀ winner reason, task = .createTicket winner reason → answer ≠ .fails →
    db.tickets.length = before.tickets.length

/-! ### The invariant -/

/-- Until somebody escalates the conversation nothing has come to it. -/
structure SupportDb.Sound (before db : SupportDb) : Prop where
  refers : db.Refers
  fresh : db.status ≠ .escalated →
    db.handoffs = before.handoffs ∧ db.tickets.length = before.tickets.length
  tickets : before.tickets.length ≤ db.tickets.length
  handoff : db.handoffs ≤ before.handoffs + 1

/-- The call that changed the status and has not sent the handoff message. -/
def SupportTask.wins : SupportTask → Bool
  | createTicket winner _ | linkTicket winner _ => winner
  | insertHandoff _ => true
  | _ => false

/-- What a task knows of the conversation. -/
def SupportTask.Knows (db : SupportDb) (task : SupportTask) : Prop :=
  match task with
  | readTicket _ | createTicket _ _ => db.status = .escalated
  | linkTicket _ ticketId => 1 ≤ ticketId ∧ ticketId ≤ db.tickets.length
  | insertHandoff clean | returned clean => clean = true → db.Linked
  | _ => True

/-- What a task knows, and that the winner has the handoff message before it. -/
structure SupportTask.Sound (before db : SupportDb) (task : SupportTask) : Prop where
  knows : task.Knows db
  wins : task.wins = true → db.status = .escalated ∧ db.handoffs = before.handoffs

section Invariant

variable {before db db' : SupportDb} {task task' : SupportTask}

theorem SupportDb.Refers.linked (h : db.Refers) {id : ℕ} (hid : db.ticket_id = some id) :
    db.Linked := ⟨id, hid, h id hid⟩

theorem count_insertMessage {m : Message} (h : m ≠ handoff) :
    (db.insertMessage m).handoffs = db.handoffs := by
  rw [SupportDb.handoffs, SupportDb.insertMessage, List.count_append, List.count_singleton,
    if_neg (by simpa using h)]
  rfl

theorem count_handoff : (db.insertMessage handoff).handoffs = db.handoffs + 1 := by
  rw [SupportDb.handoffs, SupportDb.insertMessage, List.count_append, List.count_singleton_self]
  rfl

/-- How the conversation changes under another call's statement. -/
structure Grows (db db' : SupportDb) : Prop where
  tickets : db.tickets.length ≤ db'.tickets.length
  linked : db.Linked → db'.Linked
  status : db.status = .escalated → db'.status = .escalated

theorem Grows.refl (db : SupportDb) : Grows db db := ⟨le_rfl, id, id⟩

theorem SupportTask.Knows.grows (h : task.Knows db) (hgrows : Grows db db') : task.Knows db' := by
  cases task with
  | readTicket reason => exact hgrows.status h
  | createTicket winner reason => exact hgrows.status h
  | linkTicket winner ticketId => exact ⟨h.1, h.2.trans hgrows.tickets⟩
  | insertHandoff clean => exact fun hclean => hgrows.linked (h hclean)
  | returned clean => exact fun hclean => hgrows.linked (h hclean)
  | _ => trivial

/-- What a statement leaves to its own call and to the others. -/
structure Keeps (before db : SupportDb) (task : SupportTask) (db' : SupportDb)
    (task' : SupportTask) : Prop where
  sound : SupportDb.Sound before db'
  own : task'.Sound before db'
  grows : Grows db db'
  handoffs : db'.handoffs = db.handoffs ∨ task.wins = true
  wins : task'.wins = true → task.wins = true ∨ db.status ≠ .escalated

theorem Keeps.read (h : SupportDb.Sound before db) (hknows : task'.Knows db)
    (hwins : task'.wins = false) : Keeps before db task db task' where
  sound := h
  own := ⟨hknows, fun hw => by rw [hwins] at hw; exact absurd hw Bool.false_ne_true⟩
  grows := .refl db
  handoffs := .inl rfl
  wins hw := by rw [hwins] at hw; exact absurd hw Bool.false_ne_true

theorem Keeps.message (h : SupportDb.Sound before db) {m : Message} (hm : m ≠ handoff)
    (hknows : task'.Knows db) (hwins : task'.wins = false) :
    Keeps before db task (db.insertMessage m) task' where
  sound := by
    refine ⟨h.refers, ?_, h.tickets, ?_⟩
    · rw [count_insertMessage hm]
      exact h.fresh
    · rw [count_insertMessage hm]
      exact h.handoff
  own := by
    refine ⟨?_, fun hw => by rw [hwins] at hw; exact absurd hw Bool.false_ne_true⟩
    exact hknows.grows ⟨le_rfl, fun hl => hl, fun hs => hs⟩
  grows := ⟨le_rfl, fun hl => hl, fun hs => hs⟩
  handoffs := .inl (count_insertMessage hm)
  wins hw := by rw [hwins] at hw; exact absurd hw Bool.false_ne_true

theorem respond_knows (status : ConversationStatus) : (respond status).Knows db := by
  rw [respond]
  split_ifs <;> trivial

theorem respond_wins (status : ConversationStatus) : (respond status).wins = false := by
  rw [respond]
  split_ifs <;> rfl

theorem ticketDone_wins (winner clean : Bool) :
    (SupportTask.ticketDone winner clean).wins = winner := by
  cases winner <;> rfl

theorem ticketDone_knows {winner clean : Bool} (h : clean = true → db.Linked) :
    (SupportTask.ticketDone winner clean).Knows db := by
  cases winner <;> exact h

/-- **What each statement keeps.** -/
theorem keeps_next (h : SupportDb.Sound before db) (htask : task.Sound before db)
    (answer : Answer) :
    Keeps before db task (task.next db answer).1 (task.next db answer).2 := by
  cases task with
  | find sanitized => exact .read h trivial rfl
  | insertCustomer sanitized status =>
    cases answer with
    | classified confidence =>
      have hcustomer : (⟨.customer, sanitized, some (roundAway (confidence * 1000))⟩ : Message) ≠
          handoff := fun heq => by cases heq
      simp only [SupportTask.next]
      rcases textReason sanitized with _ | reason
      · dsimp only
        split_ifs
        · exact .message h hcustomer trivial rfl
        · exact .message h hcustomer (respond_knows status) (respond_wins status)
      · exact .message h hcustomer trivial rfl
    | _ => exact .read h (fun hclean => absurd hclean Bool.false_ne_true) rfl
  | countLow status =>
    simp only [SupportTask.next]
    split_ifs
    · exact .read h trivial rfl
    · exact .read h (respond_knows status) (respond_wins status)
  | insertAssistant =>
    cases answer with
    | reply text escalate reason =>
      have hassistant : (⟨.assistant, text, none⟩ : Message) ≠ handoff := fun heq => by cases heq
      simp only [SupportTask.next]
      split_ifs
      · exact .message h hassistant trivial rfl
      · exact .message h hassistant (fun hclean => absurd hclean Bool.false_ne_true) rfl
    | _ => exact .read h (fun hclean => absurd hclean Bool.false_ne_true) rfl
  | claim reason =>
    simp only [SupportTask.next]
    split_ifs with hstatus
    swap
    · exact .read h (not_not.1 hstatus) rfl
    · -- the winner finds the conversation as it was in the beginning
      obtain ⟨hhandoffs, htickets⟩ := h.fresh hstatus
      refine ⟨⟨h.refers, fun hs => absurd rfl hs, h.tickets, h.handoff⟩, ⟨rfl, fun _ =>
        ⟨rfl, hhandoffs⟩⟩, ⟨le_rfl, fun hl => hl, fun _ => rfl⟩, .inl rfl, fun _ => .inr hstatus⟩
  | readTicket reason =>
    simp only [SupportTask.next]
    rcases hticket : db.ticket_id with _ | id
    · exact .read h htask.knows rfl
    · exact .read h (fun _ => h.refers.linked hticket) rfl
  | createTicket winner reason =>
    simp only [SupportTask.next]
    split_ifs with hfails
    · refine ⟨h, ⟨ticketDone_knows fun hclean => absurd hclean Bool.false_ne_true, fun hw => ?_⟩,
        .refl db, .inl rfl, fun hw => ?_⟩
      · rw [ticketDone_wins] at hw
        exact htask.wins hw
      · rw [ticketDone_wins] at hw
        exact .inl hw
    · have hlength : (db.insertTicket (reason.getD "manual")).tickets.length =
          db.tickets.length + 1 := List.length_append
      have hle : db.tickets.length ≤ (db.insertTicket (reason.getD "manual")).tickets.length := by
        omega
      refine ⟨⟨?_, ?_, h.tickets.trans hle, h.handoff⟩, ⟨⟨?_, hlength.ge⟩, htask.wins⟩,
        ⟨hle, ?_, fun hs => hs⟩, .inl rfl, fun hw => .inl hw⟩
      · exact fun id hid => ⟨(h.refers id hid).1, (h.refers id hid).2.trans hle⟩
      · exact fun hs => absurd htask.knows hs
      · exact Nat.le_add_left 1 _
      · rintro ⟨id, hid, hone, hplace⟩
        exact ⟨id, hid, hone, hplace.trans hle⟩
  | linkTicket winner ticketId =>
    have hlinked : (db.linkTicket ticketId).Linked := ⟨ticketId, rfl, htask.knows⟩
    simp only [SupportTask.next]
    refine ⟨⟨?_, h.fresh, h.tickets, h.handoff⟩, ⟨ticketDone_knows fun _ => hlinked, fun hw => ?_⟩,
      ⟨le_rfl, fun _ => hlinked, fun hs => hs⟩, .inl rfl, fun hw => ?_⟩
    · rintro id hid
      cases hid
      exact htask.knows
    · rw [ticketDone_wins] at hw
      exact htask.wins hw
    · rw [ticketDone_wins] at hw
      exact .inl hw
  | insertHandoff clean =>
    simp only [SupportTask.next]
    split_ifs with hfails
    · exact .read h htask.knows rfl
    · obtain ⟨hstatus, hhandoffs⟩ := htask.wins rfl
      refine ⟨⟨h.refers, fun hs => absurd hstatus hs, h.tickets, ?_⟩, ⟨htask.knows, fun hw => ?_⟩,
        ⟨le_rfl, fun hl => hl, fun hs => hs⟩, .inr rfl, fun _ => .inl rfl⟩
      · rw [count_handoff, hhandoffs]
      · exact absurd hw Bool.false_ne_true
  | returned clean => exact .read h htask.knows rfl

end Invariant

/-! ### Runs -/

/-- **Every run** keeps the invariant, and at most one call has the handoff message before it. -/
theorem sound_always (before : SupportDb) (s : Threads SupportDb SupportTask)
    (is : List (Turn SupportCall Answer))
    (hs : s.Holds (SupportDb.Sound before) (fun db task => task.Sound before db)
      fun t u => ¬ (t.wins = true ∧ u.wins = true)) :
    Always (Threads.step SupportCall.start SupportTask.next)
      (fun s => s.Holds (SupportDb.Sound before) (fun db task => task.Sound before db)
        fun t u => ¬ (t.wins = true ∧ u.wins = true)) s is := by
  have hstart : ∀ c : SupportCall, c.start.wins = false := fun c => by cases c <;> rfl
  refine Threads.holds_always (fun t u h hut => h hut.symm) ?_ ?_ ?_ hs (stepsMeet_meets s is)
  · intro db c
    refine ⟨by cases c <;> trivial, fun hw => ?_⟩
    rw [hstart c] at hw
    exact absurd hw Bool.false_ne_true
  · intro c u hboth
    rw [hstart c] at hboth
    exact Bool.false_ne_true hboth.1
  · intro db task answer h htask _
    have hkeeps := keeps_next h htask answer
    refine ⟨hkeeps.sound, hkeeps.own, fun u hu hapart => ⟨⟨hu.knows.grows hkeeps.grows, ?_⟩, ?_⟩⟩
    · intro hw
      obtain ⟨hstatus, hhandoffs⟩ := hu.wins hw
      refine ⟨hkeeps.grows.status hstatus, ?_⟩
      rcases hkeeps.handoffs with hsame | htaskWins
      · exact hsame.trans hhandoffs
      · exact absurd ⟨htaskWins, hw⟩ hapart
    · rintro ⟨hnext, hw⟩
      rcases hkeeps.wins hnext with htaskWins | hstatus
      · exact hapart ⟨htaskWins, hw⟩
      · exact hstatus (hu.wins hw).1

theorem tickets_next {db : SupportDb} {task : SupportTask} (answer : Answer)
    (hne : ∀ winner reason, task ≠ .createTicket winner reason) :
    (task.next db answer).1.tickets = db.tickets := by
  cases task with
  | createTicket winner reason => exact absurd rfl (hne winner reason)
  | insertCustomer sanitized status => cases answer <;> rfl
  | insertAssistant => cases answer <;> rfl
  | readTicket reason =>
    simp only [SupportTask.next]
    split <;> rfl
  | countLow status | claim reason | insertHandoff clean =>
    simp only [SupportTask.next]
    split_ifs <;> rfl
  | _ => rfl

theorem tickets_createTicket (db : SupportDb) (winner : Bool) (reason : Option String)
    {answer : Answer} (h : answer ≠ .fails) :
    (SupportTask.next db (.createTicket winner reason) answer).1.tickets.length =
      db.tickets.length + 1 := by
  simp only [SupportTask.next]
  rw [if_neg h]
  exact List.length_append

theorem FindsNone.tickets {before db : SupportDb} {task : SupportTask} {answer : Answer}
    (h : FindsNone before db task answer) (hle : db.tickets.length ≤ before.tickets.length + 1) :
    (task.next db answer).1.tickets.length ≤ before.tickets.length + 1 := by
  by_cases hcreate : ∃ winner reason, task = .createTicket winner reason
  · obtain ⟨winner, reason, rfl⟩ := hcreate
    by_cases hfails : answer = .fails
    · simp only [SupportTask.next, if_pos hfails]
      exact hle
    · rw [tickets_createTicket db winner reason hfails, h winner reason rfl hfails]
  · rw [tickets_next answer fun winner reason heq => hcreate ⟨winner, reason, heq⟩]
    exact hle

theorem tickets_of_not_findsNone {before db : SupportDb} {task : SupportTask} {answer : Answer}
    (hsound : SupportDb.Sound before db) (h : ¬ FindsNone before db task answer) :
    ¬ (task.next db answer).1.tickets.length ≤ before.tickets.length + 1 := by
  intro hone
  refine h fun winner reason htask hfails => ?_
  rw [htask, tickets_createTicket db winner reason hfails] at hone
  have hle := hsound.tickets
  omega

theorem SupportDb.Sound.start {db : SupportDb} (h : db.Refers) : SupportDb.Sound db db :=
  ⟨h, fun _ => ⟨rfl, rfl⟩, le_rfl, Nat.le_succ _⟩

/-- A conversation that nobody has escalated. -/
def waiting : SupportDb := ⟨.opened, some "technical", none, none, [], []⟩

/-- Two escalations: the second finds the conversation escalated and without a ticket before the
first has inserted it. -/
def twoEscalations : List (Turn SupportCall Answer) :=
  [.call (.escalate (some "manual")), .call (.escalate (some "manual")), .turn 0 .done,
    .turn 1 .done, .turn 1 .done, .turn 0 .done, .turn 0 .done, .turn 0 .done, .turn 1 .done,
    .turn 1 .done]

theorem waiting_refers : waiting.Refers := fun id hid => by cases hid

end Vigabss.Support
