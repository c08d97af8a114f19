import Vigabss.Routeros.Client

/-!
# Vigabss.Routeros.Matching — replies and the commands they settle

The router answers the commands in the order they were sent; its sentences travel in order and
carry no tag.  `System` puts a client and the stream of sentences under way together, each
sentence with the number of the command it answers, which the client does not see.

`Matched` says that promises are settled by their own replies.  A sentence whose command is no
longer queued goes to whatever command is at the head of the queue, so `Matched` holds along the
runs in which such a sentence arrives while nothing is queued (`always_matched`).
-/

namespace Vigabss.Routeros

open Vigabss.Lib

/-- A reply of the router: its `!re` rows, at most one `!trap`, and the closing `!done`, each
given by the words behind its type. -/
structure Reply where
  rows : List Sentence
  trap : Option Sentence
  done : Sentence
  deriving DecidableEq, Repr

namespace Reply

def rowSentences (r : Reply) : List Sentence := r.rows.map (ascii "!re" :: ·)

def trapSentences (r : Reply) : List Sentence := r.trap.toList.map (ascii "!trap" :: ·)

def doneSentence (r : Reply) : Sentence := ascii "!done" :: r.done

/-- The sentences of the reply, in order. -/
def sentences (r : Reply) : List Sentence :=
  r.rowSentences ++ r.trapSentences ++ [r.doneSentence]

end Reply

/-- A client, whether its connection is up, the sentences under way to it, and the reply the
router gives to each command. -/
structure System where
  client : Client
  connected : Bool
  inFlight : List (ℕ × Sentence)
  replies : List (ℕ × Reply)

def System.init : System := ⟨Client.init, true, [], []⟩

/-- What can happen next: a command is sent, which the router answers with `reply`; a timer
fires; the next sentence arrives; the socket fails or closes. -/
inductive Event where
  | send (words : Sentence) (writeError : Option Word) (reply : Reply)
  | timeout (id : ℕ)
  | arrive
  | socketError (err : Word)
  | close

/-- One event.  The reply to a command that reaches the router is appended to the stream. -/
def System.step (s : System) : Event → System
  | .send words writeError reply =>
    { s with
      client := s.client.sendSentence words writeError
      replies := s.replies ++ [(s.client.nextId, reply)]
      inFlight :=
        if s.connected ∧ writeError = none then
          s.inFlight ++ reply.sentences.map (s.client.nextId, ·)
        else s.inFlight }
  | .timeout id => { s with client := s.client.commandTimeout id }
  | .arrive =>
    match s.inFlight with
    | [] => s
    | (_, x) :: rest => { s with client := s.client.onSentence x, inFlight := rest }
  | .socketError err =>
    { s with client := s.client.onSocketError err, connected := false, inFlight := [] }
  | .close => { s with client := s.client.onClose, connected := false, inFlight := [] }

/-- **Promises are settled by their own replies.**  A command that resolves does so with exactly
the rows of its own reply and the `!done` behind them, and that reply has no `!trap`; a command
whose reply has a `!trap` is rejected, or waits while the `!trap` is under way; and a waiting
command has collected rows of its own reply only. -/
structure Matched (s : System) : Prop where
  resolved : ∀ id ss, (id, Outcome.resolved ss) ∈ s.client.settled →
    ∃ r, (id, r) ∈ s.replies ∧ r.trap = none ∧ ss = r.rowSentences ++ [r.doneSentence]
  trapped : ∀ id r t, (id, r) ∈ s.replies → r.trap = some t →
    (∃ message unreachable, (id, Outcome.rejected message unreachable) ∈ s.client.settled) ∨
      ∃ p ∈ s.client.pending, p.id = id ∧
        (s.connected = true → (id, ascii "!trap" :: t) ∈ s.inFlight)
  own : ∀ p ∈ s.client.pending, ∃ r, (p.id, r) ∈ s.replies ∧ p.sentences <+: r.rowSentences

/-- The sentence that arrives next, if one does, answers a queued command, or no command is
queued. -/
def Aligned (s : System) : Event → Prop
  | .arrive => ∀ e ∈ s.inFlight.head?,
    (∃ p ∈ s.client.pending, p.id = e.1) ∨ s.client.pending = []
  | _ => True

instance (s : System) (e : Event) : Decidable (Aligned s e) := by
  cases e <;> unfold Aligned <;> infer_instance

/-! ### The invariant -/

/-- The sentences under way to command `id`. -/
def System.awaited (s : System) (id : ℕ) : List Sentence :=
  (s.inFlight.filter fun e => e.1 = id).map Prod.snd

/-- Queue and stream are in the order of sending, and what a queued command has collected
together with what is under way to it is its reply. -/
structure Inv (s : System) : Prop where
  repliesBelow : ∀ e ∈ s.replies, e.1 < s.client.nextId
  inFlightBelow : ∀ e ∈ s.inFlight, e.1 < s.client.nextId
  repliesUnique : ∀ id r r', (id, r) ∈ s.replies → (id, r') ∈ s.replies → r = r'
  queueSorted : s.client.pending.Pairwise fun p q => p.id < q.id
  streamSorted : s.inFlight.Pairwise fun e f => e.1 ≤ f.1
  disconnected : s.connected = false → s.inFlight = []
  own : ∀ p ∈ s.client.pending, ∃ r, (p.id, r) ∈ s.replies ∧ p.sentences <+: r.rowSentences ∧
    (s.connected = true → p.sentences ++ s.awaited p.id = r.sentences)
  resolved : ∀ id ss, (id, Outcome.resolved ss) ∈ s.client.settled →
    ∃ r, (id, r) ∈ s.replies ∧ r.trap = none ∧ ss = r.rowSentences ++ [r.doneSentence]
  trapped : ∀ id r, (id, r) ∈ s.replies → r.trap ≠ none →
    (∃ message unreachable, (id, Outcome.rejected message unreachable) ∈ s.client.settled) ∨
      ∃ p ∈ s.client.pending, p.id = id

theorem inv_init : Inv System.init := by
  constructor <;> simp [System.init, Client.init]

/-- The next sentence of a reply of which some rows have been collected: one more row, or the
part behind the rows. -/
theorem next_of_reply {a rows tail : List Sentence} {x : Sentence} {rem : List Sentence}
    (ha : a <+: rows) (h : a ++ x :: rem = rows ++ tail) :
    (x ∈ rows ∧ a ++ [x] <+: rows) ∨ (a = rows ∧ x :: rem = tail) := by
  obtain ⟨c, rfl⟩ := ha
  rw [List.append_assoc, List.append_cancel_left_eq] at h
  cases c with
  | nil => exact .inr ⟨by simp, by simpa using h⟩
  | cons y c =>
    obtain ⟨rfl, -⟩ := List.cons.inj h
    exact .inl ⟨by simp, ⟨c, by simp⟩⟩

theorem isRow_of_mem {r : Reply} {x : Sentence} (h : x ∈ r.rowSentences) : Client.IsRow x := by
  obtain ⟨row, -, rfl⟩ := List.mem_map.1 h
  intro type ht
  obtain rfl : ascii "!re" = type := by simpa using ht
  decide

theorem awaited_ne_nil {s : System} {p : Pending} {r : Reply} (hp : p.sentences <+: r.rowSentences)
    (h : p.sentences ++ s.awaited p.id = r.sentences) : s.awaited p.id ≠ [] := by
  intro hnil
  have hle := hp.length_le
  rw [hnil, List.append_nil] at h
  have := congrArg List.length h
  simp only [Reply.sentences, List.length_append, List.length_singleton] at this
  omega

/-- When the next sentence answers a queued command, that command is the head of the queue. -/
theorem head_of_queue {s : System} (hI : Inv s) {id : ℕ} {x : Sentence} {rest : List (ℕ × Sentence)}
    (hflight : s.inFlight = (id, x) :: rest) (h : ∃ q ∈ s.client.pending, q.id = id) :
    ∃ p ps, s.client.pending = p :: ps ∧ p.id = id := by
  obtain ⟨q, hq, hid⟩ := h
  cases hpend : s.client.pending with
  | nil => simp [hpend] at hq
  | cons p ps =>
    refine ⟨p, ps, rfl, ?_⟩
    rw [hpend] at hq
    rcases List.mem_cons.1 hq with rfl | hq
    · exact hid
    -- the head of the queue awaits a sentence, and no sentence under way is older than `id`
    have hconn : s.connected = true := by
      by_contra hc
      simp [hI.disconnected (by simpa using hc)] at hflight
    have hsorted := hI.queueSorted
    rw [hpend, List.pairwise_cons] at hsorted
    have hlt : p.id < q.id := hsorted.1 q hq
    obtain ⟨r, -, hpre, hall⟩ := hI.own p (by simp [hpend])
    obtain ⟨y, hy⟩ := List.exists_mem_of_ne_nil _ (awaited_ne_nil hpre (hall hconn))
    obtain ⟨e, he, -⟩ := List.mem_map.1 hy
    obtain ⟨he, heid⟩ := List.mem_filter.1 he
    have hstream := hI.streamSorted
    rw [hflight, List.pairwise_cons] at hstream
    have hle : id ≤ e.1 := by
      rw [hflight] at he
      rcases List.mem_cons.1 he with rfl | he
      · exact le_rfl
      · exact hstream.1 e he
    have : e.1 = p.id := by simpa using heid
    omega

theorem awaited_cons {s : System} {id : ℕ} {x : Sentence} {rest : List (ℕ × Sentence)}
    (h : s.inFlight = (id, x) :: rest) (c : Client) :
    s.awaited id = x :: System.awaited { s with client := c, inFlight := rest } id := by
  simp [System.awaited, h]

theorem awaited_cons_of_ne {s : System} {id j : ℕ} {x : Sentence} {rest : List (ℕ × Sentence)}
    (h : s.inFlight = (id, x) :: rest) (hj : id ≠ j) (c : Client) :
    System.awaited { s with client := c, inFlight := rest } j = s.awaited j := by
  simp [System.awaited, h, hj]

/-! ### One lemma for each event -/

theorem Inv.queueBelow {s : System} (hI : Inv s) {p : Pending} (hp : p ∈ s.client.pending) :
    p.id < s.client.nextId := by
  obtain ⟨r, hr, -⟩ := hI.own p hp
  exact hI.repliesBelow _ hr

theorem awaited_fresh {s : System} (hI : Inv s) : s.awaited s.client.nextId = [] := by
  rw [System.awaited, List.map_eq_nil_iff, List.filter_eq_nil_iff]
  intro e he
  have := hI.inFlightBelow e he
  simp only [decide_eq_true_eq]
  omega

theorem awaited_send (s : System) (words : Sentence) (writeError : Option Word) (reply : Reply)
    (j : ℕ) :
    (s.step (.send words writeError reply)).awaited j = s.awaited j ++
      if (s.connected ∧ writeError = none) ∧ s.client.nextId = j then reply.sentences else [] := by
  have htag : ∀ l : List Sentence, ((l.map (s.client.nextId, ·)).filter fun e => e.1 = j).map Prod.snd
      = if s.client.nextId = j then l else [] := by
    intro l
    by_cases hj : s.client.nextId = j <;> simp [List.filter_map, Function.comp_def, hj]
  simp only [System.step, System.awaited]
  by_cases hc : s.connected ∧ writeError = none
  · rw [if_pos hc, List.filter_append, List.map_append, htag]
    simp [hc]
  · rw [if_neg hc, if_neg (fun h => hc h.1), List.append_nil]

theorem inv_send {s : System} (hI : Inv s) (words : Sentence) (writeError : Option Word)
    (reply : Reply) : Inv (s.step (.send words writeError reply)) where
  repliesBelow e he := by
    simp only [System.step, Client.sendSentence_nextId, List.mem_append, List.mem_singleton]
      at he ⊢
    rcases he with he | rfl
    · exact Nat.lt_succ_of_lt (hI.repliesBelow e he)
    · exact Nat.lt_succ_self _
  inFlightBelow e he := by
    simp only [System.step, Client.sendSentence_nextId] at he ⊢
    split_ifs at he
    · rcases List.mem_append.1 he with he | he
      · exact Nat.lt_succ_of_lt (hI.inFlightBelow e he)
      · obtain ⟨x, -, rfl⟩ := List.mem_map.1 he
        exact Nat.lt_succ_self _
    · exact Nat.lt_succ_of_lt (hI.inFlightBelow e he)
  repliesUnique id r r' hr hr' := by
    simp only [System.step, List.mem_append, List.mem_singleton, Prod.mk.injEq] at hr hr'
    rcases hr with hr | ⟨rfl, rfl⟩ <;> rcases hr' with hr' | ⟨h, rfl⟩
    · exact hI.repliesUnique id r r' hr hr'
    · exact absurd (hI.repliesBelow _ hr) (by simp [h])
    · exact absurd (hI.repliesBelow _ hr') (lt_irrefl _)
    · rfl
  queueSorted := by
    simp only [System.step, Client.sendSentence_pending]
    refine List.pairwise_append.2 ⟨hI.queueSorted, by split_ifs <;> simp, fun p hp q hq => ?_⟩
    split_ifs at hq <;> simp only [List.mem_singleton, List.not_mem_nil] at hq
    rw [hq]
    exact hI.queueBelow hp
  streamSorted := by
    simp only [System.step]
    split_ifs
    · refine List.pairwise_append.2 ⟨hI.streamSorted, ?_, fun e he f hf => ?_⟩
      · rw [List.pairwise_map]
        exact List.pairwise_of_forall fun _ _ => le_rfl
      · obtain ⟨x, -, rfl⟩ := List.mem_map.1 hf
        exact (hI.inFlightBelow e he).le
    · exact hI.streamSorted
  disconnected hc := by
    have hc' : s.connected = false := hc
    simp [System.step, hc', hI.disconnected hc']
  own p hp := by
    simp only [System.step, Client.sendSentence_pending, List.mem_append] at hp
    rcases hp with hp | hp
    · obtain ⟨r, hr, hpre, hall⟩ := hI.own p hp
      refine ⟨r, by simp [System.step, hr], hpre, fun hc => ?_⟩
      have hne : s.client.nextId ≠ p.id := (hI.queueBelow hp).ne'
      rw [awaited_send, if_neg (fun h => hne h.2), List.append_nil]
      exact hall hc
    · split_ifs at hp with hw
      · obtain rfl := List.mem_singleton.1 hp
        refine ⟨reply, by simp [System.step], by simp, fun hc => ?_⟩
        have hc' : s.connected = true := hc
        rw [awaited_send, if_pos ⟨⟨hc', hw⟩, rfl⟩, awaited_fresh hI]
        rfl
      · simp at hp
  resolved id ss h := by
    have h' : (id, Outcome.resolved ss) ∈ s.client.settled := by
      simpa [System.step, Client.sendSentence_settled] using h
    obtain ⟨r, hr, hrest⟩ := hI.resolved id ss h'
    exact ⟨r, by simp [System.step, hr], hrest⟩
  trapped id r hr ht := by
    simp only [System.step, List.mem_append, List.mem_singleton, Prod.mk.injEq] at hr
    simp only [System.step, Client.sendSentence_settled, Client.sendSentence_pending,
      List.mem_append]
    rcases hr with hr | ⟨rfl, rfl⟩
    · rcases hI.trapped id r hr ht with ⟨m, u, h⟩ | ⟨p, hp, hid⟩
      · exact .inl ⟨m, u, .inl h⟩
      · exact .inr ⟨p, .inl hp, hid⟩
    · cases writeError with
      | none => exact .inr ⟨_, .inr (List.mem_singleton.2 rfl), rfl⟩
      | some err => exact .inl ⟨err, false, .inr (by simp)⟩

theorem commandTimeout_cases (c : Client) (id : ℕ) :
    (c.commandTimeout id = c ∧ ∀ p ∈ c.pending, p.id ≠ id) ∨
      ∃ message, c.commandTimeout id =
        { c with
          pending := c.pending.filter fun p => p.id ≠ id
          settled := c.settled ++ [(id, .rejected message true)] } := by
  unfold Client.commandTimeout
  cases hf : c.pending.find? (fun p => p.id = id) with
  | none => exact .inl ⟨rfl, fun p hp => by simpa using List.find?_eq_none.1 hf p hp⟩
  | some p => exact .inr ⟨_, rfl⟩

theorem inv_timeout {s : System} (hI : Inv s) (id : ℕ) : Inv (s.step (.timeout id)) := by
  rcases commandTimeout_cases s.client id with ⟨h, -⟩ | ⟨message, h⟩
  · have : s.step (.timeout id) = s := by simp [System.step, h]
    rwa [this]
  have hs : s.step (.timeout id) = { s with client := s.client.commandTimeout id } := rfl
  rw [hs, h]
  refine { hI with
    queueSorted := hI.queueSorted.filter _
    own := fun p hp => hI.own p (List.mem_filter.1 hp).1
    resolved := fun j ss hj => hI.resolved j ss (by simpa using hj)
    trapped := fun j r hr ht => ?_ }
  by_cases hj : j = id
  · exact .inl ⟨message, true, by simp [hj]⟩
  · rcases hI.trapped j r hr ht with ⟨m, u, hm⟩ | ⟨p, hp, hpj⟩
    · exact .inl ⟨m, u, by simp [hm]⟩
    · exact .inr ⟨p, by simp [hp, hpj, hj], hpj⟩

theorem inv_down {s : System} (hI : Inv s) (message : Word) :
    Inv { s with client := s.client.rejectPending message, connected := false, inFlight := [] } := by
  refine { hI with
    inFlightBelow := by simp
    queueSorted := List.Pairwise.nil
    streamSorted := List.Pairwise.nil
    disconnected := fun _ => rfl
    own := by simp [Client.rejectPending]
    resolved := fun j ss hj => hI.resolved j ss (by simpa [Client.rejectPending] using hj)
    trapped := fun j r hr ht => .inl ?_ }
  rcases hI.trapped j r hr ht with ⟨m, u, hm⟩ | ⟨p, hp, hpj⟩
  · exact ⟨m, u, by simp [Client.rejectPending, hm]⟩
  · exact ⟨message, true, List.mem_append.2 (.inr (List.mem_map.2 ⟨p, hp, by rw [hpj]⟩))⟩

theorem inv_arrive_idle {s : System} (hI : Inv s) {e : ℕ × Sentence} {rest : List (ℕ × Sentence)}
    (hflight : s.inFlight = e :: rest) (hpend : s.client.pending = []) :
    Inv { s with inFlight := rest } := by
  have hstream := hI.streamSorted
  rw [hflight, List.pairwise_cons] at hstream
  exact { hI with
    inFlightBelow := fun f hf => hI.inFlightBelow f (by simp [hflight, hf])
    streamSorted := hstream.2
    disconnected := fun hc => by simp [hI.disconnected hc] at hflight
    own := by simp [hpend] }

/-! The next three lemmas are about a sentence `x` that arrives for the head `p` of the queue. -/

section Head

variable {s : System} {p : Pending} {ps : List Pending} {x : Sentence}
  {rest : List (ℕ × Sentence)}

include s in
theorem connected_of_inFlight (hI : Inv s) (hflight : s.inFlight = (p.id, x) :: rest) :
    s.connected = true := by
  by_contra hc
  simp [hI.disconnected (by simpa using hc)] at hflight

theorem own_of_tail (hI : Inv s) (hflight : s.inFlight = (p.id, x) :: rest)
    (hpend : s.client.pending = p :: ps) (c : Client) {q : Pending} (hq : q ∈ ps) :
    ∃ r, (q.id, r) ∈ s.replies ∧ q.sentences <+: r.rowSentences ∧
      (s.connected = true → q.sentences ++
        System.awaited { s with client := c, inFlight := rest } q.id = r.sentences) := by
  have hqueue := hI.queueSorted
  rw [hpend, List.pairwise_cons] at hqueue
  obtain ⟨r, hr, hpre, hall⟩ := hI.own q (by simp [hpend, hq])
  refine ⟨r, hr, hpre, fun hc => ?_⟩
  rw [awaited_cons_of_ne hflight (hqueue.1 q hq).ne c]
  exact hall hc

/-- One more row is collected. -/
theorem inv_collect (hI : Inv s) (hflight : s.inFlight = (p.id, x) :: rest)
    (hpend : s.client.pending = p :: ps) {r : Reply} (hr : (p.id, r) ∈ s.replies)
    (hrow : p.sentences ++ [x] <+: r.rowSentences)
    (hall : p.sentences ++ s.awaited p.id = r.sentences) :
    Inv { s with
      client := { s.client with pending := { p with sentences := p.sentences ++ [x] } :: ps }
      inFlight := rest } := by
  have hstream := hI.streamSorted
  rw [hflight, List.pairwise_cons] at hstream
  have hqueue := hI.queueSorted
  rw [hpend, List.pairwise_cons] at hqueue
  refine { hI with
    inFlightBelow := fun f hf => hI.inFlightBelow f (by simp [hflight, hf])
    queueSorted := List.pairwise_cons.2 hqueue
    streamSorted := hstream.2
    disconnected := fun hc => by simp [hI.disconnected hc] at hflight
    own := fun q hq => ?_
    trapped := fun j r' hr' ht => ?_ }
  · rcases List.mem_cons.1 hq with rfl | hq
    · refine ⟨r, hr, hrow, fun _ => ?_⟩
      rw [← hall, awaited_cons hflight, List.append_assoc]
      rfl
    · exact own_of_tail hI hflight hpend _ hq
  · rcases hI.trapped j r' hr' ht with h | ⟨q, hq, hid⟩
    · exact .inl h
    · rw [hpend] at hq
      rcases List.mem_cons.1 hq with rfl | hq
      · exact .inr ⟨_, List.mem_cons_self, hid⟩
      · exact .inr ⟨q, List.mem_cons_of_mem _ hq, hid⟩

/-- The command at the head is settled and leaves the queue. -/
theorem inv_settle (hI : Inv s) (hflight : s.inFlight = (p.id, x) :: rest)
    (hpend : s.client.pending = p :: ps) (o : Outcome)
    (hresolved : ∀ ss, o = .resolved ss →
      ∃ r, (p.id, r) ∈ s.replies ∧ r.trap = none ∧ ss = r.rowSentences ++ [r.doneSentence])
    (htrapped : ∀ r, (p.id, r) ∈ s.replies → r.trap ≠ none →
      ∃ message unreachable, o = .rejected message unreachable) :
    Inv { s with
      client := { s.client with pending := ps, settled := s.client.settled ++ [(p.id, o)] }
      inFlight := rest } := by
  have hstream := hI.streamSorted
  rw [hflight, List.pairwise_cons] at hstream
  have hqueue := hI.queueSorted
  rw [hpend, List.pairwise_cons] at hqueue
  refine { hI with
    inFlightBelow := fun f hf => hI.inFlightBelow f (by simp [hflight, hf])
    queueSorted := hqueue.2
    streamSorted := hstream.2
    disconnected := fun hc => by simp [hI.disconnected hc] at hflight
    own := fun q hq => own_of_tail hI hflight hpend _ hq
    resolved := fun j ss hj => ?_
    trapped := fun j r hr ht => ?_ }
  · rcases List.mem_append.1 hj with hj | hj
    · exact hI.resolved j ss hj
    · obtain ⟨rfl, ho⟩ : j = p.id ∧ .resolved ss = o := by simpa using hj
      exact hresolved ss ho.symm
  · rcases hI.trapped j r hr ht with ⟨m, u, hm⟩ | ⟨q, hq, hid⟩
    · exact .inl ⟨m, u, List.mem_append_left _ hm⟩
    · rw [hpend] at hq
      rcases List.mem_cons.1 hq with rfl | hq
      · subst hid
        obtain ⟨m, u, rfl⟩ := htrapped r hr ht
        exact .inl ⟨m, u, List.mem_append_right _ List.mem_cons_self⟩
      · exact .inr ⟨q, hq, hid⟩

/-- **A sentence of the head of the queue arrives**: one more row, the closing `!done` of a reply
without `!trap`, or the `!trap`. -/
theorem inv_arrive_head (hI : Inv s) (hflight : s.inFlight = (p.id, x) :: rest)
    (hpend : s.client.pending = p :: ps) :
    Inv { s with client := s.client.onSentence x, inFlight := rest } := by
  obtain ⟨r, hr, hpre, hall⟩ := hI.own p (by simp [hpend])
  have hreply := hall (connected_of_inFlight hI hflight)
  have hsplit := hreply
  rw [awaited_cons hflight s.client, Reply.sentences, List.append_assoc] at hsplit
  rcases next_of_reply hpre hsplit with ⟨hx, hrow⟩ | ⟨hrows, htail⟩
  · rw [Client.onSentence_row hpend (isRow_of_mem hx)]
    exact inv_collect hI hflight hpend hr hrow hreply
  · -- the rows are complete, and `x` is what follows them
    cases htrap : r.trap with
    | none =>
      have hx : x = r.doneSentence := by
        rw [Reply.trapSentences, htrap] at htail
        exact (List.cons.inj htail).1
      rw [Client.onSentence_done hpend (by rw [hx]; rfl)]
      refine inv_settle hI hflight hpend _ (fun ss hss => ?_) (fun r' hr' ht => ?_)
      · exact ⟨r, hr, htrap, by rw [← Outcome.resolved.inj hss, hrows, hx]⟩
      · exact absurd htrap (by rwa [hI.repliesUnique _ r r' hr hr'])
    | some t =>
      have hx : x = ascii "!trap" :: t := by
        rw [Reply.trapSentences, htrap] at htail
        exact (List.cons.inj htail).1
      rw [Client.onSentence_trap hpend (by rw [hx]; rfl)]
      exact inv_settle hI hflight hpend _ (by simp) (fun _ _ _ => ⟨_, _, rfl⟩)

end Head

/-- **Step lemma**: an aligned event keeps the invariant. -/
theorem inv_step (s : System) (e : Event) (hI : Inv s) (hgood : Aligned s e) : Inv (s.step e) := by
  cases e with
  | send words writeError reply => exact inv_send hI words writeError reply
  | timeout id => exact inv_timeout hI id
  | socketError err => exact inv_down hI err
  | close => exact inv_down hI _
  | arrive =>
    cases hflight : s.inFlight with
    | nil =>
      have : s.step .arrive = s := by simp [System.step, hflight]
      rwa [this]
    | cons e rest =>
      obtain ⟨id, x⟩ := e
      have hstep : s.step .arrive = { s with client := s.client.onSentence x, inFlight := rest } := by
        simp [System.step, hflight]
      rw [hstep]
      rcases hgood (id, x) (by simp [hflight]) with hq | hnil
      · obtain ⟨p, ps, hpend, rfl⟩ := head_of_queue hI hflight hq
        exact inv_arrive_head hI hflight hpend
      · rw [Client.onSentence_nil hnil]
        exact inv_arrive_idle hI hflight hnil

theorem Inv.matched {s : System} (hI : Inv s) : Matched s where
  resolved := hI.resolved
  own p hp := by
    obtain ⟨r, hr, hpre, -⟩ := hI.own p hp
    exact ⟨r, hr, hpre⟩
  trapped id r t hr ht := by
    rcases hI.trapped id r hr (by simp [ht]) with h | ⟨p, hp, rfl⟩
    · exact .inl h
    refine .inr ⟨p, hp, rfl, fun hc => ?_⟩
    obtain ⟨r', hr', hpre, hall⟩ := hI.own p hp
    obtain rfl := hI.repliesUnique _ r r' hr hr'
    -- the `!trap` is not among the rows collected so far
    have hmem : ascii "!trap" :: t ∈ p.sentences ++ s.awaited p.id := by
      rw [hall hc, Reply.sentences, Reply.trapSentences, ht]
      simp
    rcases List.mem_append.1 hmem with h | h
    · have := isRow_of_mem (hpre.subset h) (ascii "!trap") rfl
      exact absurd rfl this.2.1
    · obtain ⟨e, he, hx⟩ := List.mem_map.1 h
      obtain ⟨he, hid⟩ := List.mem_filter.1 he
      obtain ⟨j, x⟩ := e
      obtain rfl : j = p.id := by simpa using hid
      rw [← hx]
      exact he

/-- **Replies settle their own commands along every aligned run.** -/
theorem always_matched (es : List Event) (h : StepsMeet System.step Aligned System.init es) :
    Always System.step Matched System.init es :=
  (always_of_step (P := Inv) inv_step inv_init h).mono fun _ => Inv.matched

/-- A trapped command whose `!done` finds nothing queued, then a command that returns a row and
one that times out. -/
theorem always_matched_trap_alone :
    Always System.step Matched System.init
      [.send [ascii "/a"] none ⟨[], some [], []⟩, .arrive, .arrive,
        .send [ascii "/b"] none ⟨[[ascii "=x=1"]], none, []⟩, .arrive, .arrive,
        .send [ascii "/c"] none ⟨[], none, []⟩, .timeout 2, .arrive] :=
  always_matched _ (by decide)

/-- Two commands are under way when the first one's `!trap` arrives: its `!done` resolves the
second command, whose own reply has a row. -/
theorem trap_resolves_next_command :
    ¬ ∀ es, Always System.step Matched System.init es := by
  intro h
  have hlast := (h [.send [ascii "/a"] none ⟨[], some [], []⟩,
    .send [ascii "/b"] none ⟨[[ascii "=x=1"]], none, []⟩, .arrive, .arrive]).last
  obtain ⟨r, hr, -, hss⟩ := hlast.resolved 1 [[ascii "!done"]] (by decide)
  have hreplies : ∀ e ∈ (run System.step System.init
      [.send [ascii "/a"] none ⟨[], some [], []⟩,
        .send [ascii "/b"] none ⟨[[ascii "=x=1"]], none, []⟩, .arrive, .arrive]).replies,
      e.1 = 1 → [[ascii "!done"]] ≠ e.2.rowSentences ++ [e.2.doneSentence] := by decide
  exact hreplies _ hr rfl hss

end Vigabss.Routeros
