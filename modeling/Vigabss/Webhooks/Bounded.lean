import Vigabss.Webhooks.Deliveries

/-!
# Vigabss.Webhooks.Bounded — the requests of a webhook delivery are bounded

Every claim is paid for: it raises `attempt_number`, which stays within the largest
`max_retries + 1`, or `recovery_count`, which stays within one.  A claim has a token of its own and
makes one request at most.  The update pays for no claim of a delivery that waits for its retry when
`max_retries` was lowered behind it, and nothing checks the token again before the request.
-/

namespace Vigabss.Webhooks

open Vigabss.Lib

/-! ### The invariant -/

/-- What holds of the rows and their history between statements. -/
structure Sound (s : Outbound) : Prop where
  paid : (claims s.history).length = s.row.attempt_number + s.row.recovery_count
  attempts : s.row.attempt_number ≤ s.largest + 1
  recoveries : s.row.recovery_count ≤ 1
  inForce : s.webhook.max_retries ≤ s.largest
  unspent : s.row.status = .pending → s.row.attempt_number = 0
  drawn : ∀ token ∈ claims s.history, token < s.issued
  once : (requests s.history).Nodup
  claimed : ∀ token ∈ requests s.history, token ∈ claims s.history
  held : ∀ token, s.row.claim_token = some token →
    s.row.status = .processing ∧ (claims s.history).head? = some token
  ended : ∀ e ∈ s.history, e.ends = true → s.row.status = .success ∨ s.row.status = .dead_letter
  inTime : InTime s.history
  byHolder : ByHolder s.history

/-- The claim whose request a thread has yet to make. -/
def Stage.unmade : Stage → Option ℕ
  | .reading token => some token
  | .ownerAgain copy | .requesting copy => some copy.claim_token
  | _ => none

/-- A request yet to be made has a claim, and was not made before. -/
def Entitled (s : Outbound) (t : Stage) : Prop :=
  ∀ token, t.unmade = some token → token ∈ claims s.history ∧ token ∉ requests s.history

/-- No two threads have the request of one claim to make. -/
def Apart (t u : Stage) : Prop := ∀ token, t.unmade = some token → u.unmade ≠ some token

theorem Sound.lawful {s : Outbound} (h : Sound s) : Lawful s where
  bounded := by
    have hle : (requests s.history).length ≤ (claims s.history).length :=
      h.once.length_le_of_subset h.claimed
    have hpaid := h.paid
    have hattempts := h.attempts
    have hrecoveries := h.recoveries
    omega
  inTime := h.inTime
  byHolder := h.byHolder

theorem Sound.notEnded {s : Outbound} (h : Sound s)
    (hstatus : s.row.status ≠ .success ∧ s.row.status ≠ .dead_letter) :
    ∀ e ∈ s.history, e.ends = false := by
  intro e he
  rw [← Bool.not_eq_true]
  intro hends
  rcases h.ended e he hends with hrow | hrow
  · exact hstatus.1 hrow
  · exact hstatus.2 hrow

theorem InTime.cons {history : List Event} (h : InTime history) {e : Event}
    (he : ∀ token, e = .requested token → ∀ e ∈ history, e.ends = false) :
    InTime (e :: history) := by
  intro token older hsuffix
  rcases List.suffix_cons_iff.1 hsuffix with heq | hold
  · rw [List.cons.injEq] at heq
    rw [heq.2]
    exact he token heq.1.symm
  · exact h token older hold

theorem ByHolder.cons {history : List Event} (h : ByHolder history) {e : Event}
    (he : ∀ token status, e = .recorded token status → (claims history).head? = some token) :
    ByHolder (e :: history) := by
  intro token status older hsuffix
  rcases List.suffix_cons_iff.1 hsuffix with heq | hold
  · rw [List.cons.injEq] at heq
    rw [heq.2]
    exact he token status heq.1.symm
  · exact h token status older hold

/-! ### The statements -/

theorem effect_cases (P : Outbound → Prop) (e : SqlEnd) {f : Outbound → Outbound} {s : Outbound}
    (hs : P s) (hf : P (f s)) : P (effect e f s) := by
  unfold effect
  split_ifs
  · exact hs
  · exact hf

theorem Sound.deadLetter {s : Outbound} (h : Sound s) : Sound s.deadLetter where
  paid := h.paid
  attempts := h.attempts
  recoveries := h.recoveries
  inForce := h.inForce
  unspent hpending := by cases hpending
  drawn := h.drawn
  once := h.once
  claimed := h.claimed
  held token hclaim := by cases hclaim
  ended _ _ _ := Or.inr rfl
  inTime := h.inTime.cons nofun
  byHolder := h.byHolder.cons nofun

theorem Sound.deadLetterWhere {s : Outbound} (h : Sound s) (condition : Outbound → Bool) :
    Sound (s.deadLetterWhere condition) := by
  unfold Outbound.deadLetterWhere
  split_ifs
  · exact h.deadLetter
  · exact h

theorem claimable_iff {s : Outbound} {epoch : ℕ} (h : s.claimable epoch = true) :
    s.row.status = .pending ∨ s.row.status = .retrying ∨
      (s.row.status = .processing ∧
        (s.row.attempt_number < s.webhook.maxAttempts ∨ s.row.recovery_count < 1)) := by
  simp only [Outbound.claimable, Outbound.abandoned, decide_eq_true_eq] at h
  obtain ⟨_, _, _, _, _, hpending | ⟨hretrying, _⟩ | ⟨⟨hprocessing, _⟩, hleft⟩⟩ := h
  · exact Or.inl hpending
  · exact Or.inr (Or.inl hretrying)
  · exact Or.inr (Or.inr ⟨hprocessing, hleft⟩)

/-- A claim that finds an attempt left, or the recovery, is paid for. -/
theorem Sound.claim {s : Outbound} (h : Sound s) (epoch : ℕ)
    (hleft : s.row.status = .retrying → s.row.attempt_number < s.webhook.maxAttempts) :
    Sound (s.claim epoch) := by
  unfold Outbound.claim
  split_ifs with hclaimable
  · have hstatus := claimable_iff hclaimable
    have hforce := h.inForce
    have hattempts := h.attempts
    have hrecoveries := h.recoveries
    have hpaid := h.paid
    -- one of the two counters goes up
    have hcount : s.claimedRow.attempt_number + s.claimedRow.recovery_count =
        s.row.attempt_number + s.row.recovery_count + 1 ∧
        s.claimedRow.attempt_number ≤ s.largest + 1 ∧ s.claimedRow.recovery_count ≤ 1 := by
      simp only [Outbound.claimedRow]
      rcases hstatus with hpending | hretrying | ⟨hprocessing, hone⟩
      · have hzero := h.unspent hpending
        simp [hpending, hzero, Webhook.maxAttempts]
        omega
      · have hlt := hleft hretrying
        simp only [hretrying, hlt, if_true, reduceCtorEq, false_and, if_false]
        simp only [Webhook.maxAttempts] at hlt
        omega
      · simp only [Webhook.maxAttempts] at hone ⊢
        by_cases hlt : s.row.attempt_number < s.webhook.max_retries + 1
        · simp only [hlt, if_true, Nat.not_le.2 hlt, and_false, if_false]
          omega
        · simp only [hlt, if_false, Nat.not_lt.1 hlt, and_true, hprocessing, if_true]
          omega
    obtain ⟨hsum, hbound, hone⟩ := hcount
    refine
      { paid := ?_, attempts := hbound, recoveries := hone, inForce := hforce
        unspent := nofun, drawn := ?_, once := h.once, claimed := ?_, held := ?_, ended := ?_
        inTime := h.inTime.cons nofun, byHolder := h.byHolder.cons nofun }
    · show (s.issued :: claims s.history).length = _
      rw [List.length_cons, hpaid, hsum]
    · intro token htoken
      show token < s.issued + 1
      rcases List.mem_cons.1 htoken with rfl | hold
      · exact Nat.lt_succ_self _
      · exact Nat.lt_succ_of_lt (h.drawn token hold)
    · intro token htoken
      exact List.mem_cons_of_mem _ (h.claimed token htoken)
    · intro token htoken
      cases htoken
      exact ⟨rfl, rfl⟩
    · intro e he hends
      have hopen : s.row.status ≠ .success ∧ s.row.status ≠ .dead_letter := by
        rcases hstatus with hrow | hrow | ⟨hrow, _⟩ <;> simp [hrow]
      rcases List.mem_cons.1 he with rfl | hold
      · cases hends
      · rw [h.notEnded hopen e hold] at hends
        cases hends
  · exact h

theorem Sound.setOutcome {s : Outbound} (h : Sound s) (token : ℕ) {status : DeliveryStatus}
    (hstatus : status ≠ .pending) (nextRetry : Option ℤ) :
    Sound (s.setOutcome token status nextRetry) := by
  unfold Outbound.setOutcome
  split_ifs with hclaim
  · obtain ⟨hprocessing, htoken⟩ := hclaim
    have hopen := h.notEnded (by simp [hprocessing])
    refine
      { paid := h.paid, attempts := h.attempts, recoveries := h.recoveries, inForce := h.inForce
        unspent := fun hpending => absurd hpending hstatus, drawn := h.drawn, once := h.once
        claimed := h.claimed, held := ?_, ended := ?_, inTime := h.inTime.cons nofun
        byHolder := h.byHolder.cons ?_ }
    · intro other hother
      cases hother
    · intro e he hends
      rcases List.mem_cons.1 he with rfl | hold
      · exact Or.inl (of_decide_eq_true hends)
      · rw [hopen e hold] at hends
        cases hends
    · intro other status' heq
      cases heq
      exact (h.held token htoken).2
  · exact h

theorem Sound.request {s : Outbound} (h : Sound s) {token : ℕ}
    (hunmade : token ∉ requests s.history) (hholds : s.row.claim_token = some token) :
    Sound (s.log (.requested token)) := by
  obtain ⟨hprocessing, hnewest⟩ := h.held token hholds
  have hopen := h.notEnded (by simp [hprocessing])
  refine
    { paid := h.paid, attempts := h.attempts, recoveries := h.recoveries, inForce := h.inForce
      unspent := h.unspent, drawn := h.drawn, once := List.nodup_cons.2 ⟨hunmade, h.once⟩
      claimed := ?_, held := h.held, ended := ?_, inTime := h.inTime.cons fun _ _ => hopen
      byHolder := h.byHolder.cons nofun }
  · intro other hother
    rcases List.mem_cons.1 hother with rfl | hold
    · exact List.mem_of_mem_head? hnewest
    · exact h.claimed other hold
  · intro e he hends
    rcases List.mem_cons.1 he with rfl | hold
    · cases hends
    · exact h.ended e hold hends

theorem Sound.ofRow {s s' : Outbound} (h : Sound s) (hrow : s'.row = s.row)
    (hhistory : s'.history = s.history) (hissued : s'.issued = s.issued)
    (hlargest : s.largest ≤ s'.largest) (hforce : s'.webhook.max_retries ≤ s'.largest) :
    Sound s' where
  paid := by rw [hrow, hhistory]; exact h.paid
  attempts := by
    have hattempts := h.attempts
    rw [hrow]
    omega
  recoveries := by rw [hrow]; exact h.recoveries
  inForce := hforce
  unspent := by rw [hrow]; exact h.unspent
  drawn := by rw [hhistory, hissued]; exact h.drawn
  once := by rw [hhistory]; exact h.once
  claimed := by rw [hhistory]; exact h.claimed
  held := by rw [hrow, hhistory]; exact h.held
  ended := by rw [hrow, hhistory]; exact h.ended
  inTime := by rw [hhistory]; exact h.inTime
  byHolder := by rw [hhistory]; exact h.byHolder

theorem Sound.revoke {s : Outbound} (h : Sound s) : Sound s.revoke := by
  unfold Outbound.revoke
  split_ifs
  · exact ⟨h.paid, h.attempts, h.recoveries, h.inForce, h.unspent, h.drawn, h.once, h.claimed,
      h.held, h.ended, h.inTime, h.byHolder⟩
  · exact h

theorem Sound.configure {s : Outbound} (h : Sound s) (w : Webhook) : Sound (s.configure w) := by
  have hset : Sound { s with webhook := w, largest := max s.largest w.max_retries } :=
    h.ofRow rfl rfl rfl (Nat.le_max_left ..) (Nat.le_max_right ..)
  unfold Outbound.configure
  simp only
  split
  · exact hset
  · exact (hset.deadLetterWhere _).revoke

theorem Sound.setStatus {s : Outbound} (h : Sound s) (active : Bool) :
    Sound (s.setStatus active) := by
  have hset : Sound (s.withStatus active) := h.ofRow rfl rfl rfl (Nat.le_refl _) h.inForce
  exact hset.deadLetterWhere _

/-! ### The histories of a turn -/

/-- What a turn does to the claims and requests, and to the request its thread has to make: nothing
new, a claim, or the request. -/
inductive Turned (s : Outbound) (t : Stage) (s' : Outbound) (t' : Stage) : Prop
  | neither (hclaims : claims s'.history = claims s.history)
      (hrequests : requests s'.history = requests s.history)
      (hunmade : t'.unmade = none ∨ t'.unmade = t.unmade)
  | claim (hclaims : claims s'.history = s.issued :: claims s.history)
      (hrequests : requests s'.history = requests s.history)
      (hunmade : t'.unmade = none ∨ t'.unmade = some s.issued)
  | request (token : ℕ) (hclaims : claims s'.history = claims s.history)
      (hrequests : requests s'.history = token :: requests s.history)
      (hmade : t.unmade = some token) (hunmade : t'.unmade = none)

/-- A turn leaves every thread what is its own. -/
theorem Turned.entitled {s s' : Outbound} {t t' u : Stage} (h : Turned s t s' t') (hs : Sound s)
    (ht : Entitled s t) :
    Entitled s' t' ∧ (Entitled s u → Apart t u → Entitled s' u ∧ Apart t' u) := by
  have hunseen : s.issued ∉ claims s.history := fun hmem => Nat.lt_irrefl _ (hs.drawn _ hmem)
  cases h with
  | neither hclaims hrequests hunmade =>
    have hkeep : ∀ v, Entitled s v → Entitled s' v := by
      intro v hv token htoken
      rw [hclaims, hrequests]
      exact hv token htoken
    rcases hunmade with hnone | hsame
    · refine ⟨fun token htoken => ?_, fun hu _ => ⟨hkeep u hu, fun token htoken => ?_⟩⟩
      · rw [hnone] at htoken
        cases htoken
      · rw [hnone] at htoken
        cases htoken
    · refine ⟨fun token htoken => ?_, fun hu hapart => ⟨hkeep u hu, fun token htoken => ?_⟩⟩
      · rw [hsame] at htoken
        exact hkeep t ht token htoken
      · rw [hsame] at htoken
        exact hapart token htoken
  | claim hclaims hrequests hunmade =>
    have hkeep : ∀ v, Entitled s v → Entitled s' v := by
      intro v hv token htoken
      rw [hclaims, hrequests]
      exact ⟨List.mem_cons_of_mem _ (hv token htoken).1, (hv token htoken).2⟩
    rcases hunmade with hnone | hnew
    · refine ⟨fun token htoken => ?_, fun hu _ => ⟨hkeep u hu, fun token htoken => ?_⟩⟩
      · rw [hnone] at htoken
        cases htoken
      · rw [hnone] at htoken
        cases htoken
    · refine ⟨fun token htoken => ?_, fun hu _ => ⟨hkeep u hu, fun token htoken hother => ?_⟩⟩
      · rw [hnew] at htoken
        cases htoken
        rw [hclaims, hrequests]
        exact ⟨List.mem_cons_self, fun hmem => hunseen (hs.claimed _ hmem)⟩
      · rw [hnew] at htoken
        cases htoken
        exact hunseen (hu _ hother).1
  | request made hclaims hrequests hmade hunmade =>
    refine ⟨fun token htoken => ?_, fun hu hapart =>
      ⟨fun token htoken => ?_, fun token htoken => ?_⟩⟩
    · rw [hunmade] at htoken
      cases htoken
    · rw [hclaims, hrequests]
      refine ⟨(hu token htoken).1, ?_⟩
      rintro (_ | ⟨_, hmem⟩)
      · exact hapart made hmade htoken
      · exact (hu token htoken).2 hmem
    · rw [hunmade] at htoken
      cases htoken

/-- An update that neither claims nor requests. -/
def Silent (f : Outbound → Outbound) : Prop :=
  ∀ s, claims (f s).history = claims s.history ∧ requests (f s).history = requests s.history

theorem silent_deadLetterWhere (condition : Outbound → Bool) :
    Silent (Outbound.deadLetterWhere condition) := by
  intro s
  unfold Outbound.deadLetterWhere
  split_ifs <;> exact ⟨rfl, rfl⟩

theorem silent_setOutcome (token : ℕ) (status : DeliveryStatus) (nextRetry : Option ℤ) :
    Silent (Outbound.setOutcome token status nextRetry) := by
  intro s
  unfold Outbound.setOutcome
  split_ifs <;> exact ⟨rfl, rfl⟩

theorem silent_configure (w : Webhook) : Silent (Outbound.configure w) := by
  intro s
  unfold Outbound.configure Outbound.revoke Outbound.deadLetterWhere
  simp only
  split_ifs <;> exact ⟨rfl, rfl⟩

theorem silent_setStatus (active : Bool) : Silent (Outbound.setStatus active) :=
  fun s => silent_deadLetterWhere _ (s.withStatus active)

theorem Silent.turned {f : Outbound → Outbound} (hf : Silent f) (e : SqlEnd) (s : Outbound)
    (t t' : Stage) (hunmade : t'.unmade = none) : Turned s t (effect e f s) t' := by
  refine effect_cases (fun s' => Turned s t s' t') e ?_ ?_
  · exact .neither rfl rfl (Or.inl hunmade)
  · exact .neither (hf s).1 (hf s).2 (Or.inl hunmade)

theorem turned_read (s : Outbound) (t t' : Stage)
    (hunmade : t'.unmade = none ∨ t'.unmade = t.unmade) : Turned s t s t' :=
  .neither rfl rfl hunmade

theorem turned_claim (s : Outbound) (epoch : ℕ) (a : Answer) :
    Turned s (.claiming epoch) (next s (.claiming epoch) a).1 (next s (.claiming epoch) a).2 := by
  by_cases hclaimable : s.claimable epoch = true
  · have hclaim : claims (s.claim epoch).history = s.issued :: claims s.history ∧
        requests (s.claim epoch).history = requests s.history := by
      unfold Outbound.claim
      rw [if_pos hclaimable]
      exact ⟨rfl, rfl⟩
    simp only [next, hclaimable, if_true]
    cases hsql : a.sql with
    | ok => exact .claim hclaim.1 hclaim.2 (Or.inr rfl)
    | failed => exact turned_read s _ _ (Or.inl rfl)
    | lost => exact .claim hclaim.1 hclaim.2 (Or.inl rfl)
  · have hclaim : s.claim epoch = s := by
      unfold Outbound.claim
      rw [if_neg hclaimable]
    have heffect : effect a.sql (Outbound.claim epoch) s = s :=
      effect_cases (fun s' => s' = s) a.sql rfl hclaim
    simp only [next, heffect]
    refine turned_read s _ _ (Or.inl ?_)
    split_ifs <;> rfl

/-! ### The turns -/

/-- An outcome is never `pending`. -/
def Decided : Stage → Prop
  | .recording _ status _ => status ≠ .pending
  | _ => True

theorem decided_record (copy : Copy) (s : Outbound) (a : Answer) : Decided (copy.record s a) := by
  show copy.outcome a.reply ≠ .pending
  cases a.reply with
  | response statusCode =>
    simp only [Copy.outcome]
    split_ifs <;> decide
  | failed =>
    simp only [Copy.outcome]
    split_ifs <;> decide
  | unsafeUrl =>
    intro h
    cases h

/-- **One statement** of a worker, of the sweep or of the surroundings. -/
theorem turn_keeps (s : Outbound) (t : Stage) (a : Answer) (hs : Sound s) (ht : Entitled s t)
    (hdecided : Decided t) (hgood : Covered s t a) :
    Sound (next s t a).1 ∧ Turned s t (next s t a).1 (next s t a).2 ∧ Decided (next s t a).2 := by
  cases t with
  | owner =>
    refine ⟨hs, turned_read s _ _ (Or.inl ?_), ?_⟩
    · simp only [next]
      split_ifs <;> rfl
    · simp only [next]
      split_ifs <;> trivial
  | terminalizing =>
    exact ⟨effect_cases Sound a.sql hs (hs.deadLetterWhere _),
      (silent_deadLetterWhere _).turned a.sql s _ _ rfl, trivial⟩
  | claiming epoch =>
    refine ⟨effect_cases Sound a.sql hs (hs.claim epoch hgood), turned_claim s epoch a, ?_⟩
    simp only [next]
    split_ifs <;> trivial
  | fencing epoch =>
    exact ⟨effect_cases Sound a.sql hs (hs.deadLetterWhere _),
      (silent_deadLetterWhere _).turned a.sql s _ _ rfl, trivial⟩
  | reading token =>
    refine ⟨hs, turned_read s _ _ ?_, ?_⟩
    · simp only [next]
      split_ifs
      · exact Or.inr rfl
      · exact Or.inl rfl
    · simp only [next]
      split_ifs <;> trivial
  | ownerAgain copy =>
    refine ⟨hs, turned_read s _ _ ?_, ?_⟩
    · simp only [next]
      split_ifs
      · exact Or.inl rfl
      · exact Or.inl rfl
      · exact Or.inr rfl
    · simp only [next]
      split_ifs
      · trivial
      · intro h
        cases h
      · trivial
  | requesting copy =>
    by_cases hunsafe : a.reply = .unsafeUrl
    · simp only [next, if_pos hunsafe]
      exact ⟨hs, turned_read s _ _ (Or.inl rfl), decided_record copy s a⟩
    · simp only [next, if_neg hunsafe]
      exact ⟨hs.request (ht _ rfl).2 hgood, .request copy.claim_token rfl rfl rfl rfl, trivial⟩
  | awaiting copy => exact ⟨hs, turned_read s _ _ (Or.inl rfl), decided_record copy s a⟩
  | recording copy status nextRetry =>
    exact ⟨effect_cases Sound a.sql hs (hs.setOutcome _ hdecided nextRetry),
      (silent_setOutcome _ _ _).turned a.sql s _ _ rfl, trivial⟩
  | sweepingRevoked =>
    refine ⟨effect_cases Sound a.sql hs (hs.deadLetterWhere _),
      (silent_deadLetterWhere _).turned a.sql s _ _ ?_, ?_⟩
    · simp only [next]
      split_ifs <;> rfl
    · simp only [next]
      split_ifs <;> trivial
  | sweepingExhausted =>
    refine ⟨effect_cases Sound a.sql hs (hs.deadLetterWhere _),
      (silent_deadLetterWhere _).turned a.sql s _ _ ?_, ?_⟩
    · simp only [next]
      split_ifs <;> rfl
    · simp only [next]
      split_ifs <;> trivial
  | sweepingMoved =>
    refine ⟨effect_cases Sound a.sql hs (hs.deadLetterWhere _),
      (silent_deadLetterWhere _).turned a.sql s _ _ ?_, ?_⟩
    · simp only [next]
      split_ifs <;> rfl
    · simp only [next]
      split_ifs <;> trivial
  | selecting =>
    refine ⟨hs, turned_read s _ _ (Or.inl ?_), ?_⟩
    · simp only [next]
      split_ifs <;> rfl
    · simp only [next]
      split_ifs <;> trivial
  | selectedOwner =>
    refine ⟨hs, turned_read s _ _ (Or.inl ?_), ?_⟩
    · simp only [next]
      split_ifs <;> rfl
    · simp only [next]
      split_ifs <;> trivial
  | configuring w =>
    exact ⟨effect_cases Sound a.sql hs (hs.configure w),
      (silent_configure w).turned a.sql s _ _ rfl, trivial⟩
  | changing active =>
    exact ⟨effect_cases Sound a.sql hs (hs.setStatus active),
      (silent_setStatus active).turned a.sql s _ _ rfl, trivial⟩
  | waiting seconds =>
    exact ⟨hs.ofRow rfl rfl rfl (Nat.le_refl _) hs.inForce, .neither rfl rfl (Or.inl rfl), trivial⟩
  | done => exact ⟨hs, turned_read s _ _ (Or.inl rfl), trivial⟩

/-! ### The law -/

theorem unmade_start (c : Call) : (start c).unmade = none := by
  cases c <;> rfl

theorem sound_dispatch (webhook : Webhook) (organization : Organization) (now : ℤ)
    (event : String) : Sound (dispatch webhook organization now event) where
  paid := rfl
  attempts := Nat.zero_le _
  recoveries := Nat.zero_le _
  inForce := Nat.le_refl _
  unspent _ := rfl
  drawn := nofun
  once := List.nodup_nil
  claimed := nofun
  held := nofun
  ended := nofun
  inTime token older h := by cases List.suffix_nil.1 h
  byHolder token status older h := by cases List.suffix_nil.1 h

/-- **The requests of a delivery** in every run whose claims find an attempt left and whose workers
begin their requests with the claim still their own. -/
theorem delivery_lawful (webhook : Webhook) (organization : Organization) (now : ℤ)
    (event : String) (is : List (Turn Call Answer))
    (h : StepsMeet step (Threads.Meets Covered)
      (Threads.idle (dispatch webhook organization now event)) is) :
    Always step (fun s => Lawful s.shared)
      (Threads.idle (dispatch webhook organization now event)) is := by
  have hsound := @Threads.always_holds _ _ _ _ start next Sound
    (fun s t => Entitled s t ∧ Decided t) Apart Covered ?_ ?_ ?_ ?_ _
    (Threads.Holds.idle (sound_dispatch webhook organization now event)) is h
  · exact hsound.mono fun s hs => hs.lawful
  · exact fun t u hapart token hu ht => hapart token ht hu
  · intro s c
    refine ⟨fun token htoken => ?_, ?_⟩
    · rw [unmade_start] at htoken
      cases htoken
    · cases c <;> trivial
  · intro c u token htoken
    rw [unmade_start] at htoken
    cases htoken
  · intro s t a hs ht hgood
    obtain ⟨hsound, hturned, hdecided⟩ := turn_keeps s t a hs ht.1 ht.2 hgood
    refine ⟨hsound, ⟨(hturned.entitled (u := .done) hs ht.1).1, hdecided⟩, ?_⟩
    intro u hu hapart
    obtain ⟨hkept, hapart'⟩ := (hturned.entitled hs ht.1).2 hu.1 hapart
    exact ⟨⟨hkept, hu.2⟩, hapart'⟩

/-! ### Runs -/

def registered (maxRetries : ℕ) : Webhook := ⟨"https://example.test/hook", true, false, maxRetries⟩

/-- A delivery of a webhook with one retry. -/
def queued : Threads Outbound Stage :=
  Threads.idle (dispatch (registered 1) ⟨true, 0, false⟩ 0 "invoice.created")

/-- The statement takes effect; the endpoint takes the request, or is out of order. -/
def taken : Answer := ⟨.ok, .response 200, 0⟩

@[inherit_doc taken]
def outOfOrder : Answer := ⟨.ok, .response 503, 0⟩

/-- Worker `i` takes `n` turns. -/
def turns (i n : ℕ) (a : Answer) : List (Turn Call Answer) := List.replicate n (.turn i a)

/-- Worker `i` comes and makes its request with an outcome. -/
def delivery (i : ℕ) (a : Answer) : List (Turn Call Answer) :=
  .call .deliverDurableWebhook :: turns i 7 a

/-- Thread `i` changes the surroundings. -/
def change (i : ℕ) (c : Call) : List (Turn Call Answer) := [.call c, .turn i taken]

/-- A request that fails, and its retry. -/
def retriedOnce : List (Turn Call Answer) :=
  delivery 0 outOfOrder ++ change 1 (.wait 10) ++ delivery 2 taken

theorem delivery_lawful_retried :
    StepsMeet step (Threads.Meets Covered) queued retriedOnce ∧
      Always step (fun s => Lawful s.shared) queued retriedOnce := by
  have hgood : StepsMeet step (Threads.Meets Covered) queued retriedOnce := by decide
  exact ⟨hgood, delivery_lawful _ _ _ _ _ hgood⟩

/-- While a delivery waits for its retry, `max_retries` falls to `0`; a worker claims it, and
`max_retries` is `1` again before the worker reads it.  Later a worker dies after its request. -/
def loweredBehind : List (Turn Call Answer) :=
  delivery 0 outOfOrder ++ change 1 (.wait 10) ++ change 2 (.configure (registered 0)) ++
    (.call .deliverDurableWebhook :: turns 3 2 taken) ++ change 4 (.configure (registered 1)) ++
    turns 3 5 outOfOrder ++ change 5 (.wait 10) ++
    (.call .deliverDurableWebhook :: turns 6 5 taken) ++ change 7 (.wait 301) ++
    (.call .deliverDurableWebhook :: turns 8 5 taken)

/-- A worker pauses before its request; its claim goes stale, and another worker succeeds. -/
def pausedBehind : List (Turn Call Answer) :=
  (.call .deliverDurableWebhook :: turns 0 4 taken) ++ change 1 (.wait 301) ++ delivery 2 taken ++
    turns 0 1 taken

theorem uncounted_and_late_requests :
    ¬ Always step (fun s => Lawful s.shared) queued loweredBehind ∧
      ¬ Always step (fun s => Lawful s.shared) queued pausedBehind := by
  constructor
  · intro h
    have hbounded := h.last.bounded
    revert hbounded
    decide
  · intro h
    have hlate := h.last.inTime 0
      [.recorded 1 .success, .requested 1, .claimed 1, .claimed 0] List.suffix_rfl
      (.recorded 1 .success) List.mem_cons_self
    cases hlate

end Vigabss.Webhooks
