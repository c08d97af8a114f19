import Vigabss.Sessions.Rotation

/-!
# Vigabss.Sessions.Families — a closed family stays closed

A rotation consumes the one live row of its family and puts one in its place, in one transaction,
and does nothing when the row is gone.  A family without rows can therefore get none again.  A
replay is noticed as long as the consumed row is kept, which rotation does until it has expired.
-/

namespace Vigabss.Sessions

open Vigabss.Lib

/-! ### The invariant -/

structure Sound (s : UserSessions) : Prop where
  ids : (s.rows.map Session.id).Nodup
  drawn : ∀ r ∈ s.rows, r.id < s.nextId
  owned : ∀ r ∈ s.rows, ∀ family, r.token_family = some family →
    s.owners[family]? = some r.user_id
  single : ∀ r ∈ s.rows, ∀ r' ∈ s.rows, r.consumed_at = none → r'.consumed_at = none →
    r.token_family = r'.token_family → r.token_family ≠ none → r.id = r'.id
  spent : ∀ old ∈ exchangedTokens s.history, old < s.nextId ∧
    ∀ r ∈ s.rows, r.id = old → r.consumed_at ≠ none
  once : (exchangedTokens s.history).Nodup
  shut : ∀ family, .closed family ∈ s.history → family < s.owners.length ∧
    ∀ r ∈ s.rows, r.token_family ≠ some family
  closedForGood : ClosedForGood s.history

/-- How the table may change under a call: rows go, or come with a new number. -/
structure Grows (s s' : UserSessions) : Prop where
  nextId : s.nextId ≤ s'.nextId
  owners : ∀ (family user : ℕ), s.owners[family]? = some user → s'.owners[family]? = some user
  rows : ∀ r' ∈ s'.rows, s.nextId ≤ r'.id ∨
    ∃ r ∈ s.rows, r'.id = r.id ∧ r'.user_id = r.user_id ∧ r'.token_family = r.token_family
  closed : ∀ family, .closed family ∈ s.history → .closed family ∈ s'.history

/-- What a call may rely on of a row it read. -/
structure Known (s : UserSessions) (session : Session) : Prop where
  drawn : session.id < s.nextId
  same : ∀ r ∈ s.rows, r.id = session.id →
    r.user_id = session.user_id ∧ r.token_family = session.token_family
  owned : ∀ family, session.token_family = some family →
    s.owners[family]? = some session.user_id

/-- What a call relies on where it stands. -/
def Relies (s : UserSessions) : Stage → Prop
  | .reusing session | .checking session | .rotating session | .ending session => Known s session
  | .endingOwn session user => Known s session ∧ session.user_id = user
  | .answered family => ∀ f, family = some f → .closed f ∈ s.history
  | _ => True

theorem Grows.refl (s : UserSessions) : Grows s s where
  nextId := Nat.le_refl _
  owners _ _ h := h
  rows r' h := Or.inr ⟨r', h, rfl, rfl, rfl⟩
  closed _ h := h

theorem Known.grows {s s' : UserSessions} {session : Session} (h : Known s session)
    (hgrows : Grows s s') : Known s' session where
  drawn := Nat.lt_of_lt_of_le h.drawn hgrows.nextId
  same r' hr' hid := by
    rcases hgrows.rows r' hr' with hnew | ⟨r, hr, hid', huser, hfamily⟩
    · have hold := h.drawn
      omega
    · obtain ⟨huser', hfamily'⟩ := h.same r hr (hid' ▸ hid)
      exact ⟨huser.trans huser', hfamily.trans hfamily'⟩
  owned family hfamily := hgrows.owners _ _ (h.owned family hfamily)

theorem Relies.grows {s s' : UserSessions} {t : Stage} (hgrows : Grows s s') (h : Relies s t) :
    Relies s' t := by
  cases t with
  | reusing session => exact Known.grows h hgrows
  | checking session => exact Known.grows h hgrows
  | rotating session => exact Known.grows h hgrows
  | ending session => exact Known.grows h hgrows
  | endingOwn session user => exact ⟨h.1.grows hgrows, h.2⟩
  | answered family => exact fun f hf => hgrows.closed f (h f hf)
  | _ => trivial

theorem ClosedForGood.cons {history : List Event} (h : ClosedForGood history) {e : Event}
    (he : ∀ old new family, e = .exchanged old new (some family) → .closed family ∉ history) :
    ClosedForGood (e :: history) := by
  intro old new family older hsuffix
  rcases List.suffix_cons_iff.1 hsuffix with heq | hold
  · rw [List.cons.injEq] at heq
    rw [heq.2]
    exact he old new family heq.1.symm
  · exact h old new family older hold

theorem length_le_one {rows : List Session} (hids : (rows.map Session.id).Nodup)
    (hsame : ∀ r ∈ rows, ∀ r' ∈ rows, r.id = r'.id) : rows.length ≤ 1 := by
  rcases rows with _ | ⟨r, _ | ⟨r', rows⟩⟩
  · exact Nat.zero_le _
  · exact Nat.le_refl _
  · have hid := hsame r (by simp) r' (by simp)
    simp [hid] at hids

theorem Sound.oneLive {s : UserSessions} (h : Sound s) (family : ℕ) :
    (s.live family).length ≤ 1 := by
  refine length_le_one (h.ids.sublist (List.filter_sublist.map _)) ?_
  intro r hr r' hr'
  simp only [UserSessions.live, List.mem_filter, decide_eq_true_eq] at hr hr'
  obtain ⟨hmem, hfamily, hlive⟩ := hr
  obtain ⟨hmem', hfamily', hlive'⟩ := hr'
  refine h.single r hmem r' hmem' hlive hlive' (hfamily.trans hfamily'.symm) ?_
  rw [hfamily]
  exact Option.some_ne_none _

/-! ### The deletions -/

theorem Sound.delete {s : UserSessions} (h : Sound s) (keep : Session → Bool) :
    Sound { s with rows := s.rows.filter keep } where
  ids := h.ids.sublist (List.filter_sublist.map _)
  drawn r hr := h.drawn r (List.mem_of_mem_filter hr)
  owned r hr := h.owned r (List.mem_of_mem_filter hr)
  single r hr r' hr' := h.single r (List.mem_of_mem_filter hr) r' (List.mem_of_mem_filter hr')
  spent old hold :=
    ⟨(h.spent old hold).1, fun r hr => (h.spent old hold).2 r (List.mem_of_mem_filter hr)⟩
  once := h.once
  shut family hclosed :=
    ⟨(h.shut family hclosed).1, fun r hr => (h.shut family hclosed).2 r (List.mem_of_mem_filter hr)⟩
  closedForGood := h.closedForGood

theorem grows_delete (s : UserSessions) (keep : Session → Bool) :
    Grows s { s with rows := s.rows.filter keep } where
  nextId := Nat.le_refl _
  owners _ _ h := h
  rows r' h := Or.inr ⟨r', List.mem_of_mem_filter h, rfl, rfl, rfl⟩
  closed _ h := h

theorem Sound.close {s : UserSessions} (h : Sound s) (families : List ℕ)
    (hempty : ∀ family ∈ families, family < s.owners.length ∧
      ∀ r ∈ s.rows, r.token_family ≠ some family) :
    Sound { s with history := families.map .closed ++ s.history } := by
  induction families with
  | nil => exact h
  | cons family families ih =>
    have hrest := ih fun f hf => hempty f (List.mem_cons_of_mem _ hf)
    refine ⟨h.ids, h.drawn, h.owned, h.single, hrest.spent, hrest.once, ?_,
      hrest.closedForGood.cons nofun⟩
    intro f hf
    rcases List.mem_cons.1 hf with heq | hold
    · cases heq
      exact hempty family List.mem_cons_self
    · exact hrest.shut f hold

theorem grows_close (s : UserSessions) (families : List ℕ) :
    Grows s { s with history := families.map .closed ++ s.history } where
  nextId := Nat.le_refl _
  owners _ _ h := h
  rows r' h := Or.inr ⟨r', h, rfl, rfl, rfl⟩
  closed _ h := List.mem_append_right _ h

theorem Grows.trans {s s' s'' : UserSessions} (h : Grows s s') (h' : Grows s' s'') :
    Grows s s'' where
  nextId := Nat.le_trans h.nextId h'.nextId
  owners family user hfamily := h'.owners _ _ (h.owners _ _ hfamily)
  rows r'' hr'' := by
    rcases h'.rows r'' hr'' with hnew | ⟨r', hr', hid, huser, hfamily⟩
    · exact Or.inl (Nat.le_trans h.nextId hnew)
    · rcases h.rows r' hr' with hnew | ⟨r, hr, hid', huser', hfamily'⟩
      · exact Or.inl (hid ▸ hnew)
      · exact Or.inr ⟨r, hr, hid.trans hid', huser.trans huser', hfamily.trans hfamily'⟩
  closed family hclosed := h'.closed _ (h.closed _ hclosed)

theorem Sound.shutDown {s : UserSessions} (h : Sound s) (keep : Session → Bool)
    (families : List ℕ) (hempty : ∀ family ∈ families, family < s.owners.length ∧
      ∀ r ∈ s.rows, keep r = true → r.token_family ≠ some family) :
    Sound { s with rows := s.rows.filter keep, history := families.map .closed ++ s.history } ∧
      Grows s
        { s with rows := s.rows.filter keep, history := families.map .closed ++ s.history } := by
  refine ⟨(h.delete keep).close families ?_,
    (grows_delete s keep).trans (grows_close { s with rows := s.rows.filter keep } families)⟩
  intro family hfamily
  obtain ⟨hlt, hgone⟩ := hempty family hfamily
  refine ⟨hlt, fun r hr => ?_⟩
  exact hgone r (List.mem_of_mem_filter hr) (List.mem_filter.1 hr).2

/-- What a statement keeps. -/
def Keeps (s s' : UserSessions) : Prop := Sound s' ∧ Grows s s'

theorem Known.lt {s : UserSessions} {session : Session} (h : Known s session) {family : ℕ}
    (hfamily : session.token_family = some family) : family < s.owners.length :=
  (List.getElem?_eq_some_iff.1 (h.owned family hfamily)).1

theorem Sound.endSession {s : UserSessions} (h : Sound s) (id : ℕ) : Keeps s (s.endSession id) :=
  ⟨h.delete _, grows_delete s _⟩

theorem Sound.endFamily {s : UserSessions} (h : Sound s) {family : ℕ}
    (hlt : family < s.owners.length) : Keeps s (s.endFamily family) := by
  refine h.shutDown (fun r => r.token_family ≠ some family) [family] ?_
  intro f hf
  rw [List.mem_singleton.1 hf]
  exact ⟨hlt, fun r _ hkeep => of_decide_eq_true hkeep⟩

theorem Sound.endSignIn {s : UserSessions} (h : Sound s) {session : Session}
    (hknown : Known s session) : Keeps s (s.endSignIn session) := by
  unfold UserSessions.endSignIn
  cases hfamily : session.token_family with
  | some family => exact h.endFamily (hknown.lt hfamily)
  | none => exact h.endSession session.id

theorem Sound.endOwnSignIn {s : UserSessions} (h : Sound s) {session : Session} {user : ℕ}
    (hknown : Known s session) (huser : session.user_id = user) :
    Keeps s (s.endOwnSignIn session user) := by
  unfold UserSessions.endOwnSignIn
  cases hfamily : session.token_family with
  | none => exact h.endSession session.id
  | some family =>
    refine h.shutDown (fun r => ¬ (r.token_family = some family ∧ r.user_id = user)) [family] ?_
    intro f hf
    rw [List.mem_singleton.1 hf]
    refine ⟨hknown.lt hfamily, fun r hr hkeep hrow => of_decide_eq_true hkeep ⟨hrow, ?_⟩⟩
    have howner := h.owned r hr family hrow
    rw [hknown.owned family hfamily] at howner
    rw [← Option.some.inj howner, huser]

theorem Sound.endUser {s : UserSessions} (h : Sound s) (user : ℕ) : Keeps s (s.endUser user) := by
  refine h.shutDown (fun r => r.user_id ≠ user) _ ?_
  intro family hfamily
  obtain ⟨r, hr, hrow⟩ := List.mem_filterMap.1 hfamily
  have howner := h.owned r (List.mem_of_mem_filter hr) family hrow
  rw [of_decide_eq_true (List.mem_filter.1 hr).2] at howner
  refine ⟨(List.getElem?_eq_some_iff.1 howner).1, fun r' hr' hkeep hrow' => ?_⟩
  have howner' := h.owned r' hr' family hrow'
  rw [howner] at howner'
  exact of_decide_eq_true hkeep (Option.some.inj howner').symm

/-! ### New rows -/

/-- A new row, of a family with no live row, joins the table. -/
theorem Sound.insert {s : UserSessions} (h : Sound s) (r : Session) (hid : r.id = s.nextId)
    (howned : ∀ family, r.token_family = some family → s.owners[family]? = some r.user_id)
    (hsingle : ∀ r' ∈ s.rows, r'.consumed_at = none → r.token_family ≠ none →
      r'.token_family ≠ r.token_family)
    (hopen : ∀ family, .closed family ∈ s.history → r.token_family ≠ some family) :
    Sound { s with rows := s.rows ++ [r], nextId := s.nextId + 1 } where
  ids := by
    rw [List.map_append, List.nodup_append]
    refine ⟨h.ids, List.nodup_singleton _, ?_⟩
    intro id hmem id' hid' heq
    obtain ⟨old, hold, rfl⟩ := List.mem_map.1 hmem
    rw [List.mem_singleton.1 hid', hid] at heq
    have hlt := h.drawn old hold
    omega
  drawn r' hr' := by
    rcases List.mem_append.1 hr' with hold | hnew
    · exact Nat.lt_succ_of_lt (h.drawn r' hold)
    · rw [List.mem_singleton.1 hnew, hid]
      exact Nat.lt_succ_self _
  owned r' hr' := by
    rcases List.mem_append.1 hr' with hold | hnew
    · exact h.owned r' hold
    · rw [List.mem_singleton.1 hnew]
      exact howned
  single r₁ hr₁ r₂ hr₂ hlive₁ hlive₂ hsame hfamily := by
    rcases List.mem_append.1 hr₁ with hold₁ | hnew₁
    · rcases List.mem_append.1 hr₂ with hold₂ | hnew₂
      · exact h.single r₁ hold₁ r₂ hold₂ hlive₁ hlive₂ hsame hfamily
      · obtain rfl := List.mem_singleton.1 hnew₂
        exact absurd hsame (hsingle r₁ hold₁ hlive₁ (hsame ▸ hfamily))
    · obtain rfl := List.mem_singleton.1 hnew₁
      rcases List.mem_append.1 hr₂ with hold₂ | hnew₂
      · exact absurd hsame.symm (hsingle r₂ hold₂ hlive₂ hfamily)
      · rw [List.mem_singleton.1 hnew₂]
  spent old hold := by
    obtain ⟨hlt, hconsumed⟩ := h.spent old hold
    refine ⟨Nat.lt_succ_of_lt hlt, fun r' hr' => ?_⟩
    rcases List.mem_append.1 hr' with hmem | hnew
    · exact hconsumed r' hmem
    · rw [List.mem_singleton.1 hnew, hid]
      intro heq
      omega
  once := h.once
  shut family hclosed := by
    obtain ⟨hlt, hgone⟩ := h.shut family hclosed
    refine ⟨hlt, fun r' hr' => ?_⟩
    rcases List.mem_append.1 hr' with hmem | hnew
    · exact hgone r' hmem
    · rw [List.mem_singleton.1 hnew]
      exact hopen family hclosed
  closedForGood := h.closedForGood

theorem grows_insert (s : UserSessions) (r : Session) (hid : r.id = s.nextId) :
    Grows s { s with rows := s.rows ++ [r], nextId := s.nextId + 1 } where
  nextId := Nat.le_succ _
  owners _ _ h := h
  rows r' hr' := by
    rcases List.mem_append.1 hr' with hold | hnew
    · exact Or.inr ⟨r', hold, rfl, rfl, rfl⟩
    · rw [List.mem_singleton.1 hnew, hid]
      exact Or.inl (Nat.le_refl _)
  closed _ h := h

theorem Sound.log {s : UserSessions} (h : Sound s) {e : Event} (hexchanged : e.exchanged? = none)
    (hclosed : ∀ family, e ≠ .closed family) : Keeps s (s.log e) := by
  refine ⟨⟨h.ids, h.drawn, h.owned, h.single, ?_, ?_, ?_, h.closedForGood.cons ?_⟩,
    ⟨Nat.le_refl _, fun _ _ h => h, fun r hr => Or.inr ⟨r, hr, rfl, rfl, rfl⟩,
      fun _ h => List.mem_cons_of_mem _ h⟩⟩
  · intro old hold
    rw [show exchangedTokens (s.log e).history = exchangedTokens s.history from
      List.filterMap_cons_none hexchanged] at hold
    exact h.spent old hold
  · rw [show exchangedTokens (s.log e).history = exchangedTokens s.history from
      List.filterMap_cons_none hexchanged]
    exact h.once
  · intro family hmem
    rcases List.mem_cons.1 hmem with heq | hold
    · exact absurd heq.symm (hclosed family)
    · exact h.shut family hold
  · rintro old new family rfl
    cases hexchanged

theorem Sound.enlist {s : UserSessions} (h : Sound s) (user : ℕ) :
    Keeps s { s with owners := s.owners ++ [user] } := by
  have hgrow : ∀ (family user' : ℕ), s.owners[family]? = some user' →
      (s.owners ++ [user])[family]? = some user' := by
    intro family user' hfamily
    rw [List.getElem?_append_left (List.getElem?_eq_some_iff.1 hfamily).1]
    exact hfamily
  refine ⟨⟨h.ids, h.drawn, fun r hr family hfamily => hgrow _ _ (h.owned r hr family hfamily),
    h.single, h.spent, h.once, fun family hclosed => ⟨?_, (h.shut family hclosed).2⟩,
    h.closedForGood⟩, ⟨Nat.le_refl _, hgrow, fun r hr => Or.inr ⟨r, hr, rfl, rfl, rfl⟩,
      fun _ h => h⟩⟩
  rw [List.length_append]
  exact Nat.lt_add_right _ (h.shut family hclosed).1

theorem Sound.issueSession {s : UserSessions} (h : Sound s) (user : ℕ) :
    Keeps s (s.issueSession user) := by
  obtain ⟨henlisted, hgrown⟩ := h.enlist user
  let row : Session := ⟨s.nextId, user, some s.owners.length, s.now + s.refresh_seconds, none⟩
  have hinserted := henlisted.insert row rfl ?_ ?_ ?_
  · have hlogged := hinserted.log (e := .signedIn s.nextId s.owners.length) rfl nofun
    exact ⟨hlogged.1, (hgrown.trans (grows_insert _ row rfl)).trans hlogged.2⟩
  · intro family hfamily
    cases hfamily
    simp [row]
  · intro r hr _ _ hfamily
    have howner := h.owned r hr _ hfamily
    have hlt := (List.getElem?_eq_some_iff.1 howner).1
    exact Nat.lt_irrefl _ hlt
  · intro family hclosed hfamily
    cases hfamily
    exact Nat.lt_irrefl _ (h.shut _ hclosed).1

/-! ### The rotation -/

theorem stamp_fields (id : ℕ) (now : ℤ) (r : Session) :
    (UserSessions.stamp id now r).id = r.id ∧ (UserSessions.stamp id now r).user_id = r.user_id ∧
      (UserSessions.stamp id now r).token_family = r.token_family := by
  unfold UserSessions.stamp
  split_ifs <;> exact ⟨rfl, rfl, rfl⟩

theorem stamp_live {id : ℕ} {now : ℤ} {r : Session}
    (h : (UserSessions.stamp id now r).consumed_at = none) : r.consumed_at = none ∧ r.id ≠ id := by
  unfold UserSessions.stamp at h
  split_ifs at h with hrow
  exact ⟨h, fun hid => hrow ⟨hid, h⟩⟩

/-- The live row of a session is consumed, and its exchange is on record. -/
theorem Sound.consume {s : UserSessions} (h : Sound s) {id : ℕ} {family : Option ℕ} (new : ℕ)
    (now : ℤ) {live : Session} (hlive : live ∈ s.rows) (hid : live.id = id)
    (hopen : live.consumed_at = none) (hfamily : live.token_family = family) :
    Sound { s with
      rows := s.rows.map (UserSessions.stamp id now)
      history := .exchanged id new family :: s.history } where
  ids := by
    rw [List.map_map]
    have hsame : (Session.id ∘ UserSessions.stamp id now) = Session.id :=
      funext fun r => (stamp_fields id now r).1
    rw [hsame]
    exact h.ids
  drawn r' hr' := by
    obtain ⟨r, hr, rfl⟩ := List.mem_map.1 hr'
    rw [(stamp_fields id now r).1]
    exact h.drawn r hr
  owned r' hr' := by
    obtain ⟨r, hr, rfl⟩ := List.mem_map.1 hr'
    rw [(stamp_fields id now r).2.1, (stamp_fields id now r).2.2]
    exact h.owned r hr
  single r₁' hr₁' r₂' hr₂' hlive₁ hlive₂ := by
    obtain ⟨r₁, hr₁, rfl⟩ := List.mem_map.1 hr₁'
    obtain ⟨r₂, hr₂, rfl⟩ := List.mem_map.1 hr₂'
    rw [(stamp_fields id now r₁).1, (stamp_fields id now r₁).2.2, (stamp_fields id now r₂).1,
      (stamp_fields id now r₂).2.2]
    exact h.single r₁ hr₁ r₂ hr₂ (stamp_live hlive₁).1 (stamp_live hlive₂).1
  spent old hold := by
    rcases List.mem_cons.1 hold with rfl | hbefore
    · refine ⟨hid ▸ h.drawn live hlive, fun r' hr' hsame hnone => ?_⟩
      obtain ⟨r, hr, rfl⟩ := List.mem_map.1 hr'
      rw [(stamp_fields _ now r).1] at hsame
      exact (stamp_live hnone).2 hsame
    · obtain ⟨hlt, hconsumed⟩ := h.spent old hbefore
      refine ⟨hlt, fun r' hr' hsame hnone => ?_⟩
      obtain ⟨r, hr, rfl⟩ := List.mem_map.1 hr'
      rw [(stamp_fields _ now r).1] at hsame
      exact hconsumed r hr hsame (stamp_live hnone).1
  once := by
    refine List.nodup_cons.2 ⟨fun hmem => ?_, h.once⟩
    exact (h.spent id hmem).2 live hlive hid hopen
  shut f hclosed := by
    rcases List.mem_cons.1 hclosed with heq | hold
    · cases heq
    · refine ⟨(h.shut f hold).1, fun r' hr' => ?_⟩
      obtain ⟨r, hr, rfl⟩ := List.mem_map.1 hr'
      rw [(stamp_fields id now r).2.2]
      exact (h.shut f hold).2 r hr
  closedForGood := by
    refine h.closedForGood.cons ?_
    intro old new' f heq hclosed
    rw [Event.exchanged.injEq] at heq
    exact (h.shut f hclosed).2 live hlive (hfamily.trans heq.2.2)

theorem grows_consume (s : UserSessions) (id new : ℕ) (family : Option ℕ) (now : ℤ) :
    Grows s { s with
      rows := s.rows.map (UserSessions.stamp id now)
      history := .exchanged id new family :: s.history } where
  nextId := Nat.le_refl _
  owners _ _ h := h
  rows r' hr' := by
    obtain ⟨r, hr, rfl⟩ := List.mem_map.1 hr'
    exact Or.inr ⟨r, hr, stamp_fields id now r⟩
  closed _ h := List.mem_cons_of_mem _ h

/-- **The rotation** keeps one live row in the family, and does nothing without one. -/
theorem Sound.consumeAndReplace {s : UserSessions} (h : Sound s) {session : Session}
    (hknown : Known s session) : Keeps s (s.consumeAndReplace session) := by
  unfold UserSessions.consumeAndReplace
  split_ifs with hany
  · obtain ⟨live, hlive, hrow⟩ := List.any_eq_true.1 hany
    obtain ⟨hid, hopen⟩ := of_decide_eq_true hrow
    have hfamily := (hknown.same live hlive hid).2
    have hconsumed := h.consume s.nextId s.now hlive hid hopen hfamily
    have hinserted := hconsumed.insert (s.successor session) rfl hknown.owned ?_ ?_
    · have hgrown := (grows_consume s session.id s.nextId session.token_family s.now).trans
        (grows_insert _ (s.successor session) rfl)
      exact ⟨hinserted.delete _, hgrown.trans (grows_delete _ _)⟩
    · -- the row that was live in the family is the one consumed
      intro r' hr' hnone hsome hsame
      obtain ⟨r, hr, rfl⟩ := List.mem_map.1 hr'
      obtain ⟨hbefore, hother⟩ := stamp_live hnone
      rw [(stamp_fields session.id s.now r).2.2] at hsame
      refine hother ((h.single r hr live hlive hbefore hopen ?_ ?_).trans hid)
      · exact hsame.trans hfamily.symm
      · rw [hsame]
        exact hsome
    · intro family hclosed hsame
      exact (hconsumed.shut family hclosed).2 (UserSessions.stamp session.id s.now live)
        (List.mem_map_of_mem hlive)
        ((stamp_fields session.id s.now live).2.2.trans (hfamily.trans hsame))
  · exact ⟨h, Grows.refl s⟩

/-! ### The turns -/

theorem effect_cases (P : UserSessions → Prop) (e : SqlEnd) {f : UserSessions → UserSessions}
    {s : UserSessions} (hs : P s) (hf : P (f s)) : P (effect e f s) := by
  unfold effect
  split_ifs
  · exact hs
  · exact hf

theorem Sound.effect {s : UserSessions} (h : Sound s) (e : SqlEnd)
    {f : UserSessions → UserSessions} (hf : Keeps s (f s)) : Keeps s (effect e f s) :=
  effect_cases (Keeps s) e ⟨h, Grows.refl s⟩ hf

theorem Sound.known {s : UserSessions} (h : Sound s) {r : Session} (hr : r ∈ s.rows) :
    Known s r where
  drawn := h.drawn r hr
  same r' hr' hid := by
    obtain rfl := List.inj_on_of_nodup_map h.ids hr' hr hid
    exact ⟨rfl, rfl⟩
  owned := h.owned r hr

theorem find_mem {s : UserSessions} {id : ℕ} {r : Session} (h : s.find id = some r) :
    r ∈ s.rows := List.mem_of_find?_eq_some h

theorem relies_getD {s : UserSessions} {found : Option Session} {f : Session → Stage}
    (h : ∀ r, found = some r → Relies s (f r)) : Relies s ((found.map f).getD .done) := by
  cases found with
  | none => trivial
  | some r => exact h r rfl

theorem relies_examine {s : UserSessions} {user : Option ℕ} {session : Session}
    (h : Known s session) : Relies s (examine s user session) := by
  unfold examine
  split_ifs
  · trivial
  · exact h
  · trivial
  · exact h
  · exact h

theorem Sound.wait {s : UserSessions} (h : Sound s) (seconds : ℕ) : Keeps s (s.wait seconds) :=
  ⟨⟨h.ids, h.drawn, h.owned, h.single, h.spent, h.once, h.shut, h.closedForGood⟩,
    ⟨Nat.le_refl _, fun _ _ h => h, fun r hr => Or.inr ⟨r, hr, rfl, rfl, rfl⟩, fun _ h => h⟩⟩

theorem closed_endSignIn (s : UserSessions) {session : Session} {family : ℕ}
    (h : session.token_family = some family) :
    .closed family ∈ (s.endSignIn session).history := by
  simp [UserSessions.endSignIn, h, UserSessions.endFamily]

/-- **One statement** of a sign-in, a rotation, a logout or a revocation. -/
theorem turn_keeps (s : UserSessions) (t : Stage) (a : Answer) (hs : Sound s) (ht : Relies s t) :
    Keeps s (next s t a).1 ∧ Relies (next s t a).1 (next s t a).2 := by
  have hsame : Keeps s s := ⟨hs, Grows.refl s⟩
  cases t with
  | issuing user => exact ⟨hs.effect a.sql (hs.issueSession user), trivial⟩
  | authorizing user token =>
    refine ⟨hsame, ?_⟩
    simp only [next]
    split_ifs <;> trivial
  | looking token user =>
    by_cases hsql : a.sql = .ok
    · have hlogged : Keeps s (s.log (.presented token)) := hs.log rfl nofun
      simp only [next, if_pos hsql]
      refine ⟨hlogged, relies_getD fun r hfound => ?_⟩
      exact (relies_examine (hs.known (find_mem hfound))).grows hlogged.2
    · simp only [next, if_neg hsql]
      exact ⟨hsame, trivial⟩
  | reusing session =>
    refine ⟨hs.effect a.sql (hs.endSignIn ht), ?_⟩
    by_cases hsql : a.sql = .ok
    · simp only [next, if_pos hsql]
      intro family hfamily
      simpa [Vigabss.Sessions.effect, hsql] using closed_endSignIn s hfamily
    · simp only [next, if_neg hsql]
      trivial
  | expiring id => exact ⟨hs.effect a.sql (hs.endSession id), trivial⟩
  | checking session =>
    refine ⟨hsame, ?_⟩
    simp only [next]
    split_ifs
    · exact ht
    · trivial
  | rotating session => exact ⟨hs.effect a.sql (hs.consumeAndReplace ht), trivial⟩
  | leaving token =>
    refine ⟨hsame, ?_⟩
    simp only [next]
    split_ifs
    · exact relies_getD fun r hfound => hs.known (find_mem hfound)
    · trivial
  | ending session => exact ⟨hs.effect a.sql (hs.endSignIn ht), trivial⟩
  | revoking user id =>
    refine ⟨hsame, ?_⟩
    simp only [next]
    split_ifs
    · refine relies_getD fun r hfound => ?_
      obtain ⟨hmem, hown⟩ := Option.filter_eq_some_iff.1 hfound
      exact ⟨hs.known (find_mem hmem), (of_decide_eq_true hown).1⟩
    · trivial
  | endingOwn session user =>
    exact ⟨hs.effect a.sql (hs.endOwnSignIn ht.1 ht.2), trivial⟩
  | endingUser user => exact ⟨hs.effect a.sql (hs.endUser user), trivial⟩
  | waiting seconds => exact ⟨hs.wait seconds, trivial⟩
  | answered family => exact ⟨hsame, ht⟩
  | done => exact ⟨hsame, trivial⟩

/-! ### The law -/

theorem relies_start (s : UserSessions) (c : Call) : Relies s (start c) := by
  cases c <;> trivial

theorem sound_opened (legacy : List (ℕ × ℤ)) (refreshSeconds : ℕ) (now : ℤ) :
    Sound (opened legacy refreshSeconds now) where
  ids := by
    have hids : (opened legacy refreshSeconds now).rows.map Session.id =
        List.range' 0 legacy.length := by
      simp only [opened, List.map_map]
      exact List.zipIdx_map_snd 0 legacy
    rw [hids]
    exact List.nodup_range'
  drawn r hr := by
    obtain ⟨e, he, rfl⟩ := List.mem_map.1 hr
    have hlt := (List.mem_zipIdx he).2.1
    show e.2 < legacy.length
    omega
  owned r hr family hfamily := by
    obtain ⟨e, he, rfl⟩ := List.mem_map.1 hr
    cases hfamily
  single r hr r' hr' _ _ _ hfamily := by
    obtain ⟨e, he, rfl⟩ := List.mem_map.1 hr
    exact absurd rfl hfamily
  spent := nofun
  once := List.nodup_nil
  shut := nofun
  closedForGood old new family older h := by cases List.suffix_nil.1 h

/-- **The families** in every run: one live token, one successor each, and a family that was closed
by a replay that was answered, by a logout or by a revocation accepts none again. -/
theorem families_lawful (legacy : List (ℕ × ℤ)) (refreshSeconds : ℕ) (now : ℤ)
    (is : List (Turn Call Answer)) :
    Always step Lawful (Threads.idle (opened legacy refreshSeconds now)) is := by
  have hall := @Threads.always_grows _ _ _ _ start next Sound Relies (fun _ _ _ => True) Grows
    (fun s s' u hgrows hu => hu.grows hgrows) relies_start ?_ _
    (sound_opened legacy refreshSeconds now) is (stepsMeet_meets _ is)
  · refine hall.mono fun s hs => ?_
    exact
      { oneLive := hs.1.oneLive
        oneSuccessor := hs.1.once
        answered := fun family hmem => hs.2 _ hmem family rfl
        closedForGood := hs.1.closedForGood }
  · intro s t a hs ht _
    obtain ⟨⟨hsound, hgrows⟩, hrelies⟩ := turn_keeps s t a hs ht
    exact ⟨hsound, hrelies, hgrows⟩

/-! ### A replay behind the retention -/

/-- The statement takes effect, and the user is admitted. -/
def goesWell : Answer := ⟨.ok, true⟩

/-- Thread `i` runs a call to its end. -/
def runs (i : ℕ) (c : Call) : List (Turn Call Answer) :=
  .call c :: List.replicate 3 (.turn i goesWell)

/-- A sign-in, and a refresh on each of the days 6 and 8; on day 9 the first token is presented
again, whose row is gone, and the third is refreshed. -/
def replayedLate : List (Turn Call Answer) :=
  runs 0 (.login 1) ++ runs 1 (.wait 518400) ++ runs 2 (.refreshToken 0) ++ runs 3 (.wait 172800) ++
    runs 4 (.refreshToken 1) ++ runs 5 (.wait 86400) ++ runs 6 (.refreshToken 0) ++
    runs 7 (.refreshToken 2)

theorem late_replay_unnoticed :
    ¬ Always step (fun s => NoneAfterReplay s.shared.history)
      (Threads.idle (opened [] 604800 0)) replayedLate := by
  intro h
  exact h.last 2 3 0 _ List.suffix_rfl 0 _ (List.suffix_cons_iff.2 (Or.inr List.suffix_rfl)) 1
    (by decide)

end Vigabss.Sessions
