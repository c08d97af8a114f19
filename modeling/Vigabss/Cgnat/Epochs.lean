import Mathlib
import Vigabss.Cgnat.Sequence

/-!
# Vigabss.Cgnat.Epochs — what configurations keep

Each configuration is one evidence epoch.  `Separate` says that no token is bound to two of them,
that the enabled ones of an organization have disjoint pools, and that a retired one is not
enabled; every save and approval keeps it.  `Follows` relates two states of one run: what has
become evidence in the first is the same in the second.
-/

namespace Vigabss.Cgnat

open Vigabss.Lib

/-- The public addresses of a configuration, as numbers. -/
def Exporter.pool (c : Exporter) : Set ℕ :=
  Set.Icc (ipv4Number c.publicIpv4Start) (ipv4Number c.publicIpv4End)

/-- **Separate epochs**.  Tokens are apart in the whole system, pools within an organization. -/
structure Separate (owners : TokenOwners) (db : Db) : Prop where
  owned : ∀ c ∈ db.exporters.rows, ∀ token, c.bindsToken token = true →
    owners token = c.organizationId
  tokens : ∀ c ∈ db.exporters.rows, ∀ d ∈ db.exporters.rows, ∀ token,
    c.bindsToken token = true → d.bindsToken token = true → c.id = d.id
  pools : ∀ c ∈ db.exporters.rows, ∀ d ∈ db.exporters.rows, c.id ≠ d.id →
    c.organizationId = d.organizationId → c.enabled = true → d.enabled = true →
    Disjoint c.pool d.pool
  retired : ∀ c ∈ db.exporters.rows, c.retiredAt.isSome = true → c.enabled = false

/-- What a later version `c'` of the configuration `c` keeps. -/
structure Successor (db : Db) (c c' : Exporter) : Prop where
  identity : c'.identity = c.identity
  evidentiary : db.eventsOf c.organizationId c.id ≠ [] → c'.evidentiary = c.evidentiary
  disabled : db.eventsOf c.organizationId c.id ≠ [] → c.enabled = false → c'.enabled = false
  retired : c.retiredAt.isSome = true → c'.retiredAt = c.retiredAt ∧ c'.enabled = false

/-- The state `db'` is a later one than `db`. -/
structure Follows (db db' : Db) : Prop where
  exporters : ∀ c ∈ db.exporters.rows, ∃ c' ∈ db'.exporters.rows, c'.id = c.id ∧ Successor db c c'
  events : ∀ e ∈ db.events, e ∈ db'.events

/-! ### One configuration -/

section Configuration

variable {c d : Exporter}

theorem pool_disjoint (h : c.meets d.publicIpv4Start d.publicIpv4End = false) :
    Disjoint d.pool c.pool := by
  refine Set.disjoint_left.2 fun x hd hc => ?_
  have hmeets : c.meets d.publicIpv4Start d.publicIpv4End = true := by
    simp only [Exporter.meets, decide_eq_true_eq]
    exact ⟨hc.1.trans hd.2, hd.1.trans hc.2⟩
  rw [h] at hmeets
  cases hmeets

theorem bindsToken_iff {token : ℕ} :
    c.bindsToken token = true ↔
      token = c.collectorApiTokenId ∨ c.recoveryCollectorApiTokenId = some token := by
  simp only [Exporter.bindsToken, decide_eq_true_eq, @eq_comm _ token]

theorem eq_of_settings {α : Type} (f : Exporter → α) (hf : ∀ x, f x.settings = f x)
    (h : c.settings = d.settings) : f c = f d := by
  rw [← hf c, h, hf d]

/-- What `checkEpoch` lets a save change: of an epoch with evidence, nothing evidentiary, and it
is not enabled again. -/
theorem checkEpoch_ok {db : Db} {organizationId : ℕ} {request : ExporterRequest}
    {first last : String} (h : checkEpoch db organizationId c request first last = .ok ()) :
    c.evidentiary = request.evidentiary first last ∧
      (request.enabled = true → c.enabled = true) := by
  unfold checkEpoch at h
  obtain ⟨hfields, h⟩ := check_ok h
  obtain ⟨henabled, -⟩ := check_ok h
  refine ⟨not_not.1 hfields, fun hrequest => ?_⟩
  by_contra hc
  exact henabled ⟨hrequest, hc⟩

variable {db : Db}

theorem Successor.refl {owners : TokenOwners} (h : Separate owners db)
    (hc : c ∈ db.exporters.rows) : Successor db c c :=
  ⟨rfl, fun _ => rfl, fun _ hd => hd, fun hr => ⟨rfl, h.retired c hc hr⟩⟩

theorem Successor.of_settings {owners : TokenOwners} (h : Separate owners db)
    (hc : c ∈ db.exporters.rows) (hd : d.settings = c.settings) : Successor db c d where
  identity := eq_of_settings Exporter.identity (fun _ => rfl) hd
  evidentiary _ := eq_of_settings Exporter.evidentiary (fun _ => rfl) hd
  disabled _ hdisabled := (eq_of_settings Exporter.enabled (fun _ => rfl) hd).trans hdisabled
  retired hr := ⟨eq_of_settings Exporter.retiredAt (fun _ => rfl) hd,
    (eq_of_settings Exporter.enabled (fun _ => rfl) hd).trans (h.retired c hc hr)⟩

theorem Follows.hasEvidence {db' : Db} (h : Follows db db') {organizationId id : ℕ}
    (hevents : db.eventsOf organizationId id ≠ []) : db'.eventsOf organizationId id ≠ [] := by
  obtain ⟨e, he⟩ := List.exists_mem_of_ne_nil _ hevents
  obtain ⟨hmem, hof⟩ := mem_eventsOf.1 he
  exact List.ne_nil_of_mem (mem_eventsOf.2 ⟨h.events e hmem, hof⟩)

theorem Follows.refl {owners : TokenOwners} (h : Separate owners db) : Follows db db :=
  ⟨fun c hc => ⟨c, hc, rfl, .refl h hc⟩, fun _ he => he⟩

theorem Follows.trans {db' db'' : Db} (h : Follows db db') (h' : Follows db' db'') :
    Follows db db'' := by
  refine ⟨fun c hc => ?_, fun e he => h'.events e (h.events e he)⟩
  obtain ⟨c', hc', hid, hs⟩ := h.exporters c hc
  obtain ⟨c'', hc'', hid', hs'⟩ := h'.exporters c' hc'
  have hkept : db.eventsOf c.organizationId c.id ≠ [] →
      db'.eventsOf c'.organizationId c'.id ≠ [] := by
    have horg : c'.organizationId = c.organizationId := congrArg (·.1) hs.identity
    rw [hid, horg]
    exact h.hasEvidence
  refine ⟨c'', hc'', hid'.trans hid, hs'.identity.trans hs.identity, fun he => ?_,
    fun he hdisabled => hs'.disabled (hkept he) (hs.disabled he hdisabled), fun hr => ?_⟩
  · exact (hs'.evidentiary (hkept he)).trans (hs.evidentiary he)
  · obtain ⟨hretired, -⟩ := hs.retired hr
    obtain ⟨hretired', hdisabled⟩ := hs'.retired (by rw [hretired]; exact hr)
    exact ⟨hretired'.trans hretired, hdisabled⟩

end Configuration

/-! ### Saving one -/

section Save

variable {owners : TokenOwners} {db : Db} {c : Exporter}

/-- A configuration may be saved that is apart from the others. -/
theorem Separate.save (h : Separate owners db)
    (howned : ∀ token, c.bindsToken token = true → owners token = c.organizationId)
    (htokens : ∀ d ∈ db.exporters.rows, d.id ≠ c.id → d.organizationId = c.organizationId →
      ∀ token, c.bindsToken token = true → d.bindsToken token = false)
    (hpools : c.enabled = true → ∀ d ∈ db.exporters.rows, d.id ≠ c.id →
      d.organizationId = c.organizationId → d.enabled = true → Disjoint c.pool d.pool)
    (hretired : c.retiredAt.isSome = true → c.enabled = false) :
    Separate owners (db.save c) := by
  have hshared : ∀ d ∈ db.exporters.rows, ∀ token, c.bindsToken token = true →
      d.bindsToken token = true → c.id = d.id := by
    intro d hd token hc hdt
    by_contra hne
    have horg : d.organizationId = c.organizationId :=
      (h.owned d hd token hdt).symm.trans (howned token hc)
    rw [htokens d hd (Ne.symm hne) horg token hc] at hdt
    cases hdt
  refine ⟨fun x hx => ?_, fun x hx y hy token hxt hyt => ?_, fun x hx y hy hne horg hex hey => ?_,
    fun x hx => ?_⟩
  · rcases Table.mem_put.1 hx with rfl | ⟨hx, -⟩
    · exact howned
    · exact h.owned x hx
  · rcases Table.mem_put.1 hx with rfl | ⟨hx', -⟩ <;>
      rcases Table.mem_put.1 hy with rfl | ⟨hy', -⟩
    · rfl
    · exact hshared y hy' token hxt hyt
    · exact (hshared x hx' token hyt hxt).symm
    · exact h.tokens x hx' y hy' token hxt hyt
  · rcases Table.mem_put.1 hx with rfl | ⟨hx', hxc⟩ <;>
      rcases Table.mem_put.1 hy with rfl | ⟨hy', hyc⟩
    · exact absurd rfl hne
    · exact hpools hex y hy' hyc horg.symm hey
    · exact (hpools hey x hx' hxc horg hex).symm
    · exact h.pools x hx' y hy' hne horg hex hey
  · rcases Table.mem_put.1 hx with rfl | ⟨hx, -⟩
    · exact hretired
    · exact h.retired x hx

theorem Follows.save (h : Separate owners db)
    (hc : ∀ e ∈ db.exporters.rows, e.id = c.id → Successor db e c) : Follows db (db.save c) := by
  refine ⟨fun e he => ?_, fun _ he => he⟩
  by_cases hid : e.id = c.id
  · exact ⟨c, Table.mem_put.2 (.inl rfl), hid.symm, hc e he hid⟩
  · exact ⟨e, Table.mem_put.2 (.inr ⟨he, hid⟩), rfl, .refl h he⟩

variable {organizationId : ℕ} {actor : Option ℕ} {now : ℤ} {existing : Option Exporter}
  {request : ExporterRequest} {first last : String}

theorem mem_othersOf_saved {base d : Exporter}
    (hbase : Base db organizationId request existing base) (hd : d ∈ db.exporters.rows)
    (hne : d.id ≠ base.id) (horg : d.organizationId = organizationId) :
    d ∈ othersOf db organizationId existing := by
  refine mem_othersOf.2 ⟨hd, horg, fun e he heq => ?_⟩
  cases hbase with
  | stored _ =>
    obtain rfl := Option.some.inj he
    exact hne heq.symm
  | fresh => cases he

/-- **A save** keeps the epochs separate. -/
theorem Saves.separate (h : Saves owners db organizationId actor now existing request first last c)
    (hs : Separate owners db) : Separate owners (db.save c) := by
  cases h.row with
  | @epoch e hexisting hevidence hcheck =>
    obtain ⟨he, -⟩ := h.existing_mem hexisting
    obtain ⟨-, henabled⟩ := checkEpoch_ok hcheck
    refine hs.save (hs.owned e he) (fun d hd hne _ token hc => ?_)
      (fun hen d hd hne horg hd' => ?_) fun hr => ?_
    · by_contra hdt
      exact hne (hs.tokens d hd e he token (by simpa using hdt) hc)
    · exact hs.pools e he d hd (Ne.symm hne) horg.symm (henabled hen) hd'
    · -- retired now, or before
      by_cases hretires : (!request.enabled && e.enabled) = true
      · have hdisabled : request.enabled = false := by
          simpa using (Bool.and_eq_true_iff.1 hretires).1
        exact hdisabled
      · refine h.retired e hexisting ?_
        simpa only [Exporter.afterEpoch, if_neg hretires] using hr
  | @configured base hbase hoverlap =>
    have hbaseorg : base.organizationId = organizationId := by
      cases hbase with
      | stored _ => exact congrArg (·.1) (h.existing_mem rfl).2
      | fresh => rfl
    -- the recovery token is the one that the exporter had
    have hrecovery : ∀ token, base.recoveryCollectorApiTokenId = some token →
        base ∈ db.exporters.rows ∧ base.bindsToken token = true := by
      intro token htoken
      cases hbase with
      | stored _ => exact ⟨(h.existing_mem rfl).1, bindsToken_iff.2 (.inr htoken)⟩
      | fresh => cases htoken
    refine hs.save (fun token hc => ?_) (fun d hd hne horg token hc => ?_)
      (fun hen d hd hne horg hd' => ?_) fun hr => ?_
    · rcases bindsToken_iff.1 hc with rfl | hc
      · rcases h.token with ⟨e, he, htoken⟩ | howner
        · obtain ⟨hmem, hid⟩ := h.existing_mem he
          have horg : e.organizationId = organizationId := congrArg (·.1) hid
          have := hs.owned e hmem _ (bindsToken_iff.2 (.inl htoken))
          exact this.trans (horg.trans hbaseorg.symm)
        · exact howner.trans hbaseorg.symm
      · obtain ⟨hmem, hbinds⟩ := hrecovery token hc
        exact hs.owned base hmem token hbinds
    · rcases bindsToken_iff.1 hc with rfl | hc
      · exact h.unbound d (mem_othersOf_saved hbase hd hne (horg.trans hbaseorg))
      · obtain ⟨hmem, hbinds⟩ := hrecovery token hc
        by_contra hdt
        exact hne (hs.tokens d hd base hmem token (by simpa using hdt) hbinds)
    · exact pool_disjoint
        (hoverlap hen d (mem_othersOf_saved hbase hd hne (horg.trans hbaseorg)) hd')
    · cases hbase with
      | stored _ => exact h.retired base rfl hr
      | fresh => cases hr

/-- **A save** keeps what has become evidence. -/
theorem Saves.follows (h : Saves owners db organizationId actor now existing request first last c)
    (hs : Separate owners db) : Follows db (db.save c) := by
  refine .save hs fun x hx hid => ?_
  cases h.row with
  | @epoch e hexisting hevidence hcheck =>
    obtain rfl : x = e := Table.eq_of_key_eq hx (h.existing_mem hexisting).1 hid
    obtain ⟨hfields, henabled⟩ := checkEpoch_ok hcheck
    refine ⟨rfl, fun _ => rfl, fun _ hdisabled => ?_, fun hr => ?_⟩
    · have hrequest : request.enabled = false := by
        by_contra hen
        rw [henabled (by simpa using hen)] at hdisabled
        cases hdisabled
      exact hrequest
    · refine ⟨?_, h.retired x hexisting hr⟩
      obtain ⟨t, ht⟩ := Option.isSome_iff_exists.1 hr
      simp [Exporter.afterEpoch, ht]
  | @configured base hbase hoverlap =>
    cases hbase with
    | stored hnone =>
      obtain rfl : x = base := Table.eq_of_key_eq hx (h.existing_mem rfl).1 hid
      obtain ⟨-, hidentity⟩ := h.existing_mem rfl
      have horg : x.organizationId = organizationId := congrArg (·.1) hidentity
      rw [← horg] at hnone
      exact ⟨rfl, fun hev => absurd hnone hev, fun hev => absurd hnone hev,
        fun hr => ⟨rfl, h.retired x rfl hr⟩⟩
    | fresh => exact absurd hid (Table.key_lt_nextId hx).ne

/-- **An approval** keeps both. -/
theorem recovered_separate {token : ℕ} {reference : String} (hs : Separate owners db)
    (hc : c ∈ db.exporters.rows) (horg : c.organizationId = organizationId)
    (howner : owners token = organizationId)
    (hunbound : ∀ d ∈ othersOf db organizationId none, d.bindsToken token = false) :
    Separate owners (db.save (c.recovered token reference actor now)) ∧
      Follows db (db.save (c.recovered token reference actor now)) := by
  have hcases : ∀ t, (c.recovered token reference actor now).bindsToken t = true →
      t = token ∨ c.bindsToken t = true := by
    intro t ht
    rcases bindsToken_iff.1 ht with ht | ht
    · exact .inr (bindsToken_iff.2 (.inl ht))
    · exact .inl (Option.some.inj ht).symm
  refine ⟨hs.save (fun t ht => ?_) (fun d hd hne hdorg t ht => ?_)
    (fun hen d hd hne hdorg hd' => hs.pools c hc d hd (Ne.symm hne) hdorg.symm hen hd')
    (hs.retired c hc), .save hs fun x hx hid => ?_⟩
  · rcases hcases t ht with rfl | ht
    · exact howner.trans horg.symm
    · exact hs.owned c hc t ht
  · rcases hcases t ht with rfl | ht
    · exact hunbound d (mem_othersOf.2 ⟨hd, hdorg.trans horg, by simp⟩)
    · by_contra hdt
      exact hne (hs.tokens d hd c hc t (by simpa using hdt) ht)
  · obtain rfl : x = c := Table.eq_of_key_eq hx hc hid
    exact ⟨rfl, fun _ => rfl, fun _ hdisabled => hdisabled,
      fun hr => ⟨rfl, hs.retired x hx hr⟩⟩

end Save

/-! ### Batches -/

/-- The records of a transaction write only the counters of stored configurations. -/
def KeepsSettings (db : Db) (ws : List Write) : Prop :=
  ∀ c ∈ writtenExporters ws, ∃ d ∈ db.exporters.rows, c.settings = d.settings

/-- Each configuration of `db'` is one of `db`, up to its counters. -/
def SameSettings (db db' : Db) : Prop :=
  ∀ c ∈ db'.exporters.rows, ∃ d ∈ db.exporters.rows, c.settings = d.settings

section Batches

variable {owners : TokenOwners} {db db' : Db} {ws us : List Write}

theorem Separate.sameSettings (h : Separate owners db) (hs : SameSettings db db') :
    Separate owners db' := by
  refine ⟨fun c hc token hct => ?_, fun c hc d hd token hct hdt => ?_,
    fun c hc d hd hne horg hce hde => ?_, fun c hc hr => ?_⟩ <;>
    obtain ⟨c', hc', hcs⟩ := hs c hc
  · have hbinds : c.bindsToken token = c'.bindsToken token :=
      eq_of_settings (Exporter.bindsToken · token) (fun _ => rfl) hcs
    have horg : c.organizationId = c'.organizationId := eq_of_settings Exporter.organizationId (fun _ => rfl) hcs
    rw [horg]
    exact h.owned c' hc' token (hbinds ▸ hct)
  · obtain ⟨d', hd', hds⟩ := hs d hd
    have hcb : c.bindsToken token = c'.bindsToken token :=
      eq_of_settings (Exporter.bindsToken · token) (fun _ => rfl) hcs
    have hdb : d.bindsToken token = d'.bindsToken token :=
      eq_of_settings (Exporter.bindsToken · token) (fun _ => rfl) hds
    have hcid : c.id = c'.id := eq_of_settings Exporter.id (fun _ => rfl) hcs
    have hdid : d.id = d'.id := eq_of_settings Exporter.id (fun _ => rfl) hds
    rw [hcid, hdid]
    exact h.tokens c' hc' d' hd' token (hcb ▸ hct) (hdb ▸ hdt)
  · obtain ⟨d', hd', hds⟩ := hs d hd
    have hpools : Disjoint c'.pool d'.pool := by
      refine h.pools c' hc' d' hd' ?_ ?_ ?_ ?_
      · exact fun heq => hne ((eq_of_settings Exporter.id (fun _ => rfl) hcs).trans (heq.trans
          (eq_of_settings Exporter.id (fun _ => rfl) hds).symm))
      · exact (eq_of_settings Exporter.organizationId (fun _ => rfl) hcs).symm.trans (horg.trans
          (eq_of_settings Exporter.organizationId (fun _ => rfl) hds))
      · exact (eq_of_settings Exporter.enabled (fun _ => rfl) hcs).symm.trans hce
      · exact (eq_of_settings Exporter.enabled (fun _ => rfl) hds).symm.trans hde
    have hcp : c.pool = c'.pool := eq_of_settings Exporter.pool (fun _ => rfl) hcs
    have hdp : d.pool = d'.pool := eq_of_settings Exporter.pool (fun _ => rfl) hds
    rwa [hcp, hdp]
  · have hretired : c.retiredAt = c'.retiredAt := eq_of_settings Exporter.retiredAt (fun _ => rfl) hcs
    exact (eq_of_settings Exporter.enabled (fun _ => rfl) hcs).trans (h.retired c' hc' (hretired ▸ hr))

theorem sameSettings_foldl (h : KeepsSettings db ws) : SameSettings db (ws.foldl Db.apply db) := by
  intro c hc
  rw [exporters_foldl] at hc
  rcases Table.mem_of_mem_foldl_put hc with hc | hc
  · exact h c hc
  · exact ⟨c, hc, rfl⟩

theorem Separate.follows_foldl (h : Separate owners db) (hk : KeepsSettings db ws) :
    Follows db (ws.foldl Db.apply db) := by
  refine ⟨fun c hc => ?_, fun e he => ?_⟩
  · obtain ⟨c', hc', hid⟩ := exists_exporter_foldl hc ws
    obtain ⟨d, hd, hsettings⟩ := sameSettings_foldl hk c' hc'
    have hdid : d.id = c.id := (eq_of_settings Exporter.id (fun _ => rfl) hsettings).symm.trans hid
    obtain rfl : d = c := Table.eq_of_key_eq hd hc hdid
    exact ⟨c', hc', hid, .of_settings h hc hsettings⟩
  · rw [events_foldl]
    exact List.mem_append_left _ he

theorem separate_mergesAfter (h : Separate owners (ws.foldl Db.apply db)) :
    MergesAfter Db.apply Write.locks (Separate owners) KeepsSettings db ws := by
  intro us _ hus hdisj
  have hkeeps : KeepsSettings (ws.foldl Db.apply db) us := by
    intro c hc
    obtain ⟨d, hd, hsettings⟩ := hus c hc
    have hlock : Lock.exporter c.id ∈ locksOf Write.locks us :=
      mem_writtenExporters.1 (List.mem_map_of_mem hc)
    have hid : c.id = d.id := eq_of_settings Exporter.id (fun _ => rfl) hsettings
    rw [hid] at hlock
    exact ⟨d, (mem_exporters_of_unwritten fun hw => hdisj hw hlock).2 hd, hsettings⟩
  exact ⟨h.sameSettings (sameSettings_foldl hkeeps), hkeeps⟩

end Batches

/-! ### The server -/

/-- **The invariant**: separate in the stored state and in the view of every batch. -/
abbrev SeparateServer (owners : TokenOwners) (s : Server) : Prop :=
  Isolated Db.apply Write.locks (Separate owners) KeepsSettings s.ledger

section Server

variable {settings : Config} {owners : TokenOwners} {s : Server} {db : Db}

theorem SeparateServer.start : SeparateServer owners Server.start :=
  isolated_start (by constructor <;> simp [Table.empty])

theorem SavesRow.separate {c : Exporter} (h : SavesRow owners db c) (hs : Separate owners db) :
    Separate owners (db.save c) ∧ Follows db (db.save c) := by
  cases h with
  | save h => exact ⟨h.separate hs, h.follows hs⟩
  | recover hmem horg howner hunbound => exact recovered_separate hs hmem horg howner hunbound

theorem KeepsSettings.record {ws : List Write} {radius : Radius.Db} {now : ℤ}
    {organizationId apiTokenId bindingId : ℕ} {b : Binding} {config : Exporter} {w : Writes}
    (h : KeepsSettings db ws) (hw : Stores settings (ws.foldl Db.apply db) radius now
      organizationId apiTokenId bindingId b config w) : KeepsSettings db (ws ++ [.record w]) := by
  intro c hc
  simp only [writtenExporters, List.map_append, List.mem_append] at hc
  rcases hc with hc | hc
  · exact h c hc
  · obtain rfl : c = w.exporter := by simpa using hc
    obtain ⟨d, hd, hsettings⟩ := sameSettings_foldl h config hw.resolves.mem.1
    exact ⟨d, hd, by rw [hw.exporter, ← hsettings]; rfl⟩

/-- **One act** keeps the epochs separate. -/
theorem SeparateServer.step (h : SeparateServer owners s) (act : Act) :
    SeparateServer owners (s.step settings owners act) := by
  refine isolated_step (fun _ c hc => by simp [writtenExporters] at hc)
    (fun _ _ hws _ => separate_mergesAfter hws) act
    (fun t _ record _ hview howned radius now bindingId config w hw => ?_)
    (fun c hc hstored => ?_) h
  · have howned := howned.record hw
    refine ⟨?_, howned⟩
    have hseparate := h.stored.sameSettings (sameSettings_foldl howned)
    rwa [foldl_record] at hseparate
  · obtain ⟨hseparate, -⟩ := hc.separate hstored
    exact ⟨hseparate, separate_mergesAfter hseparate⟩

theorem SeparateServer.follows_saveExporter (h : SeparateServer owners s)
    {config : Except Failure Exporter}
    (hc : ∀ c, config = .ok c → SavesRow owners s.ledger.stored c) :
    Follows s.ledger.stored (s.saveExporter config).ledger.stored := by
  unfold Server.saveExporter
  split
  · exact .refl h.stored
  · rename_i c
    split_ifs
    · exact ((hc c rfl).separate h.stored).2
    · exact .refl h.stored

/-- **One act** leads to a later state. -/
theorem SeparateServer.follows_step (h : SeparateServer owners s) (act : Act) :
    Follows s.ledger.stored (s.step settings owners act).ledger.stored := by
  have hrefl : Follows s.ledger.stored s.ledger.stored := .refl h.stored
  cases act with
  | submit now organizationId apiTokenId payload =>
    simp only [Server.step]
    split <;> exact hrefl
  | next now radius batch =>
    simp only [Server.step]
    split
    · exact hrefl
    split
    · exact hrefl
    · -- a batch writes to its own view
      unfold Server.takeRecord
      split
      · exact hrefl
      split
      · exact hrefl
      · exact hrefl
      · split_ifs <;> exact hrefl
  | finish batch =>
    simp only [Server.step]
    split
    · exact hrefl
    · rename_i t hfind
      split_ifs
      · unfold Server.finish
        split
        · exact hrefl
        · exact h.stored.follows_foldl (h.owned t (Table.find?_eq_some.1 hfind).1)
      · exact hrefl
  | abort batch => exact hrefl
  | save now registry organizationId body actor =>
    refine h.follows_saveExporter fun c hc => ?_
    obtain ⟨existing, request, first, last, hsaves⟩ := saveExporterConfig_ok hc
    exact .save hsaves
  | recover now registry organizationId exporterConfigId body actor =>
    refine h.follows_saveExporter fun c hc => ?_
    obtain ⟨stored, hmem, horg, token, reference, howner, hunbound, rfl⟩ :=
      approveReleaseRecovery_ok hc
    exact .recover hmem horg howner hunbound

theorem SeparateServer.run (acts : List Act) :
    SeparateServer owners (run (Server.step settings owners) Server.start acts) :=
  run_invariant (fun _ act h => h.step act) .start acts

theorem SeparateServer.follows_run (h : SeparateServer owners s) (acts : List Act) :
    Follows s.ledger.stored (Lib.run (Server.step settings owners) s acts).ledger.stored := by
  induction acts generalizing s with
  | nil => exact .refl h.stored
  | cons act acts ih => exact (h.follows_step act).trans (ih (h.step act))

/-- **Epochs stay apart and stay what they were**: in every run of saves, approvals and batches,
no token is bound to two configurations, the pools that an organization has enabled are disjoint,
and any later state keeps the evidentiary fields of what has evidence and enables nothing that is
retired. -/
theorem epochs_kept (settings : Config) (owners : TokenOwners) (earlier later : List Act) :
    Separate owners (run (Server.step settings owners) Server.start earlier).ledger.stored ∧
      Follows (run (Server.step settings owners) Server.start earlier).ledger.stored
        (run (Server.step settings owners) Server.start (earlier ++ later)).ledger.stored := by
  have h : SeparateServer owners (run (Server.step settings owners) Server.start earlier) :=
    .run earlier
  rw [run_append]
  exact ⟨h.stored, h.follows_run later⟩

/-- Two organizations have each a pool of the same public range, and a token. -/
def sharedRange : Registry :=
  ⟨[], [⟨1, 1, "200.1.2.0", "200.1.2.255"⟩, ⟨2, 2, "200.1.2.0", "200.1.2.255"⟩], [1, 2]⟩

/-- Each of them enables its pool. -/
def sharedRangeActs : List Act :=
  [.save 1000000 sharedRange 1 (sampleBody 1 1) (some 7),
    .save 1000000 sharedRange 2 (sampleBody 2 2) (some 7)]

/-- The enabled pools of two organizations may overlap: a save looks only at its own. -/
theorem pools_overlap_across_organizations :
    ¬ ∀ c ∈ (run (Server.step sampleSettings id) Server.start
        sharedRangeActs).ledger.stored.exporters.rows,
      ∀ d ∈ (run (Server.step sampleSettings id) Server.start
        sharedRangeActs).ledger.stored.exporters.rows,
      c.id ≠ d.id → c.enabled = true → d.enabled = true → Disjoint c.pool d.pool := by
  have hrows : ∃ c ∈ (run (Server.step sampleSettings id) Server.start
        sharedRangeActs).ledger.stored.exporters.rows,
      ∃ d ∈ (run (Server.step sampleSettings id) Server.start
        sharedRangeActs).ledger.stored.exporters.rows,
      c.id ≠ d.id ∧ c.enabled = true ∧ d.enabled = true ∧
        ((ipv4Number c.publicIpv4Start ≤ 3355509248 ∧ 3355509248 ≤ ipv4Number c.publicIpv4End) ∧
          ipv4Number d.publicIpv4Start ≤ 3355509248 ∧
          3355509248 ≤ ipv4Number d.publicIpv4End) := by
    decide
  obtain ⟨c, hc, d, hd, hne, hce, hde, hcp, hdp⟩ := hrows
  intro h
  exact Set.disjoint_left.1 (h c hc d hd hne hce hde) hcp hdp

end Server

end Vigabss.Cgnat
