import Vigabss.Wireguard.Apart

/-!
# Vigabss.Wireguard.Rehydrated — a restart of the hub changes nothing

The commands of the calls keep the hub as `rehydrateNasPeers` would build it, as long as no
confirmation drops a network of its tunnel and no tunnel comes to share one with another: a route
that is no longer confirmed stays in the kernel until the hub is restarted.
-/

namespace Vigabss.Wireguard

open Vigabss.Lib

/-! ### The hub of the live tunnels -/

/-- The hub is the one that `rehydrateNasPeers` builds, whatever order it reads the rows in. -/
def WgState.Restartable (cfg : WireguardConfig) (s : WgState) : Prop :=
  ∀ tunnels : List NasWgTunnel, tunnels.Perm s.db.rehydrated →
    rehydrateNasPeers cfg tunnels = s.hub

/-- A call that confirms keeps the networks of its tunnel; a tunnel that is created or revived has
no network of a live one.  A hub that is disabled gets no commands. -/
def KeepsRoutes (cfg : WireguardConfig) (s : WgState) (call : WgCall) : Prop :=
  cfg.serverEnabled = true →
    match call with
    | .provisionDesiredState nas pre _ => s.db.loadTunnel nas.id = none →
        ∀ ip ∈ givenIp nas pre <|> allocateTunnelIp cfg s.db, s.db.clashes nas.id ip = false →
          ∀ u ∈ s.db.live, host ip ∉ u.ranges
    | .confirmRoutes nasId requested _ =>
        ∀ subnets, normalizeRoutedSubnets requested = .ok subnets →
          ∀ t ∈ s.db.loadTunnel nasId,
            (∀ r ∈ subnets, ∀ q ∈ s.db.taken cfg t, overlapsSubnet q r = false) →
              ∀ r ∈ t.ranges, r ∈ host t.tunnel_address :: subnets
    | .restoreNas nasId _ => ∀ t ∈ s.db.revivable nasId,
        s.db.clashes nasId t.tunnel_address = false →
          ∀ u ∈ s.db.live, ∀ r ∈ u.ranges, r ∉ t.ranges
    | .teardownNas .. => True

/-- Each of the tunnels is a peer with its networks, there is no other peer, and just their networks
are routed. -/
structure Serves (hub : Hub) (tunnels : List NasWgTunnel) : Prop where
  peers : ∀ t ∈ tunnels, hub.peers t.nas_public_key = some t.ranges.toFinset
  none : ∀ k, (∀ t ∈ tunnels, t.nas_public_key ≠ k) → hub.peers k = none
  routes : ∀ r, r ∈ hub.routes ↔ ∃ t ∈ tunnels, r ∈ t.ranges

/-- No network is two tunnels'. -/
def Unshared (tunnels : List NasWgTunnel) : Prop :=
  ∀ t ∈ tunnels, ∀ u ∈ tunnels, t.id ≠ u.id → ∀ r ∈ t.ranges, r ∉ u.ranges

section Serving

variable {cfg : WireguardConfig} {hub hub' : Hub} {tunnels tunnels' : List NasWgTunnel}
  {t : NasWgTunnel}

theorem serves_empty : Serves .empty [] where
  peers _ ht := absurd ht List.not_mem_nil
  none _ _ := rfl
  routes _ := ⟨fun h => absurd h (Finset.notMem_empty _),
    fun ⟨_, ht, _⟩ => absurd ht List.not_mem_nil⟩

theorem Serves.congr (h : Serves hub tunnels) (hmem : ∀ t, t ∈ tunnels' ↔ t ∈ tunnels) :
    Serves hub tunnels' where
  peers t ht := h.peers t ((hmem t).1 ht)
  none k hk := h.none k fun t ht => hk t ((hmem t).2 ht)
  routes r := (h.routes r).trans
    (exists_congr fun t => and_congr_left fun _ => (hmem t).symm)

theorem Serves.unique (h : Serves hub tunnels) (h' : Serves hub' tunnels) : hub = hub' := by
  ext k r
  · by_cases hk : ∃ t ∈ tunnels, t.nas_public_key = k
    · obtain ⟨t, ht, rfl⟩ := hk
      rw [h.peers t ht, h'.peers t ht]
    · push Not at hk
      rw [h.none k hk, h'.none k hk]
  · rw [h.routes, h'.routes]

/-- A sync adds a tunnel, or takes one on with more networks. -/
theorem Serves.sync (henabled : cfg.serverEnabled = true) (h : Serves hub tunnels)
    (hmem : ∀ u, u ∈ tunnels' ↔ u ∈ tunnels ∧ u.id ≠ t.id ∨ u = t)
    (hapart : ∀ u ∈ tunnels, u.id ≠ t.id → ∀ r ∈ u.ranges, r ∉ t.ranges)
    (hgrows : ∀ u ∈ tunnels, u.id = t.id → ∀ r ∈ u.ranges, r ∈ t.ranges) :
    Serves (hub.run (t.sync cfg)) tunnels' := by
  rw [NasWgTunnel.sync, run_syncPeer henabled]
  refine ⟨fun u hu => ?_, fun k hk => ?_, fun r => ?_⟩
  · rcases (hmem u).1 hu with ⟨hu, hne⟩ | rfl
    · refine (if_neg hne).trans ?_
      rw [h.peers u hu, Option.map_some, Finset.sdiff_eq_self_of_disjoint]
      refine Finset.disjoint_left.2 fun r hr hr' => ?_
      exact hapart u hu hne r (List.mem_toFinset.1 hr) (List.mem_toFinset.1 hr')
    · exact if_pos rfl
  · have hne : k ≠ t.nas_public_key := fun heq => hk t ((hmem t).2 (.inr rfl)) heq.symm
    refine (if_neg hne).trans ?_
    rw [h.none k fun u hu hkey => ?_, Option.map_none]
    exact hk u ((hmem u).2 (.inl ⟨hu, fun hid => hne (hkey.symm.trans hid)⟩)) hkey
  · show r ∈ hub.routes ∪ _ ↔ _
    rw [Finset.mem_union, h.routes, List.mem_toFinset]
    constructor
    · rintro (⟨u, hu, hr⟩ | hr)
      · by_cases hid : u.id = t.id
        · exact ⟨t, (hmem t).2 (.inr rfl), hgrows u hu hid r hr⟩
        · exact ⟨u, (hmem u).2 (.inl ⟨hu, hid⟩), hr⟩
      · exact ⟨t, (hmem t).2 (.inr rfl), hr⟩
    · rintro ⟨u, hu, hr⟩
      rcases (hmem u).1 hu with ⟨hu, -⟩ | rfl
      · exact .inl ⟨u, hu, hr⟩
      · exact .inr hr

theorem Serves.remove (henabled : cfg.serverEnabled = true) (h : Serves hub tunnels)
    (ht : t ∈ tunnels) (hids : ∀ u ∈ tunnels, u.id = t.id → u = t) (hshared : Unshared tunnels)
    (hmem : ∀ u, u ∈ tunnels' ↔ u ∈ tunnels ∧ u.id ≠ t.id) :
    Serves (hub.run (removePeer cfg t.nas_public_key t.ranges)) tunnels' := by
  rw [run_removePeer henabled]
  refine ⟨fun u hu => ?_, fun k hk => ?_, fun r => ?_⟩
  · obtain ⟨hu, hne⟩ := (hmem u).1 hu
    exact (if_neg hne).trans (h.peers u hu)
  · by_cases hkey : k = t.nas_public_key
    · exact if_pos hkey
    · refine (if_neg hkey).trans (h.none k fun u hu hku => ?_)
      exact hk u ((hmem u).2 ⟨hu, fun hid => hkey (hku.symm.trans hid)⟩) hku
  · show r ∈ hub.routes \ _ ↔ _
    rw [Finset.mem_sdiff, h.routes, List.mem_toFinset]
    constructor
    · rintro ⟨⟨u, hu, hr⟩, hnot⟩
      refine ⟨u, (hmem u).2 ⟨hu, fun hid => ?_⟩, hr⟩
      rw [hids u hu hid] at hr
      exact hnot hr
    · rintro ⟨u, hu, hr⟩
      obtain ⟨hu, hne⟩ := (hmem u).1 hu
      exact ⟨⟨u, hu, hr⟩, fun hr' => hshared u hu t ht hne r hr hr'⟩

/-- The tunnels of a NAS are taken out one by one. -/
theorem Serves.removeAll (henabled : cfg.serverEnabled = true) {ts : List NasWgTunnel}
    (h : Serves hub tunnels) (hts : ∀ t ∈ ts, t ∈ tunnels) (hnodup : (ts.map (·.id)).Nodup)
    (hids : ∀ t ∈ tunnels, ∀ u ∈ tunnels, t.id = u.id → t = u) (hshared : Unshared tunnels)
    (hmem : ∀ u, u ∈ tunnels' ↔ u ∈ tunnels ∧ ∀ t ∈ ts, u.id ≠ t.id) :
    Serves (hub.run (ts.flatMap fun t => removePeer cfg t.nas_public_key t.ranges)) tunnels' := by
  induction ts generalizing hub tunnels with
  | nil =>
    refine h.congr fun u => (hmem u).trans (and_iff_left fun t ht => ?_)
    exact absurd ht List.not_mem_nil
  | cons t ts ih =>
    rw [List.map_cons, List.nodup_cons] at hnodup
    have ht := hts t List.mem_cons_self
    rw [List.flatMap_cons, Hub.run_append]
    have hmid : ∀ u, u ∈ tunnels.filter (fun u => u.id ≠ t.id) ↔ u ∈ tunnels ∧ u.id ≠ t.id := by
      intro u
      rw [List.mem_filter, decide_eq_true_eq]
    refine ih (h.remove henabled ht (fun u hu hid => hids u hu t ht hid) hshared hmid) ?_ hnodup.2
      ?_ ?_ ?_
    · intro u hu
      refine (hmid u).2 ⟨hts u (List.mem_cons_of_mem _ hu), fun hid => hnodup.1 ?_⟩
      exact hid ▸ List.mem_map_of_mem hu
    · exact fun u hu v hv => hids u ((hmid u).1 hu).1 v ((hmid v).1 hv).1
    · exact fun u hu v hv => hshared u ((hmid u).1 hu).1 v ((hmid v).1 hv).1
    · intro u
      rw [hmem, hmid, List.forall_mem_cons, and_assoc]

theorem rehydrate_concat (tunnels : List NasWgTunnel) (t : NasWgTunnel) :
    rehydrateNasPeers cfg (tunnels ++ [t]) = (rehydrateNasPeers cfg tunnels).run (t.sync cfg) := by
  rw [rehydrateNasPeers, List.flatMap_append, Hub.run_append, List.flatMap_singleton]
  rfl

theorem serves_rehydrated (henabled : cfg.serverEnabled = true)
    (hnodup : (tunnels.map (·.id)).Nodup) (hshared : Unshared tunnels) :
    Serves (rehydrateNasPeers cfg tunnels) tunnels := by
  induction tunnels using List.reverseRecOn with
  | nil => exact serves_empty
  | append_singleton tunnels t ih =>
    rw [List.map_append, List.nodup_append] at hnodup
    have hne : ∀ u ∈ tunnels, u.id ≠ t.id := fun u hu =>
      hnodup.2.2 u.id (List.mem_map_of_mem hu) t.id (List.mem_singleton.2 rfl)
    have hleft : ∀ u ∈ tunnels, u ∈ tunnels ++ [t] := fun u hu => List.mem_append_left _ hu
    have hlast : t ∈ tunnels ++ [t] := List.mem_append_right _ (List.mem_singleton.2 rfl)
    have hrest := ih hnodup.1 fun u hu v hv => hshared u (hleft u hu) v (hleft v hv)
    rw [rehydrate_concat]
    refine hrest.sync henabled (fun u => ?_) ?_ ?_
    · rw [List.mem_append, List.mem_singleton]
      exact or_congr_left (and_iff_left_of_imp (hne u)).symm
    · exact fun u hu hid => hshared u (hleft u hu) t hlast hid
    · exact fun u hu hid => absurd hid (hne u hu)

theorem routes_rehydrated (henabled : cfg.serverEnabled = true) (r : Subnet) :
    r ∈ (rehydrateNasPeers cfg tunnels).routes ↔ ∃ t ∈ tunnels, r ∈ t.ranges := by
  induction tunnels using List.reverseRecOn with
  | nil => exact serves_empty.routes r
  | append_singleton tunnels t ih =>
    rw [rehydrate_concat, NasWgTunnel.sync, run_syncPeer henabled]
    show r ∈ (rehydrateNasPeers cfg tunnels).routes ∪ _ ↔ _
    rw [Finset.mem_union, ih, List.mem_toFinset]
    simp only [List.mem_append, List.mem_singleton, or_and_right, exists_or, exists_eq_left]
    rfl

theorem peers_rehydrated (henabled : cfg.serverEnabled = true) (tunnels : List NasWgTunnel)
    (t : NasWgTunnel) :
    (rehydrateNasPeers cfg (tunnels ++ [t])).peers t.nas_public_key = some t.ranges.toFinset ∧
      ∀ k, k ≠ t.nas_public_key → ∀ ips ∈ (rehydrateNasPeers cfg (tunnels ++ [t])).peers k,
        ∀ r ∈ t.ranges, r ∉ ips := by
  rw [rehydrate_concat, NasWgTunnel.sync, run_syncPeer henabled]
  refine ⟨if_pos rfl, fun k hk ips hips r hr hmem => ?_⟩
  rw [Option.mem_def] at hips
  have hips' := (if_neg hk).symm.trans hips
  obtain ⟨old, -, rfl⟩ := Option.map_eq_some_iff.1 hips'
  exact (Finset.mem_sdiff.1 hmem).2 (List.mem_toFinset.2 hr)

theorem not_restartable_of_shared (henabled : cfg.serverEnabled = true) {s : WgState}
    {u : NasWgTunnel} (ht : t ∈ s.db.rehydrated) (hu : u ∈ s.db.rehydrated) (hne : t.id ≠ u.id)
    {r : Subnet} (hr : r ∈ t.ranges) (hr' : r ∈ u.ranges) : ¬ s.Restartable cfg := by
  intro h
  have hlast : ∀ v ∈ s.db.rehydrated, ∃ rest : List NasWgTunnel,
      rehydrateNasPeers cfg (rest ++ [v]) = s.hub := by
    intro v hv
    obtain ⟨as, bs, hsplit⟩ := List.append_of_mem hv
    refine ⟨as ++ bs, h _ ?_⟩
    rw [hsplit]
    exact (List.perm_append_singleton v (as ++ bs)).trans List.perm_middle.symm
  obtain ⟨rest, hrest⟩ := hlast t ht
  obtain ⟨rest', hrest'⟩ := hlast u hu
  have hown := (peers_rehydrated henabled rest' u).1
  have hlost := (peers_rehydrated henabled rest t).2
  rw [hrest'] at hown
  rw [hrest] at hlost
  exact hlost u.nas_public_key (Ne.symm hne) _ hown r hr (List.mem_toFinset.2 hr')

end Serving

/-! ### One call -/

/-- The NAS of a live tunnel is live. -/
def WgDb.NasLive (db : WgDb) : Prop := ∀ t ∈ db.live, t.nas_id ∉ db.deletedNas

/-- The hub serves the live tunnels, which share nothing and whose NAS devices are live. -/
structure WgState.Served (s : WgState) : Prop where
  serves : Serves s.hub s.db.live
  shared : Unshared s.db.live
  nas : s.db.NasLive

section Calls

variable {cfg : WireguardConfig} {db : WgDb} {s : WgState}

theorem live_nodup (db : WgDb) : (db.live.map (·.id)).Nodup :=
  (List.filter_sublist.map _).nodup db.tunnels.nodup

theorem WgDb.NasLive.rehydrated (h : db.NasLive) : db.rehydrated = db.live :=
  List.filter_eq_self.2 fun t ht => decide_eq_true (h t ht)

theorem WgState.Served.restartable (henabled : cfg.serverEnabled = true) (h : s.Served) :
    s.Restartable cfg := by
  intro tunnels hperm
  rw [h.nas.rehydrated] at hperm
  have hshared : Unshared tunnels := fun t ht u hu =>
    h.shared t (hperm.mem_iff.1 ht) u (hperm.mem_iff.1 hu)
  have hserves := serves_rehydrated henabled ((hperm.map _).nodup_iff.2 (live_nodup s.db)) hshared
  exact (hserves.congr fun t => hperm.mem_iff.symm).unique h.serves

theorem deletedNas_deleteAll (db : WgDb) (ts : List NasWgTunnel) (now : ℕ) :
    (ts.foldl (fun db t => db.setDeleted t.id true now) db).deletedNas = db.deletedNas := by
  induction ts generalizing db with
  | nil => rfl
  | cons t ts ih => exact ih _

/-- Among the NAS devices a call leaves live are those of the live tunnels. -/
theorem nasLive_step (cfg : WireguardConfig) (h : db.NasLive) (call : WgCall) : (call.run cfg db).1.NasLive := by
  have hleaves := leaves_run cfg db call
  generalize (call.run cfg db).1 = db' at hleaves ⊢
  generalize (call.run cfg db).2 = commands at hleaves
  have hkept : ∀ (l : List ℕ) (nasId : ℕ) {t : NasWgTunnel}, t.nas_id ∉ l →
      t.nas_id ∉ l.filter (· ≠ nasId) := fun l nasId t ht hmem => ht (List.mem_filter.1 hmem).1
  cases hleaves with
  | nothing hcall =>
    intro t ht
    rw [live_asOf] at ht
    cases call with
    | provisionDesiredState nas pre now => exact hkept _ _ (h t ht)
    | confirmRoutes nasId requested now => exact h t ht
    | teardownNas nasId now => exact absurd rfl (hcall nasId now)
    | restoreNas nasId now => exact hkept _ _ (h t ht)
  | synced ht => exact fun t ht => hkept _ _ (h t ht)
  | @created nas pre now ip hnone hip hfree =>
    intro t ht
    rcases mem_live_create.1 ht with ht | rfl
    · exact hkept _ _ (h t ht)
    · intro hmem
      simpa [newTunnel] using (List.mem_filter.1 hmem).2
  | @confirmed nasId requested now subnets t hok ht hfree =>
    intro u hu
    rcases (mem_live_store (loadTunnel_some ht).1).1 hu with ⟨hu, -⟩ | rfl
    · exact h u hu
    · exact h t (loadTunnel_some ht).1
  | tornDown nasId now =>
    intro t ht
    obtain ⟨ht, hne⟩ := (mem_live_teardown cfg).1 ht
    have hdeleted : (teardownNas cfg (db.asOf (.teardownNas nasId now)) nasId now).1.deletedNas =
        nasId :: db.deletedNas := deletedNas_deleteAll _ _ _
    rw [hdeleted]
    exact List.not_mem_cons_of_ne_of_not_mem hne (h t ht)
  | @revived nasId now t ht hfree =>
    obtain ⟨hrow, hnas, hdeleted, -⟩ := revivable_some ht
    intro u hu
    rcases (mem_live_revive hrow hdeleted).1 hu with hu | rfl
    · exact hkept _ _ (h u hu)
    · intro hmem
      simpa [hnas] using (List.mem_filter.1 hmem).2

theorem WgState.Served.add (henabled : cfg.serverEnabled = true) (h : s.Served) {t : NasWgTunnel}
    (hnas : db.NasLive) (hmem : ∀ u, u ∈ db.live ↔ u ∈ s.db.live ∧ u.id ≠ t.id ∨ u = t)
    (hapart : ∀ u ∈ s.db.live, u.id ≠ t.id → ∀ r ∈ u.ranges, r ∉ t.ranges)
    (hgrows : ∀ u ∈ s.db.live, u.id = t.id → ∀ r ∈ u.ranges, r ∈ t.ranges) :
    (⟨db, s.hub.run (t.sync cfg)⟩ : WgState).Served where
  serves := h.serves.sync henabled hmem hapart hgrows
  nas := hnas
  shared u hu v hv hne r hr hr' := by
    rcases (hmem u).1 hu with ⟨hold, hune⟩ | rfl
    · rcases (hmem v).1 hv with ⟨hold', -⟩ | rfl
      · exact h.shared u hold v hold' hne r hr hr'
      · exact hapart u hold hune r hr hr'
    · rcases (hmem v).1 hv with ⟨hold', hvne⟩ | rfl
      · exact hapart v hold' hvne r hr' hr
      · exact hne rfl

theorem taken_of_live {t u : NasWgTunnel} {r : Subnet} (hu : u ∈ db.live) (hne : u.id ≠ t.id)
    (hr : r ∈ u.ranges) : r ∈ db.taken cfg t :=
  List.mem_cons_of_mem _ (List.mem_flatMap.2
    ⟨u, List.mem_filter.2 ⟨hu, by simpa using hne⟩, hr⟩)

theorem ranges_stored (t : NasWgTunnel) (now : ℕ) {subnets : List Subnet}
    (h : ∀ r ∈ subnets, r.Routable) :
    ({ t with routed_subnets := subnets.map Subnet.text, updated_at := now } : NasWgTunnel).ranges =
      host t.tunnel_address :: subnets := by
  rw [NasWgTunnel.ranges, stored_texts h]

theorem overlapsSubnet_self (r : Subnet) : overlapsSubnet r r = true := by
  simp [overlapsSubnet]

/-- A call that keeps the routes keeps the hub in step. -/
theorem WgState.Served.step (henabled : cfg.serverEnabled = true) (h : s.Served) {call : WgCall}
    (hgood : KeepsRoutes cfg s call) : (wgHubStep cfg s call).Served := by
  have hnas := nasLive_step cfg h.nas call
  have hleaves := leaves_run cfg s.db call
  rw [wgHubStep]
  generalize (call.run cfg s.db).1 = db' at hleaves hnas ⊢
  generalize (call.run cfg s.db).2 = commands at hleaves ⊢
  have hgood := hgood henabled
  cases hleaves with
  | nothing hcall =>
    refine ⟨?_, ?_, hnas⟩
    · rw [live_asOf]
      exact h.serves
    · rw [live_asOf]
      exact h.shared
  | @synced nas pre now t ht =>
    have htlive := (loadTunnel_some ht).1
    refine h.add henabled hnas (fun u => ?_) ?_ ?_
    · rw [live_asOf]
      refine ⟨fun hu => ?_, ?_⟩
      · by_cases hid : u.id = t.id
        · exact .inr (eq_of_live hu htlive hid)
        · exact .inl ⟨hu, hid⟩
      · rintro (⟨hu, -⟩ | rfl)
        · exact hu
        · exact htlive
    · exact fun u hu hne => h.shared u hu t htlive hne
    · intro u hu hid
      obtain rfl := eq_of_live hu htlive hid
      exact fun r hr => hr
  | @created nas pre now ip hnone hip hfree =>
    have hnew : ∀ u ∈ s.db.live, u.id ≠ s.db.tunnels.nextId := fun u hu =>
      (Table.key_lt_nextId (mem_live.1 hu).1).ne
    have hlive : ∀ u, u ∈ (s.db.create nas.id ip now).live ↔
        u ∈ s.db.live ∧ u.id ≠ s.db.tunnels.nextId ∨
          u = newTunnel nas.id ip now s.db.tunnels.nextId := fun u =>
      mem_live_create.trans (or_congr_left (and_iff_left_of_imp (hnew u)).symm)
    refine h.add henabled hnas hlive ?_ ?_
    · intro u hu _ r hr hmem
      obtain rfl := List.mem_singleton.1 hmem
      exact hgood hnone ip hip hfree u hu hr
    · exact fun u hu hid => absurd hid (hnew u hu)
  | @confirmed nasId requested now subnets t hok ht hfree =>
    have htlive := (loadTunnel_some ht).1
    have hroutable := routable_of_normalize hok
    have hranges := ranges_stored t now hroutable
    have hsync : ({ t with routed_subnets := subnets.map Subnet.text, updated_at := now } :
        NasWgTunnel).sync cfg = syncPeer cfg t.nas_public_key t.tunnel_address subnets := by
      rw [NasWgTunnel.sync, stored_texts hroutable]
      rfl
    rw [← hsync]
    refine h.add henabled hnas (fun u => mem_live_store htlive) ?_ ?_
    · intro u hu hne r hr hmem
      rw [hranges] at hmem
      rcases List.mem_cons.1 hmem with rfl | hmem
      · exact h.shared u hu t htlive hne _ hr List.mem_cons_self
      · have hmiss := hfree r hmem r (taken_of_live hu hne hr)
        rw [overlapsSubnet_self] at hmiss
        cases hmiss
    · intro u hu hid r hr
      obtain rfl := eq_of_live hu htlive hid
      rw [hranges]
      exact hgood subnets hok u ht hfree r hr
  | tornDown nasId now =>
    refine ⟨?_, ?_, hnas⟩
    · refine h.serves.removeAll henabled (fun t ht => (List.mem_filter.1 ht).1) ?_
        (fun t ht u hu => eq_of_live ht hu) h.shared (fun u => mem_live_deleteAll)
      exact (List.filter_sublist.map _).nodup (live_nodup s.db)
    · intro u hu v hv
      exact h.shared u ((mem_live_teardown cfg).1 hu).1 v ((mem_live_teardown cfg).1 hv).1
  | @revived nasId now t ht hfree =>
    obtain ⟨hrow, -, hdeleted, -⟩ := revivable_some ht
    have hnew : ∀ u ∈ s.db.live, u.id ≠ t.id := fun u => ne_of_deleted hrow hdeleted
    have hlive : ∀ u, u ∈ (s.db.setDeleted t.id false now).live ↔
        u ∈ s.db.live ∧ u.id ≠ t.id ∨ u = { t with deleted := false, updated_at := now } := fun u =>
      (mem_live_revive hrow hdeleted).trans (or_congr_left (and_iff_left_of_imp (hnew u)).symm)
    refine h.add (t := { t with deleted := false, updated_at := now }) henabled hnas hlive ?_ ?_
    · exact fun u hu _ r hr => hgood t ht hfree u hu r hr
    · exact fun u hu hid => absurd hid (hnew u hu)

theorem not_restartable_of_live (henabled : cfg.serverEnabled = true) (hnas : s.db.NasLive)
    {t u : NasWgTunnel} (ht : t ∈ s.db.live) (hu : u ∈ s.db.live) (hne : t.id ≠ u.id) {r : Subnet}
    (hr : r ∈ t.ranges) (hr' : r ∈ u.ranges) : ¬ s.Restartable cfg :=
  not_restartable_of_shared henabled (hnas.rehydrated ▸ ht) (hnas.rehydrated ▸ hu) hne hr hr'

theorem not_restartable_of_stale (henabled : cfg.serverEnabled = true) {r : Subnet}
    (hrouted : r ∈ s.hub.routes) (hstale : ∀ t ∈ s.db.live, r ∉ t.ranges) :
    ¬ s.Restartable cfg := by
  intro h
  rw [← h _ (List.Perm.refl _), routes_rehydrated henabled] at hrouted
  obtain ⟨t, ht, hr⟩ := hrouted
  exact hstale t (List.mem_filter.1 ht).1 hr

/-- Any other call leaves a hub that a restart would change. -/
theorem WgState.Served.broken (h : s.Served) {call : WgCall}
    (hbad : ¬ KeepsRoutes cfg s call) : ¬ (wgHubStep cfg s call).Restartable cfg := by
  unfold KeepsRoutes at hbad
  push Not at hbad
  obtain ⟨henabled, hbad⟩ := hbad
  have hnas := nasLive_step cfg h.nas call
  cases call with
  | provisionDesiredState nas pre now =>
    push Not at hbad
    obtain ⟨hnone, ip, hip, hfree, u, hu, hr⟩ := hbad
    rw [wgHubStep, run_created hnone hip hfree]
    rw [run_created hnone hip hfree] at hnas
    exact not_restartable_of_live henabled hnas (mem_live_create.2 (.inl hu))
      (mem_live_create.2 (.inr rfl)) (Table.key_lt_nextId (mem_live.1 hu).1).ne hr
      List.mem_cons_self
  | confirmRoutes nasId requested now =>
    push Not at hbad
    obtain ⟨subnets, hok, t, ht, hfree, r, hr, hdropped⟩ := hbad
    have htlive := (loadTunnel_some ht).1
    rw [wgHubStep, run_confirmed hok ht hfree, run_syncPeer henabled]
    refine not_restartable_of_stale henabled (r := r) ?_ ?_
    · exact Finset.mem_union_left _ ((h.serves.routes r).2 ⟨t, htlive, hr⟩)
    · intro u hu hur
      rcases (mem_live_store htlive).1 hu with ⟨hu, hne⟩ | rfl
      · exact h.shared u hu t htlive hne r hur hr
      · rw [ranges_stored t now (routable_of_normalize hok)] at hur
        exact hdropped hur
  | teardownNas nasId now => exact absurd trivial hbad
  | restoreNas nasId now =>
    push Not at hbad
    obtain ⟨t, ht, hfree, u, hu, r, hur, hr⟩ := hbad
    obtain ⟨hrow, -, hdeleted, -⟩ := revivable_some ht
    have hne : u.id ≠ t.id := ne_of_deleted hrow hdeleted hu
    rw [wgHubStep, run_revived ht hfree]
    rw [run_revived ht hfree] at hnas
    exact not_restartable_of_live henabled hnas ((mem_live_revive hrow hdeleted).2 (.inl hu))
      ((mem_live_revive hrow hdeleted).2 (.inr rfl)) hne hur hr

theorem commands_disabled (hdisabled : cfg.serverEnabled = false) (call : WgCall) :
    (call.run cfg db).2 = [] := by
  have hleaves := leaves_run cfg db call
  generalize (call.run cfg db).1 = db' at hleaves
  generalize (call.run cfg db).2 = commands at hleaves ⊢
  have hsync : ∀ publicKey tunnelIp subnets, syncPeer cfg publicKey tunnelIp subnets = [] :=
    fun _ _ _ => if_neg (by simp [hdisabled])
  cases hleaves with
  | nothing hcall => rfl
  | synced ht => exact hsync ..
  | created hnone hip hfree => exact hsync ..
  | confirmed hok ht hfree => exact hsync ..
  | tornDown nasId now =>
    refine List.flatMap_eq_nil_iff.2 fun t _ => ?_
    exact if_neg (by simp [hdisabled])
  | revived ht hfree => exact hsync ..

end Calls

/-! ### Runs -/

section Runs

variable {cfg : WireguardConfig} {s : WgState}

/-- The hub serves the live tunnels, or it is disabled and empty. -/
structure WgState.InStep (cfg : WireguardConfig) (s : WgState) : Prop where
  served : cfg.serverEnabled = true → s.Served
  disabled : cfg.serverEnabled = false → s.hub = .empty

theorem rehydrate_disabled (hdisabled : cfg.serverEnabled = false) (tunnels : List NasWgTunnel) :
    rehydrateNasPeers cfg tunnels = .empty := by
  have hnone : tunnels.flatMap (NasWgTunnel.sync cfg) = [] :=
    List.flatMap_eq_nil_iff.2 fun t _ => if_neg (by simp [hdisabled])
  rw [rehydrateNasPeers, hnone]
  rfl

theorem WgState.InStep.restartable (h : s.InStep cfg) : s.Restartable cfg := by
  by_cases henabled : cfg.serverEnabled = true
  · exact (h.served henabled).restartable henabled
  · have hdisabled := Bool.not_eq_true _ ▸ henabled
    exact fun tunnels _ => (rehydrate_disabled hdisabled tunnels).trans (h.disabled hdisabled).symm

theorem WgState.InStep.step (h : s.InStep cfg) {call : WgCall} (hgood : KeepsRoutes cfg s call) :
    (wgHubStep cfg s call).InStep cfg where
  served henabled := (h.served henabled).step henabled hgood
  disabled hdisabled := by
    rw [wgHubStep, commands_disabled hdisabled]
    exact h.disabled hdisabled

theorem WgState.InStep.broken (h : s.InStep cfg) {call : WgCall}
    (hbad : ¬ KeepsRoutes cfg s call) : ¬ (wgHubStep cfg s call).Restartable cfg := by
  have henabled : cfg.serverEnabled = true := by
    by_contra hdisabled
    exact hbad fun henabled => absurd henabled hdisabled
  exact (h.served henabled).broken hbad

/-- No tunnels, and no peers. -/
def WgState.empty : WgState := ⟨.empty, .empty⟩

theorem inStep_empty (cfg : WireguardConfig) : WgState.empty.InStep cfg where
  served _ := ⟨serves_empty, fun _ ht => absurd ht List.not_mem_nil,
    fun _ ht => absurd ht List.not_mem_nil⟩
  disabled _ := rfl

/-- **A restart of the hub changes nothing, just when no network is dropped or shared.** -/
theorem restart_changes_nothing_iff (cfg : WireguardConfig) (calls : List WgCall) :
    Always (wgHubStep cfg) (WgState.Restartable cfg) .empty calls ↔
      StepsMeet (wgHubStep cfg) (KeepsRoutes cfg) .empty calls :=
  always_iff_stepsMeet (fun _ h => h.restartable) (fun _ _ h hgood => h.step hgood)
    (fun _ _ h hbad => h.broken hbad) (inStep_empty cfg) calls

/-- A subnet is confirmed, and then no longer. -/
def droppedSubnet : List WgCall :=
  [.provisionDesiredState ⟨1, .nated, some 0x0AFF0002#32⟩ none 0,
    .confirmRoutes 1 ["10.1.0.0/24"] 1, .confirmRoutes 1 [] 2]

/-- **The route stays until the restart**: `syncPeer` adds routes and takes none away. -/
theorem restart_changes_hub :
    ¬ ∀ (cfg : WireguardConfig) (calls : List WgCall),
      Always (wgHubStep cfg) (WgState.Restartable cfg) .empty calls := by
  intro h
  have hlast := (h hubConfig droppedSubnet).last
  have hlive : (run (wgHubStep hubConfig) .empty droppedSubnet).db.live =
      [⟨1, 1, 0x0AFF0002#32, [], 2, false⟩] := by decide
  refine not_restartable_of_stale (r := ⟨0x0A010000#32, 24⟩) rfl ?_ ?_ hlast
  · decide
  · rw [hlive]
    decide

end Runs

end Vigabss.Wireguard
