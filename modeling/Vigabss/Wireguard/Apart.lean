import Vigabss.Wireguard.Calls

/-!
# Vigabss.Wireguard.Apart — whose traffic an address is

Every address belongs to one live tunnel, or to the hub, or to nobody.  The networks of a tunnel
that is torn down are free to be confirmed for another, and reviving it does not look whether they
were.
-/

namespace Vigabss.Wireguard

open Vigabss.Lib

/-! ### Who claims an address -/

/-- The address is the tunnel's, or in one of its routed subnets. -/
def NasWgTunnel.Claims (t : NasWgTunnel) (x : BitVec 32) : Prop := ∃ r ∈ t.ranges, r.Covers x

/-- The hub's own part of its subnet: what is no live tunnel's address. -/
def WgDb.HubOwns (cfg : WireguardConfig) (db : WgDb) (x : BitVec 32) : Prop :=
  cfg.serverSubnet.Covers x ∧ ∀ t ∈ db.live, t.tunnel_address ≠ x

/-- The hub's part, and the addresses and routed subnets of different live tunnels, are pairwise
disjoint. -/
structure WgDb.Disjoint (cfg : WireguardConfig) (db : WgDb) : Prop where
  tunnels : ∀ t ∈ db.live, ∀ u ∈ db.live, t.id ≠ u.id → ∀ x, t.Claims x → ¬ u.Claims x
  hub : ∀ t ∈ db.live, ∀ x, t.Claims x → ¬ db.HubOwns cfg x

/-- Where a new tunnel is given its address, no live tunnel routes it; where a tunnel is revived, it
overlaps no live one, as `confirmRoutes` would have checked. -/
def Unclaimed (db : WgDb) : WgCall → Prop
  | .provisionDesiredState nas pre _ => db.loadTunnel nas.id = none → ∀ ip ∈ givenIp nas pre,
      db.clashes nas.id ip = false → ∀ u ∈ db.live, ∀ r ∈ storedRoutedSubnets u.routed_subnets,
        overlapsSubnet r (host ip) = false
  | .restoreNas nasId _ => ∀ t ∈ db.revivable nasId, db.clashes nasId t.tunnel_address = false →
      ∀ u ∈ db.live, ∀ r ∈ u.ranges, ∀ q ∈ t.ranges, overlapsSubnet r q = false
  | _ => True

/-- The tunnels and the hub's commands that a call leaves. -/
def wgStep (cfg : WireguardConfig) (db : WgDb) (call : WgCall) : WgDb := (call.run cfg db).1

/-! ### The invariant -/

/-- What is stored, live or deleted, is no part of the hub's subnet, and the live tunnels claim
different addresses. -/
structure WgDb.Sound (cfg : WireguardConfig) (db : WgDb) : Prop where
  stored : ∀ t ∈ db.tunnels.rows, ∀ r ∈ storedRoutedSubnets t.routed_subnets,
    Apart cfg.serverSubnet r
  apart : ∀ t ∈ db.live, ∀ u ∈ db.live, t.id ≠ u.id → ∀ x, t.Claims x → ¬ u.Claims x

theorem claims_iff {t : NasWgTunnel} {x : BitVec 32} : t.Claims x ↔
    x = t.tunnel_address ∨ ∃ r ∈ storedRoutedSubnets t.routed_subnets, r.Covers x := by
  simp only [NasWgTunnel.Claims, NasWgTunnel.ranges, List.mem_cons, exists_eq_or_imp, covers_host]

theorem length_of_ranges {t : NasWgTunnel} {r : Subnet} (h : r ∈ t.ranges) : r.length ≤ 32 := by
  rcases List.mem_cons.1 h with rfl | h
  · exact le_rfl
  · exact (routable_of_stored h).maxLength

section Invariant

variable {cfg : WireguardConfig} {db db' : WgDb}

theorem WgDb.Sound.disjoint (h : db.Sound cfg) : db.Disjoint cfg where
  tunnels := h.apart
  hub t ht x hx := by
    rintro ⟨hhub, hnone⟩
    rcases claims_iff.1 hx with rfl | ⟨r, hr, hcovers⟩
    · exact hnone t ht rfl
    · exact h.stored t (mem_live.1 ht).1 r hr x hhub hcovers

theorem WgDb.Sound.add (h : db.Sound cfg) (t' : NasWgTunnel)
    (hrows : ∀ u ∈ db'.tunnels.rows, u = t' ∨
      ∃ v ∈ db.tunnels.rows, u.routed_subnets = v.routed_subnets)
    (hlive : ∀ u ∈ db'.live, u = t' ∨ u ∈ db.live ∧ u.id ≠ t'.id)
    (hstored : ∀ r ∈ storedRoutedSubnets t'.routed_subnets, Apart cfg.serverSubnet r)
    (hapart : ∀ u ∈ db.live, u.id ≠ t'.id → ∀ x, t'.Claims x → ¬ u.Claims x) :
    db'.Sound cfg where
  stored u hu r hr := by
    rcases hrows u hu with rfl | ⟨v, hv, hsame⟩
    · exact hstored r hr
    · rw [hsame] at hr
      exact h.stored v hv r hr
  apart u hu v hv hne x hx hx' := by
    rcases hlive u hu with rfl | ⟨hu, hune⟩
    · rcases hlive v hv with rfl | ⟨hv, hvne⟩
      · exact hne rfl
      · exact hapart v hv hvne x hx hx'
    · rcases hlive v hv with rfl | ⟨hv, hvne⟩
      · exact hapart u hu hune x hx' hx
      · exact h.apart u hu v hv hne x hx hx'

theorem WgDb.Sound.shrink (h : db.Sound cfg)
    (hrows : ∀ u ∈ db'.tunnels.rows, ∃ v ∈ db.tunnels.rows, u.routed_subnets = v.routed_subnets)
    (hlive : ∀ u ∈ db'.live, u ∈ db.live) : db'.Sound cfg where
  stored u hu r hr := by
    obtain ⟨v, hv, hsame⟩ := hrows u hu
    rw [hsame] at hr
    exact h.stored v hv r hr
  apart u hu v hv := h.apart u (hlive u hu) v (hlive v hv)

theorem rows_setDeleted {id now : ℕ} {deleted : Bool} {u : NasWgTunnel}
    (hu : u ∈ (db.setDeleted id deleted now).tunnels.rows) :
    ∃ v ∈ db.tunnels.rows, u.routed_subnets = v.routed_subnets := by
  rw [WgDb.setDeleted, Table.mem_modify] at hu
  rcases hu with ⟨hu, -⟩ | ⟨v, hv, rfl⟩
  · exact ⟨u, hu, rfl⟩
  · exact ⟨v, (Table.find?_eq_some.1 hv).1, rfl⟩

theorem rows_deleteAll {ts : List NasWgTunnel} {now : ℕ} {u : NasWgTunnel}
    (hu : u ∈ (ts.foldl (fun db t => db.setDeleted t.id true now) db).tunnels.rows) :
    ∃ v ∈ db.tunnels.rows, u.routed_subnets = v.routed_subnets := by
  induction ts generalizing db with
  | nil => exact ⟨u, hu, rfl⟩
  | cons t ts ih =>
    obtain ⟨w, hw, huw⟩ := ih hu
    obtain ⟨v, hv, hwv⟩ := rows_setDeleted hw
    exact ⟨v, hv, huw.trans hwv⟩

theorem not_claims_of_ranges {t : NasWgTunnel} {q : Subnet} (hq : q.length ≤ 32)
    (h : ∀ r ∈ t.ranges, overlapsSubnet r q = false) {x : BitVec 32} (hx : q.Covers x) :
    ¬ t.Claims x := by
  rintro ⟨r, hr, hcovers⟩
  exact (apart_iff (length_of_ranges hr) hq).2 (h r hr) x hcovers hx

/-! ### One call -/

theorem WgDb.Sound.asOf (h : db.Sound cfg) (call : WgCall) : (db.asOf call).Sound cfg := by
  cases call <;> exact ⟨h.stored, h.apart⟩

theorem WgDb.Sound.create {nas : Nas} {pre : Option (BitVec 32)} {ip : BitVec 32} {now : ℕ}
    (h : db.Sound cfg) (hnone : db.loadTunnel nas.id = none)
    (hip : (givenIp nas pre <|> allocateTunnelIp cfg db) = some ip)
    (hfree : db.clashes nas.id ip = false)
    (hgood : Unclaimed db (.provisionDesiredState nas pre now)) :
    (db.create nas.id ip now).Sound cfg := by
  refine h.add (newTunnel nas.id ip now db.tunnels.nextId) ?_ ?_ ?_ ?_
  · intro u hu
    rw [WgDb.create, Table.mem_insert] at hu
    rcases hu with hu | rfl
    · exact .inr ⟨u, hu, rfl⟩
    · exact .inl rfl
  · intro u hu
    rcases mem_live_create.1 hu with hu | rfl
    · exact .inr ⟨hu, (Table.key_lt_nextId (mem_live.1 hu).1).ne⟩
    · exact .inl rfl
  · intro r hr
    exact absurd hr List.not_mem_nil
  · intro u hu _ x hx hclaims
    obtain rfl : x = ip := by
      rcases claims_iff.1 hx with rfl | ⟨r, hr, -⟩
      · rfl
      · exact absurd hr List.not_mem_nil
    rcases claims_iff.1 hclaims with heq | ⟨r, hr, hcovers⟩
    · exact (not_clashes.1 hfree u hu).2 heq.symm
    · rcases (Option.orElse_eq_some _ _ _).1 hip with hgiven | ⟨-, halloc⟩
      · have hmiss := hgood hnone x hgiven hfree u hu r hr
        exact (apart_iff (routable_of_stored hr).maxLength le_rfl).2 hmiss x hcovers
          (covers_host.2 rfl)
      · exact h.stored u (mem_live.1 hu).1 r hr x (allocateTunnelIp_some halloc).1 hcovers

theorem WgDb.Sound.confirm {nasId now : ℕ} {requested : List String} {subnets : List Subnet}
    {t : NasWgTunnel} (h : db.Sound cfg) (hok : normalizeRoutedSubnets requested = .ok subnets)
    (ht : db.loadTunnel nasId = some t)
    (hfree : ∀ s ∈ subnets, ∀ r ∈ db.taken cfg t, overlapsSubnet r s = false) :
    (db.storeSubnets t.id subnets now).Sound cfg := by
  have hroutable := routable_of_normalize hok
  have htlive := (loadTunnel_some ht).1
  refine h.add { t with routed_subnets := subnets.map Subnet.text, updated_at := now }
    ?_ ?_ ?_ ?_
  · intro u hu
    rw [WgDb.storeSubnets, Table.mem_modify] at hu
    rcases hu with ⟨hu, -⟩ | ⟨v, hv, rfl⟩
    · exact .inr ⟨u, hu, rfl⟩
    · obtain rfl : t = v :=
        Option.some.inj ((Table.find?_key (mem_live.1 htlive).1).symm.trans hv)
      exact .inl rfl
  · intro u hu
    exact ((mem_live_store htlive).1 hu).symm
  · intro r hr
    rw [stored_texts hroutable] at hr
    exact (apart_iff cfg.fits (hroutable r hr).maxLength).2 (hfree r hr _ List.mem_cons_self)
  · intro u hu hne x hx
    rcases claims_iff.1 hx with hx | ⟨s, hs, hcovers⟩
    · exact h.apart t htlive u hu (Ne.symm hne) x (claims_iff.2 (.inl hx))
    · rw [stored_texts hroutable] at hs
      refine not_claims_of_ranges (hroutable s hs).maxLength (fun r hr => ?_) hcovers
      refine hfree s hs r (List.mem_cons_of_mem _ (List.mem_flatMap.2 ⟨u, ?_, hr⟩))
      exact List.mem_filter.2 ⟨hu, by simpa using hne⟩

theorem WgDb.Sound.revive {nasId now : ℕ} {t : NasWgTunnel} (h : db.Sound cfg)
    (ht : db.revivable nasId = some t) (hfree : db.clashes nasId t.tunnel_address = false)
    (hgood : Unclaimed db (.restoreNas nasId now)) :
    (db.setDeleted t.id false now).Sound cfg := by
  obtain ⟨hrow, -, hdeleted, -⟩ := revivable_some ht
  refine h.add { t with deleted := false, updated_at := now } ?_ ?_ ?_ ?_
  · exact fun u hu => .inr (rows_setDeleted hu)
  · intro u hu
    rcases (mem_live_revive hrow hdeleted).1 hu with hu | rfl
    · refine .inr ⟨hu, fun hid => ?_⟩
      obtain rfl := Table.eq_of_key_eq (mem_live.1 hu).1 hrow hid
      rw [(mem_live.1 hu).2] at hdeleted
      cases hdeleted
    · exact .inl rfl
  · exact h.stored t hrow
  · rintro u hu - x ⟨q, hq, hcovers⟩
    exact not_claims_of_ranges (length_of_ranges (t := t) hq)
      (fun r hr => hgood t ht hfree u hu r hr q hq) hcovers

theorem WgDb.Sound.step (h : db.Sound cfg) {call : WgCall} (hgood : Unclaimed db call) :
    (wgStep cfg db call).Sound cfg := by
  have hleaves := leaves_run cfg db call
  rw [wgStep]
  generalize (call.run cfg db).1 = db' at hleaves ⊢
  generalize (call.run cfg db).2 = commands at hleaves
  cases hleaves with
  | nothing hcall => exact h.asOf call
  | synced ht => exact h.asOf _
  | created hnone hip hfree => exact (h.asOf _).create hnone hip hfree hgood
  | confirmed hok ht hfree => exact h.confirm hok ht hfree
  | tornDown nasId now =>
    exact (h.asOf (.teardownNas nasId now)).shrink (fun u hu => rows_deleteAll hu)
      fun u hu => ((mem_live_teardown cfg).1 hu).1
  | revived ht hfree => exact (h.asOf _).revive ht hfree hgood

theorem not_disjoint {t u : NasWgTunnel} (ht : t ∈ db.live) (hu : u ∈ db.live) (hne : t.id ≠ u.id)
    {x : BitVec 32} (hx : t.Claims x) (hx' : u.Claims x) : ¬ db.Disjoint cfg :=
  fun h => h.tunnels t ht u hu hne x hx hx'

/-- Any other call lets two live tunnels claim one address. -/
theorem not_disjoint_of_claimed {call : WgCall} (hbad : ¬ Unclaimed db call) :
    ¬ (wgStep cfg db call).Disjoint cfg := by
  cases call with
  | provisionDesiredState nas pre now =>
    simp only [Unclaimed] at hbad
    push Not at hbad
    obtain ⟨hnone, ip, hip, hfree, u, hu, r, hr, hmeets⟩ := hbad
    have hip : givenIp nas pre = some ip := hip
    rw [wgStep, run_created hnone ((Option.orElse_eq_some _ _ _).2 (.inl hip)) hfree]
    obtain ⟨x, hxr, hxip⟩ := (overlapsSubnet_iff (b := host ip) (routable_of_stored hr).maxLength
      le_rfl).1 (Bool.ne_false_iff.1 hmeets)
    refine not_disjoint (mem_live_create.2 (.inl hu)) (mem_live_create.2 (.inr rfl))
      (Table.key_lt_nextId (mem_live.1 hu).1).ne (x := x) (claims_iff.2 (.inr ⟨r, hr, hxr⟩)) ?_
    exact claims_iff.2 (.inl (covers_host.1 hxip))
  | confirmRoutes nasId requested now => exact absurd trivial hbad
  | teardownNas nasId now => exact absurd trivial hbad
  | restoreNas nasId now =>
    simp only [Unclaimed] at hbad
    push Not at hbad
    obtain ⟨t, ht, hfree, u, hu, r, hr, q, hq, hmeets⟩ := hbad
    obtain ⟨hrow, -, hdeleted, -⟩ := revivable_some ht
    rw [wgStep, run_revived ht hfree]
    obtain ⟨x, hxr, hxq⟩ := (overlapsSubnet_iff (length_of_ranges hr) (length_of_ranges hq)).1
      (Bool.ne_false_iff.1 hmeets)
    have hne : u.id ≠ t.id := ne_of_deleted hrow hdeleted hu
    exact not_disjoint ((mem_live_revive hrow hdeleted).2 (.inl hu))
      ((mem_live_revive hrow hdeleted).2 (.inr rfl)) hne (x := x) ⟨r, hr, hxr⟩ ⟨q, hq, hxq⟩

end Invariant

/-! ### Runs -/

/-- No tunnels. -/
def WgDb.empty : WgDb := ⟨Table.empty, []⟩

theorem sound_empty (cfg : WireguardConfig) : WgDb.empty.Sound cfg where
  stored _ ht := absurd ht List.not_mem_nil
  apart _ ht := absurd ht List.not_mem_nil

/-- **No NAS receives another's traffic, just when nothing that is claimed is taken.**  In a run
from no tunnels the hub's part of its subnet and what the live tunnels claim are disjoint all along
just when every given address is outside the routed subnets, and every revived tunnel is apart from
the live ones. -/
theorem tunnels_disjoint_iff (cfg : WireguardConfig) (calls : List WgCall) :
    Always (wgStep cfg) (WgDb.Disjoint cfg) .empty calls ↔
      StepsMeet (wgStep cfg) Unclaimed .empty calls :=
  always_iff_stepsMeet (fun _ h => h.disjoint) (fun _ _ h hgood => h.step hgood)
    (fun _ _ _ hbad => not_disjoint_of_claimed hbad) (sound_empty cfg) calls

/-! ### A subnet confirmed while its tunnel was down -/

theorem hub_fits : 16 ≤ 32 := by omega

/-- A hub on 10.255.0.0/16. -/
def hubConfig : WireguardConfig := ⟨⟨0x0AFF0000#32, 16⟩, true, hub_fits⟩

/-- The subnet of a NAS that is deleted is confirmed for another, and the first is restored. -/
def movedSubnet : List WgCall :=
  [.provisionDesiredState ⟨1, .nated, some 0x0AFF0002#32⟩ none 0,
    .confirmRoutes 1 ["10.1.0.0/24"] 1, .teardownNas 1 2,
    .provisionDesiredState ⟨2, .nated, some 0x0AFF0003#32⟩ none 3,
    .confirmRoutes 2 ["10.1.0.0/24"] 4, .restoreNas 1 5]

theorem movedSubnet_claimed {t : NasWgTunnel} (ht : t.routed_subnets = ["10.1.0.0/24"]) :
    t.Claims 0x0A010000#32 := by
  refine claims_iff.2 (.inr ⟨⟨0x0A010000#32, 24⟩, ?_, rfl⟩)
  rw [ht]
  decide

/-- **Two NAS devices share a subnet**: `restoreNas` revives a tunnel without looking whether its
subnets are another's by now. -/
theorem tunnels_not_disjoint :
    ¬ ∀ (cfg : WireguardConfig) (calls : List WgCall),
      Always (wgStep cfg) (WgDb.Disjoint cfg) .empty calls := by
  intro h
  have hlast := (h hubConfig movedSubnet).last
  have hlive : (run (wgStep hubConfig) .empty movedSubnet).live =
      [⟨1, 1, 0x0AFF0002#32, ["10.1.0.0/24"], 5, false⟩,
        ⟨2, 2, 0x0AFF0003#32, ["10.1.0.0/24"], 4, false⟩] := by decide
  refine not_disjoint (hlive ▸ List.mem_cons_self)
    (hlive ▸ List.mem_cons_of_mem _ List.mem_cons_self) (by decide)
    (movedSubnet_claimed rfl) (movedSubnet_claimed rfl) hlast

end Vigabss.Wireguard
