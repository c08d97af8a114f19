import Vigabss.Throughput.Aggregation

/-!
# Vigabss.Throughput.OrderFree — when the order of the samples does not matter

The rate of a bucket is the sum, over the interfaces, of the mean of the rates between neighbours in
time.  Samples of one interface at one time have no order in time, and the sort keeps the one they
came in: the result depends on it where they bound an interval of the window with other counters.
-/

namespace Vigabss.Throughput

open Vigabss.Lib

variable {ι : Type}

/-! ### Neighbours in time -/

/-- A counter moves by the same between two samples and two others, if it does not go backwards
between both. -/
def SameDelta (f : Sample ι → ℚ) (a b a' b' : Sample ι) : Prop :=
  f a ≤ f b ∨ f a' ≤ f b' → f b - f a = f b' - f a'

/-- An interval of an interface that ends in the window: no sample lies within it. -/
def Counted (o : Opts) (xs : List (Sample ι)) (a b : Sample ι) : Prop :=
  a.t < b.t ∧ o.fromMs ≤ b.t ∧ b.t < o.toMs ∧ ∀ c ∈ xs, c.t ≤ a.t ∨ b.t ≤ c.t

theorem pairs_cons_cons {α : Type} (a b : α) (xs : List α) :
    pairs (a :: b :: xs) = (a, b) :: pairs (b :: xs) := rfl

theorem between_pairs {xs : List (Sample ι)} (h : xs.Pairwise fun a b => a.t ≤ b.t)
    {p : Sample ι × Sample ι} (hp : p ∈ pairs xs) :
    p.1 ∈ xs ∧ p.2 ∈ xs ∧ ∀ c ∈ xs, c.t ≤ p.1.t ∨ p.2.t ≤ c.t := by
  induction xs with
  | nil => cases hp
  | cons a xs ih =>
    rcases xs with - | ⟨b, xs⟩
    · cases hp
    · obtain ⟨ha, hrest⟩ := List.pairwise_cons.1 h
      rw [pairs_cons_cons] at hp
      rcases List.mem_cons.1 hp with rfl | hp
      · refine ⟨List.mem_cons_self, List.mem_cons_of_mem a List.mem_cons_self, fun c hc => ?_⟩
        rcases List.mem_cons.1 hc with rfl | hc
        · exact .inl le_rfl
        · rcases List.mem_cons.1 hc with rfl | hc
          · exact .inr le_rfl
          · exact .inr ((List.pairwise_cons.1 hrest).1 c hc)
      · obtain ⟨hfirst, hsecond, hbetween⟩ := ih hrest hp
        refine ⟨List.mem_cons_of_mem a hfirst, List.mem_cons_of_mem a hsecond, fun c hc => ?_⟩
        rcases List.mem_cons.1 hc with rfl | hc
        · exact .inl (ha p.1 hfirst)
        · exact hbetween c hc

theorem sameDelta_le {f : Sample ι → ℚ} {a b a' b' : Sample ι} (h : SameDelta f a b a' b') :
    (0 ≤ f b - f a ↔ 0 ≤ f b' - f a') ∧ (0 ≤ f b - f a → f b - f a = f b' - f a') := by
  constructor
  · constructor
    · intro hle
      rw [← h (.inl (sub_nonneg.1 hle))]
      exact hle
    · intro hle
      rw [h (.inr (sub_nonneg.1 hle))]
      exact hle
  · exact fun hle => h (.inl (sub_nonneg.1 hle))

theorem interval_congr {o : Opts} {a b a' b' : Sample ι} (hat : a.t = a'.t) (hbt : b.t = b'.t)
    (hin : SameDelta Sample.inO a b a' b') (hout : SameDelta Sample.outO a b a' b') :
    interval o a b = interval o a' b' := by
  obtain ⟨hinIff, hinEq⟩ := sameDelta_le hin
  obtain ⟨houtIff, houtEq⟩ := sameDelta_le hout
  unfold interval
  simp only [hat, hbt]
  have hback : (b.inO - a.inO < 0 ∧ b.outO - a.outO < 0) ↔
      (b'.inO - a'.inO < 0 ∧ b'.outO - a'.outO < 0) := by
    rw [← not_le, ← not_le, ← not_le, ← not_le, hinIff, houtIff]
  refine if_congr Iff.rfl rfl (if_congr Iff.rfl rfl (if_congr hback rfl ?_))
  refine congrArg some (congrArg₂ (Gain.mk _) ?_ ?_)
  · by_cases hle : 0 ≤ b.inO - a.inO
    · rw [if_pos hle, if_pos (hinIff.1 hle), hinEq hle]
    · rw [if_neg hle, if_neg fun h => hle (hinIff.2 h)]
  · by_cases hle : 0 ≤ b.outO - a.outO
    · rw [if_pos hle, if_pos (houtIff.1 hle), houtEq hle]
    · rw [if_neg hle, if_neg fun h => hle (houtIff.2 h)]

theorem interval_of_not_counted {o : Opts} {a b : Sample ι}
    (h : ¬ (a.t < b.t ∧ o.fromMs ≤ b.t ∧ b.t < o.toMs)) : interval o a b = none := by
  unfold interval
  by_cases hlt : a.t < b.t
  · have hpos : ¬ (b.t - a.t) / 1000 ≤ 0 := by
      rw [not_le]
      exact div_pos (sub_pos.2 hlt) (by norm_num)
    have hout : b.t < o.fromMs ∨ o.toMs ≤ b.t := by
      by_contra hwithin
      rw [not_or, not_lt, not_le] at hwithin
      exact h ⟨hlt, hwithin⟩
    simp only [if_neg hpos, if_pos hout]
  · have hle : (b.t - a.t) / 1000 ≤ 0 :=
      div_nonpos_of_nonpos_of_nonneg (sub_nonpos.2 (not_lt.1 hlt)) (by norm_num)
    simp only [if_pos hle]

theorem forall₂_pairs {R : Sample ι → Sample ι → Prop} {xs ys : List (Sample ι)}
    (h : List.Forall₂ R xs ys) :
    List.Forall₂ (fun p q => R p.1 q.1 ∧ R p.2 q.2) (pairs xs) (pairs ys) := by
  induction h with
  | nil => exact .nil
  | @cons a b xs ys hab hrest ih =>
    cases hrest with
    | nil => exact .nil
    | cons hcd hmore => exact .cons ⟨hab, hcd⟩ ih

theorem filterMap_of_forall₂ {α β : Type} {f : α → Option β} {xs ys : List α}
    (h : List.Forall₂ (fun a b => f a = f b) xs ys) : xs.filterMap f = ys.filterMap f := by
  induction h with
  | nil => rfl
  | cons hab _ ih => rw [List.filterMap_cons, List.filterMap_cons, hab, ih]

/-! ### Rates and gains -/

/-- The rates between neighbours that a bucket counts in one direction. -/
def rates (f : Sample ι → ℚ) (o : Opts) (bi : ℕ) (xs : List (Sample ι)) : List ℚ :=
  (pairs xs).filterMap fun p =>
    if p.1.t < p.2.t ∧ o.fromMs ≤ p.2.t ∧ p.2.t < o.toMs ∧ o.bucketOf p.2.t = bi ∧ f p.1 ≤ f p.2
    then some ((f p.2 - f p.1) * 8 / ((p.2.t - p.1.t) / 1000)) else none

def mean (values : List ℚ) : ℚ := values.sum / values.length

/-- The gains of samples in some order. -/
def gains (o : Opts) (xs : List (Sample ι)) : List Gain :=
  (pairs xs).filterMap fun p => interval o p.1 p.2

/-- An entry, if there is one, with gains. -/
def collect (e : Option Entry) (gs : List Gain) : Option Entry :=
  gs.foldl (fun e g => some ((e.getD ⟨0, 0, 0, 0⟩).add g)) e

/-- What an interval gives to a bucket. -/
theorem interval_rates (o : Opts) (bi : ℕ) (a b : Sample ι) :
    ((interval o a b).bind fun g => if g.bucket = bi then g.inRate else none) =
      (if a.t < b.t ∧ o.fromMs ≤ b.t ∧ b.t < o.toMs ∧ o.bucketOf b.t = bi ∧ a.inO ≤ b.inO
        then some ((b.inO - a.inO) * 8 / ((b.t - a.t) / 1000)) else none) ∧
    ((interval o a b).bind fun g => if g.bucket = bi then g.outRate else none) =
      (if a.t < b.t ∧ o.fromMs ≤ b.t ∧ b.t < o.toMs ∧ o.bucketOf b.t = bi ∧ a.outO ≤ b.outO
        then some ((b.outO - a.outO) * 8 / ((b.t - a.t) / 1000)) else none) := by
  by_cases hcounted : a.t < b.t ∧ o.fromMs ≤ b.t ∧ b.t < o.toMs
  · have hpos : ¬ (b.t - a.t) / 1000 ≤ 0 := by
      rw [not_le]
      exact div_pos (sub_pos.2 hcounted.1) (by norm_num)
    have hwithin : ¬ (b.t < o.fromMs ∨ o.toMs ≤ b.t) := by
      rw [not_or, not_lt, not_le]
      exact hcounted.2
    unfold interval
    simp only [if_neg hpos, if_neg hwithin, hcounted.1, hcounted.2.1, hcounted.2.2, true_and,
      sub_nonneg]
    by_cases hback : b.inO - a.inO < 0 ∧ b.outO - a.outO < 0
    · have hin : ¬ a.inO ≤ b.inO := not_le.2 (sub_neg.1 hback.1)
      have hout : ¬ a.outO ≤ b.outO := not_le.2 (sub_neg.1 hback.2)
      simp [hback, hin, hout]
    · simp only [if_neg hback, Option.bind_some]
      constructor
      · split_ifs <;> simp_all
      · split_ifs <;> simp_all
  · have hneg : ∀ q : Prop, ¬ (a.t < b.t ∧ o.fromMs ≤ b.t ∧ b.t < o.toMs ∧ q) :=
      fun q h => hcounted ⟨h.1, h.2.1, h.2.2.1⟩
    rw [interval_of_not_counted hcounted, if_neg (hneg _), if_neg (hneg _)]
    exact ⟨rfl, rfl⟩

theorem rates_eq (o : Opts) (bi : ℕ) (xs : List (Sample ι)) :
    rates Sample.inO o bi xs =
      ((gains o xs).filter fun g => g.bucket = bi).filterMap Gain.inRate ∧
    rates Sample.outO o bi xs =
      ((gains o xs).filter fun g => g.bucket = bi).filterMap Gain.outRate := by
  have hfilter : ∀ (f : Gain → Option ℚ) (gs : List Gain),
      (gs.filter fun g => g.bucket = bi).filterMap f =
        gs.filterMap fun g => if g.bucket = bi then f g else none := by
    intro f gs
    rw [List.filterMap_filter]
    simp only [decide_eq_true_eq]
  rw [hfilter, hfilter, gains, List.filterMap_filterMap, List.filterMap_filterMap]
  exact ⟨List.filterMap_congr fun p _ => (interval_rates o bi p.1 p.2).1.symm,
    List.filterMap_congr fun p _ => (interval_rates o bi p.1 p.2).2.symm⟩

theorem foldl_add (gs : List Gain) (e : Entry) :
    gs.foldl Entry.add e =
      ⟨e.inSum + (gs.filterMap Gain.inRate).sum, e.inN + (gs.filterMap Gain.inRate).length,
        e.outSum + (gs.filterMap Gain.outRate).sum,
        e.outN + (gs.filterMap Gain.outRate).length⟩ := by
  induction gs generalizing e with
  | nil => simp
  | cons g gs ih =>
    rw [List.foldl_cons, ih]
    obtain ⟨bucket, inRate, outRate⟩ := g
    cases inRate <;> cases outRate <;>
      simp [Entry.add, add_assoc, Nat.add_comm]

theorem collect_some (gs : List Gain) (e : Entry) :
    collect (some e) gs = some (gs.foldl Entry.add e) := by
  induction gs generalizing e with
  | nil => rfl
  | cons g gs ih => exact ih (e.add g)

theorem average_eq_mean (values : List ℚ) : average values.sum values.length = mean values := by
  rw [average, mean]
  split_ifs with h
  · rfl
  · rw [List.length_eq_zero_iff.1 (Nat.eq_zero_of_not_pos h)]
    simp

theorem collect_average (gs : List Gain) :
    ((collect none gs).elim 0 fun e => average e.inSum e.inN) =
      mean (gs.filterMap Gain.inRate) ∧
    ((collect none gs).elim 0 fun e => average e.outSum e.outN) =
      mean (gs.filterMap Gain.outRate) := by
  rcases gs with - | ⟨g, gs⟩
  · simp [collect, mean]
  · have hcollect : collect none (g :: gs) =
        some ((g :: gs).foldl Entry.add ⟨0, 0, 0, 0⟩) := collect_some gs _
    rw [hcollect, foldl_add]
    simp only [Option.elim_some, zero_add, average_eq_mean, and_self]

variable [DecidableEq ι]

/-! ### The samples of an interface -/

/-- The samples of an interface, in their order. -/
def samplesOf (samples : List (Option (Sample ι))) (x : ι) : List (Sample ι) :=
  samples.filterMap fun s => s.filter fun s => s.iface = some x

theorem get_foldl_join (samples : List (Option (Sample ι))) (m : JsMap ι (List (Sample ι)))
    (x : ι) :
    (samples.foldl join m).get x =
      if samplesOf samples x = [] then m.get x
      else some ((m.get x).getD [] ++ samplesOf samples x) := by
  induction samples generalizing m with
  | nil => rfl
  | cons s samples ih =>
    rw [List.foldl_cons, ih]
    rcases s with - | s
    · rfl
    · cases hs : s.iface with
      | none =>
        have hskip : samplesOf (some s :: samples) x = samplesOf samples x := by
          simp [samplesOf, Option.filter, hs]
        rw [hskip, join, hs]
      | some y =>
        rw [join, hs]
        by_cases hxy : x = y
        · subst hxy
          have htake : samplesOf (some s :: samples) x = s :: samplesOf samples x := by
            simp [samplesOf, Option.filter, hs]
          rw [htake, if_neg (List.cons_ne_nil _ _)]
          simp only [JsMap.get_set, if_true, Option.getD_some]
          split_ifs with hnil
          · rw [hnil]
          · rw [List.append_assoc, List.singleton_append]
        · have hskip : samplesOf (some s :: samples) x = samplesOf samples x := by
            simp [samplesOf, Option.filter, hs, Ne.symm hxy]
          rw [hskip]
          simp only [JsMap.get_set, if_neg hxy]

/-- **The groups are the samples of the interfaces.** -/
theorem get_groupByIface (samples : List (Option (Sample ι))) (x : ι) :
    (groupByIface samples).get x =
      if samplesOf samples x = [] then none else some (samplesOf samples x) := by
  rw [groupByIface, get_foldl_join]
  rfl

/-! ### The loops -/

theorem tallyIface_eq (o : Opts) (tally : Tally ι) (x : ι) (xs : List (Sample ι)) :
    tallyIface o tally (x, xs) = (gains o (sortByTime xs)).foldl (Tally.note x) tally := by
  unfold tallyIface gains
  generalize pairs (sortByTime xs) = ps
  induction ps generalizing tally with
  | nil => rfl
  | cons p ps ih =>
    rw [List.foldl_cons, ih]
    cases h : interval o p.1 p.2 with
    | none => simp only [List.filterMap_cons, h]
    | some g => simp only [List.filterMap_cons, h, List.foldl_cons]

theorem get_foldl_note (x : ι) (gs : List Gain) (tally : Tally ι) (bi : ℕ) (y : ι) :
    ((gs.foldl (Tally.note x) tally).perBucketIface bi).get y =
      if y = x then
        collect ((tally.perBucketIface bi).get x) (gs.filter fun g => g.bucket = bi)
      else (tally.perBucketIface bi).get y := by
  induction gs generalizing tally with
  | nil =>
    split_ifs with h
    · rw [h]
      rfl
    · rfl
  | cons g gs ih =>
    rw [List.foldl_cons, ih]
    by_cases hbi : g.bucket = bi
    · subst hbi
      have hupdate : (tally.note x g).perBucketIface g.bucket =
          (tally.perBucketIface g.bucket).set x
            ((((tally.perBucketIface g.bucket).get x).getD ⟨0, 0, 0, 0⟩).add g) :=
        Function.update_self ..
      rw [List.filter_cons_of_pos (by simp), hupdate]
      split_ifs with h
      · rw [JsMap.get_set, if_pos rfl]
        rfl
      · rw [JsMap.get_set, if_neg h]
    · have hupdate : (tally.note x g).perBucketIface bi = tally.perBucketIface bi :=
        Function.update_of_ne (Ne.symm hbi) ..
      rw [List.filter_cons_of_neg (by simp [hbi]), hupdate]

theorem hasData_foldl_note (x : ι) (gs : List Gain) (tally : Tally ι) :
    (gs.foldl (Tally.note x) tally).hasData =
      (tally.hasData || gs.any fun g => g.inRate.isSome || g.outRate.isSome) := by
  induction gs generalizing tally with
  | nil => simp
  | cons g gs ih =>
    rw [List.foldl_cons, ih, List.any_cons]
    simp [Tally.note, Bool.or_assoc]

theorem get_foldl_tallyIface (o : Opts) (entries : List (ι × List (Sample ι)))
    (hnodup : (entries.map Prod.fst).Nodup) (tally : Tally ι) (bi : ℕ) (x : ι) :
    ((entries.foldl (tallyIface o) tally).perBucketIface bi).get x =
      match JsMap.find x entries with
      | some xs => collect ((tally.perBucketIface bi).get x)
          ((gains o (sortByTime xs)).filter fun g => g.bucket = bi)
      | none => (tally.perBucketIface bi).get x := by
  induction entries generalizing tally with
  | nil => rfl
  | cons p entries ih =>
    obtain ⟨hnot, hrest⟩ := List.nodup_cons.1 hnodup
    obtain ⟨y, ys⟩ := p
    rw [List.foldl_cons, ih hrest, tallyIface_eq, get_foldl_note, JsMap.find]
    by_cases hxy : y = x
    · subst hxy
      have hnone : JsMap.find y entries = none := by
        cases h : JsMap.find y entries with
        | none => rfl
        | some zs =>
          have hmem := (JsMap.find_eq_some hrest).1 h
          exact absurd (List.mem_map_of_mem (f := Prod.fst) hmem) hnot
      rw [hnone, if_pos rfl, if_pos rfl]
    · rw [if_neg (Ne.symm hxy), if_neg hxy]

/-- The gains of an interface in a bucket. -/
def gainsOf (samples : List (Option (Sample ι))) (o : Opts) (bi : ℕ) (x : ι) : List Gain :=
  (gains o (sortByTime (samplesOf samples x))).filter fun g => g.bucket = bi

/-- **What the loops leave.** -/
theorem get_tallyOf (samples : List (Option (Sample ι))) (o : Opts) (bi : ℕ) (x : ι) :
    ((tallyOf samples o).perBucketIface bi).get x = collect none (gainsOf samples o bi x) := by
  rw [tallyOf, get_foldl_tallyIface o _ (groupByIface samples).nodup]
  have hget : JsMap.find x (groupByIface samples).entries = _ := get_groupByIface samples x
  rw [hget, gainsOf]
  split_ifs with hnil
  · rw [hnil]
    rfl
  · rfl

theorem hasData_foldl_tallyIface (o : Opts) (entries : List (ι × List (Sample ι)))
    (tally : Tally ι) : (entries.foldl (tallyIface o) tally).hasData =
      (tally.hasData || entries.any fun p => (gains o (sortByTime p.2)).any fun g =>
        g.inRate.isSome || g.outRate.isSome) := by
  induction entries generalizing tally with
  | nil => simp
  | cons p entries ih =>
    obtain ⟨x, xs⟩ := p
    rw [List.foldl_cons, ih, tallyIface_eq, hasData_foldl_note, List.any_cons, Bool.or_assoc]

/-- **A tally is told by the gains of the interfaces.** -/
theorem aggregateThroughput_congr {samples samples' : List (Option (Sample ι))} {o : Opts}
    (h : ∀ x, gains o (sortByTime (samplesOf samples x)) =
      gains o (sortByTime (samplesOf samples' x)))
    (hnil : ∀ x, samplesOf samples x = [] ↔ samplesOf samples' x = []) :
    aggregateThroughput samples o = aggregateThroughput samples' o := by
  have hget : ∀ bi x, ((tallyOf samples o).perBucketIface bi).get x =
      ((tallyOf samples' o).perBucketIface bi).get x := by
    intro bi x
    rw [get_tallyOf, get_tallyOf, gainsOf, gainsOf, h]
  have hin : inTotals (tallyOf samples o) = inTotals (tallyOf samples' o) :=
    funext fun bi => JsMap.total_congr _ (hget bi)
  have hout : outTotals (tallyOf samples o) = outTotals (tallyOf samples' o) :=
    funext fun bi => JsMap.total_congr _ (hget bi)
  have hactive : inActive (tallyOf samples o) = inActive (tallyOf samples' o) :=
    funext fun bi => (JsMap.entries_perm (hget bi)).any_eq
  have hdata : (tallyOf samples o).hasData = (tallyOf samples' o).hasData := by
    rw [tallyOf, tallyOf, hasData_foldl_tallyIface, hasData_foldl_tallyIface,
      Bool.false_or, Bool.false_or, Bool.eq_iff_iff, List.any_eq_true, List.any_eq_true]
    have hgroup : ∀ {ss ss' : List (Option (Sample ι))},
        (∀ x, gains o (sortByTime (samplesOf ss x)) = gains o (sortByTime (samplesOf ss' x))) →
        (∀ x, samplesOf ss x = [] ↔ samplesOf ss' x = []) →
        (∃ p ∈ (groupByIface ss).entries, (gains o (sortByTime p.2)).any
          (fun g => g.inRate.isSome || g.outRate.isSome) = true) →
        ∃ p ∈ (groupByIface ss').entries, (gains o (sortByTime p.2)).any
          (fun g => g.inRate.isSome || g.outRate.isSome) = true := by
      rintro ss ss' hgains hempty ⟨⟨x, xs⟩, hmem, hany⟩
      rw [JsMap.mem_entries, get_groupByIface] at hmem
      split_ifs at hmem with hss
      cases hmem
      refine ⟨(x, samplesOf ss' x), ?_, ?_⟩
      · rw [JsMap.mem_entries, get_groupByIface, if_neg fun hss' => hss ((hempty x).2 hss')]
      · rw [hgains] at hany
        exact hany
    exact ⟨hgroup h hnil, hgroup (fun x => (h x).symm) fun x => (hnil x).symm⟩
  rw [aggregateThroughput, aggregateThroughput, hin, hout, hactive, hdata]

/-! ### Orders in time -/

/-- The samples of an interface in an order that time allows. -/
def TimeOrder (samples : List (Option (Sample ι))) (x : ι) (xs : List (Sample ι)) : Prop :=
  xs.Perm (samplesOf samples x) ∧ xs.Pairwise fun a b => a.t ≤ b.t

/-- **Samples at one time agree** where they bound an interval that is counted. -/
def Settled (o : Opts) (samples : List (Option (Sample ι))) : Prop :=
  ∀ x, ∀ a ∈ samplesOf samples x, ∀ a' ∈ samplesOf samples x, ∀ b ∈ samplesOf samples x,
    ∀ b' ∈ samplesOf samples x, a.t = a'.t → b.t = b'.t → Counted o (samplesOf samples x) a b →
      SameDelta Sample.inO a b a' b' ∧ SameDelta Sample.outO a b a' b'

theorem timeOrder_sortByTime (samples : List (Option (Sample ι))) (x : ι) :
    TimeOrder samples x (sortByTime (samplesOf samples x)) := by
  have htotal : Std.Total fun a b : Sample ι => a.t ≤ b.t := ⟨fun a b => le_total a.t b.t⟩
  have htrans : IsTrans (Sample ι) fun a b => a.t ≤ b.t := ⟨fun _ _ _ => le_trans⟩
  exact ⟨List.perm_insertionSort _ _, List.pairwise_insertionSort _ _⟩

/-- **Every order in time gives the same gains**, where the samples are settled. -/
theorem gains_timeOrder {o : Opts} {samples : List (Option (Sample ι))} (h : Settled o samples)
    {x : ι} {xs ys : List (Sample ι)} (hxs : TimeOrder samples x xs)
    (hys : TimeOrder samples x ys) : gains o xs = gains o ys := by
  have htimes : xs.map Sample.t = ys.map Sample.t := by
    exact ((hxs.1.trans hys.1.symm).map _).eq_of_pairwise' (r := (· ≤ ·))
      (List.pairwise_map.2 hxs.2) (List.pairwise_map.2 hys.2)
  have hsame : List.Forall₂ (fun a b : Sample ι => a.t = b.t) xs ys := by
    have heq := List.forall₂_eq_eq_eq ▸ htimes
    rwa [List.forall₂_map_left_iff, List.forall₂_map_right_iff] at heq
  obtain ⟨hlength, hpairs⟩ := List.forall₂_iff_zip.1 (forall₂_pairs hsame)
  refine filterMap_of_forall₂ (List.forall₂_iff_zip.2 ⟨hlength, fun {p q} hpq => ?_⟩)
  obtain ⟨hp, hq⟩ := List.of_mem_zip hpq
  obtain ⟨hfirst, hsecond⟩ := hpairs hpq
  obtain ⟨hp₁, hp₂, hbetween⟩ := between_pairs hxs.2 hp
  obtain ⟨hq₁, hq₂, -⟩ := between_pairs hys.2 hq
  by_cases hcounted : p.1.t < p.2.t ∧ o.fromMs ≤ p.2.t ∧ p.2.t < o.toMs
  · obtain ⟨hin, hout⟩ := h x p.1 (hxs.1.subset hp₁) q.1 (hys.1.subset hq₁) p.2
      (hxs.1.subset hp₂) q.2 (hys.1.subset hq₂) hfirst hsecond
      ⟨hcounted.1, hcounted.2.1, hcounted.2.2, fun c hc => hbetween c (hxs.1.symm.subset hc)⟩
    exact interval_congr hfirst hsecond hin hout
  · rw [interval_of_not_counted hcounted, interval_of_not_counted (by rwa [← hfirst, ← hsecond])]

/-! ### The rate of a bucket -/

/-- The interfaces that samples are of. -/
def ifaces (samples : List (Option (Sample ι))) : Finset ι :=
  (samples.filterMap fun s => s.bind Sample.iface).toFinset

/-- The sum, over the interfaces that a bucket counts rates of, of the mean of these. -/
def bucketRate (f : Sample ι → ℚ) (o : Opts) (bi : ℕ) (samples : List (Option (Sample ι)))
    (order : ι → List (Sample ι)) : ℚ :=
  ∑ x ∈ (ifaces samples).filter fun x => rates f o bi (order x) ≠ [],
    mean (rates f o bi (order x))

theorem mem_ifaces {samples : List (Option (Sample ι))} {x : ι}
    (h : samplesOf samples x ≠ []) : x ∈ ifaces samples := by
  obtain ⟨s, rest, hs⟩ := List.exists_cons_of_ne_nil h
  have hmem : s ∈ samplesOf samples x := hs ▸ List.mem_cons_self
  obtain ⟨t, ht, hfilter⟩ := List.mem_filterMap.1 hmem
  refine List.mem_toFinset.2 (List.mem_filterMap.2 ⟨t, ht, ?_⟩)
  obtain ⟨rfl, hx⟩ := Option.filter_eq_some_iff.1 hfilter
  exact of_decide_eq_true hx

/-- **What a bucket adds up.** -/
theorem totals_eq (samples : List (Option (Sample ι))) (o : Opts) (bi : ℕ) :
    inTotals (tallyOf samples o) bi = bucketRate Sample.inO o bi samples
      (fun x => sortByTime (samplesOf samples x)) ∧
    outTotals (tallyOf samples o) bi = bucketRate Sample.outO o bi samples
      (fun x => sortByTime (samplesOf samples x)) := by
  have hkeys : ∀ x e, ((tallyOf samples o).perBucketIface bi).get x = some e →
      x ∈ ifaces samples := by
    intro x e hget
    refine mem_ifaces fun hnil => ?_
    rw [get_tallyOf, gainsOf, hnil] at hget
    cases hget
  have hsum : ∀ f : Sample ι → ℚ, (∑ x ∈ ifaces samples,
      mean (rates f o bi (sortByTime (samplesOf samples x)))) =
        bucketRate f o bi samples fun x => sortByTime (samplesOf samples x) := by
    intro f
    rw [bucketRate, Finset.sum_filter]
    refine Finset.sum_congr rfl fun x _ => ?_
    split_ifs with hnil
    · rfl
    · rw [not_not.1 hnil]
      simp [mean]
  constructor
  · rw [inTotals, JsMap.total_eq_sum _ _ hkeys, ← hsum]
    refine Finset.sum_congr rfl fun x _ => ?_
    rw [JsMap.part, get_tallyOf, (rates_eq o bi _).1]
    exact (collect_average _).1
  · rw [outTotals, JsMap.total_eq_sum _ _ hkeys, ← hsum]
    refine Finset.sum_congr rfl fun x _ => ?_
    rw [JsMap.part, get_tallyOf, (rates_eq o bi _).2]
    exact (collect_average _).2

theorem bucketRate_congr {f : Sample ι → ℚ} {o : Opts} {bi : ℕ}
    {samples : List (Option (Sample ι))} {order order' : ι → List (Sample ι)}
    (h : ∀ x, rates f o bi (order x) = rates f o bi (order' x)) :
    bucketRate f o bi samples order = bucketRate f o bi samples order' := by
  simp only [bucketRate, h]

theorem points_getElem? (samples : List (Option (Sample ι))) {o : Opts} {bi : ℕ}
    (hbi : bi < o.nBuckets) : (aggregateThroughput samples o).points[bi]? =
      some ⟨o.fromMs + bi * o.width + o.width / 2,
        mathRound (inTotals (tallyOf samples o) bi),
        mathRound (outTotals (tallyOf samples o) bi)⟩ := by
  show ((List.range o.nBuckets).map _)[bi]? = some _
  rw [List.getElem?_map, List.getElem?_range hbi, Option.map_some]

/-- **The order of settled samples does not matter**: every permutation gives the same, and the rate
of each bucket is the sum over the interfaces of their mean rates, in whatever order time allows. -/
theorem aggregate_order_free {o : Opts} {samples : List (Option (Sample ι))}
    (hsettled : Settled o samples) :
    (∀ samples', samples.Perm samples' →
      aggregateThroughput samples' o = aggregateThroughput samples o) ∧
    ∀ order : ι → List (Sample ι), (∀ x, TimeOrder samples x (order x)) → ∀ bi < o.nBuckets,
      ∃ p, (aggregateThroughput samples o).points[bi]? = some p ∧
        p.in_bps = mathRound (bucketRate Sample.inO o bi samples order) ∧
        p.out_bps = mathRound (bucketRate Sample.outO o bi samples order) := by
  refine ⟨fun samples' hperm => ?_, fun order horder bi hbi => ?_⟩
  · have hsamples : ∀ x, (samplesOf samples' x).Perm (samplesOf samples x) :=
      fun x => (hperm.filterMap _).symm
    refine aggregateThroughput_congr (fun x => ?_) fun x => ?_
    · have hsort := timeOrder_sortByTime samples' x
      exact gains_timeOrder hsettled ⟨hsort.1.trans (hsamples x), hsort.2⟩
        (timeOrder_sortByTime samples x)
    · exact ⟨fun h => List.perm_nil.1 (h ▸ (hsamples x).symm),
        fun h => List.perm_nil.1 (h ▸ hsamples x)⟩
  · obtain ⟨hin, hout⟩ := totals_eq samples o bi
    have hgains : ∀ x, gains o (order x) = gains o (sortByTime (samplesOf samples x)) := fun x =>
      gains_timeOrder hsettled (horder x) (timeOrder_sortByTime samples x)
    refine ⟨_, points_getElem? samples hbi, ?_, ?_⟩
    · rw [hin]
      refine congrArg mathRound (bucketRate_congr fun x => ?_)
      rw [(rates_eq o bi _).1, (rates_eq o bi _).1, hgains]
    · rw [hout]
      refine congrArg mathRound (bucketRate_congr fun x => ?_)
      rw [(rates_eq o bi _).2, (rates_eq o bi _).2, hgains]

/-! ### A poll that is stored twice -/

section Example

/-- Two polls of one interface, a minute apart, and the second one again, a moment later in the
counters but not in its time. -/
def twice (first second : ℚ) : List (Option (Sample String)) :=
  [some ⟨some "7:1", 0, 0, 0⟩, some ⟨some "7:1", 60000, first, 0⟩,
    some ⟨some "7:1", 60000, second, 0⟩]

def oneHour : Opts := ⟨0, 3600000, 1⟩

/-- The order of two samples at one time decides the rate. -/
theorem aggregate_order_matters :
    ¬ ∀ (o : Opts) (samples samples' : List (Option (Sample String))), samples.Perm samples' →
      aggregateThroughput samples' o = aggregateThroughput samples o := by
  intro h
  have hperm : (twice 7500000 15000000).Perm (twice 15000000 7500000) :=
    (List.Perm.swap _ _ _).cons _
  have hsame := congrArg Series.peak_bps (h oneHour _ _ hperm)
  revert hsame
  decide +kernel

theorem settled_twice (q : ℚ) : Settled oneHour (twice q q) := by
  have hcounters : ∀ x, ∀ a ∈ samplesOf (twice q q) x,
      a.inO = (if a.t = 60000 then q else 0) ∧ a.outO = 0 := by
    intro x a ha
    obtain ⟨s, hs, hfilter⟩ := List.mem_filterMap.1 ha
    obtain ⟨rfl, -⟩ := Option.filter_eq_some_iff.1 hfilter
    simp only [twice, List.mem_cons, List.not_mem_nil, or_false, Option.some.injEq] at hs
    rcases hs with rfl | rfl | rfl <;> simp
  intro x a ha a' ha' b hb b' hb' hat hbt _
  obtain ⟨hain, haout⟩ := hcounters x a ha
  obtain ⟨hain', haout'⟩ := hcounters x a' ha'
  obtain ⟨hbin, hbout⟩ := hcounters x b hb
  obtain ⟨hbin', hbout'⟩ := hcounters x b' hb'
  refine ⟨fun _ => ?_, fun _ => ?_⟩
  · rw [hain, hain', hbin, hbin', hat, hbt]
  · rw [haout, haout', hbout, hbout']

theorem aggregate_order_free_twice :
    aggregateThroughput (twice 7500000 7500000).reverse oneHour =
      aggregateThroughput (twice 7500000 7500000) oneHour :=
  (aggregate_order_free (settled_twice 7500000)).1 _ (List.reverse_perm _).symm

end Example

end Vigabss.Throughput
