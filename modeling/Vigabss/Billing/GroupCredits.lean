import Vigabss.Billing.GroupShares

/-!
# Vigabss.Billing.GroupCredits — what a group payment credits to each client

`writeGroupLedgerCredits` sums the shares up client by client, rounding each sum to cents, and
credits the primary what is left of the amount.  The sum of all shares it takes off the amount is
added up in doubles and rounded once; `addedCents_of_few` says how far that is exact.
-/

namespace Vigabss.Billing

open Vigabss.Lib

/-! ### The amounts credited -/

/-- `addFor` in cents. -/
def addCents (c : ℕ) (cents : ℤ) : List (ℕ × ℤ) → List (ℕ × ℤ)
  | [] => [(c, cents)]
  | (d, x) :: rest =>
    if d = c then (d, x + cents) :: rest else (d, x) :: addCents c cents rest

/-- The entries as the numbers the service keeps. -/
def numbers (entries : List (ℕ × ℤ)) : List (ℕ × ℚ) := entries.map fun e => (e.1, number e.2)

/-- Every entry is of a cent or more, and together they are read back exactly. -/
structure Entered (entries : List (ℕ × ℤ)) : Prop where
  pos : ∀ e ∈ entries, 0 < e.2
  total : (entries.map Prod.snd).sum ≤ 2 * decimalMax

theorem Entered.tail {e : ℕ × ℤ} {entries : List (ℕ × ℤ)} (h : Entered (e :: entries)) :
    Entered entries where
  pos e' he' := h.pos e' (List.mem_cons_of_mem _ he')
  total := by
    have := h.total
    have := h.pos e List.mem_cons_self
    rw [List.map_cons, List.sum_cons] at *
    omega

theorem sum_addCents (c : ℕ) (v : ℤ) (entries : List (ℕ × ℤ)) :
    ((addCents c v entries).map Prod.snd).sum = (entries.map Prod.snd).sum + v := by
  induction entries with
  | nil => simp [addCents]
  | cons e rest ih =>
    unfold addCents
    split_ifs <;> simp only [List.map_cons, List.sum_cons, ih] <;> ring

theorem net_addCents (c : ℕ) (v : ℤ) (entries : List (ℕ × ℤ)) (d : ℕ) :
    Journal.net Prod.fst Prod.snd (addCents c v entries) d =
      Journal.net Prod.fst Prod.snd entries d + if c = d then v else 0 := by
  induction entries with
  | nil => by_cases h : c = d <;> simp [addCents, Journal.net, h]
  | cons e rest ih =>
    have hcons : ∀ (e : ℕ × ℤ) es, Journal.net Prod.fst Prod.snd (e :: es) d =
        (if e.1 = d then e.2 else 0) + Journal.net Prod.fst Prod.snd es d := by
      intro e es
      by_cases h : e.1 = d <;> simp [Journal.net, h]
    unfold addCents
    split_ifs with hk hc
    · subst hc
      rw [hcons, hcons]
      simp only [hk, if_true]
      ring
    · have hne : ¬ e.1 = d := fun he => hc (hk.symm.trans he)
      rw [hcons, hcons, if_neg hne, if_neg hne, add_zero]
    · rename_i hc
      rw [hcons, hcons, ih, if_pos hc, add_assoc]
    · rename_i hc
      rw [hcons, hcons, ih, if_neg hc, add_assoc]

theorem Entered.add {c : ℕ} {v : ℤ} {entries : List (ℕ × ℤ)} (h : Entered entries) (hv : 0 < v)
    (htotal : (entries.map Prod.snd).sum + v ≤ 2 * decimalMax) : Entered (addCents c v entries) where
  pos := by
    have hpos := h.pos
    clear h htotal
    induction entries with
    | nil => simpa [addCents] using hv
    | cons e rest ih =>
      have hrest : ∀ a ∈ rest, 0 < a.2 := fun a ha => hpos a (List.mem_cons_of_mem _ ha)
      have he := hpos e List.mem_cons_self
      unfold addCents
      intro a ha
      split_ifs at ha with hc
      · rcases List.mem_cons.1 ha with rfl | ha
        · exact add_pos he hv
        · exact hrest a ha
      · rcases List.mem_cons.1 ha with rfl | ha
        · exact he
        · exact ih hrest a ha
  total := by rwa [sum_addCents]

theorem addFor_numbers {c : ℕ} {v : ℤ} {entries : List (ℕ × ℤ)} (h : Entered entries) (hv : 0 < v)
    (htotal : (entries.map Prod.snd).sum + v ≤ 2 * decimalMax) :
    addFor c (number v) (numbers entries) = numbers (addCents c v entries) := by
  induction entries with
  | nil =>
    rw [List.map_nil, List.sum_nil, zero_add] at htotal
    have hadd := round2_add (a := 0) (b := v) (by norm_num [decimalMax])
      (by rw [abs_of_pos hv]; omega) (by rw [zero_add, abs_of_pos hv]; omega)
    rw [number_zero, zero_add, zero_add] at hadd
    simp [addFor, addCents, numbers, hadd]
  | cons e rest ih =>
    have he := h.pos e List.mem_cons_self
    have hrest : 0 ≤ (rest.map Prod.snd).sum :=
      List.sum_nonneg fun x hx => by
        obtain ⟨e₁, he₁, rfl⟩ := List.mem_map.1 hx
        exact (h.tail.pos e₁ he₁).le
    rw [List.map_cons, List.sum_cons] at htotal
    rw [numbers, List.map_cons, addFor, addCents]
    split_ifs with hc
    · rw [round2_add (by rw [abs_of_pos he]; omega) (by rw [abs_of_pos hv]; omega)
        (by rw [abs_of_pos (by omega)]; omega)]
      rfl
    · have := ih h.tail (by omega)
      rw [numbers] at this
      rw [this]
      rfl

/-- What the loop over the settled invoices has summed up for each client. -/
def memberCents (ss : List (OpenInvoice × ℤ)) (entries : List (ℕ × ℤ)) : List (ℕ × ℤ) :=
  ss.foldl (fun es s => addCents s.1.invoice.clientId s.2 es) entries

/-- A share as the service remembers it. -/
def settledShare (s : OpenInvoice × ℤ) : SettledShare :=
  ⟨s.1.invoice.id, s.1.invoice.clientId, number s.2⟩

theorem memberCents_spec {ss : List (OpenInvoice × ℤ)} {entries : List (ℕ × ℤ)}
    (h : Entered entries) (hpos : ∀ s ∈ ss, 0 < s.2)
    (htotal : (entries.map Prod.snd).sum + shareSum ss ≤ 2 * decimalMax) :
    Entered (memberCents ss entries) ∧
      (ss.map settledShare).foldl (fun m a => addFor a.client_id a.amount m) (numbers entries) =
        numbers (memberCents ss entries) ∧
      ((memberCents ss entries).map Prod.snd).sum = (entries.map Prod.snd).sum + shareSum ss ∧
      ∀ c, Journal.net Prod.fst Prod.snd (memberCents ss entries) c =
        Journal.net Prod.fst Prod.snd entries c + shareOf ss c := by
  induction ss generalizing entries with
  | nil => exact ⟨h, rfl, (add_zero _).symm, fun _ => (add_zero _).symm⟩
  | cons s ss ih =>
    have hs := hpos s List.mem_cons_self
    have hss : ∀ t ∈ ss, 0 < t.2 := fun t ht => hpos t (List.mem_cons_of_mem _ ht)
    have hrest : 0 ≤ shareSum ss := List.sum_nonneg fun x hx => by
      obtain ⟨t, ht, rfl⟩ := List.mem_map.1 hx
      exact (hss t ht).le
    rw [shareSum_cons] at htotal ⊢
    have hadd : (entries.map Prod.snd).sum + s.2 ≤ 2 * decimalMax := by omega
    obtain ⟨hentered, hfold, hsum, hnet⟩ := ih (h.add (c := s.1.invoice.clientId) hs hadd) hss
      (by rw [sum_addCents]; omega)
    refine ⟨hentered, ?_, ?_, fun c => ?_⟩
    · rw [List.map_cons, List.foldl_cons, settledShare, addFor_numbers h hs hadd]
      exact hfold
    · rw [memberCents, List.foldl_cons]
      rw [memberCents] at hsum
      rw [hsum, sum_addCents, add_assoc]
    · rw [memberCents, List.foldl_cons]
      have := hnet c
      rw [memberCents] at this
      rw [this, net_addCents, shareOf_cons, add_assoc]

/-! ### Adding up the shares in doubles -/

/-- The cents that the doubles of the shares add up to. -/
def addedCents (ss : List (OpenInvoice × ℤ)) : ℤ :=
  mathRound (fl (ss.foldl (fun x s => fl (x + number s.2)) 0 * 100))

theorem allocatedTotal_settled (ss : List (OpenInvoice × ℤ)) :
    allocatedTotal ((ss.map settledShare).map SettledShare.amount) = number (addedCents ss) := by
  rw [allocatedTotal, List.map_map, List.foldl_map]
  rfl

/-- Every addition moves the sum by no more than two roundings. -/
theorem added_close {ss : List (OpenInvoice × ℤ)} (hpos : ∀ s ∈ ss, 0 < s.2) {x : ℚ} {acc k : ℤ}
    (hk0 : 0 ≤ k) (hk : k ≤ acc) (hx : |x - acc / 100| ≤ k / 2 ^ 25)
    (htotal : acc + shareSum ss ≤ decimalMax) :
    |ss.foldl (fun x s => fl (x + number s.2)) x - (acc + shareSum ss : ℤ) / 100| ≤
      (k + ss.length : ℤ) / 2 ^ 25 := by
  induction ss generalizing x acc k with
  | nil => simpa [shareSum] using hx
  | cons s ss ih =>
    have hs := hpos s List.mem_cons_self
    have hss : ∀ t ∈ ss, 0 < t.2 := fun t ht => hpos t (List.mem_cons_of_mem _ ht)
    have hrest : 0 ≤ shareSum ss := List.sum_nonneg fun x hx => by
      obtain ⟨t, ht, rfl⟩ := List.mem_map.1 hx
      exact (hss t ht).le
    rw [shareSum_cons, ← add_assoc] at htotal
    have hsmax : s.2 ≤ decimalMax := by omega
    have haccmax : acc ≤ decimalMax := by omega
    have hv := abs_le.1 (number_close (c := s.2) (by
      rw [abs_of_pos hs]
      exact hsmax.trans (by norm_num [decimalMax])))
    have hsq : (0 : ℚ) < s.2 := by exact_mod_cast hs
    have hsum : ((acc : ℚ) + s.2) ≤ 9999999999 := by
      have : acc + s.2 ≤ decimalMax := by omega
      exact_mod_cast this
    have hkq : (0 : ℚ) ≤ k := by exact_mod_cast hk0
    have hkacc : (k : ℚ) ≤ acc := by exact_mod_cast hk
    rw [abs_le] at hx
    norm_num at hx hv
    have hlt : |x + number s.2| < 2 ^ (28 : ℤ) := by
      rw [abs_lt]
      constructor <;> norm_num <;> linarith [hx.1, hx.2, hv.1, hv.2]
    have hfl := abs_le.1 (abs_fl_sub_le (by norm_num) hlt)
    norm_num at hfl
    have hstep : |fl (x + number s.2) - (acc + s.2 : ℤ) / 100| ≤ (k + 1 : ℤ) / 2 ^ 25 := by
      rw [abs_le]
      push_cast
      constructor <;> norm_num <;> linarith [hx.1, hx.2, hv.1, hv.2, hfl.1, hfl.2]
    have := ih hss (by omega) (by omega) hstep htotal
    rw [List.foldl_cons, shareSum_cons, List.length_cons, ← add_assoc]
    refine this.trans_eq ?_
    push_cast
    ring

section Added

variable {ss : List (OpenInvoice × ℤ)} (hpos : ∀ s ∈ ss, 0 < s.2)

include hpos in
theorem length_le_shareSum : (ss.length : ℤ) ≤ shareSum ss := by
  induction ss with
  | nil => exact le_rfl
  | cons s ss ih =>
    have := hpos s List.mem_cons_self
    have := ih fun t ht => hpos t (List.mem_cons_of_mem _ ht)
    rw [shareSum_cons, List.length_cons]
    push_cast
    omega

variable (hmax : shareSum ss ≤ decimalMax)

include hpos hmax in
theorem scaled_close : |fl (ss.foldl (fun x s => fl (x + number s.2)) 0 * 100) - shareSum ss| ≤
    100 * (ss.length : ℚ) / 2 ^ 25 + 1 / 2 ^ 20 := by
  have hstart : |(0 : ℚ) - (0 : ℤ) / 100| ≤ (0 : ℤ) / 2 ^ 25 := by norm_num
  have hclose := added_close hpos le_rfl le_rfl hstart (by rwa [zero_add])
  have hlen := length_le_shareSum hpos
  have hlenq : (ss.length : ℚ) ≤ shareSum ss := by exact_mod_cast hlen
  have hsumq : (shareSum ss : ℚ) ≤ 9999999999 := by exact_mod_cast hmax
  have hlen0 : (0 : ℚ) ≤ ss.length := by positivity
  rw [abs_le] at hclose
  push_cast at hclose
  norm_num at hclose
  set f := ss.foldl (fun x s => fl (x + number s.2)) 0 with hf
  have hlt : |f * 100| < 2 ^ (34 : ℤ) := by
    rw [abs_lt]
    constructor <;> norm_num <;> linarith [hclose.1, hclose.2]
  have hfl := abs_le.1 (abs_fl_sub_le (by norm_num) hlt)
  norm_num at hfl
  rw [abs_le]
  constructor <;> norm_num <;> linarith [hclose.1, hclose.2, hfl.1, hfl.2]

include hpos hmax in
theorem addedCents_near : |addedCents ss - shareSum ss| ≤ 30000 := by
  have hscaled := abs_le.1 (scaled_close hpos hmax)
  have hlenq : (ss.length : ℚ) ≤ 9999999999 := by
    have hlen : (ss.length : ℤ) ≤ 9999999999 := (length_le_shareSum hpos).trans hmax
    exact_mod_cast hlen
  set q := fl (ss.foldl (fun x s => fl (x + number s.2)) 0 * 100) with hq
  have hle : (mathRound q : ℚ) ≤ q + 1 / 2 := Int.floor_le _
  have hgt : q + 1 / 2 < mathRound q + 1 := Int.lt_floor_add_one _
  norm_num at hscaled
  have habs : |((mathRound q - shareSum ss : ℤ) : ℚ)| ≤ 30000 := by
    rw [abs_le]
    push_cast
    constructor <;> linarith [hscaled.1, hscaled.2]
  exact_mod_cast habs

include hpos hmax in
/-- **Up to 131072 shares add up exactly.** -/
theorem addedCents_of_few (hfew : ss.length ≤ 2 ^ 17) : addedCents ss = shareSum ss := by
  have hscaled := scaled_close hpos hmax
  have hfewq : (ss.length : ℚ) ≤ 131072 := by exact_mod_cast hfew
  refine mathRound_eq (hscaled.trans_lt ?_)
  norm_num
  linarith

end Added

/-! ### The credits in cents -/

/-- The credits of a group payment, in cents. -/
def creditCents (ss : List (OpenInvoice × ℤ)) (primaryId : ℕ) (cents : ℤ) : List (ℕ × ℤ) :=
  if 0 < cents - addedCents ss then
    addCents primaryId (cents - addedCents ss) (memberCents ss [])
  else memberCents ss []

/-- What is credited to the primary beyond its shares. -/
def creditedRest (ss : List (OpenInvoice × ℤ)) (cents : ℤ) : ℤ := max 0 (cents - addedCents ss)

section Credits

variable {ss : List (OpenInvoice × ℤ)} {primaryId : ℕ} {cents : ℤ} (hpos : ∀ s ∈ ss, 0 < s.2)

include hpos in
theorem shareSum_nonneg : 0 ≤ shareSum ss :=
  List.sum_nonneg fun x hx => by
    obtain ⟨t, ht, rfl⟩ := List.mem_map.1 hx
    exact (hpos t ht).le

variable (hle : shareSum ss ≤ cents) (hmax : cents ≤ decimalMax)

theorem entered_nil : Entered [] where
  pos e he := by cases he
  total := by norm_num [decimalMax]

include hpos hle hmax in
theorem members_entered : Entered (memberCents ss []) ∧
    ((memberCents ss []).map Prod.snd).sum = shareSum ss ∧
    ∀ c, Journal.net Prod.fst Prod.snd (memberCents ss []) c = shareOf ss c := by
  have htotal : (([] : List (ℕ × ℤ)).map Prod.snd).sum + shareSum ss ≤ 2 * decimalMax := by
    rw [List.map_nil, List.sum_nil, zero_add]
    have : decimalMax ≤ 2 * decimalMax := by norm_num [decimalMax]
    omega
  obtain ⟨hentered, -, hsum, hnet⟩ := memberCents_spec entered_nil hpos htotal
  exact ⟨hentered, hsum.trans (zero_add _), fun c => (hnet c).trans (zero_add _)⟩

include hpos hle hmax in
theorem sum_creditCents : ((creditCents ss primaryId cents).map Prod.snd).sum =
    shareSum ss + creditedRest ss cents := by
  obtain ⟨-, hsum, -⟩ := members_entered hpos hle hmax
  unfold creditCents creditedRest
  split_ifs with hrest
  · rw [sum_addCents, hsum, max_eq_right hrest.le]
  · rw [hsum, max_eq_left (not_lt.1 hrest), add_zero]

include hpos hle hmax in
theorem net_creditCents (c : ℕ) : Journal.net Prod.fst Prod.snd (creditCents ss primaryId cents) c =
    shareOf ss c + if c = primaryId then creditedRest ss cents else 0 := by
  obtain ⟨-, -, hnet⟩ := members_entered hpos hle hmax
  unfold creditCents creditedRest
  simp only [eq_comm (a := c)]
  split_ifs with hrest hc hc
  · rw [net_addCents, hnet, if_pos hc, max_eq_right hrest.le]
  · rw [net_addCents, hnet, if_neg hc]
  · rw [hnet, max_eq_left (not_lt.1 hrest), add_zero]
  · rw [hnet, add_zero]

include hpos hle hmax in
theorem rest_bounds : |addedCents ss| ≤ 2 * decimalMax ∧ |cents - addedCents ss| ≤ 2 * decimalMax ∧
    shareSum ss + (cents - addedCents ss) ≤ 2 * decimalMax := by
  have hnear := abs_le.1 (addedCents_near hpos (hle.trans hmax))
  have h0 := shareSum_nonneg hpos
  simp only [abs_le]
  unfold decimalMax at *
  omega

include hpos hle hmax in
theorem creditCents_entered : Entered (creditCents ss primaryId cents) := by
  obtain ⟨hentered, hsum, -⟩ := members_entered hpos hle hmax
  obtain ⟨-, -, hbound⟩ := rest_bounds hpos hle hmax
  unfold creditCents
  split_ifs with hrest
  · exact hentered.add hrest (by rwa [hsum])
  · exact hentered

theorem Entered.le {entries : List (ℕ × ℤ)} (h : Entered entries) {e : ℕ × ℤ} (he : e ∈ entries) :
    |e.2| ≤ 2 * decimalMax := by
  rw [abs_of_pos (h.pos e he)]
  refine le_trans ?_ h.total
  refine List.single_le_sum (fun x hx => ?_) _ (List.mem_map_of_mem he)
  obtain ⟨d, hd, rfl⟩ := List.mem_map.1 hx
  exact (h.pos d hd).le

include hpos hle hmax in
/-- **The service credits these cents.** -/
theorem groupCredits_eq : groupCredits (ss.map settledShare) primaryId (number cents) =
    numbers (creditCents ss primaryId cents) := by
  have htotal : (([] : List (ℕ × ℤ)).map Prod.snd).sum + shareSum ss ≤ 2 * decimalMax := by
    rw [List.map_nil, List.sum_nil, zero_add]
    have : decimalMax ≤ 2 * decimalMax := by norm_num [decimalMax]
    omega
  obtain ⟨hadded, hrest, hbound⟩ := rest_bounds hpos hle hmax
  obtain ⟨hentered, hsum, -⟩ := members_entered hpos hle hmax
  obtain ⟨-, hfold, -⟩ := memberCents_spec entered_nil hpos htotal
  have hcents : |cents| ≤ 2 * decimalMax := by
    have h0 := shareSum_nonneg hpos
    rw [abs_of_nonneg (h0.trans hle)]
    unfold decimalMax at *
    omega
  have hremainder : round2 (fl (number cents -
      allocatedTotal ((ss.map settledShare).map SettledShare.amount))) =
        number (cents - addedCents ss) := by
    rw [allocatedTotal_settled, round2_difference hcents hadded hrest]
  -- every credit is of a cent or more, so the last filter keeps them all
  have hkeep : (numbers (creditCents ss primaryId cents)).filter
      (fun credit => fl (5 / 1000) < credit.2) = numbers (creditCents ss primaryId cents) := by
    have hc : Entered (creditCents ss primaryId cents) := creditCents_entered hpos hle hmax
    refine List.filter_eq_self.2 fun e he => ?_
    obtain ⟨d, hd, rfl⟩ := List.mem_map.1 he
    exact decide_eq_true ((half_lt_number_iff (hc.le hd)).2 (hc.pos d hd))
  rw [groupCredits, show ([] : List (ℕ × ℚ)) = numbers [] from rfl, hfold, hremainder]
  refine Eq.trans ?_ hkeep
  congr 1
  unfold creditCents
  by_cases hpositive : 0 < cents - addedCents ss
  · rw [if_pos ((half_lt_number_iff hrest).2 hpositive), if_pos hpositive,
      addFor_numbers hentered hpositive (by rwa [hsum])]
  · rw [if_neg (mt (half_lt_number_iff hrest).1 hpositive), if_neg hpositive]

end Credits

end Vigabss.Billing
