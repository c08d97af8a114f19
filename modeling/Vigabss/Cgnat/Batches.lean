import Vigabss.Cgnat.Server

/-!
# Vigabss.Cgnat.Batches — a batch is its accepted records

The ledger after a batch is the ledger after its accepted records alone, taken one at a time: a
rejected record leaves nothing behind.  And an accepted record that is sent again, at any later
time, is a replay: it changes nothing and is only counted.
-/

namespace Vigabss.Cgnat

open Vigabss.Lib

/-- The ledger after a batch: one that fails changes nothing. -/
def afterBatch (settings : Config) (radius : Radius.Db) (now : ℤ) (organizationId apiTokenId : ℕ)
    (db : Db) (payload : List RawBinding) : Db :=
  match ingestBatch settings radius now organizationId apiTokenId db payload with
  | .ok (db', _) => db'
  | .error _ => db

/-- The records of a batch that were not rejected; none, when the whole batch failed. -/
def acceptedRecords (settings : Config) (radius : Radius.Db) (now : ℤ)
    (organizationId apiTokenId : ℕ) (db : Db) (payload : List RawBinding) : List RawBinding :=
  match ingestBatch settings radius now organizationId apiTokenId db payload with
  | .ok (_, p) => (payload.zipIdx.filter fun r => r.2 ∉ p.rejected.map Rejected.index).map Prod.fst
  | .error _ => []

/-! ### Known records -/

section Known

variable {db : Db} {organizationId apiTokenId : ℕ} {b : Binding}

/-- The record is stored with its exporter, under the token that sends it. -/
def Known (db : Db) (organizationId apiTokenId : ℕ) (b : Binding) : Prop :=
  ∃ config e, Resolves db organizationId apiTokenId b config ∧
    existingEvent db organizationId b config = some e ∧ e.collectorApiTokenId = apiTokenId ∧
    e.payload = b

variable {settings : Config} {radius : Radius.Db} {now : ℤ} {otherOrganization otherToken : ℕ}
  {bindingId : ℕ} {b' : Binding} {config config' : Exporter} {w : Writes}

theorem Resolves.of_settings (h : checkToken config b apiTokenId = .ok () ∧
    checkScope config b = .ok ()) (hs : config'.settings = config.settings) :
    checkToken config' b apiTokenId = .ok () ∧ checkScope config' b = .ok () := by
  have htoken : checkToken config' b apiTokenId = checkToken config'.settings b apiTokenId := rfl
  have hscope : checkScope config' b = checkScope config'.settings b := rfl
  rw [htoken, hscope, hs]
  exact h

/-- A stored record leaves every exporter what it may send. -/
theorem Resolves.store (h : Resolves db organizationId apiTokenId b config)
    (hw : Stores settings db radius now otherOrganization otherToken bindingId b' config' w) :
    ∃ config₁, Resolves (db.store w) organizationId apiTokenId b config₁ ∧
      config₁.id = config.id := by
  have hmem' := hw.resolves.mem.1
  have hid : w.exporter.id = config'.id := by rw [hw.exporter]; rfl
  have hsettings : w.exporter.settings = config'.settings := by rw [hw.exporter]; rfl
  let g : Exporter → Exporter := fun c => if c.id = w.exporter.id then w.exporter else c
  have hg : ∀ c ∈ db.exporters.rows, (g c).settings = c.settings := by
    intro c hc
    simp only [g]
    split_ifs with hcid
    · rw [hsettings, Table.eq_of_key_eq hc hmem' (hcid.trans hid)]
    · rfl
  have hrows : (db.store w).exporters.rows = db.exporters.rows.map g :=
    Table.rows_put (List.mem_map.2 ⟨config', hmem', hid.symm⟩)
  have honly : ((db.store w).identified (b.identity organizationId)).filter (·.enabled) =
      [g config] := by
    rw [Db.identified, hrows, List.filter_filter, List.filter_map, ← List.map_singleton, ← h.only,
      Db.identified, List.filter_filter]
    refine congrArg (List.map g) (List.filter_congr fun c hc => ?_)
    have hidentity : (g c).identity = c.identity := (congrArg Exporter.identity (hg c hc) :)
    have henabled : (g c).enabled = c.enabled := (congrArg Exporter.enabled (hg c hc) :)
    simp only [Function.comp_apply, hidentity, henabled]
  obtain ⟨htoken, hscope⟩ := Resolves.of_settings ⟨h.token, h.scope⟩ (hg config h.mem.1)
  have hgid : (g config).id = config.id := (congrArg Exporter.id (hg config h.mem.1) :)
  exact ⟨g config, ⟨honly, htoken, hscope⟩, hgid⟩

theorem existingEvent_store (hid : config'.id = config.id) {e : BindingEvent}
    (h : existingEvent db organizationId b config = some e) :
    existingEvent (db.store w) organizationId b config' = some e := by
  unfold existingEvent Db.eventsOf Db.store at *
  rw [List.filter_append, List.find?_append, hid, h]
  rfl

theorem Known.store (h : Known db organizationId apiTokenId b)
    (hw : Stores settings db radius now otherOrganization otherToken bindingId b' config' w) :
    Known (db.store w) organizationId apiTokenId b := by
  obtain ⟨config, e, hr, he, htoken, hpayload⟩ := h
  obtain ⟨config₁, hr₁, hid⟩ := hr.store hw
  exact ⟨config₁, e, hr₁, existingEvent_store hid he, htoken, hpayload⟩

theorem Stores.known
    (h : Stores settings db radius now organizationId apiTokenId bindingId b config w) :
    Known (db.store w) organizationId apiTokenId b := by
  obtain ⟨config₁, hr₁, hid⟩ := h.resolves.store h
  refine ⟨config₁, w.event, hr₁, ?_, by rw [h.event], by rw [h.event]⟩
  have hunseen := h.unseen
  unfold existingEvent Db.eventsOf Db.store at *
  rw [List.filter_append, List.find?_append, hid, hunseen]
  simp [h.event]

theorem Known.replayed (h : Known db organizationId apiTokenId b) :
    ingestRecord settings db radius now organizationId apiTokenId bindingId b = .ok .replayed :=
  ingestRecord_replayed.2 h

end Known

/-! ### The loop -/

section Loop

variable {settings : Config} {radius : Radius.Db} {now : ℤ} {organizationId apiTokenId : ℕ}

/-- The ledger after one well-formed record. -/
def afterRecord (settings : Config) (radius : Radius.Db) (now : ℤ)
    (organizationId apiTokenId : ℕ) (db : Db) (b : Binding) : Db :=
  match ingestRecord settings db radius now organizationId apiTokenId db.bindings.nextId b with
  | .ok (.stored w) => db.store w
  | _ => db

/-- What the loop does to its first record, and then to the others. -/
theorem ingestRecords_cons {db db' : Db} {p p' : Progress} {record : ℕ × Binding}
    {records : List (ℕ × Binding)}
    (h : ingestRecords settings radius now organizationId apiTokenId db p (record :: records) =
      .ok (db', p')) :
    ∃ p₁, ingestRecords settings radius now organizationId apiTokenId
        (afterRecord settings radius now organizationId apiTokenId db record.2) p₁ records =
          .ok (db', p') ∧
      (p₁.rejected = p.rejected ∧ Known
          (afterRecord settings radius now organizationId apiTokenId db record.2) organizationId
          apiTokenId record.2 ∨
        afterRecord settings radius now organizationId apiTokenId db record.2 = db ∧
          ∃ r : Rejected, r.index = record.1 ∧ p₁.rejected = p.rejected ++ [r]) := by
  unfold ingestRecords at h
  obtain ⟨⟨w, p₁⟩, hpass, h⟩ := except_bind_ok.1 h
  rcases pass_ok hpass with ⟨config, w', rfl, rfl, hstores⟩ | ⟨rfl, rfl, hreplayed⟩ |
      ⟨failure, rfl, rfl, -, herror⟩
  · have hr := ingestRecord_stored.2 ⟨config, hstores⟩
    refine ⟨p.stored w'.event, ?_, .inl ⟨rfl, ?_⟩⟩
    · simp only [afterRecord, hr]
      exact h
    · simp only [afterRecord, hr]
      exact hstores.known
  · refine ⟨{ p with replayed := p.replayed + 1 }, ?_, .inl ⟨rfl, ?_⟩⟩
    · simp only [afterRecord, hreplayed]
      exact h
    · simp only [afterRecord, hreplayed]
      exact ingestRecord_replayed.1 hreplayed
  · refine ⟨p.reject record.1 record.2 failure, ?_, .inr ⟨?_, _, rfl, rfl⟩⟩
    · simp only [afterRecord, herror]
      exact h
    · simp only [afterRecord, herror]

theorem ingestRecords_rejected {db db' : Db} {p p' : Progress} {records : List (ℕ × Binding)}
    (h : ingestRecords settings radius now organizationId apiTokenId db p records = .ok (db', p')) :
    ∃ more : List Rejected, p'.rejected = p.rejected ++ more ∧
      ∀ r ∈ more, r.index ∈ records.map Prod.fst := by
  induction records generalizing db p with
  | nil =>
    obtain ⟨-, rfl⟩ := Prod.mk.inj (Except.ok.inj h)
    exact ⟨[], by simp, by simp⟩
  | cons record records ih =>
    obtain ⟨p₁, h₁, hp₁⟩ := ingestRecords_cons h
    obtain ⟨more, hmore, hindex⟩ := ih h₁
    rcases hp₁ with ⟨hp₁, -⟩ | ⟨-, r, hr, hp₁⟩
    · exact ⟨more, by rw [hmore, hp₁], fun x hx => List.mem_cons_of_mem _ (hindex x hx)⟩
    · refine ⟨r :: more, by rw [hmore, hp₁]; simp, fun x hx => ?_⟩
      rcases List.mem_cons.1 hx with rfl | hx
      · rw [hr]
        exact List.mem_cons_self
      · exact List.mem_cons_of_mem _ (hindex x hx)

/-- **The loop is its accepted records**: each rejected record leaves the ledger as it was. -/
theorem ingestRecords_eq {db db' : Db} {p p' : Progress} {records : List (ℕ × Binding)}
    (hnodup : (records.map Prod.fst).Nodup)
    (hnew : ∀ i ∈ records.map Prod.fst, i ∉ p.rejected.map Rejected.index)
    (h : ingestRecords settings radius now organizationId apiTokenId db p records = .ok (db', p')) :
    db' = (records.filter fun r => r.1 ∉ p'.rejected.map Rejected.index).foldl
      (fun db r => afterRecord settings radius now organizationId apiTokenId db r.2) db := by
  induction records generalizing db p with
  | nil =>
    obtain ⟨rfl, -⟩ := Prod.mk.inj (Except.ok.inj h)
    rfl
  | cons record records ih =>
    rw [List.map_cons, List.nodup_cons] at hnodup
    obtain ⟨p₁, h₁, hp₁⟩ := ingestRecords_cons h
    obtain ⟨more, hmore, hindex⟩ := ingestRecords_rejected h₁
    have hrest : record.1 ∉ more.map Rejected.index := by
      intro hmem
      obtain ⟨r, hr, heq⟩ := List.mem_map.1 hmem
      exact hnodup.1 (heq ▸ hindex r hr)
    have hhead := hnew record.1 List.mem_cons_self
    rcases hp₁ with ⟨hp₁, -⟩ | ⟨hsame, r, hr, hp₁⟩
    · -- accepted: it is in nobody's list of rejected records
      have hin : record.1 ∉ p'.rejected.map Rejected.index := by
        rw [hmore, hp₁, List.map_append, List.mem_append, not_or]
        exact ⟨hhead, hrest⟩
      rw [List.filter_cons_of_pos (by simpa using hin), List.foldl_cons]
      refine ih hnodup.2 (fun i hi => ?_) h₁
      rw [hp₁]
      exact hnew i (List.mem_cons_of_mem _ hi)
    · have hout : record.1 ∈ p'.rejected.map Rejected.index := by
        rw [hmore, hp₁]
        simp [hr]
      rw [List.filter_cons_of_neg (by simpa using hout)]
      rw [hsame] at h₁
      refine ih hnodup.2 (fun i hi => ?_) h₁
      rw [hp₁, List.map_append, List.mem_append, not_or]
      refine ⟨hnew i (List.mem_cons_of_mem _ hi), fun hmem => ?_⟩
      obtain rfl : i = record.1 := by simpa [hr] using hmem
      exact hnodup.1 hi

theorem Known.afterRecord {db : Db} {organization token : ℕ} {b b' : Binding}
    (h : Known db organization token b) :
    Known (afterRecord settings radius now organizationId apiTokenId db b') organization token
      b := by
  unfold Cgnat.afterRecord
  split
  · rename_i w hw
    obtain ⟨config, hstores⟩ := ingestRecord_stored.1 hw
    exact h.store hstores
  · exact h

theorem ingestRecords_known {db db' : Db} {p p' : Progress} {records : List (ℕ × Binding)}
    (h : ingestRecords settings radius now organizationId apiTokenId db p records = .ok (db', p')) :
    (∀ organization token b, Known db organization token b → Known db' organization token b) ∧
      ∀ r ∈ records, r.1 ∉ p'.rejected.map Rejected.index →
        Known db' organizationId apiTokenId r.2 := by
  induction records generalizing db p with
  | nil =>
    obtain ⟨rfl, -⟩ := Prod.mk.inj (Except.ok.inj h)
    exact ⟨fun _ _ _ hk => hk, by simp⟩
  | cons record records ih =>
    obtain ⟨p₁, h₁, hp₁⟩ := ingestRecords_cons h
    obtain ⟨hkeep, hrest⟩ := ih h₁
    refine ⟨fun o t b hk => hkeep o t b hk.afterRecord, fun r hr hacc => ?_⟩
    rcases List.mem_cons.1 hr with rfl | hr
    · rcases hp₁ with ⟨-, hknown⟩ | ⟨-, x, hx, hp₁⟩
      · exact hkeep _ _ _ hknown
      · -- a rejected record is in the list of rejected records
        obtain ⟨more, hmore, -⟩ := ingestRecords_rejected h₁
        refine absurd ?_ hacc
        rw [hmore, hp₁]
        simp [hx]
    · exact hrest r hr hacc

end Loop

/-! ### Batches -/

section Batches

variable {settings : Config} {radius : Radius.Db} {now : ℤ} {organizationId apiTokenId : ℕ}
  {db db' : Db} {payload : List RawBinding} {records : List (ℕ × Binding)} {p : Progress}

/-- A raw record with its index, and what it is normalized to. -/
def Normalizes (settings : Config) (now : ℤ) (raw : RawBinding × ℕ) (record : ℕ × Binding) :
    Prop :=
  record.1 = raw.2 ∧ normalizeBinding settings now raw.1 = .ok record.2

theorem normalizeBatch_ok (h : normalizeBatch settings now payload = .ok records) :
    payload ≠ [] ∧ payload.length ≤ settings.maxBatchSize ∧
      List.Forall₂ (Normalizes settings now) payload.zipIdx records := by
  unfold normalizeBatch at h
  obtain ⟨hnil, h⟩ := check_ok h
  obtain ⟨hlength, h⟩ := check_ok h
  refine ⟨hnil, not_lt.1 hlength, (mapM_ok.1 h).imp fun raw record hr => ?_⟩
  dsimp only at hr
  split at hr
  · rename_i b hb
    obtain rfl := Except.ok.inj hr
    exact ⟨rfl, hb⟩
  · cases hr

theorem normalizeBatch_singleton {raw : RawBinding} {b : Binding}
    (hmax : 1 ≤ settings.maxBatchSize) (h : normalizeBinding settings now raw = .ok b) :
    normalizeBatch settings now [raw] = .ok [(0, b)] := by
  have hlength : ¬ settings.maxBatchSize < [raw].length := by
    rw [List.length_singleton]
    omega
  unfold normalizeBatch
  rw [if_neg (List.cons_ne_nil raw [])]
  dsimp only
  rw [if_neg hlength]
  refine mapM_ok.2 (.cons ?_ .nil)
  simp only [h]

theorem ingestBatch_ok
    (h : ingestBatch settings radius now organizationId apiTokenId db payload = .ok (db', p)) :
    ∃ records, normalizeBatch settings now payload = .ok records ∧
      ingestRecords settings radius now organizationId apiTokenId db .start records =
        .ok (db', p) := by
  unfold ingestBatch at h
  obtain ⟨records, hrecords, h⟩ := except_bind_ok.1 h
  obtain ⟨⟨db₁, p₁⟩, hloop, h⟩ := except_bind_ok.1 h
  refine ⟨records, hrecords, ?_⟩
  dsimp only at h
  split at h
  · cases h
  · rw [hloop, h.symm]
    rfl

theorem afterBatch_singleton {raw : RawBinding} {b : Binding}
    (hmax : 1 ≤ settings.maxBatchSize) (h : normalizeBinding settings now raw = .ok b) :
    afterBatch settings radius now organizationId apiTokenId db [raw] =
      afterRecord settings radius now organizationId apiTokenId db b := by
  unfold afterBatch ingestBatch
  cases hr : ingestRecord settings db radius now organizationId apiTokenId db.bindings.nextId b with
  | ok outcome =>
    simp only [normalizeBatch_singleton hmax h, bind, Except.bind, ingestRecords, pass,
      afterRecord, hr]
    cases outcome <;> rfl
  | error failure =>
    simp only [normalizeBatch_singleton hmax h, bind, Except.bind, ingestRecords, pass,
      afterRecord, hr]
    split_ifs <;> rfl

theorem normalizeBinding_agree (settings : Config) (now now' : ℤ) (raw : RawBinding) :
    Agree (normalizeBinding settings now raw) (normalizeBinding settings now' raw) := by
  unfold normalizeBinding
  iterate 9 refine .bind (.refl _) fun _ => ?_
  refine .bind (.refl _) fun ⟨releasedAt, hreleased⟩ => ?_
  -- the first of the two checks against the clock
  refine .check ?_
  iterate 3 refine .bind (.refl _) fun _ => ?_
  refine .check ?_
  refine .bind (fun _ _ _ _ => rfl) fun _ => ?_
  exact .refl _

theorem foldl_accepted {raws : List (RawBinding × ℕ)} (hmax : 1 ≤ settings.maxBatchSize)
    (h : List.Forall₂ (Normalizes settings now) raws records) (rejected : List ℕ) (db : Db) :
    ((raws.filter fun r => r.2 ∉ rejected).map Prod.fst).foldl
        (fun db raw => afterBatch settings radius now organizationId apiTokenId db [raw]) db =
      (records.filter fun r => r.1 ∉ rejected).foldl
        (fun db r => afterRecord settings radius now organizationId apiTokenId db r.2) db := by
  induction h generalizing db with
  | nil => rfl
  | @cons raw record raws records hr _ ih =>
    by_cases hin : raw.2 ∈ rejected
    · rw [List.filter_cons_of_neg (by simpa using hin),
        List.filter_cons_of_neg (by simpa [hr.1] using hin)]
      exact ih db
    · rw [List.filter_cons_of_pos (by simpa using hin),
        List.filter_cons_of_pos (by simpa [hr.1] using hin), List.map_cons, List.foldl_cons,
        List.foldl_cons, afterBatch_singleton hmax hr.2]
      exact ih _

theorem Normalizes.indices {raws : List (RawBinding × ℕ)}
    (h : List.Forall₂ (Normalizes settings now) raws records) :
    records.map Prod.fst = raws.map Prod.snd := by
  induction h with
  | nil => rfl
  | cons hr _ ih => rw [List.map_cons, List.map_cons, hr.1, ih]

theorem ingestBatch_eq
    (h : ingestBatch settings radius now organizationId apiTokenId db payload = .ok (db', p)) :
    db' = ((payload.zipIdx.filter fun r => r.2 ∉ p.rejected.map Rejected.index).map
      Prod.fst).foldl
        (fun db raw => afterBatch settings radius now organizationId apiTokenId db [raw]) db := by
  obtain ⟨records, hrecords, hloop⟩ := ingestBatch_ok h
  obtain ⟨hnil, hlength, hnormal⟩ := normalizeBatch_ok hrecords
  have hmax : 1 ≤ settings.maxBatchSize :=
    (List.length_pos_iff.2 hnil).trans_le hlength
  have hnodup : (records.map Prod.fst).Nodup := by
    rw [Normalizes.indices hnormal, List.zipIdx_map_snd]
    exact List.nodup_range'
  rw [foldl_accepted hmax hnormal]
  exact ingestRecords_eq hnodup (by simp [Progress.start]) hloop

theorem acceptedRecords_known {raw : RawBinding}
    (hraw : raw ∈ acceptedRecords settings radius now organizationId apiTokenId db payload) :
    1 ≤ settings.maxBatchSize ∧ ∃ b, normalizeBinding settings now raw = .ok b ∧
      Known (afterBatch settings radius now organizationId apiTokenId db payload) organizationId
        apiTokenId b := by
  unfold acceptedRecords at hraw
  unfold afterBatch
  split at hraw
  · rename_i db₁ p₁ h
    obtain ⟨records, hrecords, hloop⟩ := ingestBatch_ok h
    obtain ⟨hnil, hlength, hnormal⟩ := normalizeBatch_ok hrecords
    obtain ⟨⟨raw', i⟩, hmem, rfl⟩ := List.mem_map.1 hraw
    obtain ⟨hmem, hacc⟩ := List.mem_filter.1 hmem
    obtain ⟨k, hk, hget⟩ := List.getElem_of_mem hmem
    have hk' : k < records.length := hnormal.length_eq ▸ hk
    have hr := hnormal.get hk hk'
    simp only [List.get_eq_getElem, hget] at hr
    refine ⟨(List.length_pos_iff.2 hnil).trans_le hlength, _, hr.2, ?_⟩
    refine (ingestRecords_known hloop).2 _ (List.getElem_mem hk') ?_
    rw [hr.1]
    simpa using hacc
  · simp at hraw

/-- A batch as it is received. -/
structure Call where
  radius : Radius.Db
  now : ℤ
  organizationId : ℕ
  apiTokenId : ℕ
  payload : List RawBinding

/-- The ledger after more batches. -/
def afterCalls (settings : Config) (db : Db) (calls : List Call) : Db :=
  calls.foldl (fun db c =>
    afterBatch settings c.radius c.now c.organizationId c.apiTokenId db c.payload) db

theorem Known.afterBatch {organization token : ℕ} {b : Binding}
    (h : Known db organization token b) :
    Known (afterBatch settings radius now organizationId apiTokenId db payload) organization token
      b := by
  unfold Cgnat.afterBatch
  split
  · rename_i hbatch
    obtain ⟨records, -, hloop⟩ := ingestBatch_ok hbatch
    exact (ingestRecords_known hloop).1 _ _ _ h
  · exact h

theorem Known.afterCalls {organization token : ℕ} {b : Binding}
    (h : Known db organization token b) (calls : List Call) :
    Known (afterCalls settings db calls) organization token b := by
  induction calls generalizing db with
  | nil => exact h
  | cons c calls ih => exact ih h.afterBatch

theorem Known.again {raw : RawBinding} {b : Binding} (h : Known db organizationId apiTokenId b)
    (hmax : 1 ≤ settings.maxBatchSize) (hb : normalizeBinding settings now raw = .ok b) :
    ingestBatch settings radius now organizationId apiTokenId db [raw] =
      .ok (db, { Progress.start with replayed := 1 }) := by
  unfold ingestBatch
  simp only [normalizeBatch_singleton hmax hb, bind, Except.bind, ingestRecords, pass, h.replayed]
  rfl

/-- **A batch is its accepted records.**  The ledger after a batch is the ledger after its accepted
records alone, one at a time.  And each of them, sent again after any more batches, leaves the
ledger as it is; unless it is refused as ill formed at its new time, it is one replay. -/
theorem batch_is_accepted_records (settings : Config) (radius : Radius.Db) (now : ℤ)
    (organizationId apiTokenId : ℕ) (db : Db) (payload : List RawBinding) :
    afterBatch settings radius now organizationId apiTokenId db payload =
        (acceptedRecords settings radius now organizationId apiTokenId db payload).foldl
          (fun db raw => afterBatch settings radius now organizationId apiTokenId db [raw]) db ∧
      ∀ raw ∈ acceptedRecords settings radius now organizationId apiTokenId db payload,
        ∀ (later : List Call) (radius' : Radius.Db) (now' : ℤ) (db' : Db),
          db' = afterCalls settings
            (afterBatch settings radius now organizationId apiTokenId db payload) later →
          afterBatch settings radius' now' organizationId apiTokenId db' [raw] = db' ∧
            ∀ b, normalizeBinding settings now' raw = .ok b →
              ingestBatch settings radius' now' organizationId apiTokenId db' [raw] =
                .ok (db', { Progress.start with replayed := 1 }) := by
  constructor
  · unfold acceptedRecords
    cases h : ingestBatch settings radius now organizationId apiTokenId db payload with
    | ok result =>
      have hafter : afterBatch settings radius now organizationId apiTokenId db payload =
          result.1 := by
        rw [afterBatch, h]
      rw [hafter]
      exact ingestBatch_eq h
    | error failure =>
      rw [afterBatch, h]
      rfl
  · intro raw hraw later radius' now' db' hdb'
    obtain ⟨hmax, b, hb, hknown⟩ := acceptedRecords_known hraw
    have hknown : Known db' organizationId apiTokenId b := hdb' ▸ hknown.afterCalls later
    have hagain : ∀ b', normalizeBinding settings now' raw = .ok b' →
        ingestBatch settings radius' now' organizationId apiTokenId db' [raw] =
          .ok (db', { Progress.start with replayed := 1 }) := by
      intro b' hb'
      obtain rfl := normalizeBinding_agree settings now now' raw b b' hb hb'
      exact hknown.again hmax hb'
    refine ⟨?_, hagain⟩
    cases hb' : normalizeBinding settings now' raw with
    | ok b' =>
      rw [afterBatch, hagain b' hb']
    | error failure =>
      -- refused before it reaches the ledger
      have hrefused : ∀ records, normalizeBatch settings now' [raw] ≠ .ok records := by
        intro records hrecords
        obtain ⟨-, -, hnormal⟩ := normalizeBatch_ok hrecords
        cases hnormal with
        | cons hr _ => simp [hr.2] at hb'
      cases hn : normalizeBatch settings now' [raw] with
      | ok records => exact absurd hn (hrefused records)
      | error e =>
        rw [afterBatch, ingestBatch, hn]
        rfl

/-- A ledger with the sample exporter. -/
def sampleLedger : Db :=
  (Server.start.step sampleSettings sampleOwners
    (.save 1000000 sampleRegistry 1 (sampleBody 1 1) (some 7))).ledger.stored

/-- An allocation, another one under its key, which is rejected, and its release. -/
def sampleBatch : List RawBinding :=
  [sampleRecord "allocate" "k1" 1 2000000 none, sampleRecord "allocate" "k1" 2 2100000 none,
    sampleRecord "release" "k1" 2 2000000 (some 2500000)]

theorem batch_is_accepted_records_resent :
    ingestBatch sampleSettings (sampleRadius 1000000 2600000) 2700000 1 1
        (afterBatch sampleSettings (sampleRadius 1000000 2600000) 2600000 1 1 sampleLedger
          sampleBatch) [sampleRecord "allocate" "k1" 1 2000000 none] =
      .ok (afterBatch sampleSettings (sampleRadius 1000000 2600000) 2600000 1 1 sampleLedger
        sampleBatch, { Progress.start with replayed := 1 }) := by
  have hok : (normalizeBinding sampleSettings 2700000
      (sampleRecord "allocate" "k1" 1 2000000 none)).isOk = true := by decide
  cases hb : normalizeBinding sampleSettings 2700000
      (sampleRecord "allocate" "k1" 1 2000000 none) with
  | ok b =>
    exact ((batch_is_accepted_records sampleSettings (sampleRadius 1000000 2600000) 2600000 1 1
      sampleLedger sampleBatch).2 _ (by decide) [] _ _ _ rfl).2 b hb
  | error failure =>
    rw [hb] at hok
    cases hok

end Batches

end Vigabss.Cgnat
