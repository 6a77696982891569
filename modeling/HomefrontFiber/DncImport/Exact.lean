import HomefrontFiber.DncImport.Store

/-!
# Imports are exact

The chunks of a job are staged once each, and a job that is finalized has all of them. So the staged
hashes of a pending job are those of its uploads, and a finalized dataset keeps the hashes of the
uploads whose digest was signed.
-/

namespace HomefrontFiber.DncImport

open List

variable (K : Crypto)

/-- The staged chunks of an import in the order of their indexes. -/
def uploadsOf (uploads : List Upload) (tenantId : Int) (importId : Nat) : List Upload :=
  (uploads.filter fun u => u.tenantId = tenantId && u.importId = importId).insertionSort
    fun a b => a.index ≤ b.index

/-- A dataset of the import, with the hashes of the valid numbers of its chunks, which have the
signed digest and are all there. -/
structure Exact (w : World) (j : ImportJob) (d : Dataset) : Prop where
  mem : d ∈ w.db.datasets
  dataset : j.dataset = some d.id
  tenant : d.tenantId = j.tenantId
  all : (uploadsOf w.uploads j.tenantId j.id).map (·.index) =
    (List.range j.manifest.expectedChunkCount).map Int.ofNat
  signed : K.sha256 (manifestText ((uploadsOf w.uploads j.tenantId j.id).map (·.chunk K))) =
    j.manifest.sourceManifestSha256
  hashes : ∀ h, h ∈ hashesOf w.db.suppressions d.tenantId d.id ↔
    ∃ u ∈ uploadsOf w.uploads j.tenantId j.id, h ∈ u.hashes K
  count : (hashesOf w.db.suppressions d.tenantId d.id).length = j.manifest.expectedRecordCount ∧
    d.recordCount = j.manifest.expectedRecordCount

/-- Ids are given once, an earlier dataset of a scope is superseded and the last is active. -/
structure DataOk (db : DncDb) : Prop where
  ids : (db.datasets.map (·.id)).Nodup
  below : ∀ d ∈ db.datasets, d.id < db.nextId
  owned : ∀ r ∈ db.suppressions, r.owner < db.nextId
  layered : db.datasets.Pairwise fun a b => a.scope = b.scope → a.status = .superseded
  shown : ∀ d ∈ db.datasets, ∃ a ∈ db.datasets, a.scope = d.scope ∧ a.status = .active

@[simp] theorem supersede_scope (scope : Int × SourceType × Text) (d : Dataset) :
    (supersede scope d).scope = d.scope := by
  unfold supersede
  split <;> rfl

@[simp] theorem supersede_id (scope : Int × SourceType × Text) (d : Dataset) :
    (supersede scope d).id = d.id := by
  unfold supersede
  split <;> rfl

theorem supersede_summary (scope : Int × SourceType × Text) (d : Dataset) :
    (supersede scope d).summary = d.summary ∧ (supersede scope d).tenantId = d.tenantId ∧
      (supersede scope d).sourceAsOf = d.sourceAsOf := by
  unfold supersede
  split <;> exact ⟨rfl, rfl, rfl⟩

variable {db db' : DncDb} {d e : Dataset} {hashes : List Text} {tenantId : Int}
  {uploads : List Upload} {importId : Nat} {u : Upload} {w : World} {j job : ImportJob}
  {staging : List HashRow} {out : Finalized}

theorem activate_spec (h : activate db d hashes = some db') : hashes.Nodup ∧ db' = { db with
      datasets := db.datasets.map (supersede d.scope) ++ [d]
      suppressions := db.suppressions ++ hashes.map fun h => ⟨d.tenantId, d.id, h⟩
      nextId := db.nextId + 1 } := by
  unfold activate at h
  split at h
  · cases h
  · rename_i hfree
    simp only [Bool.or_eq_true, Bool.not_eq_true', decide_eq_false_iff_not, not_or, not_not]
      at hfree
    exact ⟨hfree.2, (Option.some.inj h).symm⟩

theorem DataOk.activate (h : DataOk db) (hd : d.id = db.nextId) (hactive : d.status = .active)
    (hdb : DncImport.activate db d hashes = some db') : DataOk db' := by
  obtain ⟨-, rfl⟩ := activate_spec hdb
  have hids : (db.datasets.map (supersede d.scope)).map (·.id) = db.datasets.map (·.id) := by
    rw [map_map]
    exact map_congr_left fun e _ => supersede_id d.scope e
  constructor
  · rw [map_append, hids, nodup_append]
    refine ⟨h.ids, nodup_singleton _, ?_⟩
    intro a ha b hb
    obtain ⟨e, he, rfl⟩ := mem_map.mp ha
    have hlt := h.below e he
    rw [map_singleton, mem_singleton] at hb
    omega
  · intro e he
    rcases mem_append.mp he with he | he
    · obtain ⟨e, hmem, rfl⟩ := mem_map.mp he
      have hlt := h.below e hmem
      rw [supersede_id]
      exact Nat.lt_succ_of_lt hlt
    · rw [mem_singleton.mp he, hd]
      exact Nat.lt_succ_self _
  · intro r hr
    rcases mem_append.mp hr with hr | hr
    · exact Nat.lt_succ_of_lt (h.owned r hr)
    · obtain ⟨x, -, rfl⟩ := mem_map.mp hr
      exact hd ▸ Nat.lt_succ_self _
  · rw [pairwise_append]
    refine ⟨?_, pairwise_singleton _ _, ?_⟩
    · rw [pairwise_map]
      apply h.layered.imp
      intro a b hab hscope
      rw [supersede_scope, supersede_scope] at hscope
      unfold supersede
      split
      · rfl
      · exact hab hscope
    · intro a ha b hb hscope
      obtain ⟨e, he, rfl⟩ := mem_map.mp ha
      rw [mem_singleton.mp hb, supersede_scope] at hscope
      unfold supersede
      split
      · rfl
      · rename_i hno
        -- the only dataset of the scope that is not superseded is the active one
        simp only [hscope, Bool.and_eq_true, decide_true, true_and, decide_eq_true_eq] at hno
        obtain ⟨a, ha, hsame, hact⟩ := h.shown e he
        have hflip := h.layered
        rcases mem_iff_append.mp he with ⟨front, back, hsplit⟩
        rw [hsplit] at ha hflip
        rw [pairwise_append, pairwise_cons] at hflip
        obtain ⟨-, ⟨hafter, -⟩, hbefore⟩ := hflip
        rcases mem_append.mp ha with hin | hin
        · have hsup := hbefore a hin e mem_cons_self hsame
          rw [hsup] at hact
          cases hact
        · rcases mem_cons.mp hin with rfl | hin
          · exact absurd hact hno
          · exact hafter a hin hsame.symm
  · intro e he
    rcases mem_append.mp he with he | he
    · obtain ⟨e, hmem, rfl⟩ := mem_map.mp he
      rw [supersede_scope]
      by_cases hscope : e.scope = d.scope
      · exact ⟨d, by simp, hscope.symm, hactive⟩
      · obtain ⟨a, ha, hsame, hact⟩ := h.shown e hmem
        refine ⟨supersede d.scope a, mem_append_left _ (mem_map_of_mem ha), ?_, ?_⟩
        · rw [supersede_scope]
          exact hsame
        · unfold supersede
          rw [if_neg]
          · exact hact
          · simp [hsame, hscope]
    · rw [mem_singleton.mp he]
      exact ⟨d, by simp, rfl, hactive⟩

theorem mem_hashesOf {rows : List HashRow} {owner : Nat} {x : Text} :
    x ∈ hashesOf rows tenantId owner ↔ ⟨tenantId, owner, x⟩ ∈ rows := by
  unfold hashesOf
  rw [mem_map]
  constructor
  · rintro ⟨⟨t, o, y⟩, hr, rfl⟩
    obtain ⟨hmem, hkey⟩ := mem_filter.mp hr
    simp only [Bool.and_eq_true, decide_eq_true_eq] at hkey
    rw [← hkey.1, ← hkey.2]
    exact hmem
  · intro hmem
    exact ⟨_, mem_filter.mpr ⟨hmem, by simp⟩, rfl⟩

theorem hashesOf_append (rows more : List HashRow) (tenantId : Int) (owner : Nat) :
    hashesOf (rows ++ more) tenantId owner =
      hashesOf rows tenantId owner ++ hashesOf more tenantId owner := by
  simp [hashesOf]

theorem hashesOf_new (hashes : List Text) (t t' : Int) (owner owner' : Nat) :
    hashesOf (hashes.map fun h => ⟨t, owner, h⟩) t' owner' =
      if t = t' ∧ owner = owner' then hashes else [] := by
  unfold hashesOf
  rw [filter_map, map_map]
  split
  · rename_i heq
    simp [Function.comp_def, heq.1, heq.2]
  · rename_i hne
    rw [filter_eq_nil_iff.mpr]
    · rfl
    · intro x _
      simpa using hne

theorem DataOk.keeps (h : DataOk db)
    (hd : d.id = db.nextId) (hdb : DncImport.activate db d hashes = some db')
    (he : e ∈ db.datasets) : ∃ e' ∈ db'.datasets, e'.summary = e.summary ∧
      e'.tenantId = e.tenantId ∧
      hashesOf db'.suppressions e'.tenantId e'.id = hashesOf db.suppressions e.tenantId e.id := by
  obtain ⟨-, rfl⟩ := activate_spec hdb
  obtain ⟨hsum, htenant, -⟩ := supersede_summary d.scope e
  refine ⟨supersede d.scope e, mem_append_left _ (mem_map_of_mem he), hsum, htenant, ?_⟩
  have hlt := h.below e he
  rw [hashesOf_append, hashesOf_new, if_neg (by rw [hd, supersede_id]; omega), append_nil,
    htenant, supersede_id]

def InJob (jobs : List ImportJob) (u : Upload) : Prop :=
  ∃ j ∈ jobs, j.tenantId = u.tenantId ∧ j.id = u.importId ∧ 0 ≤ u.index ∧
    u.index < j.manifest.expectedChunkCount

theorem mem_uploadsOf :
    u ∈ uploadsOf uploads tenantId importId ↔
      u ∈ uploads ∧ u.tenantId = tenantId ∧ u.importId = importId := by
  rw [uploadsOf, mem_insertionSort, mem_filter]
  simp

theorem uploadsOf_snoc (hne : ¬ (u.tenantId = tenantId ∧ u.importId = importId)) :
    uploadsOf (uploads ++ [u]) tenantId importId = uploadsOf uploads tenantId importId := by
  unfold uploadsOf
  rw [filter_append, filter_cons_of_neg (by simpa using hne), filter_nil,
    append_nil]

theorem chunksOf_eq (h : db.chunks = uploads.map (·.chunk K)) (tenantId : Int) (importId : Nat) :
    chunksOf db tenantId importId = (uploadsOf uploads tenantId importId).map (·.chunk K) := by
  unfold chunksOf uploadsOf
  rw [h, filter_map]
  exact (map_insertionSort (r := fun a b : Upload => a.index ≤ b.index)
    (s := fun a b : ImportChunk => a.index ≤ b.index) _ _ fun _ _ _ _ => Iff.rfl).symm

theorem Exact.find_chunk (h : Exact K w j d)
    (hchunks : w.db.chunks = w.uploads.map (·.chunk K)) (ht : j.tenantId = u.tenantId)
    (hid : j.id = u.importId) (hpos : 0 ≤ u.index) (hlt : u.index < j.manifest.expectedChunkCount) :
    (w.db.chunks.find? fun c => c.tenantId = u.tenantId && c.importId = u.importId &&
      c.index = u.index) ≠ none := by
  have hmem : u.index ∈ (uploadsOf w.uploads j.tenantId j.id).map (·.index) := by
    rw [h.all, mem_map]
    refine ⟨u.index.toNat, mem_range.mpr (by omega), ?_⟩
    exact Int.toNat_of_nonneg hpos
  obtain ⟨u', hu', hindex⟩ := mem_map.mp hmem
  obtain ⟨hin, hut, huid⟩ := mem_uploadsOf.mp hu'
  intro hnone
  have hno := find?_eq_none.mp hnone (u'.chunk K) (hchunks ▸ mem_map_of_mem hin)
  simp [Upload.chunk, hut, huid, hindex, ht, hid] at hno

theorem mem_stageHashes {r : HashRow} :
    r ∈ stageHashes K staging u ↔ r ∈ staging ∨
      r.tenantId = u.tenantId ∧ r.owner = u.importId ∧ r.phoneHash ∈ u.hashes K := by
  obtain ⟨t, o, x⟩ := r
  unfold stageHashes
  rw [mem_append, mem_filter, mem_map]
  constructor
  · rintro (hold | ⟨⟨y, hy, heq⟩, -⟩)
    · exact .inl hold
    · cases heq
      exact .inr ⟨rfl, rfl, mem_dedup.mp hy⟩
  · rintro (hold | ⟨rfl, rfl, hx⟩)
    · exact .inl hold
    · by_cases hold : (⟨u.tenantId, u.importId, x⟩ : HashRow) ∈ staging
      · exact .inl hold
      · exact .inr ⟨⟨x, mem_dedup.mpr hx, rfl⟩, by simpa using hold⟩

theorem nodup_stageHashes (h : staging.Nodup) (u : Upload) : (stageHashes K staging u).Nodup := by
  unfold stageHashes
  rw [nodup_append]
  refine ⟨h, ?_, ?_⟩
  · apply List.Nodup.filter
    apply (nodup_dedup _).map
    intro a b heq
    exact congrArg HashRow.phoneHash heq
  · intro a ha b hb heq
    have hnot := (mem_filter.mp hb).2
    rw [← heq] at hnot
    exact (by simpa using hnot : a ∉ staging) ha

structure Sound (w : World) : Prop where
  data : DataOk w.db
  jobs : (w.db.jobs.map (·.id)).Nodup
  jobsBelow : ∀ j ∈ w.db.jobs, j.id < w.db.nextId
  chunks : w.db.chunks = w.uploads.map (·.chunk K)
  once : (w.uploads.map fun u => (u.tenantId, u.importId, u.index)).Nodup
  called : ∀ c u, w.calls c = some u → InJob w.db.jobs u
  uploaded : ∀ u ∈ w.uploads, InJob w.db.jobs u
  stagingNodup : w.db.staging.Nodup
  stagingBelow : ∀ r ∈ w.db.staging, r.owner < w.db.nextId
  staged : ∀ j ∈ w.db.jobs, j.status ≠ .finalized → ∀ x,
    x ∈ hashesOf w.db.staging j.tenantId j.id ↔
      ∃ u ∈ uploadsOf w.uploads j.tenantId j.id, x ∈ u.hashes K
  exact : ∀ j ∈ w.db.jobs, j.status = .finalized → ∃ d, Exact K w j d

theorem sound_start : Sound K {} where
  data := ⟨nodup_nil, fun _ h => absurd h not_mem_nil,
    fun _ h => absurd h not_mem_nil, List.Pairwise.nil,
    fun _ h => absurd h not_mem_nil⟩
  jobs := nodup_nil
  jobsBelow _ h := absurd h not_mem_nil
  chunks := rfl
  once := nodup_nil
  called _ _ h := (nomatch h)
  uploaded _ h := absurd h not_mem_nil
  stagingNodup := nodup_nil
  stagingBelow _ h := absurd h not_mem_nil
  staged _ h := absurd h not_mem_nil
  exact _ h := absurd h not_mem_nil

theorem findJob_spec (h : findJob db tenantId importId = some j) :
    j ∈ db.jobs ∧ j.tenantId = tenantId ∧ j.id = importId := by
  have hkey := find?_some h
  simp only [Bool.and_eq_true, decide_eq_true_eq] at hkey
  exact ⟨mem_of_find?_eq_some h, hkey⟩

theorem beginDncImport_spec {m : Manifest} {signature : Text} {now : Int} {replayed : Bool}
    (h : beginDncImport K db tenantId m signature now = some (db', importId, replayed)) :
    db' = db ∨ ∃ job : ImportJob, job.id = db.nextId ∧ job.status = .pending ∧
      db' = { db with jobs := db.jobs ++ [job], nextId := db.nextId + 1 } := by
  unfold beginDncImport at h
  split at h
  · cases h
  · dsimp only at h
    split at h
    · cases h
      exact .inl rfl
    · split at h
      · cases h
      · cases h
        exact .inr ⟨_, rfl, rfl, rfl⟩

variable {K}

theorem Sound.begin (h : Sound K w) (hid : job.id = w.db.nextId)
    (hs : job.status = .pending) : Sound K
      { w with db := { w.db with jobs := w.db.jobs ++ [job], nextId := w.db.nextId + 1 } } := by
  have hin : ∀ u, InJob w.db.jobs u → InJob (w.db.jobs ++ [job]) u := by
    rintro u ⟨j, hj, hu⟩
    exact ⟨j, mem_append_left _ hj, hu⟩
  constructor
  · exact ⟨h.data.ids, fun d hd => Nat.lt_succ_of_lt (h.data.below d hd),
      fun r hr => Nat.lt_succ_of_lt (h.data.owned r hr), h.data.layered, h.data.shown⟩
  · rw [map_append, nodup_append]
    refine ⟨h.jobs, nodup_singleton _, ?_⟩
    intro a ha b hb
    obtain ⟨j, hj, rfl⟩ := mem_map.mp ha
    have hlt := h.jobsBelow j hj
    rw [map_singleton, mem_singleton] at hb
    omega
  · intro j hj
    rcases mem_append.mp hj with hj | hj
    · exact Nat.lt_succ_of_lt (h.jobsBelow j hj)
    · rw [mem_singleton.mp hj, hid]
      exact Nat.lt_succ_self _
  · exact h.chunks
  · exact h.once
  · exact fun c u hu => hin u (h.called c u hu)
  · exact fun u hu => hin u (h.uploaded u hu)
  · exact h.stagingNodup
  · exact fun r hr => Nat.lt_succ_of_lt (h.stagingBelow r hr)
  · intro j hj hns x
    rcases mem_append.mp hj with hj | hj
    · exact h.staged j hj hns x
    · -- nothing belongs to a new job yet
      rw [mem_singleton.mp hj]
      constructor
      · intro hx
        have hlt := h.stagingBelow _ (mem_hashesOf.mp hx)
        dsimp only at hlt
        omega
      · rintro ⟨u, hu, -⟩
        obtain ⟨hmem, -, huid⟩ := mem_uploadsOf.mp hu
        obtain ⟨j', hj', -, hjid, -⟩ := h.uploaded u hmem
        have hlt := h.jobsBelow j' hj'
        omega
  · intro j hj hfin
    rcases mem_append.mp hj with hj | hj
    · obtain ⟨d, hd⟩ := h.exact j hj hfin
      exact ⟨d, hd.mem, hd.dataset, hd.tenant, hd.all, hd.signed, hd.hashes, hd.count⟩
    · rw [mem_singleton.mp hj, hs] at hfin
      cases hfin

theorem Sound.endCall (h : Sound K w) (call : Nat) : Sound K (endCall w call) :=
  { h with
    called := by
      intro c u hu
      change (if c = call then none else w.calls c) = some u at hu
      split at hu
      · cases hu
      · exact h.called c u hu
    exact := by
      intro j hj hfin
      obtain ⟨d, hd⟩ := h.exact j hj hfin
      exact ⟨d, hd.mem, hd.dataset, hd.tenant, hd.all, hd.signed, hd.hashes, hd.count⟩ }

theorem Sound.check (h : Sound K w) (call : Nat) (hu : acceptsChunk w.db u = true) :
    Sound K { w with calls := fun c => if c = call then some u else w.calls c } :=
  { h with
    called := by
      intro c v hv
      change (if c = call then some u else w.calls c) = some v at hv
      split at hv
      · cases hv
        unfold acceptsChunk at hu
        split at hu
        · cases hu
        · rename_i job hjob
          obtain ⟨hmem, ht, hid⟩ := findJob_spec hjob
          simp only [Bool.and_eq_true, decide_eq_true_eq] at hu
          exact ⟨job, hmem, ht, hid, hu.1.1.1.2, hu.1.1.2⟩
      · exact h.called c v hv
    exact := by
      intro j hj hfin
      obtain ⟨d, hd⟩ := h.exact j hj hfin
      exact ⟨d, hd.mem, hd.dataset, hd.tenant, hd.all, hd.signed, hd.hashes, hd.count⟩ }

theorem Sound.stage (h : Sound K w) (hu : InJob w.db.jobs u)
    (hfree : (w.db.chunks.find? fun c => c.tenantId = u.tenantId && c.importId = u.importId &&
      c.index = u.index) = none) : Sound K
      { w with
        db := { w.db with
          staging := stageHashes K w.db.staging u, chunks := w.db.chunks ++ [u.chunk K] }
        uploads := w.uploads ++ [u] } := by
  obtain ⟨job, hjob, ht, hid, hpos, hlt⟩ := hu
  have hother : ∀ j ∈ w.db.jobs, j ≠ job →
      ¬ (u.tenantId = j.tenantId ∧ u.importId = j.id) := by
    rintro j hj hne ⟨-, huid⟩
    exact hne (inj_on_of_nodup_map h.jobs hj hjob (huid.symm.trans hid.symm))
  have hopen : job.status ≠ .finalized := by
    intro hfin
    obtain ⟨d, hd⟩ := h.exact job hjob hfin
    exact hd.find_chunk K h.chunks ht hid hpos hlt hfree
  constructor
  · exact ⟨h.data.ids, h.data.below, h.data.owned, h.data.layered, h.data.shown⟩
  · exact h.jobs
  · exact h.jobsBelow
  · change w.db.chunks ++ [u.chunk K] = (w.uploads ++ [u]).map (·.chunk K)
    rw [map_append, ← h.chunks]
    rfl
  · rw [map_append, nodup_append]
    refine ⟨h.once, nodup_singleton _, ?_⟩
    intro a ha b hb heq
    obtain ⟨v, hv, rfl⟩ := mem_map.mp ha
    rw [map_singleton, mem_singleton] at hb
    rw [hb] at heq
    simp only [Prod.mk.injEq] at heq
    have hno := find?_eq_none.mp hfree (v.chunk K) (h.chunks ▸ mem_map_of_mem hv)
    simp [Upload.chunk, heq.1, heq.2.1, heq.2.2] at hno
  · exact h.called
  · intro v hv
    rcases mem_append.mp hv with hv | hv
    · exact h.uploaded v hv
    · rw [mem_singleton.mp hv]
      exact ⟨job, hjob, ht, hid, hpos, hlt⟩
  · exact nodup_stageHashes K h.stagingNodup u
  · intro r hr
    rcases (mem_stageHashes K).mp hr with hr | ⟨-, howner, -⟩
    · exact h.stagingBelow r hr
    · rw [howner, ← hid]
      exact h.jobsBelow job hjob
  · intro j hj hns x
    have hold := h.staged j hj hns x
    rw [mem_hashesOf] at hold ⊢
    rw [mem_stageHashes, hold]
    by_cases heq : j = job
    · rw [heq]
      simp only [mem_uploadsOf, mem_append, mem_singleton]
      constructor
      · rintro (⟨v, hv, hx⟩ | ⟨-, -, hx⟩)
        · exact ⟨v, ⟨.inl hv.1, hv.2⟩, hx⟩
        · exact ⟨u, ⟨.inr rfl, ht.symm, hid.symm⟩, hx⟩
      · rintro ⟨v, ⟨hv | rfl, hkey⟩, hx⟩
        · exact .inl ⟨v, ⟨hv, hkey⟩, hx⟩
        · exact .inr ⟨ht, hid, hx⟩
    · have hne := hother j hj heq
      change _ ↔ ∃ v ∈ uploadsOf (w.uploads ++ [u]) j.tenantId j.id, _
      rw [uploadsOf_snoc hne]
      constructor
      · rintro (hx | ⟨hjt, hjid, -⟩)
        · exact hx
        · exact absurd ⟨hjt.symm, hjid.symm⟩ hne
      · exact .inl
  · intro j hj hfin
    obtain ⟨d, hd⟩ := h.exact j hj hfin
    have hne := hother j hj (by rintro rfl; exact hopen hfin)
    have hsame : uploadsOf (w.uploads ++ [u]) j.tenantId j.id =
        uploadsOf w.uploads j.tenantId j.id := uploadsOf_snoc hne
    refine ⟨d, hd.mem, hd.dataset, hd.tenant, ?_, ?_, ?_, hd.count⟩
    · dsimp only
      rw [hsame]
      exact hd.all
    · dsimp only
      rw [hsame]
      exact hd.signed
    · dsimp only
      rw [hsame]
      exact hd.hashes

theorem Exact.activate (h : Exact K w j d) (hdata : DataOk w.db)
    (he : e.id = w.db.nextId) (hdb : DncImport.activate w.db e hashes = some db') :
    ∃ d', Exact K { w with db := db' } j d' ∧ d'.summary = d.summary := by
  obtain ⟨d', hmem, hsum, ht, hrows⟩ := hdata.keeps he hdb h.mem
  have hid : d'.id = d.id := congrArg Finalized.datasetId hsum
  have hcount : d'.recordCount = d.recordCount := congrArg Finalized.recordCount hsum
  refine ⟨d', ⟨hmem, ?_, ht.trans h.tenant, h.all, h.signed, ?_, ?_⟩, hsum⟩
  · rw [hid]
    exact h.dataset
  · dsimp only
    rw [hrows]
    exact h.hashes
  · dsimp only
    rw [hrows, hcount]
    exact h.count

theorem Sound.activate (h : Sound K w) (he : e.id = w.db.nextId) (hactive : e.status = .active)
    (hdb : DncImport.activate w.db e hashes = some db') : Sound K { w with db := db' } := by
  have hdata := h.data.activate he hactive hdb
  have hexact : ∀ j ∈ w.db.jobs, j.status = .finalized → ∃ d, Exact K { w with db := db' } j d := by
    intro j hj hfin
    obtain ⟨d, hd⟩ := h.exact j hj hfin
    obtain ⟨d', hd', -⟩ := hd.activate h.data he hdb
    exact ⟨d', hd'⟩
  obtain ⟨-, rfl⟩ := activate_spec hdb
  constructor
  · exact hdata
  · exact h.jobs
  · exact fun j hj => Nat.lt_succ_of_lt (h.jobsBelow j hj)
  · exact h.chunks
  · exact h.once
  · exact h.called
  · exact h.uploaded
  · exact h.stagingNodup
  · exact fun r hr => Nat.lt_succ_of_lt (h.stagingBelow r hr)
  · exact h.staged
  · exact hexact

theorem finalizeDncImport_cases {now : Int}
    (h : finalizeDncImport K db tenantId importId now = some (db', out)) :
    ∃ job, findJob db tenantId importId = some job ∧
      (job.status = .finalized ∧ db' = db ∧ (∃ d ∈ db.datasets, job.dataset = some d.id ∧
        d.tenantId = tenantId ∧ out = d.summary) ∨
      job.status = .pending ∧ (datesOk job.manifest now = true ∧ complete K db job = true) ∧
        out = (datasetOf K db job now).summary ∧ ∃ db'', DncImport.activate db (datasetOf K db job now)
          (hashesOf db.staging tenantId importId) = some db'' ∧ db' = { db'' with
            jobs := db''.jobs.map fun j =>
              if j.tenantId = tenantId && j.id = importId then
                { j with status := .finalized, dataset := some (datasetOf K db job now).id }
              else j
            staging := db''.staging.filter fun r =>
              !(r.tenantId = tenantId && r.owner = importId) }) := by
  unfold finalizeDncImport at h
  split at h
  · cases h
  · rename_i job hjob
    refine ⟨job, hjob, ?_⟩
    split at h
    · rename_i id hstatus hdataset
      left
      obtain ⟨d, hfind, heq⟩ := Option.map_eq_some_iff.mp h
      cases heq
      have hkey := find?_some hfind
      simp only [Bool.and_eq_true, decide_eq_true_eq] at hkey
      refine ⟨hstatus, rfl, d, mem_of_find?_eq_some hfind, ?_, hkey.1, rfl⟩
      rw [hkey.2]
      exact hdataset
    · rename_i hstatus
      right
      split at h
      · cases h
      · rename_i hok
        simp only [Bool.or_eq_true, Bool.not_eq_true', not_or, Bool.not_eq_false] at hok
        obtain ⟨db'', hact, heq⟩ := Option.map_eq_some_iff.mp h
        cases heq
        exact ⟨hstatus, hok, rfl, db'', hact, rfl⟩
    · cases h

theorem Sound.exact_new (h : Sound K w) (hjob : job ∈ w.db.jobs)
    (hpending : job.status = .pending) (hcomplete : complete K w.db job = true) {now : Int}
    (hdb : DncImport.activate w.db (datasetOf K w.db job now)
      (hashesOf w.db.staging job.tenantId job.id) = some db') :
    Exact K { w with db := db' }
      { job with status := .finalized, dataset := some (datasetOf K w.db job now).id }
      (datasetOf K w.db job now) := by
  simp only [complete, Bool.and_eq_true, decide_eq_true_eq] at hcomplete
  obtain ⟨⟨hall, hsigned⟩, hcount⟩ := hcomplete
  rw [chunksOf_eq K h.chunks] at hall hsigned
  rw [map_map] at hall
  have hrows : hashesOf db'.suppressions job.tenantId w.db.nextId =
      hashesOf w.db.staging job.tenantId job.id := by
    obtain ⟨-, rfl⟩ := activate_spec hdb
    have hnone : hashesOf w.db.suppressions job.tenantId w.db.nextId = [] := by
      rw [eq_nil_iff_forall_not_mem]
      intro x hx
      have hlt := h.data.owned _ (mem_hashesOf.mp hx)
      exact absurd hlt (lt_irrefl _)
    rw [hashesOf_append, hnone, nil_append, hashesOf_new, if_pos ⟨rfl, rfl⟩]
  have hopen : job.status ≠ .finalized := by
    rw [hpending]
    exact fun hno => nomatch hno
  constructor
  · obtain ⟨-, rfl⟩ := activate_spec hdb
    exact mem_append_right _ mem_cons_self
  · rfl
  · rfl
  · exact hall
  · exact hsigned
  · intro x
    change x ∈ hashesOf db'.suppressions job.tenantId w.db.nextId ↔ _
    rw [hrows]
    exact h.staged job hjob hopen x
  · constructor
    · change (hashesOf db'.suppressions job.tenantId w.db.nextId).length = _
      rw [hrows]
      exact hcount
    · change ((hashesOf w.db.staging job.tenantId job.id).insertionSort (· ≤ ·)).length = _
      rw [length_insertionSort]
      exact hcount

theorem Sound.close (h : Sound K w) (hjob : job ∈ w.db.jobs)
    (hd : Exact K w { job with status := .finalized, dataset := some d.id } d) : Sound K
      { w with db := { w.db with
        jobs := w.db.jobs.map fun j =>
          if j.tenantId = job.tenantId && j.id = job.id then
            { j with status := .finalized, dataset := some d.id }
          else j
        staging := w.db.staging.filter fun r =>
          !(r.tenantId = job.tenantId && r.owner = job.id) } } := by
  have hmem : ∀ j, j ∈ w.db.jobs.map (fun j =>
      if j.tenantId = job.tenantId && j.id = job.id then
        { j with status := .finalized, dataset := some d.id } else j) →
      j = { job with status := .finalized, dataset := some d.id } ∨
        j ∈ w.db.jobs ∧ j.id ≠ job.id := by
    intro j hj
    obtain ⟨j, hin, rfl⟩ := mem_map.mp hj
    by_cases hid : j.id = job.id
    · have heq := inj_on_of_nodup_map h.jobs hin hjob hid
      left
      rw [heq, if_pos (by simp)]
    · right
      rw [if_neg (by simp [hid])]
      exact ⟨hin, hid⟩
  have hin : ∀ u, InJob w.db.jobs u → InJob (w.db.jobs.map fun j =>
      if j.tenantId = job.tenantId && j.id = job.id then
        { j with status := .finalized, dataset := some d.id } else j) u := by
    rintro u ⟨j, hj, hu⟩
    refine ⟨_, mem_map_of_mem hj, ?_⟩
    split
    · exact hu
    · exact hu
  constructor
  · exact ⟨h.data.ids, h.data.below, h.data.owned, h.data.layered, h.data.shown⟩
  · have hids : (w.db.jobs.map fun j =>
        if j.tenantId = job.tenantId && j.id = job.id then
          { j with status := .finalized, dataset := some d.id } else j).map (·.id) =
        w.db.jobs.map (·.id) := by
      rw [map_map]
      apply map_congr_left
      intro j _
      dsimp only [Function.comp]
      split <;> rfl
    rw [hids]
    exact h.jobs
  · intro j hj
    rcases hmem j hj with rfl | ⟨hold, -⟩
    · exact h.jobsBelow job hjob
    · exact h.jobsBelow j hold
  · exact h.chunks
  · exact h.once
  · exact fun c u hu => hin u (h.called c u hu)
  · exact fun u hu => hin u (h.uploaded u hu)
  · exact h.stagingNodup.filter _
  · exact fun r hr => h.stagingBelow r (mem_filter.mp hr).1
  · intro j hj hns x
    rcases hmem j hj with rfl | ⟨hold, hne⟩
    · exact absurd rfl hns
    · have hbefore := h.staged j hold hns x
      rw [mem_hashesOf] at hbefore ⊢
      rw [← hbefore, mem_filter]
      simp [hne]
  · intro j hj hfin
    rcases hmem j hj with rfl | ⟨hold, -⟩
    · exact ⟨d, hd.mem, hd.dataset, hd.tenant, hd.all, hd.signed, hd.hashes, hd.count⟩
    · obtain ⟨d', hd'⟩ := h.exact j hold hfin
      exact ⟨d', hd'.mem, hd'.dataset, hd'.tenant, hd'.all, hd'.signed, hd'.hashes, hd'.count⟩

theorem Sound.finalize (h : Sound K w) {now : Int}
    (hdb : finalizeDncImport K w.db tenantId importId now = some (db', out)) :
    Sound K { w with db := db' } := by
  obtain ⟨job, hfind, ⟨-, rfl, -⟩ | ⟨hpending, ⟨-, hcomplete⟩, -, db'', hact, rfl⟩⟩ :=
    finalizeDncImport_cases hdb
  · exact h
  · obtain ⟨hjob, rfl, rfl⟩ := findJob_spec hfind
    have hexact := h.exact_new hjob hpending hcomplete hact
    have hs := h.activate rfl rfl hact
    have hjobs : job ∈ db''.jobs := by
      obtain ⟨-, rfl⟩ := activate_spec hact
      exact hjob
    exact hs.close hjobs hexact

theorem importDncDataset_spec {sourceType : SourceType}
    {state : Option Text} {versionLabel : Text} {phones : List Text} {maxAgeDays now : Int}
    {id : Nat} (h : importDncDataset K db tenantId sourceType state versionLabel phones maxAgeDays
      now = some (db', id)) : ∃ d hashes, d.id = db.nextId ∧ d.status = .active ∧
        d.sourceAsOf = now ∧ d.scope = (tenantId, sourceType, state.getD []) ∧
        DncImport.activate db d hashes = some db' := by
  unfold importDncDataset at h
  dsimp only at h
  split at h
  · cases h
  · obtain ⟨db'', hact, heq⟩ := Option.map_eq_some_iff.mp h
    cases heq
    exact ⟨_, _, rfl, rfl, rfl, rfl, hact⟩

theorem sound_next (w : World) (a : Action) (h : Sound K w) : Sound K (next K w a) := by
  unfold next
  cases a with
  | begin tenantId m signature now =>
    simp only [step]
    split
    · exact h
    · rename_i db importId replayed hbegin
      rcases beginDncImport_spec K hbegin with rfl | ⟨job, hid, hs, rfl⟩
      · exact h
      · exact h.begin hid hs
  | check call u =>
    simp only [step]
    split
    · rename_i hu
      exact h.check call hu
    · exact h
  | stage call =>
    simp only [step]
    split
    · exact h
    · rename_i u hcall
      split
      · exact h.endCall call
      · exact h.endCall call
      · rename_i db hstage
        unfold stageChunk at hstage
        split at hstage
        · split at hstage <;> cases hstage
        · rename_i hfree
          cases hstage
          exact (h.endCall call).stage (h.called call u hcall) hfree
  | finalize tenantId importId now =>
    simp only [step]
    split
    · exact h
    · rename_i db out hfin
      exact h.finalize hfin
  | importDirect tenantId sourceType state versionLabel phones maxAgeDays now =>
    simp only [step]
    split
    · exact h
    · rename_i db id himport
      obtain ⟨d, hashes, hid, hactive, -, -, hact⟩ := importDncDataset_spec himport
      exact h.activate hid hactive hact

end HomefrontFiber.DncImport
