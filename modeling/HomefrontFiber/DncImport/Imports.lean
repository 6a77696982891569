import HomefrontFiber.DncImport.Exact

/-!
# Do-not-call imports over whole runs

A dataset comes from a finalization of a pending job or a direct import and from nothing else, and a
job that is finalized gives the same dataset for good. Activation compares no source dates: the
active dataset of a scope is the last one activated.
-/

namespace HomefrontFiber.DncImport

open List

variable {K : Crypto}

def Repeats (w : World) (a : Action) : Prop :=
  ∃ tenantId importId now job, a = .finalize tenantId importId now ∧
    findJob w.db tenantId importId = some job ∧ job.status = .finalized

/-- A failed or a repeated call leaves the datasets as they are. -/
def Quiet (K : Crypto) (w : World) (a : Action) : Prop :=
  ((step K w a).2 = .failed ∨ Repeats w a ∨ (∃ id, (step K w a).2 = .begun id true) ∨
    (step K w a).2 = .staged true) →
  (next K w a).db.datasets = w.db.datasets ∧ (next K w a).db.suppressions = w.db.suppressions

theorem quiet (w : World) (a : Action) : Quiet K w a := by
  intro hquiet
  unfold next
  cases a with
  | begin tenantId m signature now =>
    simp only [step]
    split
    · exact ⟨rfl, rfl⟩
    · rename_i db importId replayed hbegin
      rcases beginDncImport_spec K hbegin with rfl | ⟨job, -, -, rfl⟩
      · exact ⟨rfl, rfl⟩
      · exact ⟨rfl, rfl⟩
  | check call u =>
    simp only [step]
    split <;> exact ⟨rfl, rfl⟩
  | stage call =>
    simp only [step]
    split
    · exact ⟨rfl, rfl⟩
    · split
      · exact ⟨rfl, rfl⟩
      · exact ⟨rfl, rfl⟩
      · rename_i db hstage
        unfold stageChunk at hstage
        split at hstage
        · split at hstage <;> cases hstage
        · cases hstage
          exact ⟨rfl, rfl⟩
  | finalize tenantId importId now =>
    simp only [step] at hquiet ⊢
    split
    · exact ⟨rfl, rfl⟩
    · rename_i db out hfin
      obtain ⟨job, hfind, ⟨-, rfl, -⟩ | ⟨hpending, -⟩⟩ := finalizeDncImport_cases hfin
      · exact ⟨rfl, rfl⟩
      · rw [hfin] at hquiet
        rcases hquiet with hno | ⟨t, i, n, job', heq, hfind', hdone⟩ | ⟨id, hno⟩ | hno
        · cases hno
        · cases heq
          rw [hfind] at hfind'
          cases hfind'
          rw [hpending] at hdone
          cases hdone
        · cases hno
        · cases hno
  | importDirect tenantId sourceType state versionLabel phones maxAgeDays now =>
    simp only [step] at hquiet ⊢
    split
    · exact ⟨rfl, rfl⟩
    · rename_i db id himport
      rw [himport] at hquiet
      rcases hquiet with hno | ⟨t, i, n, job', heq, -⟩ | ⟨id, hno⟩ | hno
      · cases hno
      · cases heq
      · cases hno
      · cases hno

/-- The job is finalized with the dataset that has this summary. -/
def FinalizedAs (db : DncDb) (tenantId : Int) (importId : Nat) (out : Finalized) : Prop :=
  ∃ j ∈ db.jobs, j.tenantId = tenantId ∧ j.id = importId ∧ j.status = .finalized ∧
    ∃ d ∈ db.datasets, j.dataset = some d.id ∧ d.tenantId = tenantId ∧ d.summary = out

variable {w : World} {tenantId : Int} {importId : Nat} {out : Finalized} {db db' : DncDb}
  {hashes : List Text} {d : Dataset}

theorem Sound.findJob_eq (h : Sound K w) {j : ImportJob} (hj : j ∈ w.db.jobs) :
    findJob w.db j.tenantId j.id = some j := by
  cases hfind : findJob w.db j.tenantId j.id with
  | none =>
    have hno := find?_eq_none.mp hfind j hj
    simp at hno
  | some j' =>
    obtain ⟨hj', -, hid⟩ := findJob_spec hfind
    rw [inj_on_of_nodup_map h.jobs hj' hj hid]

theorem Sound.step_finalizedAs (h : Sound K w)
    (hout : FinalizedAs w.db tenantId importId out) (now : Int) :
    step K w (.finalize tenantId importId now) = (w, .finalized out) := by
  obtain ⟨j, hj, rfl, rfl, hstatus, d, hd, hdataset, ht, rfl⟩ := hout
  have hfind : (w.db.datasets.find? fun e => e.tenantId = j.tenantId && e.id = d.id) = some d := by
    cases hfind : w.db.datasets.find? fun e => e.tenantId = j.tenantId && e.id = d.id with
    | none =>
      have hno := find?_eq_none.mp hfind d hd
      simp [ht] at hno
    | some e =>
      have hkey := find?_some hfind
      simp only [Bool.and_eq_true, decide_eq_true_eq] at hkey
      rw [inj_on_of_nodup_map h.data.ids (mem_of_find?_eq_some hfind) hd hkey.2]
  have hfinal : finalizeDncImport K w.db j.tenantId j.id now = some (w.db, d.summary) := by
    unfold finalizeDncImport
    rw [h.findJob_eq hj]
    dsimp only
    rw [hstatus, hdataset]
    dsimp only
    rw [hfind]
    rfl
  simp only [step, hfinal]

theorem finalizedAs_of_step {now : Int}
    (hout : (step K w (.finalize tenantId importId now)).2 = .finalized out) :
    FinalizedAs (next K w (.finalize tenantId importId now)).db tenantId importId out := by
  unfold next
  simp only [step] at hout ⊢
  cases hfin : finalizeDncImport K w.db tenantId importId now with
  | none =>
    rw [hfin] at hout
    cases hout
  | some result =>
    obtain ⟨db', out'⟩ := result
    rw [hfin] at hout
    cases hout
    obtain ⟨job, hfind, ⟨hstatus, rfl, d, hd, hdataset, ht, rfl⟩ | ⟨-, -, rfl, db'', hact, rfl⟩⟩ :=
      finalizeDncImport_cases hfin
    · obtain ⟨hjob, hjt, hid⟩ := findJob_spec hfind
      exact ⟨job, hjob, hjt, hid, hstatus, d, hd, hdataset, ht, rfl⟩
    · obtain ⟨hjob, rfl, rfl⟩ := findJob_spec hfind
      obtain ⟨-, rfl⟩ := activate_spec hact
      refine ⟨_, mem_map_of_mem hjob, ?_⟩
      rw [if_pos (by simp)]
      exact ⟨rfl, rfl, rfl, datasetOf K w.db job now, by simp, rfl, rfl, rfl⟩

theorem FinalizedAs.activate
    (h : FinalizedAs db tenantId importId out) (hdata : DataOk db) {e : Dataset}
    (he : e.id = db.nextId) (hdb : DncImport.activate db e hashes = some db') :
    FinalizedAs db' tenantId importId out := by
  obtain ⟨j, hj, ht, hid, hstatus, d, hd, hdataset, hdt, hsum⟩ := h
  obtain ⟨d', hd', hsum', hdt', -⟩ := hdata.keeps he hdb hd
  have hdid : d'.id = d.id := congrArg Finalized.datasetId hsum'
  refine ⟨j, ?_, ht, hid, hstatus, d', hd', ?_, hdt'.trans hdt, hsum'.trans hsum⟩
  · obtain ⟨-, rfl⟩ := activate_spec hdb
    exact hj
  · rw [hdid]
    exact hdataset

theorem Sound.finalizedAs_next (h : Sound K w)
    (hout : FinalizedAs w.db tenantId importId out) (a : Action) :
    FinalizedAs (next K w a).db tenantId importId out := by
  have hkeep : ∀ db' : DncDb, w.db.jobs ⊆ db'.jobs → db'.datasets = w.db.datasets →
      FinalizedAs db' tenantId importId out := by
    intro db' hjobs hdatasets
    obtain ⟨j, hj, hrest⟩ := hout
    refine ⟨j, hjobs hj, ?_⟩
    rw [hdatasets]
    exact hrest
  unfold next
  cases a with
  | begin tenantId' m signature now =>
    simp only [step]
    split
    · exact hout
    · rename_i db importId' replayed hbegin
      rcases beginDncImport_spec K hbegin with rfl | ⟨job, -, -, rfl⟩
      · exact hout
      · exact hkeep _ (subset_append_left _ _) rfl
  | check call u =>
    simp only [step]
    split <;> exact hout
  | stage call =>
    simp only [step]
    split
    · exact hout
    · split
      · exact hout
      · exact hout
      · rename_i db hstage
        unfold stageChunk at hstage
        split at hstage
        · split at hstage <;> cases hstage
        · cases hstage
          exact hkeep _ (List.Subset.refl _) rfl
  | finalize tenantId' importId' now =>
    simp only [step]
    split
    · exact hout
    · rename_i db out' hfin
      obtain ⟨job, hfind, ⟨-, rfl, -⟩ | ⟨hpending, -, -, db'', hact, rfl⟩⟩ :=
        finalizeDncImport_cases hfin
      · exact hout
      · obtain ⟨hjob, rfl, rfl⟩ := findJob_spec hfind
        have hact' := hout.activate h.data rfl hact
        obtain ⟨j, hj, ht, hid, hstatus, hrest⟩ := hact'
        refine ⟨j, ?_, ht, hid, hstatus, hrest⟩
        -- the job that is finalized now was pending
        have hjobs : db''.jobs = w.db.jobs := by
          obtain ⟨-, rfl⟩ := activate_spec hact
          rfl
        refine mem_map.mpr ⟨j, hj, if_neg ?_⟩
        intro heq
        simp only [Bool.and_eq_true, decide_eq_true_eq] at heq
        rw [hjobs] at hj
        rw [inj_on_of_nodup_map h.jobs hj hjob heq.2, hpending] at hstatus
        cases hstatus
  | importDirect tenantId' sourceType state versionLabel phones maxAgeDays now =>
    simp only [step]
    split
    · exact hout
    · rename_i db id himport
      obtain ⟨d, hashes, hid, -, -, -, hact⟩ := importDncDataset_spec himport
      exact hout.activate h.data hid hact

/-- The active dataset of a scope has the latest source date of the scope. -/
def NeverBack (db : DncDb) : Prop :=
  ∀ a ∈ db.datasets, ∀ b ∈ db.datasets, a.scope = b.scope → b.status = .active →
    a.sourceAsOf ≤ b.sourceAsOf

/-- The active dataset of a scope is not after a source date. -/
def NotAfter (db : DncDb) (scope : Int × SourceType × Text) (asOf : Int) : Prop :=
  ∀ d ∈ db.datasets, d.scope = scope → d.status = .active → d.sourceAsOf ≤ asOf

/-- An activation brings a source date that is not before that of the active dataset. -/
def Forward (w : World) : Action → Prop
  | .finalize tenantId importId _ => ∀ job, findJob w.db tenantId importId = some job →
      job.status = .pending → NotAfter w.db job.scope (job.manifest.sourceAsOf.getD 0)
  | .importDirect tenantId sourceType state _ _ _ now =>
      NotAfter w.db (tenantId, sourceType, state.getD []) now
  | _ => True

theorem supersede_active {scope : Int × SourceType × Text}
    (h : (supersede scope d).status = .active) : d.scope ≠ scope ∧ d.status = .active := by
  unfold supersede at h
  split at h
  · cases h
  · rename_i hno
    refine ⟨fun hscope => hno ?_, h⟩
    simp [hscope, h]

theorem NeverBack.activate (h : NeverBack db) (hdata : DataOk db)
    (hd : NotAfter db d.scope d.sourceAsOf)
    (hdb : DncImport.activate db d hashes = some db') : NeverBack db' := by
  obtain ⟨-, rfl⟩ := activate_spec hdb
  intro a ha b hb hscope hactive
  rcases mem_append.mp hb with hb | hb
  · obtain ⟨b, hbmem, rfl⟩ := mem_map.mp hb
    obtain ⟨hne, hbactive⟩ := supersede_active hactive
    rw [supersede_scope] at hscope
    rcases mem_append.mp ha with ha | ha
    · obtain ⟨a, hamem, rfl⟩ := mem_map.mp ha
      rw [supersede_scope] at hscope
      rw [(supersede_summary d.scope a).2.2, (supersede_summary d.scope b).2.2]
      exact h a hamem b hbmem hscope hbactive
    · rw [mem_singleton.mp ha] at hscope
      exact absurd hscope.symm hne
  · rw [mem_singleton.mp hb] at hscope ⊢
    rcases mem_append.mp ha with ha | ha
    · obtain ⟨a, hamem, rfl⟩ := mem_map.mp ha
      rw [supersede_scope] at hscope
      rw [(supersede_summary d.scope a).2.2]
      -- the active dataset of the scope is between the two
      obtain ⟨c, hc, hcscope, hcactive⟩ := hdata.shown a hamem
      have hac := h a hamem c hc hcscope.symm hcactive
      have hcd := hd c hc (hcscope.trans hscope) hcactive
      exact hac.trans hcd
    · rw [mem_singleton.mp ha]

/-- The source date of a dataset is at most 31 days before its activation. -/
def Recent (db : DncDb) : Prop :=
  ∀ d ∈ db.datasets, d.importedAt - d.sourceAsOf ≤ 31 * 86400000

theorem Recent.activate (h : Recent db) (hd : d.importedAt - d.sourceAsOf ≤ 31 * 86400000)
    (hdb : DncImport.activate db d hashes = some db') : Recent db' := by
  obtain ⟨-, rfl⟩ := activate_spec hdb
  intro e he
  rcases mem_append.mp he with he | he
  · obtain ⟨e, hmem, rfl⟩ := mem_map.mp he
    have hold := h e hmem
    unfold supersede
    split <;> exact hold
  · rw [mem_singleton.mp he]
    exact hd

theorem recent_datasetOf {job : ImportJob} {now : Int}
    (h : datesOk job.manifest now = true) : (datasetOf K db job now).importedAt -
      (datasetOf K db job now).sourceAsOf ≤ 31 * 86400000 := by
  change now - job.manifest.sourceAsOf.getD 0 ≤ _
  unfold datesOk at h
  split at h
  · rename_i asOf retrieved hasOf _
    simp only [Bool.and_eq_true, decide_eq_true_eq] at h
    have hcap : min 31 (max 1 job.manifest.maxAgeDays) ≤ 31 := min_le_left _ _
    have hage : now - asOf ≤ min 31 (max 1 job.manifest.maxAgeDays) * 86400000 := h.2
    rw [hasOf, Option.getD_some]
    omega
  · cases h

theorem next_datasets (w : World) (a : Action) : (next K w a).db.datasets = w.db.datasets ∨
    ∃ d hashes db', DncImport.activate w.db d hashes = some db' ∧
      (next K w a).db.datasets = db'.datasets ∧ d.importedAt - d.sourceAsOf ≤ 31 * 86400000 ∧
      (Forward w a → NotAfter w.db d.scope d.sourceAsOf) := by
  by_cases hquiet : (step K w a).2 = .failed ∨ Repeats w a ∨
      (∃ id, (step K w a).2 = .begun id true) ∨ (step K w a).2 = .staged true
  · exact .inl (quiet w a hquiet).1
  · unfold next
    cases a with
    | begin tenantId m signature now =>
      left
      simp only [step]
      split
      · rfl
      · rename_i db importId replayed hbegin
        rcases beginDncImport_spec K hbegin with rfl | ⟨job, -, -, rfl⟩ <;> rfl
    | check call u =>
      left
      simp only [step]
      split <;> rfl
    | stage call =>
      left
      simp only [step]
      split
      · rfl
      · split
        · rfl
        · rfl
        · rename_i db hstage
          unfold stageChunk at hstage
          split at hstage
          · split at hstage <;> cases hstage
          · cases hstage
            rfl
    | finalize tenantId importId now =>
      simp only [step]
      split
      · exact .inl rfl
      · rename_i db out hfin
        obtain ⟨job, hfind, ⟨-, rfl, -⟩ | ⟨hpending, ⟨hdates, -⟩, -, db'', hact, rfl⟩⟩ :=
          finalizeDncImport_cases hfin
        · exact .inl rfl
        · exact .inr ⟨_, _, db'', hact, rfl, recent_datasetOf hdates,
            fun hforward => hforward job hfind hpending⟩
    | importDirect tenantId sourceType state versionLabel phones maxAgeDays now =>
      simp only [step]
      split
      · exact .inl rfl
      · rename_i db id himport
        unfold importDncDataset at himport
        dsimp only at himport
        split at himport
        · cases himport
        · obtain ⟨db', hact, heq⟩ := Option.map_eq_some_iff.mp himport
          obtain ⟨rfl, -⟩ := Prod.mk.inj heq
          refine .inr ⟨_, _, _, hact, rfl, ?_, fun hforward => hforward⟩
          simp

theorem Sound.one_active (h : Sound K w) {a b : Dataset} (ha : a ∈ w.db.datasets)
    (hb : b ∈ w.db.datasets) (hscope : a.scope = b.scope) (haa : a.status = .active)
    (hba : b.status = .active) : a = b := by
  have hone : w.db.datasets.Pairwise fun a b =>
      a.scope = b.scope → a.status = .active → b.status = .active → a = b := by
    apply h.data.layered.imp
    intro a b hab hscope haa _
    rw [hab hscope] at haa
    cases haa
  have hflip : w.db.datasets.Pairwise fun b a =>
      a.scope = b.scope → a.status = .active → b.status = .active → a = b := by
    apply hone.imp
    intro a b hab hscope hb ha
    exact (hab hscope.symm ha hb).symm
  exact hone.forall_of_forall_of_flip (fun _ _ _ _ _ => rfl) hflip ha hb hscope haa hba

/-- In every run, a finalized job has the dataset of exactly the hashes of its signed chunks, a
failed or repeated call changes no dataset, finalizing again returns the same dataset, and a
scope has at most one active dataset: the last one activated, from a source at most 31 days old,
and the newest one where every activation of the run goes forward. -/
theorem dncImports_exact (K : Crypto) (actions : List Action) :
    let w := run (next K) {} actions
    (∀ j ∈ w.db.jobs, j.status = .finalized → ∃ d, Exact K w j d) ∧
    (∀ a, Quiet K w a) ∧
    (∀ tenantId importId now out, (step K w (.finalize tenantId importId now)).2 = .finalized out →
      ∀ later now', let w' := run (next K) (next K w (.finalize tenantId importId now)) later
        step K w' (.finalize tenantId importId now') = (w', .finalized out)) ∧
    (∀ a ∈ w.db.datasets, ∀ b ∈ w.db.datasets, a.scope = b.scope → a.status = .active →
      b.status = .active → a = b) ∧
    (w.db.datasets.Pairwise fun a b => a.scope = b.scope → a.status = .superseded) ∧
    Recent w.db ∧
    (Along (next K) Forward {} actions → NeverBack w.db) := by
  intro w
  have hstep : ∀ w a, Sound K w → Sound K (next K w a) := sound_next
  have h : Sound K w := run_invariant_all hstep actions (sound_start K)
  refine ⟨h.exact, quiet w, ?_, ?_, h.data.layered, ?_, ?_⟩
  · intro tenantId importId now out hout later now'
    have hboth : ∀ w a, Sound K w ∧ FinalizedAs w.db tenantId importId out →
        Sound K (next K w a) ∧ FinalizedAs (next K w a).db tenantId importId out := by
      rintro w a ⟨hs, hf⟩
      exact ⟨sound_next w a hs, hs.finalizedAs_next hf a⟩
    obtain ⟨hs, hf⟩ := run_invariant_all hboth later
      ⟨sound_next w (.finalize tenantId importId now) h, finalizedAs_of_step hout⟩
    exact hs.step_finalizedAs hf now'
  · exact fun a ha b hb => h.one_active ha hb
  · have hrecent : ∀ (w : World) (a : Action), Recent w.db → Recent (next K w a).db := by
      intro w a hr
      rcases next_datasets (K := K) w a with hsame | ⟨d, hashes, db', hact, hnew, hage, -⟩
      · unfold Recent
        rw [hsame]
        exact hr
      · unfold Recent
        rw [hnew]
        exact hr.activate hage hact
    exact run_invariant_all (I := fun w : World => Recent w.db) hrecent actions
      fun _ hd => absurd hd not_mem_nil
  · intro hforward
    have hnever : ∀ (w : World) (a : Action), Sound K w ∧ NeverBack w.db → Forward w a →
        Sound K (next K w a) ∧ NeverBack (next K w a).db := by
      rintro w a ⟨hs, hn⟩ hf
      refine ⟨sound_next w a hs, ?_⟩
      rcases next_datasets (K := K) w a with hsame | ⟨d, hashes, db', hact, hnew, -, hd⟩
      · unfold NeverBack
        rw [hsame]
        exact hn
      · unfold NeverBack
        rw [hnew]
        exact hn.activate hs.data (hd hf) hact
    have hstart : Sound K {} ∧ NeverBack ({} : World).db :=
      ⟨sound_start K, fun _ hd => absurd hd not_mem_nil⟩
    exact (run_invariant hnever hstart hforward).2

def plainCrypto : Crypto where
  sha256 := id
  hashPhone _ phone := phone
  verifyDncImportManifest _ _ _ := true

/-- One chunk of one number, from a source read at `asOf`. -/
def oneNumber (versionLabel : Text) (asOf : Int) : Manifest where
  sourceType := .national
  versionLabel := versionLabel
  coveredAreaCodes := ["ALL".toList]
  expectedRecordCount := 1
  expectedChunkCount := 1
  chunkSize := 1
  sourceManifestSha256 := "0:+13365551212:1:1".toList
  sourceAsOf := some asOf
  sourceRetrievedAt := some asOf
  maxAgeDays := 31

def newerThenOlder : List Action :=
  [.begin 1 (oneNumber "july".toList 2000) "aa".toList 3000,
    .begin 1 (oneNumber "june".toList 1000) "bb".toList 3000,
    .check 0 ⟨1, 0, 0, ["3365551212".toList]⟩, .stage 0,
    .check 0 ⟨1, 1, 0, ["3365551212".toList]⟩, .stage 0,
    .finalize 1 0 3000, .finalize 1 1 3001]

/-- The import of the older source ends last and is the active one. -/
theorem not_neverBack_newerThenOlder :
    ¬ ∀ (K : Crypto) (actions : List Action), NeverBack (run (next K) {} actions).db := by
  intro hall
  have hback := hall plainCrypto newerThenOlder
  revert hback
  unfold NeverBack
  decide +kernel

end HomefrontFiber.DncImport
