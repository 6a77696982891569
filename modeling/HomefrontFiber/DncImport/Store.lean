import HomefrontFiber.Foundation.IsoText
import HomefrontFiber.Foundation.Runs
import Mathlib.Data.List.Dedup
import Mathlib.Data.List.Sort

/-!
# Do-not-call imports

A signed manifest opens an import job. Chunks of phone numbers are staged under the job as hashes,
and the finalization turns the staged hashes into the active dataset of its scope when the chunks
have the digest that was signed. Each function is one transaction that is rolled back when it fails,
except that a chunk is first checked against its job and then staged.
-/

namespace HomefrontFiber.DncImport

def lower (t : Text) : Text := t.map Char.toLower

def normalizeUsPhone (value : Text) : Option Text :=
  let digits := value.filter Char.isDigit
  let national := if digits.length = 11 && digits.head? = some '1' then digits.tail else digits
  let big (c : Option Char) : Bool := c.any fun c => '2' ≤ c
  if national.length = 10 && big national[0]? && big national[3]? then
    some ("+1".toList ++ national)
  else none

inductive SourceType where
  | national | state
  deriving DecidableEq

/-- A signed manifest. The source dates are as `Date.parse` reads them. -/
structure Manifest where
  sourceType : SourceType
  state : Option Text := none
  versionLabel : Text
  authorizedAccountRef : Text := []
  coveredAreaCodes : List Text
  expectedRecordCount : Nat
  expectedChunkCount : Nat
  chunkSize : Nat
  sourceManifestSha256 : Text
  sourceAsOf : Option Int
  sourceRetrievedAt : Option Int
  maxAgeDays : Int
  deriving DecidableEq

/-- The digest, the keyed hash of a phone number and the check of a signature. -/
structure Crypto where
  sha256 : Text → Text
  hashPhone : Int → Text → Text
  verifyDncImportManifest : Int → Manifest → Text → Bool

inductive JobStatus where
  | pending | finalized | failed | cancelled
  deriving DecidableEq

structure ImportJob where
  id : Nat
  tenantId : Int
  manifest : Manifest
  signatureSha : Text
  status : JobStatus := .pending
  dataset : Option Nat := none
  deriving DecidableEq

structure ImportChunk where
  tenantId : Int
  importId : Nat
  index : Int
  sourceChunkSha256 : Text
  inputCount : Nat
  acceptedCount : Nat

inductive DatasetStatus where
  | active | superseded | failed | revoked
  deriving DecidableEq

structure Dataset where
  id : Nat
  tenantId : Int
  sourceType : SourceType
  state : Option Text
  versionLabel : Text
  checksum : Text
  recordCount : Nat
  importedAt : Int
  sourceAsOf : Int
  sourceRetrievedAt : Int
  expiresAt : Int
  status : DatasetStatus := .active

structure HashRow where
  tenantId : Int
  owner : Nat
  phoneHash : Text
  deriving DecidableEq

structure DncDb where
  jobs : List ImportJob := []
  chunks : List ImportChunk := []
  staging : List HashRow := []
  datasets : List Dataset := []
  suppressions : List HashRow := []
  nextId : Nat := 0

/-- `(tenant_id, source_type, coalesce(state, ''))`. -/
def Dataset.scope (d : Dataset) : Int × SourceType × Text :=
  (d.tenantId, d.sourceType, d.state.getD [])

def ImportJob.scope (j : ImportJob) : Int × SourceType × Text :=
  (j.tenantId, j.manifest.sourceType, j.manifest.state.getD [])

def hashesOf (rows : List HashRow) (tenantId : Int) (owner : Nat) : List Text :=
  (rows.filter fun r => r.tenantId = tenantId && r.owner = owner).map (·.phoneHash)

def findJob (db : DncDb) (tenantId : Int) (importId : Nat) : Option ImportJob :=
  db.jobs.find? fun j => j.tenantId = tenantId && j.id = importId

variable (K : Crypto)

def maximumAgeMs (maxAgeDays : Int) : Int := min 31 (max 1 maxAgeDays) * 86400000

def datesOk (m : Manifest) (now : Int) : Bool :=
  match m.sourceAsOf, m.sourceRetrievedAt with
  | some asOf, some retrieved =>
    asOf ≤ now + 300000 && retrieved ≤ now + 300000 && asOf ≤ retrieved &&
      now - asOf ≤ maximumAgeMs m.maxAgeDays
  | _, _ => false

def stateOk (m : Manifest) : Bool :=
  match m.sourceType with
  | .state => m.state.getD [] ≠ []
  | .national => m.state.getD [] = []

/-- The checks of the columns of `dnc_import_jobs`. -/
def columnsOk (m : Manifest) : Bool :=
  0 < m.expectedRecordCount && 0 < m.expectedChunkCount && 1 ≤ m.chunkSize && m.chunkSize ≤ 3000 &&
    1 ≤ m.maxAgeDays && m.maxAgeDays ≤ 31

/-- `beginDncImport`: the import and whether it was there already. -/
def beginDncImport (db : DncDb) (tenantId : Int) (m : Manifest) (signature : Text) (now : Int) :
    Option (DncDb × Nat × Bool) :=
  if !K.verifyDncImportManifest tenantId m signature || !stateOk m ||
      "ALL".toList ∉ m.coveredAreaCodes || !datesOk m now then none
  else
    let signatureSha := K.sha256 (lower signature)
    match db.jobs.find? fun j => j.tenantId = tenantId && j.signatureSha = signatureSha &&
        (j.status = .pending || j.status = .finalized) with
    | some existing => some (db, existing.id, true)
    | none =>
      let job : ImportJob :=
        { id := db.nextId, tenantId, signatureSha
          manifest := { m with sourceManifestSha256 := lower m.sourceManifestSha256 } }
      if !columnsOk m || db.jobs.any fun j => j.scope = job.scope &&
            j.manifest.versionLabel = m.versionLabel ||
          j.tenantId = tenantId && j.signatureSha = signatureSha then none
      else some ({ db with jobs := db.jobs ++ [job], nextId := db.nextId + 1 }, db.nextId, false)

def normalized (phones : List Text) : List Text :=
  (phones.filterMap normalizeUsPhone).dedup.insertionSort (· ≤ ·)

def joinLines (lines : List Text) : Text := List.intercalate ['\n'] lines

structure Upload where
  tenantId : Int
  importId : Nat
  index : Int
  phones : List Text

/-- The check of a chunk against its job, before the transaction. -/
def acceptsChunk (db : DncDb) (u : Upload) : Bool :=
  match findJob db u.tenantId u.importId with
  | none => false
  | some job => job.status = .pending && 0 ≤ u.index && u.index < job.manifest.expectedChunkCount &&
      u.phones.length ≤ job.manifest.chunkSize && !(normalized u.phones).isEmpty

def Upload.chunk (u : Upload) : ImportChunk where
  tenantId := u.tenantId
  importId := u.importId
  index := u.index
  sourceChunkSha256 := K.sha256 (joinLines (normalized u.phones))
  inputCount := u.phones.length
  acceptedCount := (normalized u.phones).length

def Upload.hashes (u : Upload) : List Text := (normalized u.phones).map (K.hashPhone u.tenantId)

/-- `INSERT OR IGNORE` of the hashes of a chunk. -/
def stageHashes (staging : List HashRow) (u : Upload) : List HashRow :=
  staging ++ ((u.hashes K).dedup.map fun h => ⟨u.tenantId, u.importId, h⟩).filter (· ∉ staging)

/-- The transaction of `appendDncImportChunk`, and whether the chunk was there already. -/
def stageChunk (db : DncDb) (u : Upload) : Option (DncDb × Bool) :=
  match db.chunks.find? fun c => c.tenantId = u.tenantId && c.importId = u.importId &&
      c.index = u.index with
  | some existing =>
    if existing.sourceChunkSha256 ≠ (u.chunk K).sourceChunkSha256 ||
        existing.inputCount ≠ u.phones.length then none
    else some (db, true)
  | none =>
    some ({ db with
      staging := stageHashes K db.staging u, chunks := db.chunks ++ [u.chunk K] }, false)

def supersede (scope : Int × SourceType × Text) (d : Dataset) : Dataset :=
  if d.scope = scope && d.status = .active then { d with status := .superseded } else d

/-- A new dataset takes the place of the active one. A version label that is taken and a hash
that occurs twice fail. -/
def activate (db : DncDb) (d : Dataset) (hashes : List Text) : Option DncDb :=
  if db.datasets.any (fun e => e.scope = d.scope && e.versionLabel = d.versionLabel) ||
      !decide hashes.Nodup then none
  else some { db with
    datasets := db.datasets.map (supersede d.scope) ++ [d]
    suppressions := db.suppressions ++ hashes.map fun h => ⟨d.tenantId, d.id, h⟩
    nextId := db.nextId + 1 }

structure Finalized where
  datasetId : Nat
  recordCount : Nat
  checksum : Text
  expiresAt : Int
  deriving DecidableEq

def Dataset.summary (d : Dataset) : Finalized := ⟨d.id, d.recordCount, d.checksum, d.expiresAt⟩

def chunksOf (db : DncDb) (tenantId : Int) (importId : Nat) : List ImportChunk :=
  (db.chunks.filter fun c => c.tenantId = tenantId && c.importId = importId).insertionSort
    fun a b => a.index ≤ b.index

def decimal (n : Int) : Text := (toString n).toList

def manifestText (chunks : List ImportChunk) : Text :=
  joinLines (chunks.map fun c => decimal c.index ++ [':'] ++ c.sourceChunkSha256 ++ [':'] ++
    decimal c.inputCount ++ [':'] ++ decimal c.acceptedCount)

def datasetOf (db : DncDb) (job : ImportJob) (now : Int) : Dataset :=
  let hashes := (hashesOf db.staging job.tenantId job.id).insertionSort (· ≤ ·)
  let asOf := job.manifest.sourceAsOf.getD 0
  { id := db.nextId
    tenantId := job.tenantId
    sourceType := job.manifest.sourceType
    state := job.manifest.state
    versionLabel := job.manifest.versionLabel
    checksum := K.sha256 (hashes.flatMap fun h => h ++ ['\n'])
    recordCount := hashes.length
    importedAt := now
    sourceAsOf := asOf
    sourceRetrievedAt := job.manifest.sourceRetrievedAt.getD 0
    expiresAt := asOf + maximumAgeMs job.manifest.maxAgeDays }

/-- The chunks and the staged hashes are those that were signed. -/
def complete (db : DncDb) (job : ImportJob) : Bool :=
  let chunks := chunksOf db job.tenantId job.id
  chunks.map (·.index) = (List.range job.manifest.expectedChunkCount).map Int.ofNat &&
    K.sha256 (manifestText chunks) = job.manifest.sourceManifestSha256 &&
    (hashesOf db.staging job.tenantId job.id).length = job.manifest.expectedRecordCount

def finalizeDncImport (db : DncDb) (tenantId : Int) (importId : Nat) (now : Int) :
    Option (DncDb × Finalized) :=
  match findJob db tenantId importId with
  | none => none
  | some job =>
    match job.status, job.dataset with
    | .finalized, some id =>
      (db.datasets.find? fun d => d.tenantId = tenantId && d.id = id).map fun d => (db, d.summary)
    | .pending, _ =>
      if !datesOk job.manifest now || !complete K db job then none
      else
        let d := datasetOf K db job now
        (activate db d (hashesOf db.staging tenantId importId)).map fun db' =>
          ({ db' with
              jobs := db'.jobs.map fun j =>
                if j.tenantId = tenantId && j.id = importId then
                  { j with status := .finalized, dataset := some d.id }
                else j
              staging := db'.staging.filter fun r =>
                !(r.tenantId = tenantId && r.owner = importId) }, d.summary)
    | _, _ => none

def importDncDataset (db : DncDb) (tenantId : Int) (sourceType : SourceType) (state : Option Text)
    (versionLabel : Text) (phones : List Text) (maxAgeDays : Int) (now : Int) :
    Option (DncDb × Nat) :=
  let valid := (phones.filterMap normalizeUsPhone).dedup
  if valid.isEmpty then none
  else
    let hashes := (valid.map (K.hashPhone tenantId)).insertionSort (· ≤ ·)
    let d : Dataset :=
      { id := db.nextId, tenantId, sourceType, state, versionLabel
        checksum := K.sha256 (joinLines hashes)
        recordCount := hashes.length
        importedAt := now, sourceAsOf := now, sourceRetrievedAt := now
        expiresAt := now + max 1 (min 31 maxAgeDays) * 86400000 }
    (activate db d hashes).map fun db' => (db', db.nextId)

/-- The tables, the chunk that each running call has checked, and the chunks that were staged. -/
structure World where
  db : DncDb := {}
  calls : Nat → Option Upload := fun _ => none
  uploads : List Upload := []

inductive Action where
  | begin (tenantId : Int) (m : Manifest) (signature : Text) (now : Int)
  | check (call : Nat) (u : Upload)
  | stage (call : Nat)
  | finalize (tenantId : Int) (importId : Nat) (now : Int)
  | importDirect (tenantId : Int) (sourceType : SourceType) (state : Option Text)
      (versionLabel : Text) (phones : List Text) (maxAgeDays now : Int)

inductive Outcome where
  | failed
  | begun (importId : Nat) (replayed : Bool)
  | checked
  | staged (replayed : Bool)
  | finalized (out : Finalized)
  | imported (datasetId : Nat)
  deriving DecidableEq

def endCall (w : World) (call : Nat) : World :=
  { w with calls := fun c => if c = call then none else w.calls c }

def step (w : World) : Action → World × Outcome
  | .begin tenantId m signature now =>
    match beginDncImport K w.db tenantId m signature now with
    | none => (w, .failed)
    | some (db, importId, replayed) => ({ w with db }, .begun importId replayed)
  | .check call u =>
    if acceptsChunk w.db u then
      ({ w with calls := fun c => if c = call then some u else w.calls c }, .checked)
    else (w, .failed)
  | .stage call =>
    match w.calls call with
    | none => (w, .failed)
    | some u =>
      match stageChunk K w.db u with
      | none => (endCall w call, .failed)
      | some (_, true) => (endCall w call, .staged true)
      | some (db, false) =>
        ({ endCall w call with db, uploads := w.uploads ++ [u] }, .staged false)
  | .finalize tenantId importId now =>
    match finalizeDncImport K w.db tenantId importId now with
    | none => (w, .failed)
    | some (db, out) => ({ w with db }, .finalized out)
  | .importDirect tenantId sourceType state versionLabel phones maxAgeDays now =>
    match importDncDataset K w.db tenantId sourceType state versionLabel phones maxAgeDays now with
    | none => (w, .failed)
    | some (db, id) => ({ w with db }, .imported id)

def next (w : World) (a : Action) : World := (step K w a).1

end HomefrontFiber.DncImport
