import InboxServer.Api.Postgres.Readiness

/-!
# The report on dead letters on D1

`getDlqConsistency` of `apps/api/src/operations-readiness.ts`, which reads four tables and joins
them in memory. The deployment version of the report is left out.
-/

namespace InboxServer.D1

open Infra
open Postgres (ConsistencyCategory DlqConsistencyReport sampled)

/-! ## Maps -/

/-- `new Map(pairs)` -/
def mapOf {α : Type} (pairs : Entries α) : Entries α := pairs.foldl (fun map e => map.set e.1 e.2) []

/-- `categorized[category].push(jobId)` -/
def push (categorized : ConsistencyCategory → List String) (category : ConsistencyCategory)
    (jobId : String) : ConsistencyCategory → List String :=
  Function.update categorized category (categorized category ++ [jobId])

/-! ## The report -/

/-- `classifyDeadLetter`; an envelope id that is empty counts as none. -/
def classifyDeadLetter (letter : DeadLetterRow) (envelope : Option EnvelopeRow)
    (jobStatus : Option JobStatus) (replayed : Bool) : ConsistencyCategory :=
  match jobStatus with
  | none => .orphanDlq
  | some jobStatus =>
    if replayed then .alreadyReplayed
    else if jobStatus ≠ .dead then .historicalMigration
    else
      match letter.envelopeJobId.filter (· ≠ ""), envelope with
      | some _, some envelope =>
        if envelope.jobId ≠ letter.jobId ∨ envelope.status ≠ .dead ∨
            envelope.payloadDigest ≠ letter.payloadDigest then
          .integrityAnomaly
        else .matched
      | _, _ => .missingEnvelope

/-- The letters of a report, by `ORDER BY job_id`: texts are compared byte by byte. -/
def frozenLetters (freezeAt : Instant) (db : Db) : List DeadLetterRow :=
  (db.deadLetters.rows.filter fun letter => letter.createdAt ≤ freezeAt).insertionSort
    fun a b => a.jobId ≤ b.jobId

def jobsById (db : Db) : Entries JobStatus := mapOf (db.jobs.rows.map fun row => (row.jobId, row.status))

def envelopesById (db : Db) : Entries EnvelopeRow :=
  mapOf (db.envelopes.rows.map fun row => (row.jobId, row))

/-- `SELECT job_id ... WHERE status = 'published' GROUP BY job_id` -/
def replayedIds (db : Db) : List String :=
  ((db.replayOperations.rows.filter fun operation => operation.status = .published).map
    ReplayOperationRow.jobId).dedup

/-- The category of a letter, by the maps. -/
def letterCategory (db : Db) (letter : DeadLetterRow) : ConsistencyCategory :=
  let envelope := (letter.envelopeJobId.filter (· ≠ "")).bind fun envelopeJobId =>
    (envelopesById db).lookup envelopeJobId
  classifyDeadLetter letter envelope ((jobsById db).lookup letter.jobId)
    ((replayedIds db).contains letter.jobId)

/-- The two loops, over the letters and over the jobs. -/
def categorized (freezeAt : Instant) (db : Db) : ConsistencyCategory → List String :=
  let letters := frozenLetters freezeAt db
  let byLetter := letters.foldl
    (fun acc letter => push acc (letterCategory db letter) letter.jobId) fun _ => []
  db.jobs.rows.foldl (fun acc job =>
    if job.status = .dead && !(letters.map DeadLetterRow.jobId).contains job.jobId then
      push acc .deadWithoutDlq job.jobId
    else acc) byLetter

/-- `getDlqConsistency()`, at the instant `freezeAt`. -/
def getDlqConsistency (freezeAt : Instant) (db : Db) : DlqConsistencyReport where
  counts category := (categorized freezeAt db category).length
  freezeAt
  samples category := sampled (categorized freezeAt db category)
  deadJobs := (db.jobs.rows.filter fun job => job.status = .dead).length
  deadLetters := (frozenLetters freezeAt db).length
  unexplainedCount := 0

end InboxServer.D1
