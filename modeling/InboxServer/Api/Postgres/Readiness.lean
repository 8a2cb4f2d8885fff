import InboxServer.Api.Postgres.Replay
import InboxServer.Domain.IsoDate

/-!
# Reports and plans on dead letters on PostgreSQL

`getDlqConsistency` and `createReplayPlan` of `apps/api/src/operations-readiness-postgres.ts`. The
deployment version of the report is left out.
-/

namespace InboxServer

namespace Postgres

open Infra

/-! ## Consistency of dead letters -/

inductive ConsistencyCategory where
  | matched
  | historicalMigration
  | orphanDlq
  | deadWithoutDlq
  | alreadyReplayed
  | missingEnvelope
  | integrityAnomaly
  deriving DecidableEq

/-- A dead letter, joined with its job, the envelope that it names, and its replays. -/
structure DlqRow where
  envelopeJobId : Option String
  jobId : String
  payloadDigest : String
  jobStatus : Option JobStatus
  envelopeRecordJobId : Option String
  envelopePayloadDigest : Option String
  envelopeStatus : Option EnvelopeStatus
  replayed : Bool

/-- `EXISTS (... WHERE r.job_id = d.job_id AND r.status = 'published')` -/
def replayed (jobId : String) (db : Db) : Bool :=
  db.replayOperations.rows.any fun operation =>
    operation.jobId = jobId && operation.status = .published

/-- The envelope that a dead letter names. -/
def namedEnvelope (letter : DeadLetterRow) (db : Db) : Option EnvelopeRow :=
  letter.envelopeJobId.bind fun envelopeJobId =>
    db.envelopes.lookup EnvelopeRow.jobId envelopeJobId

def dlqRow (letter : DeadLetterRow) (db : Db) : DlqRow where
  envelopeJobId := letter.envelopeJobId
  jobId := letter.jobId
  payloadDigest := letter.payloadDigest
  jobStatus := (db.jobs.lookup JobRow.jobId letter.jobId).map JobRow.status
  envelopeRecordJobId := (namedEnvelope letter db).map EnvelopeRow.jobId
  envelopePayloadDigest := (namedEnvelope letter db).map EnvelopeRow.payloadDigest
  envelopeStatus := (namedEnvelope letter db).map EnvelopeRow.status
  replayed := replayed letter.jobId db

def classifyDeadLetter (row : DlqRow) : ConsistencyCategory :=
  match row.jobStatus with
  | none => .orphanDlq
  | some jobStatus =>
    if row.replayed then .alreadyReplayed
    else if jobStatus ≠ .dead then .historicalMigration
    else if row.envelopeJobId = none ∨ row.envelopeRecordJobId = none then .missingEnvelope
    else if row.envelopeRecordJobId ≠ some row.jobId ∨ row.envelopeStatus ≠ some .dead ∨
        row.envelopePayloadDigest ≠ some row.payloadDigest then
      .integrityAnomaly
    else .matched

/-- `sort().splice(20)` -/
def sampled (ids : List String) : List String :=
  (ids.insertionSort fun a b => utf16Units a ≤ utf16Units b).take 20

structure DlqConsistencyReport where
  counts : ConsistencyCategory → Nat
  freezeAt : Instant
  samples : ConsistencyCategory → List String
  deadJobs : Nat
  deadLetters : Nat
  unexplainedCount : Nat

/-- The letters of a report, with their joins. -/
def frozenLetters (freezeAt : Instant) (db : Db) : List DlqRow :=
  (db.deadLetters.rows.filter fun letter => letter.createdAt ≤ freezeAt).map fun letter =>
    dlqRow letter db

/-- The dead jobs without a letter in the report. -/
def deadWithoutDlq (freezeAt : Instant) (db : Db) : List String :=
  (db.jobs.rows.filter fun job => job.status = .dead &&
    !db.deadLetters.rows.any fun letter =>
      letter.jobId = job.jobId && letter.createdAt ≤ freezeAt).map JobRow.jobId

/-- The job ids of a category. -/
def categoryIds (freezeAt : Instant) (db : Db) (category : ConsistencyCategory) : List String :=
  if category = .deadWithoutDlq then deadWithoutDlq freezeAt db
  else ((frozenLetters freezeAt db).filter fun row => classifyDeadLetter row = category).map
    DlqRow.jobId

/-- `getDlqConsistency()`, at the instant `freezeAt`. -/
def getDlqConsistency (freezeAt : Instant) (db : Db) : DlqConsistencyReport where
  counts category := (categoryIds freezeAt db category).length
  freezeAt
  samples category := sampled (categoryIds freezeAt db category)
  deadJobs := (deadWithoutDlq freezeAt db).length +
    (frozenLetters freezeAt db).countP fun row => row.jobStatus = some .dead
  deadLetters := (frozenLetters freezeAt db).length
  unexplainedCount := 0

/-! ## Plans of replays -/

end Postgres

def JobStatus.name : JobStatus → String
  | .processing => "processing"
  | .deferred => "deferred"
  | .done => "done"
  | .failed => "failed"
  | .dead => "dead"
  | .uncertain => "uncertain"

def EnvelopeStatus.name : EnvelopeStatus → String
  | .active => "active"
  | .dead => "dead"
  | .uncertain => "uncertain"

def ReplayReplyStatus.name : ReplayReplyStatus → String
  | .published => "published"
  | .rejected => "rejected"
  | .validated => "validated"

namespace Postgres

/-- What a plan records of a job, its dead letter, envelope, effects and replays. -/
structure ReplayStateRow where
  jobStatus : JobStatus
  jobUpdatedAt : Instant
  deadLetterCreatedAt : Option Instant
  envelopeJobId : Option String
  envelopeStatus : Option EnvelopeStatus
  envelopeUpdatedAt : Option Instant
  effectUpdatedAt : Option Instant
  replayUpdatedAt : Option Instant
  deriving DecidableEq

/-- `SELECT MAX(updated_at) FROM inbox_server.worker_effects WHERE job_id = $1` -/
def latestEffect (jobId : String) (db : Db) : Option Instant :=
  ((db.effects.rows.filter fun effect => effect.jobId = jobId).map EffectRow.updatedAt).max?

/-- The same of `worker_replay_operations`. -/
def latestReplay (jobId : String) (db : Db) : Option Instant :=
  ((db.replayOperations.rows.filter fun operation => operation.jobId = jobId).map
    ReplayOperationRow.updatedAt).max?

/-- The state of a job that a plan is made of. -/
def replayState (jobId : String) (db : Db) : Option ReplayStateRow :=
  (db.jobs.lookup JobRow.jobId jobId).map fun job =>
    let letter := db.deadLetters.lookup DeadLetterRow.jobId jobId
    let envelope := letter.bind fun letter => namedEnvelope letter db
    { jobStatus := job.status
      jobUpdatedAt := job.updatedAt
      deadLetterCreatedAt := letter.map DeadLetterRow.createdAt
      envelopeJobId := letter.bind DeadLetterRow.envelopeJobId
      envelopeStatus := envelope.map EnvelopeRow.status
      envelopeUpdatedAt := envelope.map EnvelopeRow.updatedAt
      effectUpdatedAt := latestEffect jobId db
      replayUpdatedAt := latestReplay jobId db }

/-- A column that may be `NULL`. -/
def jsonNullable {α : Type} (text : α → String) (value : Option α) : Json :=
  value.elim .null fun a => .str (text a)

def ReplayStateRow.toJson (row : ReplayStateRow) : Json :=
  .obj [("job_status", .str row.jobStatus.name),
    ("job_updated_at", .str (toISOString row.jobUpdatedAt)),
    ("dead_letter_created_at", jsonNullable toISOString row.deadLetterCreatedAt),
    ("envelope_job_id", jsonNullable id row.envelopeJobId),
    ("envelope_status", jsonNullable EnvelopeStatus.name row.envelopeStatus),
    ("envelope_updated_at", jsonNullable toISOString row.envelopeUpdatedAt),
    ("effect_updated_at", jsonNullable toISOString row.effectUpdatedAt),
    ("replay_updated_at", jsonNullable toISOString row.replayUpdatedAt)]

/-- The plan's inputs, as they are hashed. -/
def canonicalPlan (idempotencyKey jobId : String) (state : Option ReplayStateRow)
    (validation : ReplayReply) : Json :=
  .obj [("idempotencyKey", .str idempotencyKey), ("jobId", .str jobId),
    ("state", state.elim .null ReplayStateRow.toJson),
    ("validation", .obj [("published", .bool validation.published),
      ("reason", .str validation.reason), ("replayable", .bool validation.replayable),
      ("status", .str validation.status.name)])]

def planHash (env : Env) (idempotencyKey jobId : String) (state : Option ReplayStateRow)
    (validation : ReplayReply) : String :=
  env.sha256Hex (canonicalPlan idempotencyKey jobId state validation).stringify

structure ReplayPlan where
  validation : ReplayReply
  idempotencyKey : String
  jobId : String
  planHash : String

/-- `createReplayPlan({ idempotencyKey, jobId, validation })` -/
def createReplayPlan (env : Env) (idempotencyKey jobId : String) (validation : ReplayReply)
    (db : Db) : ReplayPlan where
  validation
  idempotencyKey
  jobId
  planHash := planHash env idempotencyKey jobId (replayState jobId db) validation

end Postgres

end InboxServer
