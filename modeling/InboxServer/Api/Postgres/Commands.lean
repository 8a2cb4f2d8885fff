import InboxServer.Api.Env
import InboxServer.Api.SyncJob

/-!
# Claiming and finishing jobs on PostgreSQL

`apps/api/src/control-plane-postgres.ts`. A call is one transaction: an error, like a failing
statement, leaves the database as it is, so a call that fails has no database to return. All
readings of the clock within a call are one instant, `now`.
-/

namespace InboxServer.Postgres

open Infra

/-- `claimJob` once its `INSERT` has met a row with the key or the job id. -/
def claimExisting (now : Instant) (job : QueueJob) (db : Db) :
    Except ErrorText (ClaimJobReply × Db) :=
  match db.jobs.lookup JobRow.dedupeKey job.dedupeKey with
  | none => .error "job claim not found after dedupe conflict"
  | some existing =>
    if existing.status.isTerminal then .ok (.duplicate, db)
    else if existing.status = .deferred ∧ existing.deferredAfter now then
      .ok (.deferred ((existing.deferredReason.map DeferReason.name).getD "deferred")
        existing.deferredUntil.join, db)
    else if existing.status = .processing ∧ ¬ isStale existing.updatedAt now then .ok (.busy, db)
    else
      match db.jobs.update? (fun row => row.dedupeKey = job.dedupeKey)
          (fun row => row.reclaim (row.attempts + 1) job.jobId now) with
      | none => .error duplicateKey
      | some jobs =>
        match safeInteger (existing.attempts + 1) with
        | .error text => .error text
        | .ok attempts => .ok (.claimed attempts, { db with jobs })

/-- `claimJob(input)`; `iv` is the random IV of the encryption. -/
def claimJob (env : Env) (now : Instant) (iv : Bytes) (input : Json) (db : Db) :
    Except ErrorText (ClaimJobReply × Db) :=
  match parseQueueJob env.zod input with
  | none => .error (env.zod.issueText input)
  | some job =>
    match db.jobs.insert? (JobRow.claimed job now) with
    | none => claimExisting now job db
    | some jobs =>
      if job.itemKind = some .article then
        match env.encryptJson iv job.toJson with
        | none => .error "STATE_ENCRYPTION_KEY must be a base64-encoded 32-byte key"
        | some ciphertext =>
          match db.envelopes.insertUnless? (fun envelope => envelope.jobId = job.jobId)
              (EnvelopeRow.active env job ciphertext now) with
          | none => .error duplicateKey
          | some envelopes => .ok (.claimed 1, { db with jobs, envelopes })
      else .ok (.claimed 1, { db with jobs })

/-! ## `finishJob` -/

/-- The last failed finish of a job: the row dies, with a dead letter. -/
def buryJob (now : Instant) (jobId : String) (row : JobRow) (failureAttempts : Nat)
    (errorClass : JobErrorClass) (errorMessage : String) (payloadDigest : Option String) (db : Db) :
    Except ErrorText (Settlement × Db) :=
  let envelope := db.envelopes.lookup EnvelopeRow.jobId jobId
  match deadLetterDigest envelope payloadDigest with
  | none => .error "payload digest is required for dead letter"
  | some digest =>
    let letter := deadLetterOf jobId row failureAttempts errorClass errorMessage digest envelope now
    .ok (.ack,
      { db with
        jobs := db.jobs.update (fun r => r.jobId = jobId)
          (JobRow.setDead failureAttempts errorClass errorMessage now)
        deadLetters := db.deadLetters.upsert letter letter.rewrite
        envelopes := db.envelopes.update (fun e => e.jobId = jobId)
          (EnvelopeRow.setStatus .dead now)
        syncJobs := updateSyncJobCompletion row (deadReport errorMessage now) db.syncJobs })

/-- A failed finish: another try, or the end. -/
def failJob (now : Instant) (jobId : String) (row : JobRow) (errorClass : JobErrorClass)
    (errorMessage : String) (payloadDigest : Option String) (db : Db) :
    Except ErrorText (Settlement × Db) :=
  match safeInteger row.failureAttempts with
  | .error text => .error text
  | .ok failureAttempts =>
    let transition := decideJobTransition { failureAttempts, status := row.status }
      (.failed errorClass)
    if transition.status = .failed then
      .ok (.retry (some (failureDelaySeconds transition.failureAttempts)),
        { db with
          jobs := db.jobs.update (fun r => r.jobId = jobId)
            (JobRow.setFailed transition.failureAttempts errorClass errorMessage now) })
    else buryJob now jobId row transition.failureAttempts errorClass errorMessage payloadDigest db

/-- `finishJob(jobId, input)` -/
def finishJob (now : Instant) (jobId : String) (input : JobResult) (db : Db) :
    Except ErrorText (Settlement × Db) :=
  match db.jobs.lookup JobRow.jobId jobId with
  | none => .error "job claim not found"
  | some row =>
    if row.status.isTerminal then .ok (.ack, db)
    else match input with
      | .deferred reason retryAt =>
        .ok (.retry (calculateRetryDelaySeconds retryAt now),
          { db with
            jobs := db.jobs.update (fun r => r.jobId = jobId) (JobRow.defer retryAt reason now) })
      | .uncertain reason =>
        .ok (.ack,
          { db with
            jobs := db.jobs.update (fun r => r.jobId = jobId)
              (JobRow.setUncertain (slice500 reason) now)
            envelopes := db.envelopes.update (fun e => e.jobId = jobId)
              (EnvelopeRow.setStatus .uncertain now) })
      | .done summary =>
        .ok (.ack,
          { db with
            jobs := db.jobs.update (fun r => r.jobId = jobId)
              (JobRow.setDone (summary.getD []) now)
            envelopes := db.envelopes.delete fun e => e.jobId = jobId
            syncJobs := updateSyncJobCompletion row (doneReport summary now) db.syncJobs })
      | .failed errorClass errorMessage payloadDigest =>
        failJob now jobId row (errorClass.getD .permanent) (errorMessageOf errorMessage)
          payloadDigest db

end InboxServer.Postgres
