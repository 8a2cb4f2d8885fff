import InboxServer.Api.D1.Statements

/-!
# Claiming and finishing on D1

`claimEffect`, `claimJob`, `finishEffect` and `finishJob` of `apps/api/src/control-plane.ts`, step
by step: unlike their PostgreSQL counterparts they hold no lock between a read and the write that
rests on it.
-/

namespace InboxServer.D1

open Infra

/-! ## Claims -/

/-- The write of a claim of an effect that has a row. -/
def takeEffect (effectKey : String) (existing : EffectRow) : Call ClaimEffectReply :=
  .call .now fun timestamp =>
    Call.commit [.reclaimEffect (existing.attempts + 1) timestamp effectKey]
      (.claimed (existing.attempts + 1))

/-- `claimEffect(input)` -/
def claimEffect (input : ClaimEffectInput) : Call ClaimEffectReply :=
  .call (.selectEffect input.effectKey) fun existing =>
    match existing with
    | none =>
      .call .now fun timestamp =>
        Call.commit [.insertEffect (EffectRow.claimed input timestamp)] (.claimed 1)
    | some existing =>
      match existing.status with
      | .done => Call.done .done
      | .uncertain => Call.done .uncertain
      | .processing =>
        .call .now fun current =>
          if isStale existing.updatedAt current then takeEffect input.effectKey existing
          else Call.done (.busy (existing.updatedAt + 10 * 60000))
      | .failed => takeEffect input.effectKey existing

/-- The write of a claim of a job that has a row. -/
def takeJob (job : QueueJob) (existing : JobRow) : Call ClaimJobReply :=
  .call .now fun timestamp =>
    Call.commit [.reclaimJob (existing.attempts + 1) job.jobId timestamp job.dedupeKey]
      (.claimed (existing.attempts + 1))

/-- The write of the first claim, with the envelope of an article in one batch. -/
def insertJob (env : Env) (iv : Bytes) (job : QueueJob) : Call ClaimJobReply :=
  .call .now fun timestamp =>
    if job.itemKind = some .article then
      match env.encryptJson iv job.toJson with
      | none => Call.throw "STATE_ENCRYPTION_KEY must be a base64-encoded 32-byte key"
      | some ciphertext =>
        Call.commit
          [.insertJob (JobRow.claimed job timestamp),
            .insertEnvelope (EnvelopeRow.active env job ciphertext timestamp)] (.claimed 1)
    else Call.commit [.insertJob (JobRow.claimed job timestamp)] (.claimed 1)

/-- `claimJob(input)` -/
def claimJob (env : Env) (iv : Bytes) (input : Json) : Call ClaimJobReply :=
  match parseQueueJob env.zod input with
  | none => Call.throw (env.zod.issueText input)
  | some job =>
    .call (.selectJob job.dedupeKey) fun existing =>
      match existing with
      | none => insertJob env iv job
      | some existing =>
        match existing.status with
        | .done | .dead | .uncertain => Call.done .duplicate
        | .deferred =>
          match existing.deferredUntil with
          | none => takeJob job existing
          | some retryAt =>
            .call .now fun current =>
              if existing.deferredAfter current then
                Call.done (.deferred
                  ((existing.deferredReason.map DeferReason.name).getD "deferred") retryAt)
              else takeJob job existing
        | .processing =>
          .call .now fun current =>
            if isStale existing.updatedAt current then takeJob job existing
            else Call.done .busy
        | .failed => takeJob job existing

/-! ## Results -/

/-- `finishEffect(effectKey, input)` -/
def finishEffect (effectKey : String) (input : EffectResult) : Call Unit :=
  .call .now fun updatedAt =>
    if input.outcome = .failed then
      Call.commit [.finishEffect input updatedAt updatedAt effectKey] ()
    else .call .now fun finishedAt =>
      Call.commit [.finishEffect input updatedAt finishedAt effectKey] ()

/-- `prepareSyncJobCompletion`: the statement that reports to the sync run, if there is one. -/
def prepareSyncJobCompletion (row : JobRow) (report : SyncJobUpdate)
    (k : List Write → Call Settlement) : Call Settlement :=
  match collectRun row with
  | none => k []
  | some (source, runId) =>
    .call (.selectSyncJob runId) fun syncJob =>
      match syncJob with
      | none => k []
      | some syncJob =>
        k [.updateSyncJob (advanceSyncJob syncJob.stats { report with source }) runId]

/-- The last failed finish of a job: the row dies, with a dead letter. -/
def buryJob (timestamp : Instant) (jobId : String) (row : JobRow) (failureAttempts : Nat)
    (errorClass : JobErrorClass) (errorMessage : String) (payloadDigest : Option String) :
    Call Settlement :=
  .call (.selectEnvelope jobId) fun envelope =>
    match deadLetterDigest envelope payloadDigest with
    | none => Call.throw "payload digest is required for dead letter"
    | some digest =>
      let letter :=
        deadLetterOf jobId row failureAttempts errorClass errorMessage digest envelope timestamp
      prepareSyncJobCompletion row (deadReport errorMessage timestamp) fun syncUpdate =>
        Call.commit
          (.setJobDead failureAttempts errorClass errorMessage timestamp jobId ::
            .upsertDeadLetter letter :: .setEnvelopeStatus .dead timestamp jobId :: syncUpdate) .ack

/-- `finishJob(jobId, input)` -/
def finishJob (jobId : String) (input : JobResult) : Call Settlement :=
  .call (.selectJobById jobId) fun row =>
    match row with
    | none => Call.throw "job claim not found"
    | some row =>
      if row.status.isTerminal then Call.done .ack
      else .call .now fun timestamp =>
        match input with
        | .deferred reason retryAt =>
          .call (.batch [.deferJob retryAt reason timestamp jobId]) fun updated =>
            if updated then
              .call .now fun current =>
                Call.done (.retry (calculateRetryDelaySeconds retryAt current))
            else Call.throw duplicateKey
        | .uncertain reason =>
          Call.commit
            [.setJobUncertain (slice500 reason) timestamp jobId,
              .setEnvelopeStatus .uncertain timestamp jobId] .ack
        | .done summary =>
          prepareSyncJobCompletion row (doneReport summary timestamp) fun syncUpdate =>
            Call.commit
              (.setJobDone (summary.getD []) timestamp jobId :: .deleteEnvelope jobId ::
                syncUpdate) .ack
        | .failed errorClass errorMessage payloadDigest =>
          let errorClass := errorClass.getD .permanent
          let errorMessage := errorMessageOf errorMessage
          let transition := decideJobTransition
            { failureAttempts := row.failureAttempts, status := row.status } (.failed errorClass)
          if transition.status = .failed then
            Call.commit
              [.setJobFailed transition.failureAttempts errorClass errorMessage timestamp jobId]
              (.retry (some (failureDelaySeconds transition.failureAttempts)))
          else
            buryJob timestamp jobId row transition.failureAttempts errorClass errorMessage
              payloadDigest

end InboxServer.D1
