import InboxServer.Api.Env

/-!
# Replaying dead letters on PostgreSQL

`apps/api/src/control-plane-postgres-replay.ts`. The checks come in the order of the source, and a
non-dry run ends with four writes in one transaction: the operation, the message, the job and its
envelope. The log is left out.
-/

namespace InboxServer.Postgres

open Infra

def rejected (reason : String) : ReplayReply where
  published := false
  reason
  replayable := false
  status := .rejected

def validatedReply : ReplayReply where
  published := false
  reason := "replayable"
  replayable := true
  status := .validated

def publishedReply : ReplayReply where
  published := true
  reason := "published"
  replayable := true
  status := .published

/-- What a recorded operation answers to its key. -/
def recordedReply (operation : ReplayOperationRow) : ReplayReply where
  published := operation.status = .published
  reason := operation.reason
  replayable := operation.status = .published
  status :=
    match operation.status with
    | .published => .published
    | .rejected => .rejected

/-- `done_terminal` and `uncertain_terminal`, for a job's status. -/
def terminalJobReason : JobStatus → Option String
  | .done => some "done_terminal"
  | .uncertain => some "uncertain_terminal"
  | .processing | .deferred | .failed | .dead => none

/-- The same for the status of an effect. -/
def terminalEffectReason : EffectStatus → Option String
  | .done => some "done_terminal"
  | .uncertain => some "uncertain_terminal"
  | .processing | .failed => none

/-- `status IN ('done', 'uncertain') LIMIT 1`: any such effect of the job. -/
def terminalEffect (env : Env) (jobId : String) (effects : Table EffectRow) : Option EffectRow :=
  env.limitOne.pick <|
    effects.rows.filter fun effect => effect.jobId = jobId && effect.status.isTerminal

theorem terminalEffect_mem {env : Env} {jobId : String} {effects : Table EffectRow}
    {effect : EffectRow} (h : terminalEffect env jobId effects = some effect) :
    effect ∈ effects ∧ effect.jobId = jobId ∧ effect.status.isTerminal = true := by
  have hmem := env.limitOne.mem _ effect h
  simpa [Table.mem_rows] using hmem

theorem terminalEffect_eq_none_iff {env : Env} {jobId : String} {effects : Table EffectRow} :
    terminalEffect env jobId effects = none ↔
      ∀ effect ∈ effects, effect.jobId = jobId → effect.status.isTerminal = false := by
  unfold terminalEffect
  rw [LimitOne.pick_eq_none_iff, List.filter_eq_nil_iff]
  simp [Table.mem_rows]

/-- The reason why a job that is done or uncertain, or has such an effect, is not replayed. -/
def terminalReason (env : Env) (jobId : String) (db : Db) : Option String :=
  match (db.jobs.lookup JobRow.jobId jobId).bind fun job => terminalJobReason job.status with
  | some reason => some reason
  | none =>
    (terminalEffect env jobId db.effects).bind fun effect => terminalEffectReason effect.status

/-- The envelope that the dead letter names: the job in it and the envelope's id, or the reason. -/
def openEnvelope (env : Env) (jobId : String) (db : Db) : Except String (QueueJob × String) :=
  match (db.deadLetters.lookup DeadLetterRow.jobId jobId).bind DeadLetterRow.envelopeJobId with
  | none | some "" => .error "historical_unrecoverable"
  | some envelopeJobId =>
    match db.envelopes.lookup EnvelopeRow.jobId envelopeJobId with
    | none => .error "envelope_unavailable"
    | some envelope =>
      if envelope.status ≠ .dead then .error "envelope_unavailable"
      else
        match (env.decryptJson envelope.ciphertext).bind (parseQueueJob env.zod) with
        | none => .error "envelope_invalid"
        | some job =>
          if job.jobId ≠ jobId ∨ job.schemaVersion ≠ envelope.schemaVersion ∨
              env.digestJob job ≠ envelope.payloadDigest then
            .error "envelope_mismatch"
          else .ok (job, envelopeJobId)

/-- The id of the message that a replay stages. -/
def replayMessageId (env : Env) (jobId idempotencyKey : String) : String :=
  "replay-" ++ env.sha256Hex (joinNul jobId idempotencyKey)

def replayOperation (env : Env) (now : Instant) (jobId idempotencyKey : String) :
    ReplayOperationRow where
  idempotencyKey
  jobId
  messageId := replayMessageId env jobId idempotencyKey
  status := .published
  reason := "published"
  createdAt := now
  updatedAt := now

/-- The writes of a replay, once its operation is recorded. -/
def publishReplay (env : Env) (now : Instant) (jobId idempotencyKey : String) (job : QueueJob)
    (envelopeJobId : String) (db : Db) : Except ErrorText (ReplayReply × Db) :=
  let messageId := replayMessageId env jobId idempotencyKey
  match db.inbox.insertUnless? (fun message => message.messageId = messageId)
      (InboxRow.staged messageId job.toJson now now) with
  | none => .error duplicateKey
  | some inbox =>
    .ok (publishedReply,
      { db with
        inbox
        jobs := db.jobs.update (fun r => r.jobId = jobId && r.status = .dead) (JobRow.reopen now)
        envelopes := db.envelopes.update
          (fun e => e.jobId = envelopeJobId && e.status = .dead)
          (EnvelopeRow.setStatus .active now) })

/-- `replayDeadLetter(jobId, input)` -/
def replayDeadLetter (env : Env) (now : Instant) (jobId : String) (input : ReplayInput) (db : Db) :
    Except ErrorText (ReplayReply × Db) :=
  match terminalReason env jobId db with
  | some reason => .ok (rejected reason, db)
  | none =>
    match db.replayOperations.lookup ReplayOperationRow.idempotencyKey input.idempotencyKey with
    | some operation =>
      if operation.jobId ≠ jobId then .ok (rejected "idempotency_conflict", db)
      else .ok (recordedReply operation, db)
    | none =>
      match openEnvelope env jobId db with
      | .error reason => .ok (rejected reason, db)
      | .ok (job, envelopeJobId) =>
        if input.dryRun then
          .ok (validatedReply, db)
        else
          -- No call comes between the `SELECT` of the operation and its `INSERT`, so the branch
          -- that reads a concurrent operation is not met.
          match db.replayOperations.insert?
              (replayOperation env now jobId input.idempotencyKey) with
          | none => .error duplicateKey
          | some replayOperations =>
            publishReplay env now jobId input.idempotencyKey job envelopeJobId
              { db with replayOperations }

end InboxServer.Postgres
