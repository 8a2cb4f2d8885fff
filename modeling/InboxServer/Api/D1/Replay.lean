import InboxServer.Infra.Prog
import InboxServer.Api.Postgres.Replay

/-!
# Replaying dead letters on D1

`replayDeadLetter` of `apps/api/src/control-plane.ts`, step by step: reads one after the other, and
one batch of writes. The updates of the batch look at the status of the job and of the envelope, its
inserts do not. The log is left out.
-/

namespace InboxServer.D1

open Infra
open Postgres (rejected validatedReply publishedReply recordedReply terminalJobReason
  terminalEffectReason replayMessageId replayOperation)

/-! ## Statements -/

/-- A step of a replay. -/
inductive ReplayStep where
  | now
  | selectJob (jobId : String)
  | selectTerminalEffect (jobId : String)
  | selectOperation (idempotencyKey : String)
  | selectLetter (jobId : String)
  | selectEnvelope (jobId : String)
  | publish (operation : ReplayOperationRow) (message : InboxRow)

/-- The answer to a step; that of the batch is whether it succeeded. -/
abbrev ReplayStep.Answer : ReplayStep → Type
  | now => Instant
  | selectJob _ => Option JobRow
  | selectTerminalEffect _ => Option EffectRow
  | selectOperation _ => Option ReplayOperationRow
  | selectLetter _ => Option DeadLetterRow
  | selectEnvelope _ => Option EnvelopeRow
  | publish .. => Bool

/--
`status IN ('done', 'uncertain') LIMIT 1`, found through `worker_effects_status_idx`: an effect that
is done comes first. Of the row only its status is read.
-/
def terminalEffect (jobId : String) (effects : Table EffectRow) : Option EffectRow :=
  (effects.rows.find? fun effect => effect.jobId = jobId && effect.status = .done).or
    (effects.rows.find? fun effect => effect.jobId = jobId && effect.status = .uncertain)

/-- The batch of a replay: only the insert of the operation can fail. -/
def publishBatch (operation : ReplayOperationRow) (message : InboxRow) (db : Db) : Option Db :=
  (db.replayOperations.insert? operation).map fun replayOperations =>
    { db with
      replayOperations
      inbox := (db.inbox.insert? message).getD db.inbox
      jobs := db.jobs.update (fun r => r.jobId = operation.jobId && r.status = .dead)
        (JobRow.reopen operation.updatedAt)
      envelopes := db.envelopes.update
        (fun e => e.jobId = operation.jobId && e.status = .dead)
        (EnvelopeRow.setStatus .active operation.updatedAt) }

/-- A step, taken when the clock reads `now`. -/
def serveReplay (now : Instant) (db : Db) : (s : ReplayStep) → Db × s.Answer
  | .now => (db, now)
  | .selectJob jobId => (db, db.jobs.lookup JobRow.jobId jobId)
  | .selectTerminalEffect jobId => (db, terminalEffect jobId db.effects)
  | .selectOperation idempotencyKey =>
    (db, db.replayOperations.lookup ReplayOperationRow.idempotencyKey idempotencyKey)
  | .selectLetter jobId => (db, db.deadLetters.lookup DeadLetterRow.jobId jobId)
  | .selectEnvelope jobId => (db, db.envelopes.lookup EnvelopeRow.jobId jobId)
  | .publish operation message =>
    match publishBatch operation message db with
    | some db => (db, true)
    | none => (db, false)

/-! ## The call -/

abbrev ReplayCall := Prog ReplayStep ReplayStep.Answer (Except ErrorText ReplayReply)

/-- The job in the envelope, or the reason why it is not replayed. -/
def envelopeJob (env : Env) (jobId : String) : Option EnvelopeRow → Except String QueueJob
  | none => .error "envelope_unavailable"
  | some envelope =>
    if envelope.status ≠ .dead then .error "envelope_unavailable"
    else
      match (env.decryptJson envelope.ciphertext).bind (parseQueueJob env.zod) with
      | none => .error "envelope_invalid"
      | some job =>
        if job.jobId ≠ jobId ∨ job.schemaVersion ≠ envelope.schemaVersion ∨
            env.digestJob job ≠ envelope.payloadDigest then
          .error "envelope_mismatch"
        else .ok job

/-- What follows a batch that has failed: the operation may be that of a concurrent call. -/
def settleConcurrent (jobId : String) (concurrent : Option ReplayOperationRow) : ReplayCall :=
  match concurrent with
  | none => .ret (.error duplicateKey)
  | some concurrent =>
    if concurrent.jobId ≠ jobId ∨ concurrent.status ≠ .published then .ret (.error duplicateKey)
    else .ret (.ok publishedReply)

/-- The batch, and what follows it. -/
def runBatch (env : Env) (jobId idempotencyKey : String) (job : QueueJob)
    (timestamp staged : Instant) : ReplayCall :=
  .call (.publish (replayOperation env timestamp jobId idempotencyKey)
      (InboxRow.staged (replayMessageId env jobId idempotencyKey) job.toJson staged timestamp))
    fun done =>
      if done then .ret (.ok publishedReply)
      else .call (.selectOperation idempotencyKey) (settleConcurrent jobId)

/-- The writes of a replay. -/
def publishReplay (env : Env) (jobId idempotencyKey : String) (job : QueueJob) : ReplayCall :=
  .call .now fun timestamp => .call .now fun staged =>
    runBatch env jobId idempotencyKey job timestamp staged

def decideEnvelope (env : Env) (jobId : String) (input : ReplayInput)
    (envelope : Option EnvelopeRow) : ReplayCall :=
  match envelopeJob env jobId envelope with
  | .error reason => .ret (.ok (rejected reason))
  | .ok job =>
    if input.dryRun then .ret (.ok validatedReply)
    else publishReplay env jobId input.idempotencyKey job

def decideLetter (env : Env) (jobId : String) (input : ReplayInput)
    (letter : Option DeadLetterRow) : ReplayCall :=
  match letter.bind DeadLetterRow.envelopeJobId with
  | none | some "" => .ret (.ok (rejected "historical_unrecoverable"))
  | some envelopeJobId => .call (.selectEnvelope envelopeJobId) (decideEnvelope env jobId input)

def decideOperation (env : Env) (jobId : String) (input : ReplayInput)
    (operation : Option ReplayOperationRow) : ReplayCall :=
  match operation with
  | some operation =>
    if operation.jobId ≠ jobId then .ret (.ok (rejected "idempotency_conflict"))
    else .ret (.ok (recordedReply operation))
  | none => .call (.selectLetter jobId) (decideLetter env jobId input)

def decideEffect (env : Env) (jobId : String) (input : ReplayInput) (effect : Option EffectRow) :
    ReplayCall :=
  match effect.bind fun effect => terminalEffectReason effect.status with
  | some reason => .ret (.ok (rejected reason))
  | none => .call (.selectOperation input.idempotencyKey) (decideOperation env jobId input)

def decideJob (env : Env) (jobId : String) (input : ReplayInput) (job : Option JobRow) :
    ReplayCall :=
  match job.bind fun job => terminalJobReason job.status with
  | some reason => .ret (.ok (rejected reason))
  | none => .call (.selectTerminalEffect jobId) (decideEffect env jobId input)

/-- `replayDeadLetter(jobId, input)` -/
def replayDeadLetter (env : Env) (jobId : String) (input : ReplayInput) : ReplayCall :=
  .call (.selectJob jobId) (decideJob env jobId input)

end InboxServer.D1
