import InboxServer.Properties.Effects
import InboxServer.Properties.Jobs

/-!
# What one replay does

A replay either changes nothing or publishes: `replayDeadLetter_outcome` says under which conditions
and with which writes.
-/

namespace InboxServer

open Infra

/-- What a publishing replay found and wrote. -/
structure Published (env : Env) (now : Instant) (jobId : String) (input : ReplayInput)
    (db db' : Db) (job : QueueJob) (envelopeJobId : String) : Prop where
  wet : input.dryRun = false
  notTerminal : Postgres.terminalReason env jobId db = none
  fresh : db.replayOperations.lookup ReplayOperationRow.idempotencyKey input.idempotencyKey = none
  opened : Postgres.openEnvelope env jobId db = .ok (job, envelopeJobId)
  operations : db.replayOperations.insert?
    (Postgres.replayOperation env now jobId input.idempotencyKey) = some db'.replayOperations
  inbox : db.inbox.insertUnless?
    (fun message => message.messageId = Postgres.replayMessageId env jobId input.idempotencyKey)
    (InboxRow.staged (Postgres.replayMessageId env jobId input.idempotencyKey) job.toJson now now) =
      some db'.inbox
  jobs : db'.jobs =
    db.jobs.update (fun r => r.jobId = jobId && r.status = .dead) (JobRow.reopen now)
  envelopes : db'.envelopes =
    db.envelopes.update (fun e => e.jobId = envelopeJobId && e.status = .dead)
      (EnvelopeRow.setStatus .active now)
  deadLetters : db'.deadLetters = db.deadLetters
  effects : db'.effects = db.effects

/-- The outcomes of a replay: the database afterwards, and the reply. -/
inductive ReplayOutcome (env : Env) (now : Instant) (jobId : String) (input : ReplayInput)
    (db : Db) : Db × Except ErrorText ReplayReply → Prop where
  /-- Nothing changed; only a recorded operation makes the reply say that it was published. -/
  | unchanged {reply} (unpublished : db.replayOperations.lookup ReplayOperationRow.idempotencyKey
      input.idempotencyKey = none → ∀ r, reply = .ok r → r.published = false) :
      ReplayOutcome env now jobId input db (db, reply)
  | published {db' job envelopeJobId}
      (published : Published env now jobId input db db' job envelopeJobId) :
      ReplayOutcome env now jobId input db (db', .ok Postgres.publishedReply)

theorem replayDeadLetter_outcome (env : Env) (now : Instant) (jobId : String)
    (input : ReplayInput) (db : Db) :
    ReplayOutcome env now jobId input db
      (transact db (Postgres.replayDeadLetter env now jobId input db)) := by
  unfold Postgres.replayDeadLetter
  cases hterminal : Postgres.terminalReason env jobId db with
  | some reason => exact .unchanged (by simp [Postgres.rejected])
  | none =>
    dsimp only
    cases hop : db.replayOperations.lookup ReplayOperationRow.idempotencyKey
        input.idempotencyKey with
    | some operation =>
      dsimp only
      split_ifs <;> exact .unchanged (by simp [hop])
    | none =>
      dsimp only
      cases hopen : Postgres.openEnvelope env jobId db with
      | error reason => exact .unchanged (by simp [Postgres.rejected])
      | ok opened =>
        obtain ⟨job, envelopeJobId⟩ := opened
        dsimp only
        by_cases hdry : input.dryRun = true
        · rw [if_pos hdry]
          exact .unchanged (by simp [Postgres.validatedReply])
        · rw [if_neg hdry]
          cases hins : db.replayOperations.insert?
              (Postgres.replayOperation env now jobId input.idempotencyKey) with
          | none => exact .unchanged (by simp)
          | some operations =>
            dsimp only
            unfold Postgres.publishReplay
            dsimp only
            cases hinbox : db.inbox.insertUnless?
                (fun message =>
                  message.messageId = Postgres.replayMessageId env jobId input.idempotencyKey)
                (InboxRow.staged (Postgres.replayMessageId env jobId input.idempotencyKey)
                  job.toJson now now) with
            | none => exact .unchanged (by simp)
            | some inbox =>
              exact .published
                ⟨by simpa using hdry, hterminal, hop, hopen, hins, hinbox, rfl, rfl, rfl, rfl⟩

end InboxServer
