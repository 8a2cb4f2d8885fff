import InboxServer.Api.Postgres.Commands
import InboxServer.Api.Postgres.Replay
import InboxServer.Worker.QueueProcessor

/-!
# What the calls of the workers do on PostgreSQL

`rejectInvalidJob` of `control-plane-postgres-data.ts`, and each call of a worker as one transaction.
A call may fail for its caller, with its transaction or without.
-/

namespace InboxServer.Postgres

open Infra

/-- The letter of a message that is no job. -/
def invalidLetter (input : InvalidJob) (now : Instant) : DeadLetterRow where
  jobId := input.messageId
  dedupeKey := "invalid:" ++ input.messageId
  kind := .invalid
  itemKind := none
  attempts := input.attempts
  errorClass := .permanent
  errorMessage := slice500 input.reason
  payloadDigest := input.payloadDigest
  envelopeJobId := none
  createdAt := now

/-- `rejectInvalidJob(input)`: the insert does nothing where there is a letter with the job id. -/
def rejectInvalidJob (now : Instant) (input : InvalidJob) (db : Db) : Except ErrorText Db :=
  match db.deadLetters.insertUnless? (fun letter => letter.jobId = input.messageId)
      (invalidLetter input now) with
  | none => .error duplicateKey
  | some deadLetters => .ok { db with deadLetters }

/-- A call fails: its transaction is committed, or it is not. -/
structure QueueFault where
  committed : Bool
  error : Thrown
  deriving DecidableEq

/-- What the environment decides of a step. -/
structure QueueChoice where
  now : Instant
  iv : Bytes
  leaseIds : Nat → String
  fault : Option QueueFault
  acceptance : JobAcceptance
  handled : Except Thrown JobHandlerResult

/-- A transaction with its fault: an error of its own rolls it back. -/
def QueueChoice.commit {ρ : Type} (choice : QueueChoice) (db : Db) :
    Except ErrorText (ρ × Db) → Db × Except Thrown ρ
  | .error text => (db, .error ((choice.fault.map QueueFault.error).getD (.error false text)))
  | .ok (reply, db') =>
    match choice.fault with
    | none => (db', .ok reply)
    | some fault => (if fault.committed then db' else db, .error fault.error)

/-- What `settle` makes of a settlement: a delay that is no number is refused. -/
def parseSettlement (settlement : QueueSettlement) : Except ErrorText InboxSettlement :=
  match settlement.retries.mapM fun retry => retry.delaySeconds.map fun delay =>
      InboxRetry.mk (some delay.toNat) retry.leaseId with
  | none => .error "invalid queue settlement"
  | some retries => .ok { acks := settlement.acks, retries }

/-- The step of a call, from the database before it. -/
def queueStore (collation : Collation) (env : Env) (choice : QueueChoice) (db : Db) :
    (call : QueueCall) → Db × call.Answer
  | .pull input =>
    choice.commit db ((pull collation choice.now choice.leaseIds input db.inbox).map
      fun (batch, inbox) => (batch, { db with inbox }))
  | .accept _ => (db, choice.acceptance)
  | .claimJob job => choice.commit db (claimJob env choice.now choice.iv job.toJson db)
  | .handle _ => (db, choice.handled)
  | .now => (db, choice.now)
  | .finishJob jobId result => choice.commit db (finishJob choice.now jobId result db)
  | .rejectInvalidJob input =>
    choice.commit db ((rejectInvalidJob choice.now input db).map fun db' => ((), db'))
  | .settle settlement =>
    choice.commit db (match parseSettlement settlement with
      | .error text => .error text
      | .ok settlement => (settle choice.now settlement db.inbox).map
          fun inbox => ((), { db with inbox }))
  | .stage messages =>
    choice.commit db ((stage choice.now messages db.inbox).map
      fun inbox => ((), { db with inbox }))
  | .replayDeadLetter jobId input =>
    choice.commit db (replayDeadLetter env choice.now jobId input db)

end InboxServer.Postgres
