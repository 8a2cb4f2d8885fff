import InboxServer.Api.Postgres.Inbox
import InboxServer.Infra.Trace
import InboxServer.Worker.JobHandler

/-!
# The batches of a worker

`processQueueBatch` of `apps/worker/src/queue-processor.ts`, as a program whose calls may all throw,
and the pull before it. The logs and `onProgress` are left out.
-/

namespace InboxServer

open Infra

open Postgres (InboxLease InboxMessage PullInput InboxBatch)

/-- `JobAcceptanceDecision`, without its reason, which is only logged. -/
inductive JobAcceptance where
  | accept
  | defer (retryAfterSeconds : Nat)
  deriving DecidableEq

/-- A retry; a delay that is `NaN` is `null` on the wire. -/
structure QueueRetry where
  delaySeconds : Option Int
  leaseId : String
  deriving DecidableEq

structure QueueSettlement where
  acks : List String
  retries : List QueueRetry
  deriving DecidableEq

/-- What `rejectInvalidJob` gets. -/
structure InvalidJob where
  attempts : Nat
  messageId : String
  payloadDigest : String
  reason : String
  deriving DecidableEq

/-! ## Calls -/

/-- The calls of the workers, and those of who stages messages and replays dead letters. -/
inductive QueueCall where
  | pull (input : PullInput)
  | accept (job : QueueJob)
  | claimJob (job : QueueJob)
  | handle (job : QueueJob)
  | now
  | finishJob (jobId : String) (result : JobResult)
  | rejectInvalidJob (input : InvalidJob)
  | settle (settlement : QueueSettlement)
  | stage (messages : List InboxMessage)
  | replayDeadLetter (jobId : String) (input : ReplayInput)
  deriving DecidableEq

@[reducible] def QueueCall.Answer : QueueCall → Type
  | .pull _ => Except Thrown InboxBatch
  | .accept _ => JobAcceptance
  | .claimJob _ => Except Thrown ClaimJobReply
  | .handle _ => Except Thrown JobHandlerResult
  | .now => Instant
  | .finishJob .. => Except Thrown Settlement
  | .replayDeadLetter .. => Except Thrown ReplayReply
  | .rejectInvalidJob _ | .settle _ | .stage _ => Except Thrown Unit

abbrev QueueEvent := Event QueueCall QueueCall.Answer

/-- A part of the worker that ends with a value, or throws. -/
abbrev QueueProg (α : Type) := Prog QueueCall QueueCall.Answer (Except Thrown α)

/-! ## One message -/

/-- `appendSettlement(settlement, leaseId, result)` -/
def QueueSettlement.append (settlement : QueueSettlement) (leaseId : String) :
    Settlement → QueueSettlement
  | .ack => { settlement with acks := settlement.acks ++ [leaseId] }
  | .retry delaySeconds =>
    { settlement with retries := settlement.retries ++ [⟨delaySeconds, leaseId⟩] }

/-- The clause that catches what the handler, or the finish of its result, throws. -/
def finishFailed (env : Env) (lease : InboxLease) (job : QueueJob) (error : Thrown) :
    QueueProg Settlement :=
  let failure := classifyJobFailure error
  .call (.finishJob job.jobId (.failed (some failure.errorClass) (some failure.safeMessage)
    (some (env.digestPayload lease.body)))) .ret

/-- The result that the handler's outcome is finished with. -/
def resultOf : JobHandlerResult → JobResult
  | .completed summary => .done (some summary)
  | .deferred reason retryAt => .deferred reason (some retryAt)
  | .uncertain reason => .uncertain reason

/-- A claimed job is handled, and finished. -/
def handleClaimed (env : Env) (lease : InboxLease) (job : QueueJob) : QueueProg Settlement :=
  .call (.handle job) fun
    | .error error => finishFailed env lease job error
    | .ok handled => .call (.finishJob job.jobId (resultOf handled)) fun
      | .error error => finishFailed env lease job error
      | .ok settlement => .ret (.ok settlement)

/-- An accepted job is claimed first. -/
def claimAndHandle (env : Env) (lease : InboxLease) (job : QueueJob) : QueueProg Settlement :=
  .call (.claimJob job) fun
    | .error error => .ret (.error error)
    | .ok .duplicate => .ret (.ok .ack)
    | .ok .busy => .ret (.ok (.retry (some 30)))
    | .ok (.deferred _ retryAt) => .call .now fun current =>
        .ret (.ok (.retry (calculateRetryDelaySeconds retryAt current)))
    | .ok (.claimed _) => handleClaimed env lease job

/-- The body of the loop over the leases. -/
def processLease (env : Env) (lease : InboxLease) : QueueProg Settlement :=
  match parseQueueJob env.zod lease.body with
  | none =>
    let failure := classifyJobFailure (.error false (env.zod.issueText lease.body))
    .call (.rejectInvalidJob
        { attempts := lease.attempts, messageId := lease.id
          payloadDigest := env.digestPayload lease.body, reason := failure.safeMessage }) fun
      | .error error => .ret (.error error)
      | .ok () => .ret (.ok .ack)
  | some job => .call (.accept job) fun
    | .defer retryAfterSeconds => .ret (.ok (.retry (some retryAfterSeconds)))
    | .accept => claimAndHandle env lease job

/-! ## A batch -/

/-- The loop, with the settlement so far, and the settlement after it. -/
def processLeases (env : Env) : List InboxLease → QueueSettlement → QueueProg Unit
  | [], settlement => .call (.settle settlement) .ret
  | lease :: leases, settlement =>
    (processLease env lease).andThen fun result =>
      processLeases env leases (settlement.append lease.leaseId result)

/-- `processQueueBatch({ batch, ... })` -/
def processQueueBatch (env : Env) (batch : InboxBatch) : QueueProg Unit :=
  processLeases env batch.messages ⟨[], []⟩

/-- `processNextBatch()` -/
def processNextBatch (env : Env) (input : PullInput) : QueueProg Unit :=
  .call (.pull input) fun
    | .error error => .ret (.error error)
    | .ok batch => processQueueBatch env batch

end InboxServer
