import InboxServer.Api.Backend
import InboxServer.Api.D1.Limits
import InboxServer.Api.D1.Inbox
import InboxServer.Api.D1.Replay

/-!
# The services that both backends have

The calls of the control plane and of the inbox that exist once for D1 and once for PostgreSQL, run
one at a time. Everything that a call draws (its instant, its lease ids, the IV of its encryption)
is in the call.
-/

namespace InboxServer

open Infra
open Postgres (InboxMessage PullInput InboxSettlement InboxBatch RateLimitReply RateLimitBatchReply)

/-- A transaction on one table, which `put` puts back. -/
def transactOn {α τ : Type} (db : Db) (put : τ → Db) :
    Except ErrorText (α × τ) → Db × Except ErrorText α
  | .ok (reply, table) => (put table, .ok reply)
  | .error text => (db, .error text)

namespace Backend

def consumeRateLimit (now : Instant) (input : RateLimitInput) (db : Db) :
    Backend → Db × Except ErrorText RateLimitReply
  | postgres =>
    transactOn db (fun rateLimits => { db with rateLimits })
      (Postgres.consumeRateLimit now input db.rateLimits)
  | d1 => (D1.consumeRateLimit input).exec (D1.serveLimits now) db

def consumeRateLimits (now : Instant) (inputs : List RateLimitInput) (db : Db) :
    Backend → Db × Except ErrorText RateLimitBatchReply
  | postgres =>
    transactOn db (fun rateLimitBatches => { db with rateLimitBatches })
      (Postgres.consumeRateLimits now inputs db.rateLimitBatches)
  | d1 => (D1.consumeRateLimits inputs).exec (D1.serveLimits now) db

def replayDeadLetter (env : Env) (now : Instant) (jobId : String) (input : ReplayInput) (db : Db) :
    Backend → Db × Except ErrorText ReplayReply
  | postgres => transact db (Postgres.replayDeadLetter env now jobId input db)
  | d1 => (D1.replayDeadLetter env jobId input).exec (D1.serveReplay now) db

/-- A call of the inbox on D1. -/
def runInbox {α : Type} (collation : Collation) (now : Instant) (call : D1.InboxProgram α)
    (db : Db) : Db × Except ErrorText α :=
  let (inbox, reply) := call.exec (D1.serveInbox collation now) db.inbox
  ({ db with inbox }, reply)

def stage (collation : Collation) (now : Instant) (messages : List InboxMessage) (db : Db) :
    Backend → Db × Except ErrorText Unit
  | postgres =>
    transactOn db (fun inbox => { db with inbox })
      ((Postgres.stage now messages db.inbox).map fun inbox => ((), inbox))
  | d1 => runInbox collation now (D1.stage messages) db

def pull (collation : Collation) (now : Instant) (leaseIds : Nat → String) (input : PullInput)
    (db : Db) : Backend → Db × Except ErrorText InboxBatch
  | postgres =>
    transactOn db (fun inbox => { db with inbox })
      (Postgres.pull collation now leaseIds input db.inbox)
  | d1 => runInbox collation now (D1.pull leaseIds input) db

def settle (collation : Collation) (now : Instant) (settlement : InboxSettlement) (db : Db) :
    Backend → Db × Except ErrorText Unit
  | postgres =>
    transactOn db (fun inbox => { db with inbox })
      ((Postgres.settle now settlement db.inbox).map fun inbox => ((), inbox))
  | d1 => runInbox collation now (D1.settle settlement) db

end Backend

/-! ## Calls one at a time -/

inductive ServiceCall where
  | claimJob (iv : Bytes) (input : Json)
  | finishJob (jobId : String) (input : JobResult)
  | claimEffect (input : ClaimEffectInput)
  | finishEffect (effectKey : String) (input : EffectResult)
  | consumeRateLimit (input : RateLimitInput)
  | consumeRateLimits (inputs : List RateLimitInput)
  | replayDeadLetter (jobId : String) (input : ReplayInput)
  | stage (messages : List InboxMessage)
  | pull (leaseIds : Nat → String) (input : PullInput)
  | settle (settlement : InboxSettlement)

/-- What a call returns, or nothing where it throws. -/
inductive ServiceReply where
  | claimJob (reply : Option ClaimJobReply)
  | finishJob (reply : Option Settlement)
  | claimEffect (reply : Option ClaimEffectReply)
  | finishEffect (reply : Option Unit)
  | consumeRateLimit (reply : Option RateLimitReply)
  | consumeRateLimits (reply : Option RateLimitBatchReply)
  | replayDeadLetter (reply : Option ReplayReply)
  | stage (reply : Option Unit)
  | pull (reply : Option InboxBatch)
  | settle (reply : Option Unit)
  deriving DecidableEq

/-- What a call has done, the text of an error aside. -/
def outcome {α : Type} (served : Db × Except ErrorText α) : Db × Option α :=
  (served.1, served.2.toOption)

/-- The services of a backend, one call after the other, each at the instant that it is made. -/
def serviceMachine (env : Env) (collation : Collation) (backend : Backend) :
    Machine Db (Instant × ServiceCall) ServiceReply where
  step
    | db, (now, .claimJob iv input) =>
      (outcome (backend.claimJob env now iv input db)).map id .claimJob
    | db, (now, .finishJob jobId input) =>
      (outcome (backend.finishJob now jobId input db)).map id .finishJob
    | db, (now, .claimEffect input) =>
      (outcome (backend.claimEffect now input db)).map id .claimEffect
    | db, (now, .finishEffect effectKey input) =>
      (outcome (backend.finishEffect now effectKey input db)).map id .finishEffect
    | db, (now, .consumeRateLimit input) =>
      (outcome (backend.consumeRateLimit now input db)).map id .consumeRateLimit
    | db, (now, .consumeRateLimits inputs) =>
      (outcome (backend.consumeRateLimits now inputs db)).map id .consumeRateLimits
    | db, (now, .replayDeadLetter jobId input) =>
      (outcome (backend.replayDeadLetter env now jobId input db)).map id .replayDeadLetter
    | db, (now, .stage messages) =>
      (outcome (backend.stage collation now messages db)).map id .stage
    | db, (now, .pull leaseIds input) =>
      (outcome (backend.pull collation now leaseIds input db)).map id .pull
    | db, (now, .settle settlement) =>
      (outcome (backend.settle collation now settlement db)).map id .settle

end InboxServer
