import InboxServer.Infra.Machine
import InboxServer.Api.Postgres.Commands
import InboxServer.Api.Postgres.Effects
import InboxServer.Api.Postgres.Replay
import InboxServer.Api.Postgres.Inbox
import InboxServer.Api.D1.Commands

/-!
# The two backends, a call at a time

Each service call as one atomic step on the database, on either backend. A call that throws leaves
the database as it is on PostgreSQL; on D1 the batches that it ran before stay.
-/

namespace InboxServer

open Infra

inductive Backend where
  | postgres | d1
  deriving DecidableEq

/-- The database and the reply after a transaction; an error rolls it back. -/
def transact {α : Type} (db : Db) : Except ErrorText (α × Db) → Db × Except ErrorText α
  | .ok (reply, db') => (db', .ok reply)
  | .error text => (db, .error text)

/-- The same for a transaction on the effects alone. -/
def transactEffects {α : Type} (db : Db) :
    Except ErrorText (α × Table EffectRow) → Db × Except ErrorText α
  | .ok (reply, effects) => ({ db with effects }, .ok reply)
  | .error text => (db, .error text)

namespace Backend

def claimJob (env : Env) (now : Instant) (iv : Bytes) (input : Json) (db : Db) :
    Backend → Db × Except ErrorText ClaimJobReply
  | postgres => transact db (Postgres.claimJob env now iv input db)
  | d1 => D1.runAt now (D1.claimJob env iv input) db

def finishJob (now : Instant) (jobId : String) (input : JobResult) (db : Db) :
    Backend → Db × Except ErrorText Settlement
  | postgres => transact db (Postgres.finishJob now jobId input db)
  | d1 => D1.runAt now (D1.finishJob jobId input) db

def claimEffect (now : Instant) (input : ClaimEffectInput) (db : Db) :
    Backend → Db × Except ErrorText ClaimEffectReply
  | postgres => transactEffects db (Postgres.claimEffect now input db.effects)
  | d1 => D1.runAt now (D1.claimEffect input) db

def finishEffect (now : Instant) (effectKey : String) (input : EffectResult) (db : Db) :
    Backend → Db × Except ErrorText Unit
  | postgres => ({ db with effects := Postgres.finishEffect now effectKey input db.effects }, .ok ())
  | d1 => D1.runAt now (D1.finishEffect effectKey input) db

end Backend

/-! ## Effect calls -/

inductive EffectCall where
  | claim (input : ClaimEffectInput)
  | finish (effectKey : String) (result : EffectResult)
  deriving DecidableEq

inductive EffectReply where
  | claim (reply : Except ErrorText ClaimEffectReply)
  | finish (reply : Except ErrorText Unit)

/-- Claims and finishes of effects, each at the instant that it is made. -/
def effectMachine (backend : Backend) : Machine Db (Instant × EffectCall) EffectReply where
  step
    | db, (now, .claim input) =>
      let (db', reply) := backend.claimEffect now input db
      (db', .claim reply)
    | db, (now, .finish effectKey result) =>
      let (db', reply) := backend.finishEffect now effectKey result db
      (db', .finish reply)

/-- The effect call that was answered is a claim that succeeded. -/
def EffectReply.isClaimed : EffectReply → Bool
  | .claim (.ok reply) => reply.isClaimed
  | .claim (.error _) | .finish _ => false

/-! ## Job calls -/

inductive JobCall where
  | claim (iv : Bytes) (input : Json)
  | finish (jobId : String) (result : JobResult)
  deriving DecidableEq

inductive JobReply where
  | claim (reply : Except ErrorText ClaimJobReply)
  | finish (reply : Except ErrorText Settlement)

/-- Claims and finishes of jobs, each at the instant that it is made. -/
def jobMachine (env : Env) (backend : Backend) : Machine Db (Instant × JobCall) JobReply where
  step
    | db, (now, .claim iv input) =>
      let (db', reply) := backend.claimJob env now iv input db
      (db', .claim reply)
    | db, (now, .finish jobId result) =>
      let (db', reply) := backend.finishJob now jobId result db
      (db', .finish reply)

/-- The job call that was answered is a claim that succeeded. -/
def JobReply.isClaimed : JobReply → Bool
  | .claim (.ok reply) => reply.isClaimed
  | .claim (.error _) | .finish _ => false

/-! ## Calls of the PostgreSQL control plane -/

inductive ControlCall where
  | job (call : JobCall)
  | effect (call : EffectCall)
  | replay (jobId : String) (input : ReplayInput)
  deriving DecidableEq

inductive ControlReply where
  | job (reply : JobReply)
  | effect (reply : EffectReply)
  | replay (reply : Except ErrorText ReplayReply)

/-- Jobs, effects and replays on PostgreSQL, one transaction a call. -/
def controlMachine (env : Env) : Machine Db (Instant × ControlCall) ControlReply where
  step
    | db, (now, .job call) =>
      let (db', reply) := (jobMachine env .postgres).step db (now, call)
      (db', .job reply)
    | db, (now, .effect call) =>
      let (db', reply) := (effectMachine .postgres).step db (now, call)
      (db', .effect reply)
    | db, (now, .replay jobId input) =>
      let (db', reply) := transact db (Postgres.replayDeadLetter env now jobId input db)
      (db', .replay reply)

/-! ## Calls of the inbox -/

open Postgres (InboxMessage PullInput InboxSettlement InboxBatch InboxLease)

inductive InboxCall where
  | stage (messages : List InboxMessage)
  | pull (input : PullInput)
  | settle (settlement : InboxSettlement)

inductive InboxReply where
  | stage (reply : Except ErrorText Unit)
  | pull (reply : Except ErrorText InboxBatch)
  | settle (reply : Except ErrorText Unit)
  deriving DecidableEq

/-- The leases that a reply hands out. -/
def InboxReply.leases : InboxReply → List InboxLease
  | .pull (.ok batch) => batch.messages
  | .pull (.error _) | .stage _ | .settle _ => []

/-- A settlement names a lease. -/
def InboxCall.Names (leaseId : String) : InboxCall → Prop
  | .settle settlement =>
    leaseId ∈ settlement.acks ∨ ∃ retry ∈ settlement.retries, retry.leaseId = leaseId
  | .stage _ | .pull _ => False

end InboxServer
