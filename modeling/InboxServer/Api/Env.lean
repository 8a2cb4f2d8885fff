import InboxServer.Api.Tables

/-!
# The environment of the services

What the services take from packages and from the platform, as a parameter: zod's formats, SHA-256,
the encryption of `credential-crypto.ts`, which rests on WebCrypto, and the row that PostgreSQL gives
where a statement leaves it open. `Env.RoundTrips` and `Env.CollisionFree` are what the proofs assume
of SHA-256 and of the encryption.
-/

namespace InboxServer

open Infra

structure Env where
  zod : Zod
  /-- The SHA-256 digest of a text, in hexadecimal. -/
  sha256Hex : String → String
  /-- `encryptJson(value, key)` with the given IV; `none` when the key is refused. -/
  encryptJson : Bytes → Json → Option Bytes
  /-- `decryptJson(envelope, key)`; `none` when it throws. -/
  decryptJson : Bytes → Option Json
  /-- The effect that PostgreSQL gives for `LIMIT 1`. -/
  limitOne : LimitOne EffectRow := .first

namespace Env

/-- What was encrypted under the key is decrypted under it. -/
def RoundTrips (env : Env) : Prop :=
  ∀ iv value ciphertext, env.encryptJson iv value = some ciphertext →
    env.decryptJson ciphertext = some value

/-- No two texts have one digest. -/
def CollisionFree (env : Env) : Prop := Function.Injective env.sha256Hex

/-- `digestJob(job)` -/
def digestJob (env : Env) (job : QueueJob) : String := env.sha256Hex job.stringify

/-- `digestPayload(payload)` of the worker. -/
def digestPayload (env : Env) (payload : Json) : String := env.sha256Hex payload.stringify

end Env

/-- The text of an error that a service throws. -/
abbrev ErrorText := String

/-- The error of an `INSERT` or `UPDATE` that breaks a unique constraint. -/
def duplicateKey : ErrorText := "duplicate key value violates unique constraint"

/-- `current - Date.parse(updatedAt) > 10 * 60_000` -/
def isStale (updatedAt current : Instant) : Bool := current - updatedAt > 10 * 60000

/-- `Number.MAX_SAFE_INTEGER` -/
def maxSafeInteger : Nat := 2 ^ 53 - 1

/-- A `BIGINT` column as a number. -/
def safeInteger (value : Nat) : Except ErrorText Nat :=
  if value ≤ maxSafeInteger then .ok value
  else .error "PostgreSQL integer exceeds safe range"

/-! ## Requests and replies -/

inductive ClaimJobReply where
  | claimed (attempts : Nat)
  | busy
  | duplicate
  | deferred (reason : String) (retryAt : DateText)
  deriving DecidableEq

def ClaimJobReply.isClaimed : ClaimJobReply → Bool
  | .claimed _ => true
  | .busy | .duplicate | .deferred .. => false

/-- `JobResultInput` -/
inductive JobResult where
  | done (summary : Option Fields)
  | failed (errorClass : Option JobErrorClass) (errorMessage payloadDigest : Option String)
  | deferred (reason : DeferReason) (retryAt : DateText)
  | uncertain (reason : String)
  deriving DecidableEq

/-- A settlement; a retry may carry a delay, which is `null` on the wire where it is `NaN`. -/
inductive Settlement where
  | ack
  | retry (delaySeconds : Option Int)
  deriving DecidableEq

structure ClaimEffectInput where
  destination : String
  effectKey : String
  jobId : String
  deriving DecidableEq

inductive ClaimEffectReply where
  | claimed (attempts : Nat)
  | busy (retryAt : Instant)
  | done
  | uncertain
  deriving DecidableEq

def ClaimEffectReply.isClaimed : ClaimEffectReply → Bool
  | .claimed _ => true
  | .busy _ | .done | .uncertain => false

/-- The outcomes that a finished effect may have. -/
inductive EffectOutcome where
  | done | failed | uncertain
  deriving DecidableEq

def EffectOutcome.status : EffectOutcome → EffectStatus
  | .done => .done
  | .failed => .failed
  | .uncertain => .uncertain

structure EffectResult where
  outcome : EffectOutcome
  errorClass : Option JobErrorClass
  errorMessage : Option String
  deriving DecidableEq

/-- The `SET` clause of `finishEffect`. -/
def EffectRow.finish (result : EffectResult) (updatedAt finishedAt : Instant) (row : EffectRow) :
    EffectRow :=
  { row with
    status := result.outcome.status
    errorClass := result.errorClass
    errorMessage := result.errorMessage.map slice500
    updatedAt
    finishedAt := if result.outcome = .failed then none else some finishedAt }

@[simp] theorem EffectRow.finish_effectKey (result : EffectResult) (updatedAt finishedAt : Instant)
    (row : EffectRow) : (row.finish result updatedAt finishedAt).effectKey = row.effectKey := rfl

instance (result : EffectResult) (updatedAt finishedAt : Instant) :
    Table.AddsNoConflict (EffectRow.finish result updatedAt finishedAt) := ⟨fun _ _ h => h⟩

/-! ## Rows that both backends write -/

/-- The row that the first claim of an effect inserts. -/
def EffectRow.claimed (input : ClaimEffectInput) (now : Instant) : EffectRow where
  effectKey := input.effectKey
  jobId := input.jobId
  destination := input.destination
  status := .processing
  attempts := 1
  errorClass := none
  errorMessage := none
  updatedAt := now
  finishedAt := none

/-- The envelope of an article job, written with its first claim. -/
def EnvelopeRow.active (env : Env) (job : QueueJob) (ciphertext : Bytes) (now : Instant) :
    EnvelopeRow where
  jobId := job.jobId
  dedupeKey := job.dedupeKey
  schemaVersion := job.schemaVersion
  payloadDigest := env.digestJob job
  ciphertext
  status := .active
  createdAt := now
  updatedAt := now

@[simp] theorem EnvelopeRow.active_jobId (env : Env) (job : QueueJob) (ciphertext : Bytes)
    (now : Instant) : (EnvelopeRow.active env job ciphertext now).jobId = job.jobId := rfl

/-- The digest of a dead letter; the empty text counts as missing. -/
def deadLetterDigest (envelope : Option EnvelopeRow) (payloadDigest : Option String) :
    Option String :=
  ((envelope.map EnvelopeRow.payloadDigest).or payloadDigest).filter (· ≠ "")

/-- The letter of a job that dies with the given failure, its envelope named if there is one. -/
def deadLetterOf (jobId : String) (row : JobRow) (failureAttempts : Nat)
    (errorClass : JobErrorClass) (errorMessage payloadDigest : String)
    (envelope : Option EnvelopeRow) (now : Instant) : DeadLetterRow where
  jobId
  dedupeKey := row.dedupeKey
  kind := .job row.kind
  itemKind := row.itemKind
  attempts := failureAttempts
  errorClass
  errorMessage
  payloadDigest
  envelopeJobId := envelope.map fun _ => jobId
  createdAt := now

/-- `(errorMessage ?? "worker job failed").slice(0, 500)` -/
def errorMessageOf (errorMessage : Option String) : String :=
  slice500 (errorMessage.getD "worker job failed")

/-! ## Replays -/

structure ReplayInput where
  dryRun : Bool
  idempotencyKey : String
  deriving DecidableEq

inductive ReplayReplyStatus where
  | published | rejected | validated
  deriving DecidableEq

structure ReplayReply where
  published : Bool
  reason : String
  replayable : Bool
  status : ReplayReplyStatus
  deriving DecidableEq

end InboxServer
