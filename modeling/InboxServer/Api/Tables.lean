import InboxServer.Infra.Table
import InboxServer.Domain.QueueJob
import InboxServer.Api.Policy

/-!
# Tables of the control plane

The rows of `postgres-migrations/0001_initial.sql` that the services read and write, with the
primary keys and unique indexes of each table, and the `SET` clauses that more than one statement
uses. The D1 tables have the same columns and constraints.

A row keeps only the columns that the modelled statements touch. `stats`, `state` and `body` hold
JSON text in the tables and the value here.
-/

namespace InboxServer

open Infra

/-! ## `worker_jobs` -/

/-- Why a job was deferred. -/
inductive DeferReason where
  | effectBusy | rateLimit
  deriving DecidableEq

def DeferReason.name : DeferReason → String
  | .effectBusy => "effect_busy"
  | .rateLimit => "rate_limit"

structure JobRow where
  dedupeKey : String
  jobId : String
  kind : JobKind
  itemKind : Option ItemKind
  status : JobStatus
  attempts : Nat
  failureAttempts : Nat
  deferralCount : Nat
  deferredUntil : Option DateText
  deferredReason : Option DeferReason
  summary : Option Fields
  errorClass : Option JobErrorClass
  errorMessage : Option String
  createdAt : String
  updatedAt : Instant
  finishedAt : Option Instant
  deriving DecidableEq

instance : Constrained JobRow where
  conflict a b := a.dedupeKey = b.dedupeKey || a.jobId = b.jobId
  conflict_comm a b := by simp only [eq_comm]

namespace JobRow

theorem isKey_dedupeKey : Table.IsKey JobRow.dedupeKey := by
  intro a b h; simp [Constrained.conflict, h]

theorem isKey_jobId : Table.IsKey JobRow.jobId := by
  intro a b h; simp [Constrained.conflict, h]

/-- The row that the first claim of a job inserts. -/
def claimed (job : QueueJob) (now : Instant) : JobRow where
  dedupeKey := job.dedupeKey
  jobId := job.jobId
  kind := job.kind
  itemKind := job.itemKind
  status := .processing
  attempts := 1
  failureAttempts := 0
  deferralCount := 0
  deferredUntil := none
  deferredReason := none
  summary := none
  errorClass := none
  errorMessage := none
  createdAt := job.createdAt
  updatedAt := now
  finishedAt := none

/-- A claim of a row that is there binds it to the claimed job's id. -/
def reclaim (attempts : Nat) (jobId : String) (now : Instant) (row : JobRow) : JobRow :=
  { row with
    attempts, jobId, status := .processing, updatedAt := now, deferredUntil := none
    deferredReason := none, errorClass := none, errorMessage := none, finishedAt := none }

def defer (retryAt : DateText) (reason : DeferReason) (now : Instant) (row : JobRow) : JobRow :=
  { row with
    status := .deferred, deferralCount := row.deferralCount + 1, deferredUntil := some retryAt
    deferredReason := some reason, updatedAt := now, errorClass := none, errorMessage := none }

def setUncertain (message : String) (now : Instant) (row : JobRow) : JobRow :=
  { row with
    status := .uncertain, errorMessage := some message, updatedAt := now, finishedAt := some now }

def setDone (summary : Fields) (now : Instant) (row : JobRow) : JobRow :=
  { row with
    status := .done, summary := some summary, updatedAt := now, finishedAt := some now
    deferredUntil := none, deferredReason := none, errorClass := none, errorMessage := none }

def setFailed (failureAttempts : Nat) (errorClass : JobErrorClass) (errorMessage : String)
    (now : Instant) (row : JobRow) : JobRow :=
  { row with
    status := .failed, failureAttempts, errorClass := some errorClass
    errorMessage := some errorMessage, updatedAt := now, deferredUntil := none
    deferredReason := none }

def setDead (failureAttempts : Nat) (errorClass : JobErrorClass) (errorMessage : String)
    (now : Instant) (row : JobRow) : JobRow :=
  { row with
    status := .dead, failureAttempts, errorClass := some errorClass
    errorMessage := some errorMessage, updatedAt := now, finishedAt := some now
    deferredUntil := none, deferredReason := none }

/-- A published replay opens a dead job again, with a new failure budget. -/
def reopen (now : Instant) (row : JobRow) : JobRow :=
  { row with
    status := .failed, failureAttempts := 0, errorClass := none, errorMessage := none
    finishedAt := none, updatedAt := now }

instance (retryAt : DateText) (reason : DeferReason) (now : Instant) :
    Table.AddsNoConflict (defer retryAt reason now) := ⟨fun _ _ h => h⟩

instance (message : String) (now : Instant) : Table.AddsNoConflict (setUncertain message now) :=
  ⟨fun _ _ h => h⟩

instance (summary : Fields) (now : Instant) : Table.AddsNoConflict (setDone summary now) :=
  ⟨fun _ _ h => h⟩

instance (failureAttempts : Nat) (errorClass : JobErrorClass) (errorMessage : String)
    (now : Instant) : Table.AddsNoConflict (setFailed failureAttempts errorClass errorMessage now) :=
  ⟨fun _ _ h => h⟩

instance (failureAttempts : Nat) (errorClass : JobErrorClass) (errorMessage : String)
    (now : Instant) : Table.AddsNoConflict (setDead failureAttempts errorClass errorMessage now) :=
  ⟨fun _ _ h => h⟩

instance (now : Instant) : Table.AddsNoConflict (reopen now) := ⟨fun _ _ h => h⟩

/-- `deferred_until && Date.parse(deferred_until) > now` -/
def deferredAfter (row : JobRow) (now : Instant) : Bool :=
  match row.deferredUntil with
  | some (some date) => date > now
  | _ => false

end JobRow

/-! ## `worker_job_envelopes` -/

inductive EnvelopeStatus where
  | active | dead | uncertain
  deriving DecidableEq

abbrev Bytes := List UInt8

structure EnvelopeRow where
  jobId : String
  dedupeKey : String
  schemaVersion : Nat
  payloadDigest : String
  ciphertext : Bytes
  status : EnvelopeStatus
  createdAt : Instant
  updatedAt : Instant
  deriving DecidableEq

instance : Constrained EnvelopeRow where
  conflict a b := a.jobId = b.jobId || a.dedupeKey = b.dedupeKey
  conflict_comm a b := by simp only [eq_comm]

theorem EnvelopeRow.isKey_jobId : Table.IsKey EnvelopeRow.jobId := by
  intro a b h; simp [Constrained.conflict, h]

def EnvelopeRow.setStatus (status : EnvelopeStatus) (now : Instant) (row : EnvelopeRow) :
    EnvelopeRow :=
  { row with status, updatedAt := now }

instance (status : EnvelopeStatus) (now : Instant) :
    Table.AddsNoConflict (EnvelopeRow.setStatus status now) := ⟨fun _ _ h => h⟩

/-! ## `worker_dead_letters` -/

/-- The `kind` column of a dead letter: a job's kind, or `invalid` for a body that is no job. -/
inductive DeadLetterKind where
  | job (kind : JobKind)
  | invalid
  deriving DecidableEq

structure DeadLetterRow where
  jobId : String
  dedupeKey : String
  kind : DeadLetterKind
  itemKind : Option ItemKind
  attempts : Nat
  errorClass : JobErrorClass
  errorMessage : String
  payloadDigest : String
  envelopeJobId : Option String
  createdAt : Instant
  deriving DecidableEq

instance : Constrained DeadLetterRow where
  conflict a b := a.jobId = b.jobId
  conflict_comm a b := by simp only [eq_comm]

theorem DeadLetterRow.isKey_jobId : Table.IsKey DeadLetterRow.jobId := by
  intro a b h; simp [Constrained.conflict, h]

/-- `ON CONFLICT (job_id) DO UPDATE SET`: the key and the kinds stay those of the first letter. -/
def DeadLetterRow.rewrite (excluded row : DeadLetterRow) : DeadLetterRow :=
  { row with
    attempts := excluded.attempts, errorClass := excluded.errorClass
    errorMessage := excluded.errorMessage, payloadDigest := excluded.payloadDigest
    envelopeJobId := excluded.envelopeJobId, createdAt := excluded.createdAt }

instance (excluded : DeadLetterRow) : Table.AddsNoConflict excluded.rewrite := ⟨fun _ _ h => h⟩

/-! ## `worker_effects` -/

inductive EffectStatus where
  | processing | done | failed | uncertain
  deriving DecidableEq

/-- `status IN ('done', 'uncertain')` -/
def EffectStatus.isTerminal : EffectStatus → Bool
  | .done | .uncertain => true
  | .processing | .failed => false

structure EffectRow where
  effectKey : String
  jobId : String
  destination : String
  status : EffectStatus
  attempts : Nat
  errorClass : Option JobErrorClass
  errorMessage : Option String
  updatedAt : Instant
  finishedAt : Option Instant
  deriving DecidableEq

instance : Constrained EffectRow where
  conflict a b := a.effectKey = b.effectKey
  conflict_comm a b := by simp only [eq_comm]

theorem EffectRow.isKey_effectKey : Table.IsKey EffectRow.effectKey := by
  intro a b h; simp [Constrained.conflict, h]

/-- A claim of a row that is there; its job id stays that of the first claim. -/
def EffectRow.reclaim (attempts : Nat) (now : Instant) (row : EffectRow) : EffectRow :=
  { row with
    attempts, status := .processing, errorClass := none, errorMessage := none, updatedAt := now
    finishedAt := none }

@[simp] theorem EffectRow.reclaim_effectKey (attempts : Nat) (now : Instant) (row : EffectRow) :
    (row.reclaim attempts now).effectKey = row.effectKey := rfl

/-- The same with `attempts = attempts + 1`. -/
def EffectRow.reclaimNext (now : Instant) (row : EffectRow) : EffectRow :=
  row.reclaim (row.attempts + 1) now

instance (attempts : Nat) (now : Instant) : Table.AddsNoConflict (EffectRow.reclaim attempts now) :=
  ⟨fun _ _ h => h⟩

instance (now : Instant) : Table.AddsNoConflict (EffectRow.reclaimNext now) := ⟨fun _ _ h => h⟩

/-! ## `worker_replay_operations` -/

inductive ReplayStatus where
  | published | rejected
  deriving DecidableEq

structure ReplayOperationRow where
  idempotencyKey : String
  jobId : String
  messageId : String
  status : ReplayStatus
  reason : String
  createdAt : Instant
  updatedAt : Instant
  deriving DecidableEq

instance : Constrained ReplayOperationRow where
  conflict a b := a.idempotencyKey = b.idempotencyKey || a.messageId = b.messageId
  conflict_comm a b := by simp only [eq_comm]

theorem ReplayOperationRow.isKey_idempotencyKey : Table.IsKey ReplayOperationRow.idempotencyKey :=
  by intro a b h; simp [Constrained.conflict, h]

theorem ReplayOperationRow.isKey_messageId : Table.IsKey ReplayOperationRow.messageId := by
  intro a b h; simp [Constrained.conflict, h]

/-! ## `worker_inbox` -/

inductive InboxStatus where
  | queued | leased
  deriving DecidableEq

structure InboxRow where
  messageId : String
  body : Json
  status : InboxStatus
  attempts : Nat
  leaseId : Option String
  leaseUntil : Option Instant
  availableAt : Instant
  timestampMs : Int
  createdAt : Instant
  updatedAt : Instant
  deriving DecidableEq

/-- `worker_inbox_lease_id_uq` is an index on the rows that have a lease id. -/
instance : Constrained InboxRow where
  conflict a b := a.messageId = b.messageId || (a.leaseId.isSome && a.leaseId = b.leaseId)
  conflict_comm a b := by
    by_cases h : a.leaseId = b.leaseId
    · simp only [h, eq_comm]
    · have h' : ¬ b.leaseId = a.leaseId := fun hb => h hb.symm
      simp only [h, h', decide_false, Bool.and_false, Bool.or_false, eq_comm]

theorem InboxRow.isKey_messageId : Table.IsKey InboxRow.messageId := by
  intro a b h; simp [Constrained.conflict, h]

namespace InboxRow

/-- The row that a message is staged as. -/
def staged (messageId : String) (body : Json) (timestampMs : Int) (now : Instant) : InboxRow where
  messageId
  body
  status := .queued
  attempts := 0
  leaseId := none
  leaseUntil := none
  availableAt := now
  timestampMs
  createdAt := now
  updatedAt := now

/-- Back to the queue: by an expired lease at once, by a retry after its delay. -/
def release (availableAt now : Instant) (row : InboxRow) : InboxRow :=
  { row with status := .queued, leaseId := none, leaseUntil := none, availableAt, updatedAt := now }

instance (availableAt now : Instant) : Table.AddsNoConflict (release availableAt now) where
  conflict_of a b h := by
    have hid : a.messageId = b.messageId := of_decide_eq_true ((Bool.or_false _).symm.trans h)
    simp [Constrained.conflict, hid]

def lease (leaseId : String) (leaseUntil now : Instant) (row : InboxRow) : InboxRow :=
  { row with
    status := .leased, attempts := row.attempts + 1, leaseId := some leaseId
    leaseUntil := some leaseUntil, updatedAt := now }

end InboxRow

/-! ## Rate limits -/

structure RateLimitRow where
  scope : String
  bucketKey : String
  count : Nat
  expiresAt : Instant
  updatedAt : Instant
  deriving DecidableEq

instance : Constrained RateLimitRow where
  conflict a b := a.scope = b.scope && a.bucketKey = b.bucketKey
  conflict_comm a b := by simp only [eq_comm]

/-- The first use of a bucket that has expired. -/
def RateLimitRow.restart (expiresAt now : Instant) (row : RateLimitRow) : RateLimitRow :=
  { row with count := 1, expiresAt, updatedAt := now }

def RateLimitRow.increment (now : Instant) (row : RateLimitRow) : RateLimitRow :=
  { row with count := row.count + 1, updatedAt := now }

instance (expiresAt now : Instant) : Table.AddsNoConflict (RateLimitRow.restart expiresAt now) :=
  ⟨fun _ _ h => h⟩

instance (now : Instant) : Table.AddsNoConflict (RateLimitRow.increment now) := ⟨fun _ _ h => h⟩

structure RateLimitBatchRow where
  scope : String
  state : List RateLimitState
  version : Nat
  updatedAt : Instant
  deriving DecidableEq

instance : Constrained RateLimitBatchRow where
  conflict a b := a.scope = b.scope
  conflict_comm a b := by simp only [eq_comm]

theorem RateLimitBatchRow.isKey_scope : Table.IsKey RateLimitBatchRow.scope := by
  intro a b h; simp [Constrained.conflict, h]

def RateLimitBatchRow.setState (state : List RateLimitState) (now : Instant)
    (row : RateLimitBatchRow) : RateLimitBatchRow :=
  { row with state, version := row.version + 1, updatedAt := now }

instance (state : List RateLimitState) (now : Instant) :
    Table.AddsNoConflict (RateLimitBatchRow.setState state now) := ⟨fun _ _ h => h⟩

/-! ## `sync_jobs` -/

inductive SyncJobStatus where
  | running | done | failed
  deriving DecidableEq

structure SyncJobRow where
  id : String
  status : SyncJobStatus
  stats : Fields
  finishedAt : Option Instant
  error : Option String
  deriving DecidableEq

instance : Constrained SyncJobRow where
  conflict a b := a.id = b.id
  conflict_comm a b := by simp only [eq_comm]

theorem SyncJobRow.isKey_id : Table.IsKey SyncJobRow.id := by
  intro a b h; simp [Constrained.conflict, h]

/-! ## The database -/

/-- The tables that the control plane works on. -/
structure Db where
  jobs : Table JobRow
  envelopes : Table EnvelopeRow
  deadLetters : Table DeadLetterRow
  effects : Table EffectRow
  replayOperations : Table ReplayOperationRow
  inbox : Table InboxRow
  rateLimits : Table RateLimitRow
  rateLimitBatches : Table RateLimitBatchRow
  syncJobs : Table SyncJobRow
  deriving DecidableEq

/-- The tables after the migrations. -/
def Db.empty : Db where
  jobs := ∅
  envelopes := ∅
  deadLetters := ∅
  effects := ∅
  replayOperations := ∅
  inbox := ∅
  rateLimits := ∅
  rateLimitBatches := ∅
  syncJobs := ∅

instance : EmptyCollection Db := ⟨Db.empty⟩

end InboxServer
