import InboxServer.Infra.Prog
import InboxServer.Api.Env
import InboxServer.Api.SyncJob

/-!
# Statements of the D1 backend

A call of the D1 services is a program: it reads the clock, runs single statements and runs batches
of writes, one after the other, and calls of different workers interleave between these steps. A
batch is all or nothing, and a write that breaks a constraint fails it.
-/

namespace InboxServer.D1

open Infra

/-- A statement that writes, with the values bound to it. -/
inductive Write where
  | insertJob (row : JobRow)
  | reclaimJob (attempts : Nat) (jobId : String) (now : Instant) (dedupeKey : String)
  | insertEnvelope (row : EnvelopeRow)
  | deferJob (retryAt : DateText) (reason : DeferReason) (now : Instant) (jobId : String)
  | setJobUncertain (message : String) (now : Instant) (jobId : String)
  | setJobDone (summary : Fields) (now : Instant) (jobId : String)
  | setJobFailed (failureAttempts : Nat) (errorClass : JobErrorClass) (errorMessage : String)
      (now : Instant) (jobId : String)
  | setJobDead (failureAttempts : Nat) (errorClass : JobErrorClass) (errorMessage : String)
      (now : Instant) (jobId : String)
  | setEnvelopeStatus (status : EnvelopeStatus) (now : Instant) (jobId : String)
  | deleteEnvelope (jobId : String)
  | upsertDeadLetter (row : DeadLetterRow)
  | updateSyncJob (progress : SyncJobProgress) (id : String)
  | insertEffect (row : EffectRow)
  | reclaimEffect (attempts : Nat) (now : Instant) (effectKey : String)
  | finishEffect (result : EffectResult) (updatedAt finishedAt : Instant) (effectKey : String)

/-- What a write does; `none` where it breaks a constraint. -/
def Write.apply (db : Db) : Write → Option Db
  | insertJob row => (db.jobs.insert? row).map fun jobs => { db with jobs }
  | reclaimJob attempts jobId now dedupeKey =>
    (db.jobs.update? (fun row => row.dedupeKey = dedupeKey) (JobRow.reclaim attempts jobId now)).map
      fun jobs => { db with jobs }
  | insertEnvelope row =>
    (db.envelopes.insertUnless? (fun envelope => envelope.jobId = row.jobId) row).map
      fun envelopes => { db with envelopes }
  | deferJob retryAt reason now jobId =>
    some { db with
      jobs := db.jobs.update (fun r => r.jobId = jobId) (JobRow.defer retryAt reason now) }
  | setJobUncertain message now jobId =>
    some { db with
      jobs := db.jobs.update (fun r => r.jobId = jobId) (JobRow.setUncertain message now) }
  | setJobDone summary now jobId =>
    some { db with jobs := db.jobs.update (fun r => r.jobId = jobId) (JobRow.setDone summary now) }
  | setJobFailed failureAttempts errorClass errorMessage now jobId =>
    some { db with
      jobs := db.jobs.update (fun r => r.jobId = jobId)
        (JobRow.setFailed failureAttempts errorClass errorMessage now) }
  | setJobDead failureAttempts errorClass errorMessage now jobId =>
    some { db with
      jobs := db.jobs.update (fun r => r.jobId = jobId)
        (JobRow.setDead failureAttempts errorClass errorMessage now) }
  | setEnvelopeStatus status now jobId =>
    some { db with
      envelopes := db.envelopes.update (fun e => e.jobId = jobId)
        (EnvelopeRow.setStatus status now) }
  | deleteEnvelope jobId =>
    some { db with envelopes := db.envelopes.delete fun e => e.jobId = jobId }
  | upsertDeadLetter row =>
    some { db with deadLetters := db.deadLetters.upsert row row.rewrite }
  | updateSyncJob progress id =>
    some { db with
      syncJobs := db.syncJobs.update (fun r => r.id = id) (SyncJobRow.setProgress progress) }
  | insertEffect row => (db.effects.insert? row).map fun effects => { db with effects }
  | reclaimEffect attempts now effectKey =>
    some { db with
      effects := db.effects.update (fun r => r.effectKey = effectKey)
        (EffectRow.reclaim attempts now) }
  | finishEffect result updatedAt finishedAt effectKey =>
    some { db with
      effects := db.effects.update (fun r => r.effectKey = effectKey)
        (EffectRow.finish result updatedAt finishedAt) }

/-- A step of a D1 call. -/
inductive Step where
  | now
  | selectJob (dedupeKey : String)
  | selectJobById (jobId : String)
  | selectEnvelope (jobId : String)
  | selectEffect (effectKey : String)
  | selectSyncJob (id : String)
  | batch (writes : List Write)

/-- The answer to a step; that of a batch is whether it succeeded. -/
abbrev Step.Answer : Step → Type
  | now => Instant
  | selectJob _ | selectJobById _ => Option JobRow
  | selectEnvelope _ => Option EnvelopeRow
  | selectEffect _ => Option EffectRow
  | selectSyncJob _ => Option SyncJobRow
  | batch _ => Bool

/-- A step, taken when the clock reads `now`. -/
def serve (now : Instant) (db : Db) : (s : Step) → Db × s.Answer
  | .now => (db, now)
  | .selectJob dedupeKey => (db, db.jobs.lookup JobRow.dedupeKey dedupeKey)
  | .selectJobById jobId => (db, db.jobs.lookup JobRow.jobId jobId)
  | .selectEnvelope jobId => (db, db.envelopes.lookup EnvelopeRow.jobId jobId)
  | .selectEffect effectKey => (db, db.effects.lookup EffectRow.effectKey effectKey)
  | .selectSyncJob id => (db, db.syncJobs.lookup SyncJobRow.id id)
  | .batch writes =>
    match writes.foldlM Write.apply db with
    | some db => (db, true)
    | none => (db, false)

/-- A service call on D1. -/
abbrev Call (α : Type) := Prog Step Step.Answer (Except ErrorText α)

namespace Call

variable {α : Type}

/-- Run the writes, or throw; then the call returns `reply`. -/
def commit (writes : List Write) (reply : α) : Call α :=
  .call (.batch writes) fun done => .ret (if done then .ok reply else .error duplicateKey)

def throw (text : ErrorText) : Call α := .ret (.error text)

def done (reply : α) : Call α := .ret (.ok reply)

end Call

/-! ## Calls one at a time -/

variable {α : Type}

/-- A call run without interruption while the clock reads `now`. -/
def runAt (now : Instant) (call : Call α) (db : Db) : Db × Except ErrorText α :=
  call.exec (serve now) db

@[simp] theorem runAt_now (now : Instant) (k : Instant → Call α) (db : Db) :
    runAt now (.call .now k) db = runAt now (k now) db := rfl

@[simp] theorem runAt_selectJob (now : Instant) (dedupeKey : String)
    (k : Option JobRow → Call α) (db : Db) :
    runAt now (.call (.selectJob dedupeKey) k) db =
      runAt now (k (db.jobs.lookup JobRow.dedupeKey dedupeKey)) db := rfl

@[simp] theorem runAt_selectJobById (now : Instant) (jobId : String)
    (k : Option JobRow → Call α) (db : Db) :
    runAt now (.call (.selectJobById jobId) k) db =
      runAt now (k (db.jobs.lookup JobRow.jobId jobId)) db := rfl

@[simp] theorem runAt_selectEnvelope (now : Instant) (jobId : String)
    (k : Option EnvelopeRow → Call α) (db : Db) :
    runAt now (.call (.selectEnvelope jobId) k) db =
      runAt now (k (db.envelopes.lookup EnvelopeRow.jobId jobId)) db := rfl

@[simp] theorem runAt_selectEffect (now : Instant) (effectKey : String)
    (k : Option EffectRow → Call α) (db : Db) :
    runAt now (.call (.selectEffect effectKey) k) db =
      runAt now (k (db.effects.lookup EffectRow.effectKey effectKey)) db := rfl

@[simp] theorem runAt_selectSyncJob (now : Instant) (id : String)
    (k : Option SyncJobRow → Call α) (db : Db) :
    runAt now (.call (.selectSyncJob id) k) db =
      runAt now (k (db.syncJobs.lookup SyncJobRow.id id)) db := rfl

@[simp] theorem runAt_done (now : Instant) (reply : α) (db : Db) :
    runAt now (Call.done reply) db = (db, .ok reply) := rfl

@[simp] theorem runAt_throw (now : Instant) (text : ErrorText) (db : Db) :
    runAt now (Call.throw text : Call α) db = (db, .error text) := rfl

theorem runAt_commit {writes : List Write} {db db' : Db}
    (h : writes.foldlM Write.apply db = some db') (now : Instant) (reply : α) :
    runAt now (Call.commit writes reply) db = (db', .ok reply) := by
  simp [runAt, Call.commit, serve, h]

theorem runAt_commit_none {writes : List Write} {db : Db}
    (h : writes.foldlM Write.apply db = none) (now : Instant) (reply : α) :
    runAt now (Call.commit writes reply) db = (db, .error duplicateKey) := by
  simp [runAt, Call.commit, serve, h]

end InboxServer.D1
