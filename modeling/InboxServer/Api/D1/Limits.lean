import InboxServer.Infra.Prog
import InboxServer.Api.Postgres.Effects

/-!
# Rate limits on D1

`consumeRateLimit` and `consumeRateLimits` of `apps/api/src/control-plane.ts`, step by step. The
first writes what it has counted, whatever came between its read and its write; the second writes
only to the version of the row that it has read, and tries again where there is another one.
-/

namespace InboxServer

open Infra

/-- `PRIMARY KEY (scope, bucket_key)` -/
def RateLimitRow.key (row : RateLimitRow) : String × String := (row.scope, row.bucketKey)

theorem RateLimitRow.conflict_iff (a b : RateLimitRow) :
    Constrained.conflict a b = true ↔ a.key = b.key := by
  simp [Constrained.conflict, RateLimitRow.key]

theorem RateLimitRow.isKey_key : Table.IsKey RateLimitRow.key := fun a b =>
  (RateLimitRow.conflict_iff a b).mpr

/-- The row of the first use of a window. -/
def RateLimitRow.first (input : RateLimitInput) (currentTime updatedAt : Instant) :
    RateLimitRow where
  scope := input.scope
  bucketKey := input.bucketKey
  count := 1
  expiresAt := currentTime + input.windowSeconds * 1000
  updatedAt

def RateLimitRow.setCount (count : Nat) (now : Instant) (row : RateLimitRow) : RateLimitRow :=
  { row with count, updatedAt := now }

instance (count : Nat) (now : Instant) : Table.AddsNoConflict (RateLimitRow.setCount count now) :=
  ⟨fun _ _ h => h⟩

def RateLimitBatchRow.replace (state : List RateLimitState) (version : Nat) (now : Instant)
    (row : RateLimitBatchRow) : RateLimitBatchRow :=
  { row with state, version, updatedAt := now }

instance (state : List RateLimitState) (version : Nat) (now : Instant) :
    Table.AddsNoConflict (RateLimitBatchRow.replace state version now) := ⟨fun _ _ h => h⟩

/-- The row that the first call on a scope inserts. -/
def RateLimitBatchRow.first (scope : String) (state : List RateLimitState) (now : Instant) :
    RateLimitBatchRow where
  scope
  state
  version := 1
  updatedAt := now

namespace D1

open Postgres (RateLimitReply RateLimitBatchReply batchScope)

/-! ## Statements -/

/-- A step of a call that consumes rate limits. -/
inductive LimitStep where
  | now
  | selectLimit (scope bucketKey : String)
  | startWindow (row : RateLimitRow)
  | setCount (count : Nat) (updatedAt : Instant) (scope bucketKey : String)
  | selectBatch (scope : String)
  | updateBatch (state : List RateLimitState) (version : Nat) (updatedAt : Instant) (scope : String)
      (expected : Nat)
  | insertBatch (row : RateLimitBatchRow)

/-- The answer to a step; that of a write of a batch is the number of rows that it changed. -/
abbrev LimitStep.Answer : LimitStep → Type
  | now => Instant
  | selectLimit .. => Option RateLimitRow
  | startWindow _ | setCount .. => Unit
  | selectBatch _ => Option RateLimitBatchRow
  | updateBatch .. | insertBatch _ => Nat

/-- `UPDATE worker_rate_limit_batches ... WHERE scope = ? AND version = ?` -/
def updateBatch (state : List RateLimitState) (version : Nat) (now : Instant) (scope : String)
    (expected : Nat) (batches : Table RateLimitBatchRow) : Table RateLimitBatchRow × Nat :=
  let met (row : RateLimitBatchRow) : Bool := row.scope = scope && row.version = expected
  (batches.update met (RateLimitBatchRow.replace state version now), batches.rows.countP met)

/-- `INSERT OR IGNORE INTO worker_rate_limit_batches` -/
def insertBatch (row : RateLimitBatchRow) (batches : Table RateLimitBatchRow) :
    Table RateLimitBatchRow × Nat :=
  match batches.insert? row with
  | some batches => (batches, 1)
  | none => (batches, 0)

/-- A step, taken when the clock reads `now`. -/
def serveLimits (now : Instant) (db : Db) : (s : LimitStep) → Db × s.Answer
  | .now => (db, now)
  | .selectLimit scope bucketKey => (db, db.rateLimits.lookup RateLimitRow.key (scope, bucketKey))
  | .startWindow row =>
    ({ db with
        rateLimits := db.rateLimits.upsert row
          (RateLimitRow.restart row.expiresAt row.updatedAt) }, ())
  | .setCount count updatedAt scope bucketKey =>
    ({ db with
        rateLimits := db.rateLimits.update (fun row => row.key = (scope, bucketKey))
          (RateLimitRow.setCount count updatedAt) }, ())
  | .selectBatch scope => (db, db.rateLimitBatches.lookup RateLimitBatchRow.scope scope)
  | .updateBatch state version updatedAt scope expected =>
    let (rateLimitBatches, changes) :=
      updateBatch state version updatedAt scope expected db.rateLimitBatches
    ({ db with rateLimitBatches }, changes)
  | .insertBatch row =>
    let (rateLimitBatches, changes) := insertBatch row db.rateLimitBatches
    ({ db with rateLimitBatches }, changes)

/-! ## `consumeRateLimit` -/

/-- A call that consumes rate limits. -/
abbrev LimitCall (α : Type) := Prog LimitStep LimitStep.Answer (Except ErrorText α)

/-- The first use of a window. -/
def startWindow (input : RateLimitInput) (currentTime : Instant) : LimitCall RateLimitReply :=
  .call .now fun updatedAt =>
    .call (.startWindow (RateLimitRow.first input currentTime updatedAt)) fun _ =>
      .ret (.ok (.allowed 1))

/-- A use within a window. -/
def countUse (input : RateLimitInput) (count : Nat) : LimitCall RateLimitReply :=
  .call .now fun updatedAt =>
    .call (.setCount count updatedAt input.scope input.bucketKey) fun _ =>
      .ret (.ok (.allowed count))

/-- What follows the read of the row and of the clock. -/
def decideLimit (input : RateLimitInput) (current : Option RateLimitRow) (currentTime : Instant) :
    LimitCall RateLimitReply :=
  match current with
  | none => startWindow input currentTime
  | some current =>
    if current.expiresAt ≤ currentTime then startWindow input currentTime
    else if current.count ≥ input.limit then .ret (.ok (.refused current.count current.expiresAt))
    else countUse input (current.count + 1)

/-- `consumeRateLimit(input)` -/
def consumeRateLimit (input : RateLimitInput) : LimitCall RateLimitReply :=
  .call (.selectLimit input.scope input.bucketKey) fun current =>
    .call .now fun currentTime => decideLimit input current currentTime

/-! ## `consumeRateLimits` -/

/-- The write of a batch, to the version that was read. -/
def writeBatch (scope : String) (row : Option RateLimitBatchRow) (nextStates : List RateLimitState)
    (timestamp : Instant) (k : Nat → LimitCall RateLimitBatchReply) :
    LimitCall RateLimitBatchReply :=
  match row with
  | some row => .call (.updateBatch nextStates (row.version + 1) timestamp scope row.version) k
  | none => .call (.insertBatch (RateLimitBatchRow.first scope nextStates timestamp)) k

/-- What follows the decision on the row that was read. -/
def decideBatch (inputs : List RateLimitInput) (row : Option RateLimitBatchRow) (current : Instant)
    (again : LimitCall RateLimitBatchReply) : LimitCall RateLimitBatchReply :=
  match decideRateLimitBatch inputs ((row.map RateLimitBatchRow.state).getD []) current with
  | .rejected counts _ retryAt => .ret (.ok (.refused counts retryAt))
  | .allowed counts nextStates =>
    .call .now fun timestamp =>
      writeBatch (batchScope inputs) row nextStates timestamp fun changes =>
        if changes > 0 then .ret (.ok (.allowed counts)) else again

/-- The loop over the attempts. -/
def attemptBatch (inputs : List RateLimitInput) : Nat → LimitCall RateLimitBatchReply
  | 0 => .ret (.error "rate limit batch contention")
  | attempts + 1 =>
    .call (.selectBatch (batchScope inputs)) fun row =>
      .call .now fun current => decideBatch inputs row current (attemptBatch inputs attempts)

/-- `consumeRateLimits(inputs)` -/
def consumeRateLimits (inputs : List RateLimitInput) : LimitCall RateLimitBatchReply :=
  if inputs.isEmpty then .ret (.ok (.allowed [])) else attemptBatch inputs 5

end D1

end InboxServer
