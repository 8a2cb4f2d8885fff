import InboxServer.Infra.Contract
import InboxServer.Api.Postgres.Inbox

/-!
# Worker heartbeats, and their cache

`heartbeat-cache.ts`, `recordHeartbeat` of `control-plane-postgres-data.ts`, and what `getOverview`
says of the worker. Instants stand for the texts of `toISOString` that the columns hold.
-/

namespace InboxServer

open Infra

structure WorkerHeartbeat where
  details : String
  lastSeenAt : Instant
  workerId : String
  deriving DecidableEq

instance : Constrained WorkerHeartbeat where
  conflict a b := a.workerId = b.workerId
  conflict_comm a b := by simp only [eq_comm]

/-- `{ last_heartbeat_at, online }` of an overview. -/
structure WorkerStatus where
  lastHeartbeatAt : Option Instant
  online : Bool
  deriving DecidableEq

def maxFutureSkewMs : Int := 30000

def maxHeartbeatAgeMs : Int := 90000

/-- `isFreshHeartbeat(heartbeat, now)` -/
def isFreshHeartbeat (heartbeat : WorkerHeartbeat) (now : Instant) : Bool :=
  heartbeat.workerId ≠ "" && -maxFutureSkewMs ≤ now - heartbeat.lastSeenAt &&
    now - heartbeat.lastSeenAt ≤ maxHeartbeatAgeMs

/-! ## The table -/

/-- The update of `ON CONFLICT (worker_id)`, with its `WHERE`. -/
def WorkerHeartbeat.refresh (excluded row : WorkerHeartbeat) : WorkerHeartbeat :=
  if row.lastSeenAt ≤ excluded.lastSeenAt then
    { row with lastSeenAt := excluded.lastSeenAt, details := excluded.details }
  else row

@[simp] theorem WorkerHeartbeat.refresh_workerId (excluded row : WorkerHeartbeat) :
    (excluded.refresh row).workerId = row.workerId := by
  unfold refresh
  split <;> rfl

instance (excluded : WorkerHeartbeat) : Table.AddsNoConflict excluded.refresh where
  conflict_of a b h := by simpa [Constrained.conflict] using h

/-- `INSERT INTO inbox_server.worker_heartbeats ... ON CONFLICT (worker_id) DO UPDATE` -/
def upsertHeartbeat (heartbeat : WorkerHeartbeat) (heartbeats : Table WorkerHeartbeat) :
    Table WorkerHeartbeat :=
  heartbeats.upsert heartbeat heartbeat.refresh

/-- `ORDER BY last_seen_at::timestamptz DESC, worker_id DESC` -/
def latestFirst (collation : Collation) (a b : WorkerHeartbeat) : Prop :=
  b.lastSeenAt < a.lastSeenAt ∨
    (a.lastSeenAt = b.lastSeenAt ∧ collation.le b.workerId a.workerId = true)

instance (collation : Collation) : DecidableRel (latestFirst collation) := fun _ _ =>
  inferInstanceAs (Decidable (_ ∨ _))

def latestHeartbeat (collation : Collation) (heartbeats : Table WorkerHeartbeat) :
    Option WorkerHeartbeat :=
  (heartbeats.rows.insertionSort (latestFirst collation)).head?

/-! ## The cache -/

/-- What is stored under the key: a heartbeat with its `timestamp_ms`, or what cannot be read. -/
inductive CacheEntry where
  | heartbeat (value : WorkerHeartbeat)
  | unparsable
  deriving DecidableEq

/-- `parseHeartbeat(JSON.parse(result))` -/
def CacheEntry.parse : CacheEntry → Option WorkerHeartbeat
  | heartbeat value => some value
  | unparsable => none

/-- `SET_IF_NEWER_SCRIPT`; texts are compared byte by byte. -/
def setIfNewer (incoming : WorkerHeartbeat) (entry : Option CacheEntry) : CacheEntry :=
  match entry with
  | some (.heartbeat current) =>
    if incoming.lastSeenAt < current.lastSeenAt ∨
        (current.lastSeenAt = incoming.lastSeenAt ∧ incoming.workerId < current.workerId) then
      .heartbeat current
    else .heartbeat incoming
  | some .unparsable | none => .heartbeat incoming

/-! ## The programs -/

/-- The steps of the servers; `nowIso` is the clock by which a heartbeat is dated. -/
inductive HeartbeatStep where
  | now
  | nowIso
  | upsertHeartbeat (heartbeat : WorkerHeartbeat)
  | selectLatest
  | cacheGet
  | cacheSetIfNewer (heartbeat : WorkerHeartbeat)

abbrev HeartbeatStep.Answer : HeartbeatStep → Type
  | now | nowIso => Instant
  | upsertHeartbeat _ | cacheSetIfNewer _ => Except ErrorText Unit
  | selectLatest | cacheGet => Except ErrorText (Option WorkerHeartbeat)

abbrev HeartbeatCall := Prog HeartbeatStep HeartbeatStep.Answer

open Prog (perform)

/-- `cacheFreshHeartbeat(cache, heartbeat, now)` -/
def cacheFreshHeartbeat (hasCache : Bool) (heartbeat : Option WorkerHeartbeat) (now : Instant) :
    HeartbeatCall Unit :=
  match heartbeat with
  | none => return ()
  | some heartbeat =>
    if hasCache && isFreshHeartbeat heartbeat now then do
      let _ ← perform (HeartbeatStep.cacheSetIfNewer heartbeat)
      return ()
    else return ()

/-- `await options.cache?.get() ?? null`, where an error counts as `null`. -/
def cachedHeartbeat (hasCache : Bool) : HeartbeatCall (Option WorkerHeartbeat) :=
  if hasCache then do
    match ← perform HeartbeatStep.cacheGet with
    | .ok cached => return cached
    | .error _ => return none
  else return none

/-- The read of the table, behind the cache. -/
def readTableHeartbeat (hasCache : Bool) (now : Instant) :
    HeartbeatCall (Except ErrorText (Option WorkerHeartbeat)) := do
  match ← perform HeartbeatStep.selectLatest with
  | .error error => return .error error
  | .ok heartbeat =>
    cacheFreshHeartbeat hasCache heartbeat now
    return .ok heartbeat

/-- `readLatestWorkerHeartbeat({ cache, now, pool })` -/
def readLatestWorkerHeartbeat (hasCache : Bool) (now : Instant) :
    HeartbeatCall (Except ErrorText (Option WorkerHeartbeat)) := do
  match ← cachedHeartbeat hasCache with
  | some cached =>
    if isFreshHeartbeat cached now then return .ok (some cached)
    else readTableHeartbeat hasCache now
  | none => readTableHeartbeat hasCache now

/-- `recordHeartbeat(workerId, details)`, its details as a text. -/
def recordHeartbeat (hasCache : Bool) (workerId details : String) :
    HeartbeatCall (Except ErrorText Unit) := do
  let timestamp ← perform HeartbeatStep.nowIso
  match ← perform (HeartbeatStep.upsertHeartbeat ⟨details, timestamp, workerId⟩) with
  | .error error => return .error error
  | .ok () =>
    match ← perform HeartbeatStep.selectLatest with
    | .error error => return .error error
    | .ok heartbeat =>
      let current ← perform HeartbeatStep.now
      cacheFreshHeartbeat hasCache heartbeat current
      return .ok ()

/-- `resolveWorkerHeartbeat(snapshot, lastHeartbeatAt)` -/
def resolveWorkerHeartbeat (snapshot : WorkerStatus) (lastHeartbeatAt : Option Instant) :
    WorkerStatus :=
  match lastHeartbeatAt with
  | none => snapshot
  | some lastHeartbeatAt => ⟨some lastHeartbeatAt, true⟩

/-- What `normalizeOverviewStatus(overview, now, schedulerEnabled)` does to the worker. -/
def normalizeOverviewStatus (worker : WorkerStatus) (now : Instant) : WorkerStatus :=
  { worker with
    online := worker.online && worker.lastHeartbeatAt.any fun heartbeatAt =>
      -30000 ≤ now - heartbeatAt && now - heartbeatAt ≤ 90000 }

/-- `getOverview()`, as far as it is about the worker; `snapshot` is what is stored of it. -/
def getOverview (hasCache : Bool) (snapshot : WorkerStatus) :
    HeartbeatCall (Except ErrorText WorkerStatus) := do
  let readAt ← perform HeartbeatStep.now
  match ← readLatestWorkerHeartbeat hasCache readAt with
  | .error error => return .error error
  | .ok heartbeat =>
    let normalizedAt ← perform HeartbeatStep.now
    return .ok (normalizeOverviewStatus
      (resolveWorkerHeartbeat snapshot (heartbeat.map WorkerHeartbeat.lastSeenAt)) normalizedAt)

inductive HeartbeatRequest where
  | recordHeartbeat (workerId details : String)
  | getOverview (snapshot : WorkerStatus)

inductive HeartbeatReply where
  | recorded
  | overview (worker : WorkerStatus)
  deriving DecidableEq

/-- The program of a request, on a server with a cache or without. -/
def HeartbeatRequest.program (hasCache : Bool) :
    HeartbeatRequest → HeartbeatCall (Except ErrorText HeartbeatReply)
  | recordHeartbeat workerId details => do
    match ← InboxServer.recordHeartbeat hasCache workerId details with
    | .error error => return .error error
    | .ok () => return .ok .recorded
  | getOverview snapshot => do
    match ← InboxServer.getOverview hasCache snapshot with
    | .error error => return .error error
    | .ok worker => return .ok (.overview worker)

/-! ## The shared state -/

/-- The table, the entry of the cache, and the time of the last step. -/
structure HeartbeatStore where
  heartbeats : Table WorkerHeartbeat
  cache : Option CacheEntry
  clock : Instant
  deriving DecidableEq

/-- What befalls the entry of the cache before a step. -/
inductive EntryFate where
  | lives
  | expires
  | corrupted
  deriving DecidableEq

/-- How an operation goes: a lost one does nothing, an unanswered one fails after it was done. -/
inductive OperationFate where
  | answered
  | garbled
  | unanswered
  | lost
  deriving DecidableEq

/-- What is decided at a step: its time, the clock of `nowIso`, and what fails. -/
structure HeartbeatMoment where
  time : Instant
  dated : Instant
  entry : EntryFate
  operation : OperationFate
  deriving DecidableEq

def EntryFate.apply (entry : Option CacheEntry) : EntryFate → Option CacheEntry
  | lives => entry
  | expires => none
  | corrupted => some .unparsable

/-- The answer to an operation that was done. -/
def OperationFate.answer {α : Type} (value : α) : OperationFate → Except ErrorText α
  | answered => .ok value
  | garbled | unanswered | lost => .error "request failed"

/-- The answer to a read of the cache, which may be one that cannot be parsed. -/
def OperationFate.read (entry : Option CacheEntry) :
    OperationFate → Except ErrorText (Option WorkerHeartbeat)
  | answered => .ok (entry.bind CacheEntry.parse)
  | garbled => .ok none
  | unanswered | lost => .error "request failed"

/-- The state that a step meets. -/
def HeartbeatStore.meet (moment : HeartbeatMoment) (store : HeartbeatStore) : HeartbeatStore :=
  { store with cache := moment.entry.apply store.cache, clock := moment.time }

def serveHeartbeats (collation : Collation) (moment : HeartbeatMoment) (store : HeartbeatStore) :
    (c : HeartbeatStep) → HeartbeatStore × c.Answer
  | .now => (store.meet moment, moment.time)
  | .nowIso => (store.meet moment, moment.dated)
  | .upsertHeartbeat heartbeat =>
    let met := store.meet moment
    if moment.operation = .lost then (met, moment.operation.answer ())
    else ({ met with heartbeats := InboxServer.upsertHeartbeat heartbeat met.heartbeats },
      moment.operation.answer ())
  | .selectLatest =>
    (store.meet moment, moment.operation.answer (latestHeartbeat collation store.heartbeats))
  | .cacheGet =>
    (store.meet moment, moment.operation.read (store.meet moment).cache)
  | .cacheSetIfNewer heartbeat =>
    let met := store.meet moment
    if moment.operation = .lost then (met, moment.operation.answer ())
    else ({ met with cache := some (setIfNewer heartbeat met.cache) },
      moment.operation.answer ())

end InboxServer
