import InboxServer.Api.QueueProducer
import InboxServer.Infra.Upsert

/-!
# The import of a legacy snapshot

`apps/api/src/legacy-migration.ts`. A snapshot is what `legacySnapshotSchema.parse` returns. The
tables of D1 are their rows by the unique column that the statements meet them at; the numbers that
SQLite counts rows by are left out. A batch of statements is a transaction: it is done as a whole, or
it fails and nothing is done, as when two `worker_jobs` rows would have one `job_id`.
-/

namespace InboxServer.LegacyImport

open Infra Infra.Upsert

/-! ## The snapshot -/

structure ArticleEventEntry where
  filename : Option String
  occurredAt : String
  reason : Option String
  sourceUrl : String
  status : String
  title : String
  urlFingerprint : String

structure BaselineEntry where
  knownKeys : List String
  source : String

structure CredentialEntry where
  kind : String
  name : String
  /-- `none` for a field that is missing -/
  payload : Option Json
  platform : String

structure DidaSyncStateEntry where
  lastSync : Option String
  savedTitles : List String
  tokenHash : String
  updatedAt : Option String

structure LoginSessionEntry where
  expiresAt : String
  lastError : Option String
  lastUsedAt : Option String
  platform : String
  state : Option Json
  status : String

structure SubscriptionEntry where
  createdAt : String
  currentPeriodEnd : Option String
  id : Int
  plan : Option String
  seats : Int
  status : Option String

structure SyncJobEntry where
  error : Option String
  finishedAt : Option String
  id : String
  startedAt : String
  stats : Fields
  status : String
  triggeredBy : String

structure TelegramOffsetEntry where
  tokenHash : String
  updateId : Int
  updatedAt : Option String

structure DeadLetterEntry where
  attempts : Nat
  createdAt : String
  errorClass : String
  errorMessage : String
  itemKind : ItemKind
  messageId : String
  payloadDigest : String

structure DoneJobEntry where
  completedAt : String
  dedupeKey : String
  itemKind : ItemKind
  jobId : String

structure RateLimitEntry where
  bucketKey : String
  count : Nat
  expiresAt : String
  scope : String

structure LegacySnapshot where
  exportedAt : String
  articleEvents : List ArticleEventEntry
  baselines : List BaselineEntry
  credentials : List CredentialEntry
  didaSyncStates : List DidaSyncStateEntry
  loginSessions : List LoginSessionEntry
  subscriptions : List SubscriptionEntry
  syncJobs : List SyncJobEntry
  telegramOffsets : List TelegramOffsetEntry
  deadLetters : List DeadLetterEntry
  doneJobs : List DoneJobEntry
  pendingJobs : List QueueJob
  rateLimits : List RateLimitEntry

/-! ## The tables -/

/-- The rows that the statements meet, by their unique columns. -/
inductive Key where
  | telegramOffset (botTokenHash : String)
  | workerState (key : String)
  | didaSyncState (tokenHash : String)
  | baseline (source : String)
  | credential (name : String)
  | loginSession (platform : String)
  | syncJob (id : String)
  | articleEvent (urlFingerprint status occurredAt : String)
  | subscription (id : Int)
  | workerJob (dedupeKey : String)
  | deadLetter (jobId : String)
  | rateLimit (scope bucketKey : String)
  deriving DecidableEq

structure TelegramOffset where
  updateId : Int
  updatedAt : String

structure WorkerState where
  value : Json
  updatedAt : String

structure DidaSyncState where
  savedTitles : Json
  lastSync : Option String
  updatedAt : String

structure IncrementalBaseline where
  knownKeys : Json
  updatedAt : String

structure Credential where
  platform : String
  kind : String
  payloadEncrypted : Bytes
  createdAt : String
  updatedAt : String

structure LoginSession where
  storageStateEncrypted : Bytes
  status : String
  expiresAt : String
  lastUsedAt : Option String
  lastError : Option String
  createdAt : String
  updatedAt : String

structure SyncJobRow where
  triggeredBy : String
  status : String
  stats : Json
  startedAt : String
  finishedAt : Option String
  error : Option String

structure ArticleEvent where
  sourceUrl : String
  title : String
  reason : Option String
  filename : Option String

structure Subscription where
  plan : Option String
  status : Option String
  seats : Int
  currentPeriodEnd : Option String
  createdAt : String

structure WorkerJob where
  jobId : String
  kind : String
  itemKind : Option String
  status : String
  attempts : Int
  failureAttempts : Int
  deferralCount : Int
  deferredUntil : Option String
  deferredReason : Option String
  summary : Option Json
  errorClass : Option String
  errorMessage : Option String
  createdAt : String
  updatedAt : String
  finishedAt : Option String

structure DeadLetter where
  dedupeKey : String
  kind : String
  itemKind : Option String
  attempts : Int
  errorClass : String
  errorMessage : String
  payloadDigest : String
  envelopeJobId : Option String
  createdAt : String

structure RateLimit where
  count : Int
  expiresAt : String
  updatedAt : String

abbrev Row : Key → Type
  | .telegramOffset _ => TelegramOffset
  | .workerState _ => WorkerState
  | .didaSyncState _ => DidaSyncState
  | .baseline _ => IncrementalBaseline
  | .credential _ => Credential
  | .loginSession _ => LoginSession
  | .syncJob _ => SyncJobRow
  | .articleEvent .. => ArticleEvent
  | .subscription _ => Subscription
  | .workerJob _ => WorkerJob
  | .deadLetter _ => DeadLetter
  | .rateLimit .. => RateLimit

abbrev Database : Type := Rows Row

abbrev Statement : Type := Insert Row

/-- The columns of a row that `ON CONFLICT DO UPDATE` sets; the others stay. -/
def overwriteRow : (key : Key) → Row key → Row key → Row key
  | .credential _, old, new => { new with createdAt := old.createdAt }
  | .loginSession _, old, new => { new with createdAt := old.createdAt }
  | .syncJob _, old, new => { new with triggeredBy := old.triggeredBy, startedAt := old.startedAt }
  | .subscription _, old, new => { new with createdAt := old.createdAt }
  | .telegramOffset _, _, new => new
  | .workerState _, _, new => new
  | .didaSyncState _, _, new => new
  | .baseline _, _, new => new
  | .articleEvent .., _, new => new
  | .workerJob _, _, new => new
  | .deadLetter _, _, new => new
  | .rateLimit .., _, new => new

instance : Overwrites Row where
  overwrite := overwriteRow
  overwrite_overwrite key r a b := by cases key <;> rfl
  overwrite_self key r := by cases key <;> rfl

/-- `INSERT ... ON CONFLICT DO UPDATE` -/
def upsert (key : Key) (row : Row key) : Statement := ⟨key, row, false⟩

/-- `INSERT OR IGNORE`, or `INSERT ... ON CONFLICT DO NOTHING` -/
def insertOrIgnore (key : Key) (row : Row key) : Statement := ⟨key, row, true⟩

/-! ## The statements of a snapshot -/

/-- `credential-crypto.ts`: AES-GCM under the key of the deployment. -/
structure Cipher where
  /-- The envelope of a text under an IV; the key may not be one. -/
  encrypt : Bytes → String → Except ErrorText Bytes
  /-- The text of an envelope. -/
  decrypt : Bytes → Option String

structure Cipher.Lawful (cipher : Cipher) : Prop where
  decrypt_encrypt : ∀ iv text envelope, cipher.encrypt iv text = .ok envelope →
    cipher.decrypt envelope = some text

/-- `encryptJson(value, encodedKey)`; nothing is encoded for a value that is missing. -/
def encryptJson (cipher : Cipher) (iv : Bytes) (value : Option Json) : Except ErrorText Bytes :=
  cipher.encrypt iv (value.elim "" Json.stringify)

/-- `text.slice(0, 16)` -/
def slice16 (text : String) : String := String.ofList (sliceUnits 16 text.toList)

def jsonTexts (texts : List String) : Json := .arr (texts.map .str)

def telegramOffsetStatements (exportedAt : String) (row : TelegramOffsetEntry) : List Statement :=
  let updatedAt := row.updatedAt.getD exportedAt
  [ upsert (.telegramOffset row.tokenHash) { updateId := row.updateId, updatedAt },
    upsert (.workerState ("telegram:offset:" ++ slice16 row.tokenHash))
      { value := .obj [("offset", .num (toString row.updateId))], updatedAt } ]

def didaSyncStateStatements (exportedAt : String) (row : DidaSyncStateEntry) : List Statement :=
  let updatedAt := row.updatedAt.getD exportedAt
  [ upsert (.didaSyncState row.tokenHash)
      { savedTitles := jsonTexts row.savedTitles, lastSync := row.lastSync, updatedAt },
    upsert (.workerState ("dida:saved:" ++ slice16 row.tokenHash))
      { value := .obj [("savedTitles", jsonTexts row.savedTitles)], updatedAt } ]

def baselineStatements (exportedAt : String) (row : BaselineEntry) : List Statement :=
  [ upsert (.baseline row.source) { knownKeys := jsonTexts row.knownKeys, updatedAt := exportedAt },
    upsert (.workerState ("baseline:" ++ row.source))
      { value := .obj [("knownKeys", jsonTexts row.knownKeys)], updatedAt := exportedAt } ]

def credentialStatement (cipher : Cipher) (exportedAt : String) (iv : Bytes) (row : CredentialEntry) :
    Except ErrorText Statement :=
  (encryptJson cipher iv row.payload).map fun payloadEncrypted =>
    upsert (.credential row.name)
      { platform := row.platform, kind := row.kind, payloadEncrypted, createdAt := exportedAt
        updatedAt := exportedAt }

def loginSessionStatement (cipher : Cipher) (exportedAt : String) (iv : Bytes)
    (row : LoginSessionEntry) : Except ErrorText Statement :=
  (encryptJson cipher iv row.state).map fun storageStateEncrypted =>
    upsert (.loginSession row.platform)
      { storageStateEncrypted, status := row.status, expiresAt := row.expiresAt
        lastUsedAt := row.lastUsedAt, lastError := row.lastError, createdAt := exportedAt
        updatedAt := exportedAt }

def syncJobStatement (row : SyncJobEntry) : Statement :=
  upsert (.syncJob row.id)
    { triggeredBy := row.triggeredBy, status := row.status, stats := .obj row.stats
      startedAt := row.startedAt, finishedAt := row.finishedAt, error := row.error }

def articleEventStatement (row : ArticleEventEntry) : Statement :=
  insertOrIgnore (.articleEvent row.urlFingerprint row.status row.occurredAt)
    { sourceUrl := row.sourceUrl, title := row.title, reason := row.reason, filename := row.filename }

def subscriptionStatement (row : SubscriptionEntry) : Statement :=
  upsert (.subscription row.id)
    { plan := row.plan, status := row.status, seats := row.seats
      currentPeriodEnd := row.currentPeriodEnd, createdAt := row.createdAt }

def doneJobStatement (row : DoneJobEntry) : Statement :=
  insertOrIgnore (.workerJob row.dedupeKey)
    { jobId := row.jobId, kind := "dispatch-item", itemKind := some row.itemKind.name
      status := "done", attempts := 1, failureAttempts := 0, deferralCount := 0
      deferredUntil := none, deferredReason := none, summary := some (.obj []), errorClass := none
      errorMessage := none, createdAt := row.completedAt, updatedAt := row.completedAt
      finishedAt := some row.completedAt }

def deadLetterStatement (row : DeadLetterEntry) : Statement :=
  insertOrIgnore (.deadLetter row.messageId)
    { dedupeKey := "legacy-dead:" ++ row.messageId, kind := "dispatch-item"
      itemKind := some row.itemKind.name, attempts := row.attempts, errorClass := row.errorClass
      errorMessage := row.errorMessage, payloadDigest := row.payloadDigest, envelopeJobId := none
      createdAt := row.createdAt }

def rateLimitStatement (exportedAt : String) (row : RateLimitEntry) : Statement :=
  upsert (.rateLimit row.scope row.bucketKey)
    { count := row.count, expiresAt := row.expiresAt, updatedAt := exportedAt }

/--
The statements that `importSnapshot` adds, in order. `ivs` are the random IVs, the first ones for the
credentials.
-/
def snapshotStatements (cipher : Cipher) (ivs : Nat → Bytes) (snapshot : LegacySnapshot) :
    Except ErrorText (List Statement) := do
  let credentials ← snapshot.credentials.zipIdx.mapM fun row =>
    credentialStatement cipher snapshot.exportedAt (ivs row.2) row.1
  let loginSessions ← (snapshot.loginSessions.zipIdx snapshot.credentials.length).mapM fun row =>
    loginSessionStatement cipher snapshot.exportedAt (ivs row.2) row.1
  return snapshot.telegramOffsets.flatMap (telegramOffsetStatements snapshot.exportedAt) ++
    snapshot.didaSyncStates.flatMap (didaSyncStateStatements snapshot.exportedAt) ++
    snapshot.baselines.flatMap (baselineStatements snapshot.exportedAt) ++
    credentials ++ loginSessions ++
    snapshot.syncJobs.map syncJobStatement ++
    snapshot.articleEvents.map articleEventStatement ++
    snapshot.subscriptions.map subscriptionStatement ++
    snapshot.doneJobs.map doneJobStatement ++
    snapshot.deadLetters.map deadLetterStatement ++
    snapshot.rateLimits.map (rateLimitStatement snapshot.exportedAt)

/-! ## The import -/

inductive ImportCall where
  /-- `database.batch(statements)` -/
  | batch (statements : List Statement)
  /-- `SELECT 1 AS found FROM worker_state WHERE key = ?` -/
  | found (key : String)
  /-- `queue.sendBatch(batch)` -/
  | send (call : SendBatch)
  /-- `SELECT COUNT(*) AS count FROM table` -/
  | count (table : String)

abbrev ImportCall.Answer : ImportCall → Type
  | .batch _ => Except ErrorText Unit
  | .found _ => Except ErrorText Bool
  | .send _ => Except ErrorText Unit
  | .count _ => Except ErrorText Nat

abbrev Importing (α : Type) := Prog ImportCall ImportCall.Answer (Except ErrorText α)

abbrev ImportEvent := Event ImportCall ImportCall.Answer

/-- `statements.slice(index, index + 100)` for every `index` of the loop. -/
def batchesOf (statements : List Statement) : Nat → List (List Statement)
  | 0 => []
  | fuel + 1 =>
    if statements = [] then []
    else statements.take 100 :: batchesOf (statements.drop 100) fuel

def sendBatches : List (List Statement) → Importing Unit
  | [] => .ret (.ok ())
  | batch :: batches => .call (.batch batch) fun
    | .error e => .ret (.error e)
    | .ok () => sendBatches batches

/-- `batchStatements(database, statements)` -/
def batchStatements (statements : List Statement) : Importing Unit :=
  sendBatches (batchesOf statements statements.length)

/-- The key of the marker of a job. -/
def markerKey (jobId : String) : String := "migration:pending:" ++ jobId

/-- The jobs without a marker. -/
def findPending : List QueueJob → Importing (List QueueJob)
  | [] => .ret (.ok [])
  | job :: jobs => .call (.found (markerKey job.jobId)) fun
    | .error e => .ret (.error e)
    | .ok existing => (findPending jobs).andThen fun pending =>
      .ret (.ok (if existing then pending else job :: pending))

/-- The producer, as a part of the import. -/
def onQueue : Producing → Importing Unit
  | .ret result => .ret result
  | .call c k => .call (.send c) fun answer => onQueue (k answer)

def markerStatement (updatedAt : String) (job : QueueJob) : Statement :=
  insertOrIgnore (.workerState (markerKey job.jobId)) { value := .obj [], updatedAt }

/-- `publishPendingOnce(database, producer, jobs, updatedAt)` -/
def publishPendingOnce (zod : Zod) (jobs : List QueueJob) (updatedAt : String) : Importing Nat :=
  (findPending jobs).andThen fun pending =>
    if pending.length = 0 then .ret (.ok 0)
    else
      (onQueue (queueSendBatch zod (pending.map QueueJob.toJson))).andThen fun _ =>
        (batchStatements (pending.map (markerStatement updatedAt))).andThen fun _ =>
          .ret (.ok pending.length)

/-- `snapshotCounts(snapshot)` -/
def snapshotCounts (snapshot : LegacySnapshot) : Entries Nat :=
  [ ("articleEvents", snapshot.articleEvents.length), ("baselines", snapshot.baselines.length),
    ("credentials", snapshot.credentials.length), ("deadLetters", snapshot.deadLetters.length),
    ("didaSyncStates", snapshot.didaSyncStates.length), ("doneJobs", snapshot.doneJobs.length),
    ("loginSessions", snapshot.loginSessions.length), ("pendingJobs", snapshot.pendingJobs.length),
    ("rateLimits", snapshot.rateLimits.length), ("subscriptions", snapshot.subscriptions.length),
    ("syncJobs", snapshot.syncJobs.length), ("telegramOffsets", snapshot.telegramOffsets.length) ]

def countTables : List String → Importing (Entries Nat)
  | [] => .ret (.ok [])
  | table :: tables => .call (.count table) fun
    | .error e => .ret (.error e)
    | .ok count => (countTables tables).andThen fun counts => .ret (.ok ((table, count) :: counts))

/-- `databaseCounts(database)` -/
def databaseCounts : Importing (Entries Nat) :=
  countTables ["article_archive_events", "credentials", "dida_sync_states", "incremental_baselines",
    "login_sessions", "subscriptions", "sync_jobs", "telegram_offsets", "worker_dead_letters",
    "worker_inbox", "worker_jobs", "worker_rate_limits", "worker_state"]

structure ImportReport where
  imported : Entries Nat
  publishedPendingJobs : Nat
  totals : Entries Nat
  deriving DecidableEq

/-- `importSnapshot(input)`, from the snapshot on. -/
def importSnapshot (zod : Zod) (cipher : Cipher) (ivs : Nat → Bytes) (snapshot : LegacySnapshot) :
    Importing ImportReport :=
  match snapshotStatements cipher ivs snapshot with
  | .error e => .ret (.error e)
  | .ok statements =>
    (batchStatements statements).andThen fun _ =>
      (publishPendingOnce zod snapshot.pendingJobs snapshot.exportedAt).andThen fun published =>
        databaseCounts.andThen fun totals =>
          .ret (.ok { imported := snapshotCounts snapshot, publishedPendingJobs := published, totals })

/-! ## What the calls do -/

/-- The database, and the jobs that were put in the queue. -/
structure World where
  database : Database
  queue : List QueueJob

/-- An answered call; one that fails does nothing. -/
def World.after (w : World) : ImportEvent → World
  | ⟨.batch statements, .ok ()⟩ => { w with database := execute statements w.database }
  | ⟨.send c, .ok ()⟩ => { w with queue := w.queue ++ c.batch }
  | _ => w

def World.afterAll (w : World) (trace : List ImportEvent) : World := trace.foldl World.after w

/-- A read that succeeds tells whether the row is there. -/
def World.Answers (w : World) : ImportEvent → Prop
  | ⟨.found key, .ok existing⟩ => existing = (w.database (.workerState key)).isSome
  | _ => True

/-- The calls are answered by the world as it is when they are made. -/
def World.Serves : World → List ImportEvent → Prop
  | _, [] => True
  | w, e :: trace => w.Answers e ∧ (w.after e).Serves trace

/-- One import: what is imported, the calls with their answers, and the result. -/
structure ImportRun where
  ivs : Nat → Bytes
  snapshot : LegacySnapshot
  trace : List ImportEvent
  result : Except ErrorText ImportReport

/-- The import runs like that, from a world. -/
structure ImportRun.From (run : ImportRun) (zod : Zod) (cipher : Cipher) (w : World) : Prop where
  runs : (importSnapshot zod cipher run.ivs run.snapshot).Runs run.trace run.result
  served : w.Serves run.trace

/-- Imports one after the other. -/
def ImportsFrom (zod : Zod) (cipher : Cipher) : World → List ImportRun → Prop
  | _, [] => True
  | w, run :: runs => run.From zod cipher w ∧ ImportsFrom zod cipher (w.afterAll run.trace) runs

/-- The world after imports. -/
def World.afterRuns (w : World) (runs : List ImportRun) : World :=
  runs.foldl (fun w run => w.afterAll run.trace) w

end InboxServer.LegacyImport
