import InboxServer.Api.Alerts
import InboxServer.Api.Heartbeats
import InboxServer.Api.Postgres.Readiness

/-!
# Captures of metrics on PostgreSQL

`captureMetrics` of `apps/api/src/operations-readiness-postgres-capture.ts`, with the queue summary
that it reads. The samples of metrics and of retention are tables that no alert reads, and are left
out.
-/

namespace InboxServer

open Infra

/-! ## Details of a heartbeat -/

/-- `JSON.parse`. A text that is written in a text is shorter than it, by its quotes at least. -/
structure JsonParser where
  parse : String → Option Json
  number : String → ℚ
  shorter : ∀ text inner, parse text = some (.str inner) → inner.length < text.length

/-- `parseJsonRecord(text)`, which reads a text in the text as well. -/
def parseJsonText (json : JsonParser) (text : String) : Fields :=
  match _read : json.parse text with
  | some (.str inner) => parseJsonText json inner
  | some (.obj fields) => fields
  | _ => []
termination_by text.length
decreasing_by exact json.shorter _ _ ‹_›

/-- `parseJsonRecord(value)` -/
def parseJsonRecord (json : JsonParser) : Option Json → Fields
  | some (.str text) => parseJsonText json text
  | some (.obj fields) => fields
  | _ => []

/-- The number of a field, where it has one. -/
def numberField (json : JsonParser) (fields : Fields) (name : String) : Option ℚ :=
  match fields.lookup name with
  | some (.num text) => some (json.number text)
  | _ => none

/-! ## The queue -/

structure QueueCategories where
  deferred : Nat
  executable : Nat
  nonExecutable : Nat
  processing : Nat

structure QueueReadinessSummary where
  categories : QueueCategories
  earliestDeferredAt : Option Instant
  freezeAt : Instant
  jobStatusCounts : JobStatus → Nat
  oldestExecutableAgeSeconds : Option Int

/-- `status = 'queued' AND available_at <= $1` -/
def InboxRow.executable (current : Instant) (row : InboxRow) : Bool :=
  row.status = .queued && row.availableAt ≤ current

/-- `status = 'queued' AND available_at > $1` -/
def InboxRow.deferred (current : Instant) (row : InboxRow) : Bool :=
  row.status = .queued && current < row.availableAt

/-- `Math.max(0, Math.floor((current.getTime() - Date.parse(at)) / 1_000))` -/
def ageSeconds (current at' : Instant) : Int := max 0 ((current - at') / 1000)

namespace Postgres

def oldestExecutableAt (current : Instant) (db : Db) : Option Instant :=
  ((db.inbox.rows.filter (InboxRow.executable current)).map InboxRow.createdAt).min?

/-- `getQueueSummary()`, at the instant `current`. -/
def getQueueSummary (current : Instant) (db : Db) : QueueReadinessSummary where
  categories := {
    deferred := db.inbox.rows.countP (InboxRow.deferred current)
    executable := db.inbox.rows.countP (InboxRow.executable current)
    nonExecutable := (db.jobs.rows.countP fun job => job.status = .dead) +
      db.jobs.rows.countP fun job => job.status = .uncertain
    processing := db.inbox.rows.countP fun row => row.status = .leased }
  earliestDeferredAt :=
    ((db.inbox.rows.filter (InboxRow.deferred current)).map InboxRow.availableAt).min?
  freezeAt := current
  jobStatusCounts status := db.jobs.rows.countP fun job => job.status = status
  oldestExecutableAgeSeconds := (oldestExecutableAt current db).map (ageSeconds current)

end Postgres

/-! ## Metrics -/

inductive MonitoredComponent where
  | browser | mihomo | warp
  deriving DecidableEq

def MonitoredComponent.name : MonitoredComponent → String
  | .browser => "browser"
  | .mihomo => "mihomo"
  | .warp => "warp"

def monitoredComponents : List MonitoredComponent := [.browser, .mihomo, .warp]

/-- What a run of `captureMetrics` reads, at its own instant and at that of the summary. -/
structure CaptureReads where
  current : Instant
  deploymentVersion : String
  queueAt : Instant
  db : Db
  /-- The row with the latest `last_seen_at`. -/
  heartbeat : Option WorkerHeartbeat

namespace CaptureReads

variable (json : JsonParser) (reads : CaptureReads)

def queue : QueueReadinessSummary := Postgres.getQueueSummary reads.queueAt reads.db

def details : Fields :=
  parseJsonRecord json (reads.heartbeat.map fun heartbeat => .str heartbeat.details)

/-- `parseJsonRecord(components[component]).state === "ready"` -/
def componentReady (component : MonitoredComponent) : Bool :=
  (parseJsonRecord json ((parseJsonRecord json ((reads.details json).lookup "components")).lookup
    component.name)).lookup "state" = some (.str "ready")

end CaptureReads

/-- A metric that has a sample where its value is there. -/
def optionalMetric (key : String) (value : Option ℚ) : CandidateMetric where
  key
  sampleCount := if value.isSome then 1 else 0
  value := value.getD 0

/-- `metricCounters(prefix, source, names)` -/
def metricCounters (json : JsonParser) (family : String) (source : Fields)
    (names : List (String × String)) : List CandidateMetric :=
  names.map fun name => optionalMetric (family ++ "." ++ name.2) (numberField json source name.1)

/-- The statuses in the order of the keys of a `jsonb`. -/
def JobStatus.all : List JobStatus := [.dead, .done, .failed, .deferred, .uncertain, .processing]

/-- The names of the counters of `details.metrics.articleExtraction`. -/
def articleExtractionNames : List (String × String) :=
  [("browserSucceeded", "browser_succeeded"), ("directRejected", "direct_rejected"),
    ("directSucceeded", "direct_succeeded"), ("failed", "failed")]

/-- The names of the counters of `details.metrics.jobResults`. -/
def jobResultNames : List (String × String) :=
  [("deadLettered", "dead_lettered"), ("deferred", "deferred"),
    ("retryableFailed", "retryable_failed"), ("succeeded", "succeeded"),
    ("uncertain", "uncertain")]

/-- The statuses that a job of the summary has. -/
def countedStatuses (queue : QueueReadinessSummary) : List JobStatus :=
  JobStatus.all.filter fun status => 0 < queue.jobStatusCounts status

/-- The `metrics` of `captureMetrics()`. -/
def captureMetricList (json : JsonParser) (reads : CaptureReads) : List CandidateMetric :=
  let queue := reads.queue
  let details := reads.details json
  let runtimeMetrics := parseJsonRecord json (details.lookup "metrics")
  [⟨"api.availability", 1, 1⟩,
    { key := "worker.heartbeat_age_seconds"
      sampleCount := if reads.heartbeat.isSome then 1 else 0
      value := reads.heartbeat.elim 86400 fun heartbeat =>
        ageSeconds reads.current heartbeat.lastSeenAt },
    ⟨"queue.executable", 1, queue.categories.executable⟩,
    ⟨"queue.deferred", 1, queue.categories.deferred⟩,
    optionalMetric "queue.oldest_executable_age_seconds"
      (queue.oldestExecutableAgeSeconds.map (Int.cast : Int → ℚ)),
    optionalMetric "worker.backlog" (numberField json details "backlogCount")] ++
  (monitoredComponents.map fun component =>
    ⟨"dependency." ++ component.name ++ ".ready", 1,
      if reads.componentReady json component then 1 else 0⟩) ++
  ((countedStatuses queue).map fun status =>
    ⟨"job.result." ++ status.name, 1, queue.jobStatusCounts status⟩) ++
  metricCounters json "article.extraction"
    (parseJsonRecord json (runtimeMetrics.lookup "articleExtraction")) articleExtractionNames ++
  metricCounters json "worker.job" (parseJsonRecord json (runtimeMetrics.lookup "jobResults"))
    jobResultNames

/-- The keys of the metrics, by the statuses that have a job. -/
def captureMetricKeys (statuses : List JobStatus) : List String :=
  ["api.availability", "worker.heartbeat_age_seconds", "queue.executable", "queue.deferred",
    "queue.oldest_executable_age_seconds", "worker.backlog", "dependency.browser.ready",
    "dependency.mihomo.ready", "dependency.warp.ready"] ++
  (statuses.map fun status => "job.result." ++ status.name) ++
  articleExtractionNames.map (fun name => "article.extraction" ++ "." ++ name.2) ++
  jobResultNames.map fun name => "worker.job" ++ "." ++ name.2

theorem captureMetricList_keys (json : JsonParser) (reads : CaptureReads) :
    (captureMetricList json reads).map CandidateMetric.key =
      captureMetricKeys (countedStatuses reads.queue) := by
  simp only [captureMetricList, captureMetricKeys, List.map_append, metricCounters, List.map_map]
  rfl

theorem captureMetricList_nodup (json : JsonParser) (reads : CaptureReads) :
    ((captureMetricList json reads).map CandidateMetric.key).Nodup := by
  have hall : (captureMetricKeys JobStatus.all).Nodup := by decide +kernel
  rw [captureMetricList_keys]
  have hstatuses : (countedStatuses reads.queue).Sublist JobStatus.all := List.filter_sublist
  refine hall.sublist ?_
  unfold captureMetricKeys
  exact (((List.Sublist.refl _).append (hstatuses.map _)).append (List.Sublist.refl _)).append
    (List.Sublist.refl _)

/-- What a run has collected. -/
def CaptureReads.capture (json : JsonParser) (reads : CaptureReads) : Capture where
  observedAt := reads.current
  deploymentVersion := reads.deploymentVersion
  metrics := captureMetricList json reads
  nodup := captureMetricList_nodup json reads

namespace Postgres

/-- The alerts after `captureMetrics()`. -/
def captureMetrics (json : JsonParser) (db : AlertDb) (reads : CaptureReads) : AlertDb :=
  captureAlerts db (reads.capture json)

end Postgres

end InboxServer
