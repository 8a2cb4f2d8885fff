import InboxServer.Api.Tables
import InboxServer.Domain.IsoDate

/-!
# Candidate alerts

`evaluateThreshold` and `persistCandidateAlerts` of `apps/api/src/operations-readiness.ts`, and the
alerts of `captureMetrics` of `apps/api/src/operations-readiness-postgres-capture.ts`. A metric that
is observed is a finite number. The logs are left out.
-/

namespace InboxServer

open Infra

/-! ## Tables -/

inductive CandidateAlertState where
  | pending | firing | recovered
  deriving DecidableEq

def CandidateAlertState.name : CandidateAlertState → String
  | .pending => "pending"
  | .firing => "firing"
  | .recovered => "recovered"

inductive Comparison where
  | gt | lt
  deriving DecidableEq

/-- A row of `operations_alert_instances`. -/
structure AlertInstanceRow where
  policyKey : String
  comparison : Comparison
  thresholdValue : ℚ
  state : CandidateAlertState
  observedValue : ℚ
  firstObservedAt : Instant
  lastEvaluatedAt : Instant
  lastTransitionAt : Instant
  deploymentVersion : String
  deriving DecidableEq

instance : Constrained AlertInstanceRow where
  conflict a b := a.policyKey = b.policyKey
  conflict_comm a b := by simp only [eq_comm]

theorem AlertInstanceRow.conflict_iff (a b : AlertInstanceRow) :
    Constrained.conflict a b = true ↔ a.policyKey = b.policyKey := decide_eq_true_iff

theorem AlertInstanceRow.isKey_policyKey : Table.IsKey AlertInstanceRow.policyKey := fun a b h =>
  (AlertInstanceRow.conflict_iff a b).mpr h

/-- `ON CONFLICT(policy_key) DO UPDATE SET`, with its two `CASE` expressions. -/
def AlertInstanceRow.rewrite (excluded row : AlertInstanceRow) : AlertInstanceRow :=
  { excluded with
    policyKey := row.policyKey
    firstObservedAt :=
      if row.state = .recovered ∧ excluded.state = .pending then excluded.firstObservedAt
      else row.firstObservedAt
    lastTransitionAt :=
      if row.state ≠ excluded.state then excluded.lastTransitionAt else row.lastTransitionAt }

instance (excluded : AlertInstanceRow) : Table.AddsNoConflict excluded.rewrite := ⟨fun _ _ h => h⟩

/-- A row of `operations_alert_events`. -/
structure AlertEventRow where
  eventKey : String
  policyKey : String
  state : CandidateAlertState
  comparison : Comparison
  thresholdValue : ℚ
  observedValue : ℚ
  occurredAt : Instant
  deploymentVersion : String
  deriving DecidableEq

instance : Constrained AlertEventRow where
  conflict a b := a.eventKey = b.eventKey
  conflict_comm a b := by simp only [eq_comm]

/-- The tables of the alerts. -/
structure AlertDb where
  instances : Table AlertInstanceRow
  events : Table AlertEventRow
  deriving DecidableEq

instance : EmptyCollection AlertDb := ⟨⟨∅, ∅⟩⟩

/-! ## Thresholds -/

structure CandidateThreshold where
  comparison : Comparison
  value : ℚ
  deriving DecidableEq

/-- `candidateThreshold(key)`, which is the same in both files. -/
def candidateThreshold (key : String) : Option CandidateThreshold :=
  [("queue.executable", ⟨Comparison.gt, 100⟩), ("queue.oldest_executable_age_seconds", ⟨.gt, 600⟩),
    ("worker.heartbeat_age_seconds", ⟨.gt, 90⟩), ("dependency.browser.ready", ⟨.lt, 1⟩),
    ("dependency.mihomo.ready", ⟨.lt, 1⟩), ("dependency.warp.ready", ⟨.lt, 1⟩)].lookup key

/-- The value is beyond the threshold. -/
def CandidateThreshold.breached (threshold : CandidateThreshold) (current : ℚ) : Bool :=
  match threshold.comparison with
  | .gt => threshold.value < current
  | .lt => current < threshold.value

structure AlertDecision where
  state : Option CandidateAlertState
  transition : Option CandidateAlertState
  deriving DecidableEq

/-- `evaluateThreshold({ comparison, current, previousState, threshold })` -/
def evaluateThreshold (threshold : CandidateThreshold) (current : ℚ)
    (previousState : Option CandidateAlertState) : AlertDecision :=
  if threshold.breached current then
    match previousState with
    | some .firing => ⟨some .firing, none⟩
    | some .pending => ⟨some .firing, some .firing⟩
    | some .recovered | none => ⟨some .pending, some .pending⟩
  else if previousState = some .firing then ⟨some .recovered, some .recovered⟩
  else ⟨none, none⟩

/-! ## Captures -/

structure CandidateMetric where
  key : String
  sampleCount : Nat
  value : ℚ

/-- What a run of `captureMetrics` has collected, each metric under a key of its own. -/
structure Capture where
  observedAt : Instant
  deploymentVersion : String
  metrics : List CandidateMetric
  nodup : (metrics.map CandidateMetric.key).Nodup

/-- The row of an instance that is written in a state. -/
def alertInstance (capture : Capture) (metric : CandidateMetric) (threshold : CandidateThreshold)
    (state : CandidateAlertState) : AlertInstanceRow where
  policyKey := metric.key
  comparison := threshold.comparison
  thresholdValue := threshold.value
  state
  observedValue := metric.value
  firstObservedAt := capture.observedAt
  lastEvaluatedAt := capture.observedAt
  lastTransitionAt := capture.observedAt
  deploymentVersion := capture.deploymentVersion

/-- The key of an event. -/
def alertEventKey (policyKey : String) (transition : CandidateAlertState) (observedAt : Instant) :
    String :=
  policyKey ++ ":" ++ transition.name ++ ":" ++ toISOString observedAt

/-- The row of an event. -/
def alertEvent (capture : Capture) (metric : CandidateMetric) (threshold : CandidateThreshold)
    (transition : CandidateAlertState) : AlertEventRow where
  eventKey := alertEventKey metric.key transition capture.observedAt
  policyKey := metric.key
  state := transition
  comparison := threshold.comparison
  thresholdValue := threshold.value
  observedValue := metric.value
  occurredAt := capture.observedAt
  deploymentVersion := capture.deploymentVersion

namespace AlertDb

def upsertInstance (row : AlertInstanceRow) (db : AlertDb) : AlertDb :=
  { db with instances := db.instances.upsert row row.rewrite }

def deleteInstance (policyKey : String) (db : AlertDb) : AlertDb :=
  { db with instances := db.instances.delete fun row => row.policyKey = policyKey }

/-- An event whose key is there is left as it is. -/
def insertEvent (event : AlertEventRow) (db : AlertDb) : AlertDb :=
  { db with events := (db.events.insert? event).getD db.events }

end AlertDb

/-! ## On D1 -/

namespace D1

inductive AlertStatement where
  | deleteInstance (policyKey : String)
  | upsertInstance (row : AlertInstanceRow)
  | insertEvent (event : AlertEventRow)

def AlertStatement.run (db : AlertDb) : AlertStatement → AlertDb
  | .deleteInstance policyKey => db.deleteInstance policyKey
  | .upsertInstance row => db.upsertInstance row
  | .insertEvent event => db.insertEvent event

/-- The statements of a metric, by the instances that were there before the batch. -/
def alertStatements (previousByPolicy : String → Option AlertInstanceRow) (capture : Capture)
    (metric : CandidateMetric) : List AlertStatement :=
  match candidateThreshold metric.key with
  | none => []
  | some threshold =>
    if metric.sampleCount = 0 then []
    else
      let previous := previousByPolicy metric.key
      if previous.map AlertInstanceRow.lastEvaluatedAt = some capture.observedAt then []
      else
        let decision :=
          evaluateThreshold threshold metric.value (previous.map AlertInstanceRow.state)
        match decision.state with
        | none => if previous.isSome then [.deleteInstance metric.key] else []
        | some state =>
          .upsertInstance (alertInstance capture metric threshold state) ::
            (decision.transition.map fun transition =>
              AlertStatement.insertEvent (alertEvent capture metric threshold transition)).toList

/-- `persistCandidateAlerts(input)`: one read of the instances, and one batch. -/
def persistCandidateAlerts (db : AlertDb) (capture : Capture) : AlertDb :=
  (capture.metrics.flatMap
    (alertStatements (db.instances.lookup AlertInstanceRow.policyKey) capture)).foldl
      AlertStatement.run db

end D1

/-! ## On PostgreSQL -/

namespace Postgres

/-- The body of the loop over the candidates. -/
def captureAlert (previousByPolicy : String → Option AlertInstanceRow) (capture : Capture)
    (db : AlertDb) (metric : CandidateMetric) : AlertDb :=
  match candidateThreshold metric.key with
  | none => db
  | some threshold =>
    let previous := previousByPolicy metric.key
    if previous.map AlertInstanceRow.lastEvaluatedAt = some capture.observedAt then db
    else
      let decision := evaluateThreshold threshold metric.value (previous.map AlertInstanceRow.state)
      match decision.state with
      | none => if previous.isSome then db.deleteInstance metric.key else db
      | some state =>
        let db := db.upsertInstance (alertInstance capture metric threshold state)
        match decision.transition with
        | none => db
        | some transition => db.insertEvent (alertEvent capture metric threshold transition)

/-- The metrics that are candidates for an alert. -/
def alertCandidates (capture : Capture) : List CandidateMetric :=
  capture.metrics.filter fun metric =>
    metric.sampleCount > 0 && (candidateThreshold metric.key).isSome

/-- The instances of the candidates, under `WHERE policy_key = ANY($1)`. -/
def existingAlerts (capture : Capture) (db : AlertDb) (policyKey : String) :
    Option AlertInstanceRow :=
  (db.instances.rows.filter fun row =>
    ((alertCandidates capture).map CandidateMetric.key).contains row.policyKey).find?
      fun row => row.policyKey = policyKey

/-- The alerts of `captureMetrics()`, in one transaction that has the locks of its candidates. -/
def captureAlerts (db : AlertDb) (capture : Capture) : AlertDb :=
  (alertCandidates capture).foldl (captureAlert (existingAlerts capture db) capture) db

end Postgres

end InboxServer
