import InboxServer.Api.Captures
import InboxServer.Properties.Alerts

/-!
# Alerts and the condition that they stand for

* `recordAlert_active` — an alert that is evaluated is pending or firing only beyond its threshold
* `captureMetrics_truthful` — a capture leaves no alert whose condition has ended exactly where each
  that it finds has a sample to be evaluated by
* `captureRuns_truthful` — the same over any captures
-/

namespace InboxServer

open Infra

/-! ## Policies -/

inductive AlertPolicy where
  | executable
  | oldestExecutable
  | heartbeatAge
  | dependency (component : MonitoredComponent)
  deriving DecidableEq

namespace AlertPolicy

def key : AlertPolicy → String
  | executable => "queue.executable"
  | oldestExecutable => "queue.oldest_executable_age_seconds"
  | heartbeatAge => "worker.heartbeat_age_seconds"
  | dependency component => "dependency." ++ component.name ++ ".ready"

variable (json : JsonParser) (reads : CaptureReads)

/-- The condition of a policy is true of what a capture has read. -/
def Holds : AlertPolicy → Prop
  | executable => 100 < reads.queue.categories.executable
  | oldestExecutable => ∃ age, reads.queue.oldestExecutableAgeSeconds = some age ∧ 600 < age
  | heartbeatAge => ∃ heartbeat, reads.heartbeat = some heartbeat ∧
      90000 < reads.current - heartbeat.lastSeenAt
  | dependency component => reads.componentReady json component = false

/-- A capture has a sample for the policy: there is a message whose age, or a heartbeat whose age,
it can take. -/
def Sampled : AlertPolicy → Prop
  | oldestExecutable => ∃ row ∈ reads.db.inbox, row.executable reads.queueAt = true
  | heartbeatAge => reads.heartbeat.isSome = true
  | executable | dependency _ => True

/-- The metric that the policy is about. -/
def metric (policy : AlertPolicy) : CandidateMetric :=
  match policy with
  | executable => ⟨"queue.executable", 1, reads.queue.categories.executable⟩
  | oldestExecutable => optionalMetric "queue.oldest_executable_age_seconds"
      (reads.queue.oldestExecutableAgeSeconds.map (Int.cast : Int → ℚ))
  | heartbeatAge =>
    { key := "worker.heartbeat_age_seconds"
      sampleCount := if reads.heartbeat.isSome then 1 else 0
      value := reads.heartbeat.elim 86400 fun heartbeat =>
        ageSeconds reads.current heartbeat.lastSeenAt }
  | dependency component => ⟨"dependency." ++ component.name ++ ".ready", 1,
      if reads.componentReady json component then 1 else 0⟩

@[simp] theorem metric_key (policy : AlertPolicy) : (policy.metric json reads).key = policy.key := by
  cases policy <;> rfl

def threshold : AlertPolicy → CandidateThreshold
  | executable => ⟨.gt, 100⟩
  | oldestExecutable => ⟨.gt, 600⟩
  | heartbeatAge => ⟨.gt, 90⟩
  | dependency _ => ⟨.lt, 1⟩

theorem candidateThreshold_key (policy : AlertPolicy) :
    candidateThreshold policy.key = some policy.threshold := by
  cases policy with
  | dependency component => cases component <;> decide
  | _ => decide

theorem metric_mem (policy : AlertPolicy) :
    policy.metric json reads ∈ captureMetricList json reads := by
  cases policy with
  | dependency component => cases component <;> simp [captureMetricList, metric, monitoredComponents]
  | _ => simp [captureMetricList, metric]

end AlertPolicy

/-- The policies are the keys that have a threshold. -/
theorem isCandidate_iff {key : String} :
    IsCandidate key ↔ ∃ policy : AlertPolicy, policy.key = key := by
  constructor
  · intro h
    unfold IsCandidate candidateThreshold at h
    obtain ⟨e, he, hkey⟩ := List.lookup_isSome_iff.mp h
    rw [eq_of_beq hkey]
    simp only [List.mem_cons, List.not_mem_nil, or_false] at he
    rcases he with rfl | rfl | rfl | rfl | rfl | rfl
    · exact ⟨.executable, rfl⟩
    · exact ⟨.oldestExecutable, rfl⟩
    · exact ⟨.heartbeatAge, rfl⟩
    · exact ⟨.dependency .browser, rfl⟩
    · exact ⟨.dependency .mihomo, rfl⟩
    · exact ⟨.dependency .warp, rfl⟩
  · rintro ⟨policy, rfl⟩
    rw [IsCandidate, policy.candidateThreshold_key]
    rfl

/-! ## Samples -/

section Reads

variable {json : JsonParser} {reads : CaptureReads} {policy : AlertPolicy}

/-- The age of the oldest executable message is there exactly where there is such a message. -/
theorem oldestExecutable_isSome (current : Instant) (db : Db) :
    (Postgres.getQueueSummary current db).oldestExecutableAgeSeconds.isSome = true ↔
      ∃ row ∈ db.inbox, row.executable current = true := by
  simp only [Postgres.getQueueSummary, Postgres.oldestExecutableAt, Option.isSome_map,
    List.isSome_min?_iff, ne_eq, List.map_eq_nil_iff, List.filter_eq_nil_iff, not_forall, not_not,
    exists_prop, Table.mem_rows]

theorem sampleCount_pos (json : JsonParser) :
    0 < (policy.metric json reads).sampleCount ↔ policy.Sampled reads := by
  cases policy with
  | oldestExecutable =>
    rw [AlertPolicy.Sampled, ← oldestExecutable_isSome]
    simp only [AlertPolicy.metric, optionalMetric, Option.isSome_map, CaptureReads.queue]
    split
    · next h => exact ⟨fun _ => h, fun _ => Nat.one_pos⟩
    · next h => exact ⟨fun hpos => absurd hpos (lt_irrefl 0), fun hsome => absurd hsome h⟩
  | heartbeatAge =>
    simp only [AlertPolicy.metric, AlertPolicy.Sampled]
    split
    · next h => exact ⟨fun _ => h, fun _ => Nat.one_pos⟩
    · next h => exact ⟨fun hpos => absurd hpos (lt_irrefl 0), fun hsome => absurd hsome h⟩
  | executable | dependency _ => exact ⟨fun _ => trivial, fun _ => Nat.one_pos⟩

/-- The metric of a policy is the only one under its key. -/
theorem eq_metric {metric : CandidateMetric} (hmem : metric ∈ captureMetricList json reads)
    (hkey : metric.key = policy.key) : metric = policy.metric json reads :=
  List.inj_on_of_nodup_map (captureMetricList_nodup json reads) hmem (policy.metric_mem json reads)
    (hkey.trans (policy.metric_key json reads).symm)

/-- A policy with a sample is a candidate. -/
theorem metric_candidate (json : JsonParser) (h : policy.Sampled reads) :
    policy.metric json reads ∈ Postgres.alertCandidates (reads.capture json) := by
  refine List.mem_filter.mpr ⟨policy.metric_mem json reads, ?_⟩
  have hthreshold := policy.candidateThreshold_key
  have hcount := (sampleCount_pos json).mpr h
  simp [hthreshold, hcount]

/-- A policy without one is none. -/
theorem not_candidate (h : ¬ policy.Sampled reads) :
    ∀ metric ∈ Postgres.alertCandidates (reads.capture json), metric.key ≠ policy.key := by
  intro metric hmetric hkey
  obtain ⟨hmem, hcandidate⟩ := List.mem_filter.mp hmetric
  rw [eq_metric hmem hkey] at hcandidate
  rw [Bool.and_eq_true, decide_eq_true_iff, gt_iff_lt, sampleCount_pos] at hcandidate
  exact h hcandidate.1

/-- Where there is no sample, the condition is not true. -/
theorem sampled_of_holds (h : policy.Holds json reads) : policy.Sampled reads := by
  cases policy with
  | oldestExecutable =>
    obtain ⟨age, hage, -⟩ := h
    exact (oldestExecutable_isSome reads.queueAt reads.db).mp (Option.isSome_of_eq_some hage)
  | heartbeatAge =>
    obtain ⟨heartbeat, hheartbeat, -⟩ := h
    exact Option.isSome_of_eq_some hheartbeat
  | executable | dependency _ => exact trivial

/-- A value beyond the threshold is one for which the condition is true. -/
theorem holds_of_breached (hsampled : policy.Sampled reads)
    (h : policy.threshold.breached (policy.metric json reads).value = true) :
    policy.Holds json reads := by
  cases policy with
  | executable =>
    have hcount : (100 : ℚ) < reads.queue.categories.executable := of_decide_eq_true h
    exact_mod_cast hcount
  | oldestExecutable =>
    obtain ⟨age, hage⟩ := Option.isSome_iff_exists.mp
      ((oldestExecutable_isSome reads.queueAt reads.db).mpr hsampled)
    have hold : reads.queue.oldestExecutableAgeSeconds = some age := hage
    have hlt : (600 : ℚ) < (age : ℚ) := by
      simpa [CandidateThreshold.breached, AlertPolicy.threshold, AlertPolicy.metric, optionalMetric,
        hold] using h
    exact ⟨age, hage, by exact_mod_cast hlt⟩
  | heartbeatAge =>
    obtain ⟨heartbeat, hheartbeat⟩ := Option.isSome_iff_exists.mp hsampled
    have hlt : (90 : ℚ) < (ageSeconds reads.current heartbeat.lastSeenAt : ℚ) := by
      simpa [CandidateThreshold.breached, AlertPolicy.threshold, AlertPolicy.metric, hheartbeat]
        using h
    have hseconds : 90 < ageSeconds reads.current heartbeat.lastSeenAt := by exact_mod_cast hlt
    refine ⟨heartbeat, hheartbeat, ?_⟩
    -- whole seconds beyond 90 are at least 91 of them
    have hwhole : 91 ≤ (reads.current - heartbeat.lastSeenAt) / 1000 := by
      rcases lt_max_iff.mp hseconds with hzero | hage
      · exact absurd hzero (by decide)
      · exact Int.add_one_le_iff.mpr hage
    have hms := (Int.le_ediv_iff_mul_le (by norm_num : (0 : Int) < 1000)).mp hwhole
    linarith
  | dependency component =>
    have hlt : (if reads.componentReady json component then 1 else 0 : ℚ) < 1 := of_decide_eq_true h
    unfold AlertPolicy.Holds
    by_contra hready
    rw [Bool.not_eq_false] at hready
    rw [if_pos hready] at hlt
    exact lt_irrefl _ hlt

end Reads

/-! ## One capture -/

/-- A pending or a firing alert. -/
def AlertInstanceRow.Active (row : AlertInstanceRow) : Prop :=
  row.state = .pending ∨ row.state = .firing

/-- An alert that is evaluated is active only if the value is beyond the threshold. -/
theorem recordAlert_active {capture : Capture} {metric : CandidateMetric}
    {threshold : CandidateThreshold} {previous : Option AlertInstanceRow} {row : AlertInstanceRow}
    (hnew : previous.map AlertInstanceRow.lastEvaluatedAt ≠ some capture.observedAt)
    (hrow : (recordAlert capture metric threshold previous).1 = some row) (hactive : row.Active) :
    threshold.breached metric.value = true := by
  by_contra hcalm
  rw [Bool.not_eq_true] at hcalm
  unfold recordAlert evaluateThreshold at hrow
  rw [if_neg hnew, hcalm, if_neg Bool.false_ne_true] at hrow
  -- the only state behind a calm sample is `recovered`
  by_cases hfiring : previous.map AlertInstanceRow.state = some .firing
  · simp only [hfiring, if_true, Option.some.injEq] at hrow
    subst hrow
    cases previous <;> simp [AlertInstanceRow.Active, AlertInstanceRow.rewrite, alertInstance]
      at hactive
  · simp only [hfiring, if_false] at hrow
    cases hrow

section Captures

variable (json : JsonParser) (reads : CaptureReads) (db : AlertDb)

/-- Every policy whose alert is pending or firing has its condition true of what was read. -/
def Truthful : Prop :=
  ∀ policy : AlertPolicy, ∀ row, db.instances.lookup AlertInstanceRow.policyKey policy.key = some row →
    row.Active → policy.Holds json reads

/-- Every policy whose alert is pending or firing has a sample, and where it was evaluated at the
very instant of the capture, its condition is true. -/
def Evaluable : Prop :=
  ∀ policy : AlertPolicy, ∀ row, db.instances.lookup AlertInstanceRow.policyKey policy.key = some row →
    row.Active → policy.Sampled reads ∧
      (row.lastEvaluatedAt = reads.current → policy.Holds json reads)

variable {json reads db}

/-- What a capture does to the alert of a policy that it has a sample of. -/
theorem captureMetrics_sampled (json : JsonParser) (db : AlertDb) {policy : AlertPolicy}
    (h : policy.Sampled reads) :
    (Postgres.captureMetrics json db reads).instances.lookup AlertInstanceRow.policyKey policy.key =
      (recordAlert (reads.capture json) (policy.metric json reads) policy.threshold
        (db.instances.lookup AlertInstanceRow.policyKey policy.key)).1 := by
  have hlookup := captureAlerts_lookup db (metric_candidate json h)
    (by rw [policy.metric_key]; exact policy.candidateThreshold_key)
  rwa [policy.metric_key] at hlookup

/-- The alert of a policy without a sample stays. -/
theorem captureMetrics_unsampled (json : JsonParser) (db : AlertDb) {policy : AlertPolicy}
    (h : ¬ policy.Sampled reads) :
    (Postgres.captureMetrics json db reads).instances.lookup AlertInstanceRow.policyKey policy.key =
      db.instances.lookup AlertInstanceRow.policyKey policy.key :=
  (captureAlerts_idle db (not_candidate h)).1

/-- An alert that was evaluated at the instant of the capture stays. -/
theorem captureMetrics_evaluated {policy : AlertPolicy} {row : AlertInstanceRow}
    (hrow : db.instances.lookup AlertInstanceRow.policyKey policy.key = some row)
    (hlast : row.lastEvaluatedAt = reads.current) :
    (Postgres.captureMetrics json db reads).instances.lookup AlertInstanceRow.policyKey policy.key =
      some row := by
  by_cases hsampled : policy.Sampled reads
  · rw [captureMetrics_sampled json db hsampled, hrow, recordAlert]
    exact congrArg Prod.fst (if_pos (congrArg some hlast))
  · rw [captureMetrics_unsampled json db hsampled, hrow]

/-- **A capture leaves no alert whose condition has ended exactly where it can evaluate each.** -/
theorem captureMetrics_truthful :
    Truthful json reads (Postgres.captureMetrics json db reads) ↔ Evaluable json reads db := by
  constructor
  · intro htrue policy row hrow hactive
    constructor
    · by_contra hsampled
      have hkept := captureMetrics_unsampled json db hsampled
      exact hsampled (sampled_of_holds (htrue policy row (hkept.trans hrow) hactive))
    · intro hlast
      exact htrue policy row (captureMetrics_evaluated hrow hlast) hactive
  · intro hevaluable policy row hrow hactive
    by_cases hsampled : policy.Sampled reads
    · rw [captureMetrics_sampled json db hsampled] at hrow
      by_cases hlast : (db.instances.lookup AlertInstanceRow.policyKey policy.key).map
          AlertInstanceRow.lastEvaluatedAt = some (reads.capture json).observedAt
      · -- the row that was there is left
        rw [recordAlert, if_pos hlast] at hrow
        dsimp only at hrow
        rw [hrow] at hlast
        exact (hevaluable policy row hrow hactive).2 (Option.some.inj hlast)
      · exact holds_of_breached hsampled (recordAlert_active hlast hrow hactive)
    · rw [captureMetrics_unsampled json db hsampled] at hrow
      exact absurd (hevaluable policy row hrow hactive).1 hsampled

end Captures

/-! ## Any captures -/

/-- The alerts after captures. -/
def captureRuns (json : JsonParser) (start : AlertDb) (runs : List CaptureReads) : AlertDb :=
  runs.foldl (Postgres.captureMetrics json) start

theorem captureRuns_snoc (json : JsonParser) (start : AlertDb) (runs : List CaptureReads)
    (reads : CaptureReads) :
    captureRuns json start (runs ++ [reads]) =
      Postgres.captureMetrics json (captureRuns json start runs) reads :=
  List.foldl_concat ..

/-- **After each of any captures, the alerts that are pending or firing are those of conditions that
are true, exactly if each capture can evaluate those that it finds.** -/
theorem captureRuns_truthful (json : JsonParser) (start : AlertDb) (runs : List CaptureReads) :
    (∀ before reads, before ++ [reads] <+: runs →
        Truthful json reads (captureRuns json start (before ++ [reads]))) ↔
      ∀ before reads, before ++ [reads] <+: runs →
        Evaluable json reads (captureRuns json start before) := by
  refine forall_congr' fun before => forall_congr' fun reads => forall_congr' fun _ => ?_
  rw [captureRuns_snoc]
  exact captureMetrics_truthful

namespace DrainedQueue

/-- Every text is `{}`. -/
def json : JsonParser where
  parse text := if text = "\x7b\x7d" then some (.obj []) else none
  number _ := 0
  shorter text inner h := by split at h <;> cases h

/-- A message of eleven minutes ago, that no worker has taken. -/
def waiting : CaptureReads where
  current := 660000
  deploymentVersion := "unknown"
  queueAt := 660000
  db := { Db.empty with inbox := ⟨[InboxRow.staged "message-1" .null 0 0], by simp⟩ }
  heartbeat := none

/-- Ten minutes later it has been handled, and the queue is empty. -/
def drained : CaptureReads where
  current := 1260000
  deploymentVersion := "unknown"
  queueAt := 1260000
  db := Db.empty
  heartbeat := none

theorem waiting_sampled : AlertPolicy.oldestExecutable.Sampled waiting :=
  ⟨_, List.mem_singleton_self _, by decide⟩

theorem drained_unsampled : ¬ AlertPolicy.oldestExecutable.Sampled drained := by
  rintro ⟨row, hrow, -⟩
  exact Table.not_mem_empty hrow

theorem waiting_pending : ∃ row,
    (Postgres.captureMetrics json ∅ waiting).instances.lookup AlertInstanceRow.policyKey
        AlertPolicy.oldestExecutable.key = some row ∧ row.Active := by
  have hage : waiting.queue.oldestExecutableAgeSeconds = some 660 := by decide
  have hbreached : AlertPolicy.oldestExecutable.threshold.breached
      (AlertPolicy.oldestExecutable.metric json waiting).value = true := by
    simp [AlertPolicy.metric, optionalMetric, hage, AlertPolicy.threshold,
      CandidateThreshold.breached]
    norm_num
  rw [captureMetrics_sampled json ∅ waiting_sampled]
  simp only [show (∅ : AlertDb).instances.lookup AlertInstanceRow.policyKey
    AlertPolicy.oldestExecutable.key = none from rfl, recordAlert, evaluateThreshold, hbreached,
    Option.map_none, reduceCtorEq, if_false, if_true, Option.some.injEq, exists_eq_left']
  exact Or.inl rfl

/-- The alert on the age of the oldest message is pending over an empty queue. -/
theorem captureRuns_stale :
    ¬ Truthful json drained (captureRuns json ∅ [waiting, drained]) := by
  intro htrue
  obtain ⟨row, hrow, hactive⟩ := waiting_pending
  have hkept := captureMetrics_unsampled json (Postgres.captureMetrics json ∅ waiting) drained_unsampled
  exact drained_unsampled (sampled_of_holds (htrue .oldestExecutable row (hkept.trans hrow) hactive))

end DrainedQueue

end InboxServer
